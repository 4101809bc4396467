/-
# Policies: what `buckets_s3_handler` makes of "readonly"

A credential has a policy: `readwrite`, `readonly` or `writeonly`.  The store keeps it, prints it
and returns it (`getPolicy`), and the handler NEVER ASKS: once the signature is right, the request
goes where its method, path and query send it.  A key for reading can do everything.

* `Layer` -- a storage layer: any state, with operations that read and operations that change it;
* `S3Request.AsksForChange`, `RpcAsksForChange` -- the requests that ask for a change;
* `dispatch_changes_iff` -- they are the ones that reach an operation of the second kind;
* `readonly_keeps_iff` -- so the stored state is safe from a `readonly` key exactly if the request
  does not ask for a change.
-/
import Buckets.Credentials
import Buckets.S3Server

namespace Buckets.ReadonlyPolicy

open CStr Credentials

/-! ## 1. Operations that change the stored state -/

/-- The operations on objects, buckets, the versioning status and multipart uploads that change
something. -/
def changes : S3Op → Bool
  | .uploadPart => true
  | .putObject => true
  | .putBucketVersioning => true
  | .putBucket => true
  | .abortMultipartUpload => true
  | .deleteObject => true
  | .deleteBucket => true
  | .initiateMultipartUpload => true
  | .completeMultipartUpload => true
  | _ => false

/-- The methods that `buckets_distributed_rpc_init` registers. -/
inductive RpcMethod where
  | writeChunk
  | readChunk
  | writeXlMeta
  | readXlMeta
  | deleteChunk
  | listObjects
  | createBucketDir
  deriving DecidableEq, Repr

namespace RpcMethod

def all : List RpcMethod :=
  [writeChunk, readChunk, writeXlMeta, readXlMeta, deleteChunk, listObjects, createBucketDir]

def name : RpcMethod → CString
  | writeChunk => cstr "storage.writeChunk"
  | readChunk => cstr "storage.readChunk"
  | writeXlMeta => cstr "storage.writeXlMeta"
  | readXlMeta => cstr "storage.readXlMeta"
  | deleteChunk => cstr "storage.deleteChunk"
  | listObjects => cstr "storage.listObjects"
  | createBucketDir => cstr "storage.createBucketDir"

def changes : RpcMethod → Bool
  | writeChunk => true
  | writeXlMeta => true
  | deleteChunk => true
  | createBucketDir => true
  | _ => false

end RpcMethod

/-- `buckets_rpc_http_handler` up to the call of a handler: which one, if it gets there.  `parse` is
`cJSON_ParseWithLength`; `ready` says whether there is an RPC context. -/
def rpcHttpHandler (parse : Bytes → Option Json) (ready : Bool) (httpReq : HttpRequest) :
    Option RpcMethod :=
  if httpReq.method ≠ cstr "POST" then none
  else if !ready then none
  else if httpReq.body.length = 0 then none
  else
    match parse httpReq.body with
    | none => none
    | some json =>
      match json.stringItem (cstr "method") with
      | none => none
      | some method =>
        if (json.getObjectItem (cstr "params")).isNone then none
        else RpcMethod.all.find? fun registered => registered.name == method

/-! ## 2. The handler -/

/-- **A storage layer** over states of any kind.  What reads does not change the state. -/
structure Layer (State : Type) where
  operate : State → S3Request → S3Op → State
  rpc : State → HttpRequest → RpcMethod → State
  operate_reads : ∀ state req op, changes op = false → operate state req op = state
  rpc_reads : ∀ state httpReq method, method.changes = false → rpc state httpReq method = state

/-- What the handler is built on. -/
structure Env where
  crypto : Crypto
  parse : Bytes → Option Json
  ready : Bool
  /-- `g_credentials`. -/
  credentials : List Credential

/-- `buckets_s3_get_secret_key`. -/
def s3GetSecretKey (creds : List Credential) (accessKey : CString) : Option CString :=
  (getSecret creds (some accessKey) (some 128)).toOption

/-- What a request makes the handler do to the storage layer. -/
inductive Performed where
  | nothing
  | operation (req : S3Request) (op : S3Op)
  | rpc (method : RpcMethod)
  deriving DecidableEq

/-- The operation is one that changes the stored state. -/
def Performed.changes : Performed → Bool
  | .nothing => false
  | .operation _ op => ReadonlyPolicy.changes op
  | .rpc method => method.changes

/-- `buckets_s3_handler` with authentication enabled. -/
def s3Handler (env : Env) (httpReq : HttpRequest) : Performed :=
  if httpReq.uri = cstr "/health" then .nothing
  else if httpReq.uri = cstr "/rpc" then
    match rpcHttpHandler env.parse env.ready httpReq with
    | none => .nothing
    | some method => .rpc method
  else
    match s3ParseRequest httpReq with
    | none => .nothing
    | some req =>
      if s3VerifySignature env.crypto (s3GetSecretKey env.credentials) req = .ok then
        .operation req req.dispatch
      else .nothing

/-- The stored state afterwards. -/
def Layer.after {State : Type} (layer : Layer State) (state : State) (httpReq : HttpRequest) :
    Performed → State
  | .nothing => state
  | .operation req op => layer.operate state req op
  | .rpc method => layer.rpc state httpReq method

/-! ## 3. Requests that ask for a change -/

/-- **Asking for a change**: a PUT or a DELETE that names a bucket, or a POST that names an object
and starts or completes an upload. -/
def AsksForChange (req : S3Request) : Prop :=
  (req.httpReq.method = cstr "PUT" ∧ req.namesBucket = true) ∨
    (req.httpReq.method = cstr "DELETE" ∧ req.namesBucket = true) ∨
    (req.httpReq.method = cstr "POST" ∧ req.namesObject = true ∧
      (req.hasQueryParam "uploads" = true ∨ req.hasQueryParam "uploadId" = true))

/-- The same among nodes: an RPC that writes or deletes. -/
def RpcAsksForChange (env : Env) (httpReq : HttpRequest) : Prop :=
  ∃ method, rpcHttpHandler env.parse env.ready httpReq = some method ∧ method.changes = true

theorem namesBucket_of_namesObject {req : S3Request} (h : req.namesObject = true) :
    req.namesBucket = true :=
  decide_eq_true (of_decide_eq_true h).1

theorem changes_dispatchPut (req : S3Request) :
    changes req.dispatchPut = true ↔ req.namesBucket = true := by
  unfold S3Request.dispatchPut
  split
  · rename_i h
    rw [namesBucket_of_namesObject h]
    split
    · exact iff_of_true rfl rfl
    · exact iff_of_true rfl rfl
  · split
    · rename_i h
      split
      · exact iff_of_true rfl h
      · exact iff_of_true rfl h
    · rename_i h
      exact iff_of_false Bool.false_ne_true h

theorem changes_dispatchGet (req : S3Request) : changes req.dispatchGet = false := by
  unfold S3Request.dispatchGet
  split
  · split
    · rfl
    · split <;> rfl
  · split
    · split
      · rfl
      · split
        · rfl
        · split
          · rfl
          · split <;> rfl
    · rfl

theorem changes_dispatchDelete (req : S3Request) :
    changes req.dispatchDelete = true ↔ req.namesBucket = true := by
  unfold S3Request.dispatchDelete
  split
  · rename_i h
    rw [namesBucket_of_namesObject h]
    split
    · exact iff_of_true rfl rfl
    · exact iff_of_true rfl rfl
  · split
    · rename_i h
      exact iff_of_true rfl h
    · rename_i h
      exact iff_of_false Bool.false_ne_true h

theorem changes_dispatchHead (req : S3Request) : changes req.dispatchHead = false := by
  unfold S3Request.dispatchHead
  split
  · rfl
  · split <;> rfl

theorem changes_dispatchPost (req : S3Request) :
    changes req.dispatchPost = true ↔ req.namesObject = true ∧
      (req.hasQueryParam "uploads" = true ∨ req.hasQueryParam "uploadId" = true) := by
  unfold S3Request.dispatchPost
  split
  · rename_i h
    split
    · rename_i huploads
      exact iff_of_true rfl ⟨h, .inl huploads⟩
    · rename_i huploads
      split
      · rename_i huploadId
        exact iff_of_true rfl ⟨h, .inr huploadId⟩
      · rename_i huploadId
        refine iff_of_false Bool.false_ne_true ?_
        rintro ⟨-, h | h⟩
        · exact huploads h
        · exact huploadId h
  · rename_i h
    refine iff_of_false Bool.false_ne_true ?_
    rintro ⟨hnames, -⟩
    exact h hnames

/-- **The router sends to an operation that changes the state** exactly the requests that ask for a
change. -/
theorem dispatch_changes_iff (req : S3Request) :
    changes req.dispatch = true ↔ AsksForChange req := by
  have hmethods : [cstr "PUT", cstr "GET", cstr "DELETE", cstr "HEAD", cstr "POST"].Nodup := by
    decide
  simp only [List.nodup_cons, List.mem_cons, List.not_mem_nil, or_false, not_or] at hmethods
  obtain ⟨⟨-, hputDelete, -, hputPost⟩, ⟨hgetDelete, -, hgetPost⟩, ⟨-, hdeletePost⟩,
      hheadPost, -⟩ :=
    hmethods
  unfold S3Request.dispatch AsksForChange
  split
  · rename_i hput
    rw [changes_dispatchPut, hput]
    simp [hputDelete, hputPost]
  · rename_i hput
    split
    · rename_i hget
      rw [changes_dispatchGet]
      rw [hget] at hput ⊢
      simp [hput, hgetDelete, hgetPost]
    · split
      · rename_i hdelete
        rw [changes_dispatchDelete]
        rw [hdelete] at hput ⊢
        simp [hput, hdeletePost]
      · rename_i hdelete
        split
        · rename_i hhead
          rw [changes_dispatchHead]
          rw [hhead] at hput hdelete ⊢
          simp [hput, hdelete, hheadPost]
        · split
          · rename_i hpost
            rw [changes_dispatchPost]
            rw [hpost] at hput hdelete ⊢
            simp [hput, hdelete]
          · rename_i hpost
            simp [hput, hdelete, hpost, changes]

/-! ## 4. What a key for reading can do -/

/-- A request signed with the key of a credential of policy `readonly`. -/
structure SignedReadonly (env : Env) (httpReq : HttpRequest) (req : S3Request) : Prop where
  parsed : s3ParseRequest httpReq = some req
  signed : s3VerifySignature env.crypto (s3GetSecretKey env.credentials) req = .ok
  policy : getPolicy env.credentials (some req.auth.accessKey) (some 64) = .ok (cstr "readonly")

/-- The request asks for a change, of the S3 handler or through the RPC. -/
def Changing (env : Env) (httpReq : HttpRequest) (req : S3Request) : Prop :=
  if httpReq.uri = cstr "/health" then False
  else if httpReq.uri = cstr "/rpc" then RpcAsksForChange env httpReq
  else AsksForChange req

/-- **What a signed request makes the handler do.**  The policy does not come in. -/
theorem s3Handler_changes_iff {env : Env} {httpReq : HttpRequest} {req : S3Request}
    (h : SignedReadonly env httpReq req) :
    (s3Handler env httpReq).changes = true ↔ Changing env httpReq req := by
  unfold s3Handler Changing
  split
  · exact iff_of_false Bool.false_ne_true id
  · split
    · cases hrpc : rpcHttpHandler env.parse env.ready httpReq with
      | none =>
        refine iff_of_false Bool.false_ne_true ?_
        rintro ⟨method, hmethod, -⟩
        rw [hrpc] at hmethod
        cases hmethod
      | some method =>
        constructor
        · intro hchanges
          exact ⟨method, hrpc, hchanges⟩
        · rintro ⟨called, hcalled, hchanges⟩
          rw [hrpc] at hcalled
          obtain rfl := Option.some.inj hcalled
          exact hchanges
    · rw [h.parsed]
      dsimp only
      rw [if_pos h.signed]
      exact dispatch_changes_iff req

theorem Layer.after_of_not_changes {State : Type} (layer : Layer State) (state : State)
    (httpReq : HttpRequest) {performed : Performed} (h : performed.changes = false) :
    layer.after state httpReq performed = state := by
  cases performed with
  | nothing => rfl
  | operation req op => exact layer.operate_reads state req op h
  | rpc method => exact layer.rpc_reads state httpReq method h

/-- A layer whose state is the number of changes so far. -/
def Layer.counting : Layer ℕ where
  operate n _ op := if changes op then n + 1 else n
  rpc n _ method := if method.changes then n + 1 else n
  operate_reads n _ op h := by rw [h]; rfl
  rpc_reads n _ method h := by rw [h]; rfl

theorem Layer.counting_after (n : ℕ) (httpReq : HttpRequest) {performed : Performed}
    (h : performed.changes = true) : Layer.counting.after n httpReq performed = n + 1 := by
  cases performed with
  | nothing => cases h
  | operation req op => exact if_pos h
  | rpc method => exact if_pos h

/-- **Exactly when a `readonly` key changes nothing.**  With authentication enabled, for a request
that is signed with the key of a credential whose policy is `readonly`: the handler performs no
operation that changes the stored state exactly if the request does NOT ASK for a change; and the
same if it is the state, over any storage layer, that is to be afterwards what it was before. -/
theorem readonly_keeps_iff {env : Env} {httpReq : HttpRequest} {req : S3Request}
    (h : SignedReadonly env httpReq req) :
    ((s3Handler env httpReq).changes = false ↔ ¬Changing env httpReq req) ∧
      ((∀ (State : Type) (layer : Layer State) (state : State),
        layer.after state httpReq (s3Handler env httpReq) = state) ↔
          ¬Changing env httpReq req) := by
  rw [← s3Handler_changes_iff h, Bool.not_eq_true]
  refine ⟨Iff.rfl, ?_, ?_⟩
  · intro hkeeps
    by_contra hchanges
    rw [Bool.not_eq_false] at hchanges
    have hcount := Layer.counting_after 0 httpReq hchanges
    rw [hkeeps ℕ Layer.counting 0] at hcount
    cases hcount
  · intro hnone State layer state
    exact layer.after_of_not_changes state httpReq hnone

/-! ## 5. A key for reading, and what is done with it -/

/-- A store after one create, of a key for reading. -/
def readonlyEnv : Env where
  crypto := Crypto.reference
  parse _ := none
  ready := false
  credentials := (run .reference 0 [.create none (some (cstr "readonly")) (some 128) (some 128)
    .zeros]).1.credentials

/-- A request with that key. -/
def readonlyRequest (method uri signature : String) : HttpRequest where
  method := cstr method
  uri := cstr uri
  headers := [(cstr "Host", cstr "h"), (cstr "x-amz-date", cstr "20260101T000000Z"),
    (cstr "x-amz-content-sha256", cstr digestOfA),
    (cstr "Authorization",
      cstr "AWS4-HMAC-SHA256 Credential=AAAAAAAAAAAAAAAAAAAA/20260101/r/s3/aws4_request," ++
      cstr "SignedHeaders=host;x-amz-content-sha256;x-amz-date,Signature=" ++ cstr signature)]
  body := []

/-- The signature of the requests below. -/
def readonlySignature : String :=
  "716763041b4b73717377717071706e336e32726e203632751e33243034243235"

/-- A layer that knows the names of its objects. -/
def Layer.objects : Layer (List (CString × CString)) where
  operate names req op :=
    match op with
    | .putObject => (req.bucket, req.key) :: names
    | .deleteObject => names.filter (· ≠ (req.bucket, req.key))
    | _ => names
  rpc names _ _ := names
  operate_reads names req op h := by cases op <;> first | rfl | cases h
  rpc_reads _ _ _ _ := rfl

/-- The test that a request is signed so. -/
theorem signedReadonly_of_any {env : Env} {httpReq : HttpRequest}
    (h : ((s3ParseRequest httpReq).any fun req =>
      decide (s3VerifySignature env.crypto (s3GetSecretKey env.credentials) req = .ok) &&
        decide ((getPolicy env.credentials (some req.auth.accessKey) (some 64)).toOption =
          some (cstr "readonly"))) = true) : ∃ req, SignedReadonly env httpReq req := by
  cases hparsed : s3ParseRequest httpReq with
  | none =>
    rw [hparsed] at h
    cases h
  | some req =>
    rw [hparsed, Option.any_some, Bool.and_eq_true, decide_eq_true_eq, decide_eq_true_eq] at h
    refine ⟨req, hparsed, h.1, ?_⟩
    cases hget : getPolicy env.credentials (some req.auth.accessKey) (some 64) with
    | error err =>
      rw [hget] at h
      cases h.2
    | ok policy =>
      rw [hget] at h
      exact congrArg Except.ok (Option.some.inj h.2)

/-- A GET with the key for reading changes nothing. -/
theorem readonly_keeps_get : ∃ req,
    SignedReadonly readonlyEnv (readonlyRequest "GET" "/b/o" readonlySignature) req ∧
    ∀ (State : Type) (layer : Layer State) (state : State),
      layer.after state (readonlyRequest "GET" "/b/o" readonlySignature)
        (s3Handler readonlyEnv (readonlyRequest "GET" "/b/o" readonlySignature)) = state := by
  obtain ⟨req, hsigned⟩ := @signedReadonly_of_any readonlyEnv
    (readonlyRequest "GET" "/b/o" readonlySignature) (by decide +kernel)
  have hmethod : req.httpReq.method = cstr "GET" := by
    rw [httpReq_of_parse hsigned.parsed]
    rfl
  refine ⟨req, hsigned, (readonly_keeps_iff hsigned).2.mpr ?_⟩
  have hhealth : ¬cstr "/b/o" = cstr "/health" := by decide
  have hrpc : ¬cstr "/b/o" = cstr "/rpc" := by decide
  unfold Changing readonlyRequest AsksForChange
  rw [if_neg hhealth, if_neg hrpc, hmethod]
  rintro (⟨h, -⟩ | ⟨h, -⟩ | ⟨h, -⟩)
  · exact absurd h (by decide)
  · exact absurd h (by decide)
  · exact absurd h (by decide)

/-- **An object deleted with a key for reading.**  The signature is right, the policy of the key is
`readonly`, and `/b/o` is gone. -/
theorem readonly_deletes : ∃ req,
    SignedReadonly readonlyEnv (readonlyRequest "DELETE" "/b/o" readonlySignature) req ∧
    s3Handler readonlyEnv (readonlyRequest "DELETE" "/b/o" readonlySignature) =
      .operation req .deleteObject ∧
    Layer.objects.after [(cstr "b", cstr "o")]
      (readonlyRequest "DELETE" "/b/o" readonlySignature)
      (s3Handler readonlyEnv (readonlyRequest "DELETE" "/b/o" readonlySignature)) = [] := by
  obtain ⟨req, hsigned⟩ := @signedReadonly_of_any readonlyEnv
    (readonlyRequest "DELETE" "/b/o" readonlySignature) (by decide +kernel)
  have hroute : ((s3ParseRequest (readonlyRequest "DELETE" "/b/o" readonlySignature)).map
      fun req => (req.bucket, req.key, req.dispatch)) =
      some (cstr "b", cstr "o", .deleteObject) := by decide +kernel
  rw [hsigned.parsed, Option.map_some, Option.some_inj, Prod.mk.injEq, Prod.mk.injEq] at hroute
  have hhealth : ¬cstr "/b/o" = cstr "/health" := by decide
  have hrpc : ¬cstr "/b/o" = cstr "/rpc" := by decide
  have hperformed : s3Handler readonlyEnv (readonlyRequest "DELETE" "/b/o" readonlySignature) =
      .operation req .deleteObject := by
    unfold s3Handler
    rw [hsigned.parsed, if_neg (by exact hhealth), if_neg (by exact hrpc)]
    dsimp only
    rw [if_pos hsigned.signed, hroute.2.2]
  refine ⟨req, hsigned, hperformed, ?_⟩
  rw [hperformed]
  simp [Layer.after, Layer.objects, hroute.1, hroute.2.1]

end Buckets.ReadonlyPolicy
