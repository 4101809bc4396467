/-
# The S3 front end: `s3_handler.c` and the callbacks of `s3_streaming.c`

A request reaches the storage layer on one of two ways.  The LEGACY handler has the whole request
before it: it parses, verifies the signature, and dispatches on method and path.  A PUT, however,
is offered to the STREAMING handler as soon as its headers are there; if the URL names a bucket and
a key the handler takes it, collects the body as it comes and stores it at the end.

Only the first way verifies anything.  The log of calls keeps, for every request that came to an
action, what `buckets_s3_verify_signature` said about it, if it was asked.

* `writes_verified_of_legacy` -- what the legacy handler writes, it has verified;
* `StreamUpload.Started` -- what the streaming handler stores is a request it takes;
* `s3Server_writes_verified_iff` -- so every request but those the streaming handler takes writes
  nothing that was not verified, and of those it takes exactly the ones that are not stored;
* `s3Server_verified_iff` -- the URLs and methods for which this is so in every run.
-/
import Buckets.S3Auth
import Buckets.Server
import Buckets.Streaming

namespace Buckets

open CStr Strtoull

/-! ## 1. Dispatch -/

/-- The operations `buckets_s3_handler` calls, and the errors it reports itself. -/
inductive S3Op where
  | uploadPart
  | putObject
  | putBucketVersioning
  | putBucket
  | listParts
  | getObjectVersion
  | getObject
  | getBucketLocation
  | listObjectVersions
  | getBucketVersioning
  | listObjectsV2
  | listObjectsV1
  | listBuckets
  | abortMultipartUpload
  | deleteObject
  | deleteBucket
  | headObject
  | headBucket
  | initiateMultipartUpload
  | completeMultipartUpload
  | xmlError (code message : String) (resource : CString)
  deriving DecidableEq, Repr

namespace S3Request

/-- `buckets_s3_has_version_id`. -/
def hasVersionId (req : S3Request) : Bool :=
  req.query.any fun pair => pair.1 == cstr "versionId" && decide (0 < pair.2.length)

/-- The value of `list-type`, if it is there. -/
def listType (req : S3Request) : Option CString :=
  (req.query.find? fun pair => pair.1 == cstr "list-type").map Prod.snd

/-- Both names are there. -/
def namesObject (req : S3Request) : Bool := decide (0 < req.bucket.length ∧ 0 < req.key.length)

def namesBucket (req : S3Request) : Bool := decide (0 < req.bucket.length)

/-- The branches of `buckets_s3_handler` for PUT. -/
def dispatchPut (req : S3Request) : S3Op :=
  if req.namesObject then
    if req.hasQueryParam "uploadId" && req.hasQueryParam "partNumber" then .uploadPart
    else .putObject
  else if req.namesBucket then
    if req.hasQueryParam "versioning" then .putBucketVersioning else .putBucket
  else .xmlError "InvalidRequest" "Invalid PUT request" (cstr "/")

def dispatchGet (req : S3Request) : S3Op :=
  if req.namesObject then
    if req.hasQueryParam "uploadId" then .listParts
    else if req.hasVersionId then .getObjectVersion
    else .getObject
  else if req.namesBucket then
    if req.hasQueryParam "location" then .getBucketLocation
    else if req.hasQueryParam "versions" then .listObjectVersions
    else if req.hasQueryParam "versioning" then .getBucketVersioning
    else if req.listType = some (cstr "2") then .listObjectsV2
    else .listObjectsV1
  else .listBuckets

def dispatchDelete (req : S3Request) : S3Op :=
  if req.namesObject then
    if req.hasQueryParam "uploadId" then .abortMultipartUpload else .deleteObject
  else if req.namesBucket then .deleteBucket
  else .xmlError "InvalidRequest" "Invalid DELETE request" (cstr "/")

def dispatchHead (req : S3Request) : S3Op :=
  if req.namesObject then .headObject
  else if req.namesBucket then .headBucket
  else .xmlError "InvalidRequest" "Invalid HEAD request" (cstr "/")

def dispatchPost (req : S3Request) : S3Op :=
  if req.namesObject then
    if req.hasQueryParam "uploads" then .initiateMultipartUpload
    else if req.hasQueryParam "uploadId" then .completeMultipartUpload
    else .xmlError "InvalidRequest" "Invalid POST request" req.httpReq.uri
  else .xmlError "InvalidRequest" "Invalid POST request" (cstr "/")

/-- The routing of `buckets_s3_handler`. -/
def dispatch (req : S3Request) : S3Op :=
  if req.httpReq.method = cstr "PUT" then req.dispatchPut
  else if req.httpReq.method = cstr "GET" then req.dispatchGet
  else if req.httpReq.method = cstr "DELETE" then req.dispatchDelete
  else if req.httpReq.method = cstr "HEAD" then req.dispatchHead
  else if req.httpReq.method = cstr "POST" then req.dispatchPost
  else .xmlError "MethodNotAllowed" "Method not allowed" req.httpReq.uri

end S3Request

/-- The operations that create or overwrite an object. -/
def S3Op.writesObject : S3Op → Bool
  | .putObject => true
  | .completeMultipartUpload => true
  | _ => false

/-! ## 2. What a request leads to -/

/-- What `s3_stream_upload_complete` hands to the storage layer. -/
structure StreamPut where
  bucket : CString
  key : CString
  data : Bytes
  contentType : CString
  userMeta : List (CString × CString)
  deriving DecidableEq, Repr

inductive Action where
  /-- The request was turned away. -/
  | refused
  | rpc
  | chunk
  | operation (op : S3Op)
  /-- A streamed object, and whether the storage layer stored it. -/
  | store (put : StreamPut) (stored : Bool)
  deriving DecidableEq, Repr

/-- An object was, or may have been, created or overwritten. -/
def Action.writesObject : Action → Bool
  | .operation op => op.writesObject
  | .store _ stored => stored
  | _ => false

/-- An object was stored by the streaming handler. -/
def Action.storesStream : Action → Bool
  | .store _ stored => stored
  | _ => false

/-- One request that a handler was called for. -/
structure Call where
  request : HttpRequest
  /-- What `buckets_s3_verify_signature` answered, if it was called. -/
  verdict : Option AuthRet
  action : Action
  deriving DecidableEq, Repr

/-- What is outside the front end.  The answers may depend on everything that was done before. -/
structure S3Env where
  crypto : Crypto
  /-- `buckets_credentials_get_secret`. -/
  secrets : CString → Option CString
  /-- `buckets_s3_auth_enabled`. -/
  authEnabled : Bool
  md5 : Bytes → Vector UInt8 16
  /-- The put of the storage layer: a version id, maybe empty, or a failure. -/
  storage : List Call → StreamPut → Option CString
  /-- An S3 operation, and the conversion of its response. -/
  operate : List Call → S3Request → S3Op → Response
  /-- `buckets_rpc_http_handler`. -/
  rpc : List Call → HttpRequest → Response
  /-- `binary_chunk_write_uv_handler` and `binary_chunk_read_uv_handler`. -/
  chunkWrite : List Call → HttpRequest → Response
  chunkRead : List Call → HttpRequest → Response

/-! ## 3. The legacy handler -/

/-- The end of `s3_legacy_uv_handler`: the body goes out in pieces of 64 KiB. -/
def legacyResponse (status : ℕ) (headers : List (CString × CString)) (body : Bytes) : Response where
  status := status
  headers := headers
  contentLength := body.length
  writes := body.toChunks (64 * 1024)
  ended := true

def invalidRequestBody : CString :=
  cstr "\x7b\"error\": \x7b\"code\": 400, \"message\": \"Invalid S3 request\"\x7d\x7d"

def accessDeniedBody : CString :=
  cstr "<?xml version=\"1.0\" encoding=\"UTF-8\"?>\n" ++
    cstr "<Error><Code>AccessDenied</Code><Message>Access Denied</Message></Error>"

def signatureDoesNotMatchBody : CString :=
  cstr "<?xml version=\"1.0\" encoding=\"UTF-8\"?>\n" ++
    cstr "<Error><Code>SignatureDoesNotMatch</Code><Message>The request signature we calculated " ++
    cstr "does not match the signature you provided</Message></Error>"

/-- The response to a request that was not verified; none to HEAD has a body. -/
def forbidden (method : CString) (ret : AuthRet) : Response :=
  legacyResponse 403 [(cstr "Content-Type", cstr "application/xml")]
    (if method = cstr "HEAD" then []
      else if ret = .errAccessDenied then accessDeniedBody
      else signatureDoesNotMatchBody)

section

variable (env : S3Env)

/-- The call of `buckets_s3_verify_signature`, with authentication enabled. -/
def s3Verdict (req : S3Request) : Option AuthRet :=
  if env.authEnabled then some (s3VerifySignature env.crypto env.secrets req) else none

/-- `buckets_s3_handler`, inside `s3_legacy_uv_handler`. -/
def s3LegacyUvHandler : Handler (List Call) := fun httpReq calls =>
  if httpReq.uri = cstr "/health" then (some (legacyResponse 200 [] []), calls)
  else if httpReq.uri = cstr "/rpc" then
    (some (env.rpc calls httpReq), calls ++ [⟨httpReq, none, .rpc⟩])
  else
    match s3ParseRequest httpReq with
    | none =>
      (some (legacyResponse 400 [(cstr "Content-Type", cstr "application/json")]
        invalidRequestBody), calls ++ [⟨httpReq, none, .refused⟩])
    | some req =>
      match s3Verdict env req with
      | some ret =>
        if ret = .ok then
          (some (env.operate calls req req.dispatch),
            calls ++ [⟨httpReq, some ret, .operation req.dispatch⟩])
        else (some (forbidden httpReq.method ret), calls ++ [⟨httpReq, some ret, .refused⟩])
      | none =>
        (some (env.operate calls req req.dispatch),
          calls ++ [⟨httpReq, none, .operation req.dispatch⟩])

/-! ## 4. The streaming handler -/

/-- `s3_stream_upload_t`.  The request and the raw body are kept for the log only. -/
structure StreamUpload where
  request : StreamRequest
  raw : Bytes
  bucket : CString
  key : CString
  contentType : CString
  userMeta : List (CString × CString)
  upload : Upload

/-- The request of an upload, as far as it has come. -/
def StreamUpload.httpRequest (s : StreamUpload) : HttpRequest where
  method := s.request.method
  uri := s.request.url
  headers := s.request.headers
  body := s.raw

/-- `parse_s3_url`.  A `?` is looked for from the start: one inside the bucket, or right after the
slash, does not end the key. -/
def parseS3Url (url : CString) : Option (CString × CString) :=
  if url.head? ≠ some 47 then none
  else
    let p := url.tail
    let bucket := if 47 ∈ p then before p 47 else before p 63
    if bucket.length = 0 ∨ bucketSize ≤ bucket.length then none
    else
      match strchr p 47 with
      | none => some (bucket, [])
      | some slash =>
        let keyStart := slash.tail
        let key :=
          if 63 ∈ bucket ∨ keyStart.head? = some 63 then keyStart else before keyStart 63
        if keySize ≤ key.length then none else some (bucket, key)

/-- `url_decode_inplace` of `s3_streaming.c`: any two bytes after a `%` go to `strtol`. -/
def streamDecodeBytes : CString → Bytes
  | 37 :: a :: b :: src => UInt8.ofNat (strtoull 16 [a, b]) :: streamDecodeBytes src
  | 43 :: src => 32 :: streamDecodeBytes src
  | c :: src => c :: streamDecodeBytes src
  | [] => []

def streamDecode (src : CString) : CString := text (streamDecodeBytes src)

/-- `send_error_response`, without an `uv_http_response_end`. -/
def streamError (status : ℕ) (code message : String) : Response :=
  let body := cstr "<?xml version=\"1.0\" encoding=\"UTF-8\"?>\n<Error>\n  <Code>" ++ cstr code ++
    cstr "</Code>\n  <Message>" ++ cstr message ++ cstr "</Message>\n</Error>"
  { status := status
    headers := [(cstr "Content-Type", cstr "application/xml")]
    contentLength := body.length
    writes := [body]
    ended := false }

/-- The three signs of an `aws-chunked` body. -/
def isAwsChunked (headers : List (CString × CString)) : Bool :=
  ((uvHttpGetHeader headers (cstr "Content-Encoding")).any fun value =>
      (strstr (cstr "aws-chunked") value).isSome) ||
    (uvHttpGetHeader headers (cstr "x-amz-decoded-content-length")).isSome ||
    ((uvHttpGetHeader headers (cstr "x-amz-content-sha256")).any fun value =>
      (strstr (cstr "STREAMING-AWS4-HMAC-SHA256-PAYLOAD") value).isSome)

/-- `s3_stream_on_request_start`. -/
def s3StreamOnRequestStart (req : StreamRequest) : Option Response × Option StreamUpload :=
  if req.method ≠ cstr "PUT" then (none, none)
  else if (cstr "/_internal/").isPrefixOf req.url then (none, none)
  else
    match parseS3Url req.url with
    | none => (some (streamError 400 "400" "Invalid URL"), none)
    | some (bucket, key) =>
      let bucket := streamDecode bucket
      let key := streamDecode key
      if bucket.length = 0 ∨ key.length = 0 then (none, none)
      else
        (none, some
          { request := req
            raw := []
            bucket := bucket
            key := key
            contentType :=
              charArray 128 ((uvHttpGetHeader req.headers (cstr "Content-Type")).getD [])
            userMeta :=
              ((headersWithPrefix req.headers (cstr "x-amz-meta-")).take maxUserMetadata).map
                fun header => (header.1.drop 11, header.2)
            upload := uploadCreate (isAwsChunked req.headers) })

/-- `s3_stream_on_body_chunk`. -/
def s3StreamOnBodyChunk (s : StreamUpload) (data : Bytes) : Option StreamUpload :=
  (s.upload.process data).map fun upload => { s with raw := s.raw ++ data, upload := upload }

/-- `send_put_success`. -/
def putSuccess (etag versionId : CString) : Response where
  status := 200
  headers :=
    if versionId.length = 0 then [(cstr "ETag", etag)]
    else [(cstr "ETag", etag), (cstr "x-amz-version-id", versionId)]
  contentLength := 0
  writes := []
  ended := true

/-- `s3_stream_on_request_complete`, with the call of the storage layer in
`s3_stream_upload_complete`. -/
def s3StreamOnRequestComplete (s : StreamUpload) (calls : List Call) : Response × List Call :=
  match s.upload.complete env.md5 with
  | none => (streamError 500 "500" "Upload failed", calls ++ [⟨s.httpRequest, none, .refused⟩])
  | some completed =>
    let put : StreamPut :=
      { bucket := s.bucket
        key := s.key
        data := completed.objectData
        contentType := s.contentType
        userMeta := s.userMeta }
    match env.storage calls put with
    | none =>
      (streamError 500 "500" "Upload failed", calls ++ [⟨s.httpRequest, none, .store put false⟩])
    | some versionId =>
      (putSuccess completed.etag versionId, calls ++ [⟨s.httpRequest, none, .store put true⟩])

/-! ## 5. The server -/

/-- `g_put_handler`. -/
def s3StreamingPutHandler : StreamHandler StreamUpload (List Call) where
  onRequestStart := s3StreamOnRequestStart
  onBodyChunk := s3StreamOnBodyChunk
  onRequestComplete := s3StreamOnRequestComplete env

/-- A chunk handler: other nodes read and write chunk files with it. -/
def chunkHandler (answer : List Call → HttpRequest → Response) : Handler (List Call) :=
  fun httpReq calls => (some (answer calls httpReq), calls ++ [⟨httpReq, none, .chunk⟩])

/-- `s3_streaming_register_handlers`. -/
def s3Server : Server StreamUpload (List Call) where
  routes :=
    [{ method := some (cstr "GET"), pathPrefix := cstr "/_internal/chunk",
       handler := .async (chunkHandler env.chunkRead) },
     { method := some (cstr "PUT"), pathPrefix := cstr "/_internal/chunk",
       handler := .async (chunkHandler env.chunkWrite) },
     { method := some (cstr "POST"), pathPrefix := cstr "/rpc",
       handler := .sync (s3LegacyUvHandler env) },
     { method := some (cstr "PUT"), pathPrefix := cstr "/",
       handler := .streaming (s3StreamingPutHandler env) }]
  defaultHandler := some (s3LegacyUvHandler env)
  defaultHandlerIsAsync := true

end

/-! ## 6. Who writes, and what was verified -/

variable {env : S3Env}

/-- The requests `s3_stream_on_request_start` takes: every PUT outside `/_internal/` whose URL has a
bucket and a key. -/
def streamTakes (method url : CString) : Bool :=
  method == cstr "PUT" && !(cstr "/_internal/").isPrefixOf url &&
    (parseS3Url url).any fun names =>
      decide (0 < (streamDecode names.1).length ∧ 0 < (streamDecode names.2).length)

/-- What becomes of a request at the streaming handler. -/
theorem s3StreamOnRequestStart_cases (req : StreamRequest) :
    (streamTakes req.method req.url = true ∧ ∃ s, s3StreamOnRequestStart req = (none, some s) ∧
        s.request = req ∧ s.upload = uploadCreate (isAwsChunked req.headers)) ∨
      (streamTakes req.method req.url = false ∧ (s3StreamOnRequestStart req).2 = none) := by
  unfold s3StreamOnRequestStart streamTakes
  split
  · rename_i hput
    exact .inr ⟨by simp [hput], rfl⟩
  · rename_i hput
    split
    · rename_i hinternal
      exact .inr ⟨by simp [hinternal], rfl⟩
    · rename_i hinternal
      split
      · rename_i hurl
        exact .inr ⟨by simp [hurl], rfl⟩
      · rename_i bucket key hurl
        dsimp only
        split
        · rename_i hnames
          refine .inr ⟨?_, rfl⟩
          simp only [hurl, Option.any_some, Bool.and_eq_false_iff, decide_eq_false_iff_not]
          right
          omega
        · rename_i hnames
          refine .inl ⟨?_, _, rfl, rfl, rfl⟩
          simp only [not_or, ← ne_eq, ← Nat.pos_iff_ne_zero] at hnames
          simp [hurl, not_not.mp hput, hinternal, hnames]

/-- The upload is of a request that the streaming handler took. -/
def StreamUpload.Started (s : StreamUpload) : Prop :=
  streamTakes s.request.method s.request.url = true

/-- An object that was not stored from a stream was verified; one that was, was not, and came with a
request that the streaming handler takes. -/
def Call.Accounted (call : Call) : Prop :=
  if call.action.storesStream then
    call.verdict = none ∧ streamTakes call.request.method call.request.uri = true
  else call.action.writesObject = true → call.verdict = some .ok

theorem Action.writesObject_of_storesStream {action : Action} (h : action.storesStream = true) :
    action.writesObject = true := by
  cases action with
  | store put stored => exact h
  | refused => cases h
  | rpc => cases h
  | chunk => cases h
  | operation op => cases h

theorem Call.accounted_of_not_writes {call : Call} (h : call.action.writesObject = false) :
    call.Accounted := by
  have hstream : ¬call.action.storesStream = true := by
    intro hstores
    rw [Action.writesObject_of_storesStream hstores] at h
    cases h
  rw [Call.Accounted, if_neg hstream, h]
  intro hwrites
  cases hwrites

/-- What every handler of the server keeps. -/
def AllAccounted (calls : List Call) : Prop := ∀ call ∈ calls, call.Accounted

theorem allAccounted_append {calls : List Call} (hcalls : AllAccounted calls) {call : Call}
    (hcall : call.Accounted) : AllAccounted (calls ++ [call]) := by
  intro other hother
  rcases List.mem_append.mp hother with hold | hnew
  · exact hcalls other hold
  · rw [List.mem_singleton.mp hnew]
    exact hcall

/-- **What the legacy handler writes, it has verified.** -/
theorem writes_verified_of_legacy (hauth : env.authEnabled = true) :
    Handler.Keeps (s3LegacyUvHandler env) AllAccounted := by
  intro httpReq calls hcalls
  unfold s3LegacyUvHandler
  split
  · exact hcalls
  · split
    · exact allAccounted_append hcalls (Call.accounted_of_not_writes rfl)
    · split
      · exact allAccounted_append hcalls (Call.accounted_of_not_writes rfl)
      · split
        · split
          · rename_i hok
            exact allAccounted_append hcalls fun _ => congrArg some hok
          · exact allAccounted_append hcalls (Call.accounted_of_not_writes rfl)
        · -- with authentication there is a verdict
          rename_i hverdict
          simp [s3Verdict, hauth] at hverdict

theorem s3StreamingPutHandler_keeps :
    (s3StreamingPutHandler env).Keeps StreamUpload.Started AllAccounted where
  start := by
    intro req s hs
    rcases s3StreamOnRequestStart_cases req with ⟨htakes, s', hstart, hreq, -⟩ | ⟨-, hnone⟩
    · simp only [s3StreamingPutHandler, hstart, Option.mem_def, Option.some.injEq] at hs
      rwa [StreamUpload.Started, ← hs, hreq]
    · simp [s3StreamingPutHandler, hnone] at hs
  chunk := by
    intro s data hs next hnext
    obtain ⟨upload, -, rfl⟩ := Option.map_eq_some_iff.mp hnext
    exact hs
  complete := by
    intro s calls hs hcalls
    simp only [s3StreamingPutHandler, s3StreamOnRequestComplete]
    split
    · exact allAccounted_append hcalls (Call.accounted_of_not_writes rfl)
    · split
      · exact allAccounted_append hcalls (Call.accounted_of_not_writes rfl)
      · exact allAccounted_append hcalls ⟨rfl, hs⟩

theorem chunkHandler_keeps (answer : List Call → HttpRequest → Response) :
    Handler.Keeps (chunkHandler answer) AllAccounted := by
  intro httpReq calls hcalls
  exact allAccounted_append hcalls (Call.accounted_of_not_writes rfl)

theorem s3Server_keeps (hauth : env.authEnabled = true) :
    (s3Server env).Keeps StreamUpload.Started AllAccounted := by
  refine ⟨?_, ?_⟩
  · intro route hroute
    simp only [s3Server, List.mem_cons, List.not_mem_nil, or_false] at hroute
    rcases hroute with rfl | rfl | rfl | rfl
    · exact chunkHandler_keeps _
    · exact chunkHandler_keeps _
    · exact writes_verified_of_legacy hauth
    · exact s3StreamingPutHandler_keeps
  · intro handler hhandler
    cases hhandler
    exact writes_verified_of_legacy hauth

theorem allAccounted_run (hauth : env.authEnabled = true) (events : List ConnEvent) :
    AllAccounted (Conn.run (s3Server env) (Conn.create []) events).world :=
  Conn.run_keeps (s3Server_keeps hauth) (by simp [AllAccounted]) events

theorem Call.Accounted.verified_iff {call : Call} (h : call.Accounted) :
    (call.action.writesObject = true → call.verdict = some .ok) ↔
      ¬(streamTakes call.request.method call.request.uri = true ∧
        call.action.storesStream = true) := by
  constructor
  · rintro hverified ⟨-, hstores⟩
    rw [Call.Accounted, if_pos hstores] at h
    have hok := hverified (Action.writesObject_of_storesStream hstores)
    rw [h.1] at hok
    cases hok
  · intro hother hwrites
    by_cases hstores : call.action.storesStream = true
    · rw [Call.Accounted, if_pos hstores] at h
      exact absurd ⟨h.2, hstores⟩ hother
    · rw [Call.Accounted, if_neg hstores] at h
      exact h hwrites

/-- **Exactly which requests write verified objects only.**  With authentication enabled, whatever
arrives on a connection, in whatever reads, and however the handlers and the writes are scheduled:
a request creates or overwrites an object only if `buckets_s3_verify_signature` accepted it, UNLESS
it is one that the streaming handler takes and its object is stored. -/
theorem s3Server_writes_verified_iff (env : S3Env) (hauth : env.authEnabled = true)
    (events : List ConnEvent) :
    ∀ call ∈ (Conn.run (s3Server env) (Conn.create []) events).world,
      (call.action.writesObject = true → call.verdict = some .ok) ↔
        ¬(streamTakes call.request.method call.request.uri = true ∧
          call.action.storesStream = true) := by
  intro call hcall
  exact (allAccounted_run hauth events call hcall).verified_iff

/-! ## 7. Which URLs are safe -/

/-- A world with one secret, in which every store succeeds. -/
def S3Env.reference : S3Env where
  crypto := Crypto.reference
  secrets := oneSecret
  authEnabled := true
  md5 _ := Vector.replicate 16 0
  storage _ _ := some []
  operate _ _ _ := legacyResponse 200 [] []
  rpc _ _ := legacyResponse 200 [] []
  chunkWrite _ _ := legacyResponse 200 [] []
  chunkRead _ _ := legacyResponse 200 [] []

/-- A request that the streaming handler takes is stored, also without headers and without a
body. -/
theorem stores_of_streamTakes {method url : CString} (h : streamTakes method url = true) :
    ∃ call ∈ (Conn.run (s3Server S3Env.reference) (Conn.create [])
      [.read [.methodComplete method, .url url, .headersComplete 0 true, .messageComplete]
        true]).world,
      call.request.method = method ∧ call.request.uri = url ∧ call.action.storesStream = true ∧
        call.verdict = none := by
  obtain ⟨-, s, hstart, hreq, hupload⟩ :=
    (s3StreamOnRequestStart_cases ⟨method, url, 0, []⟩).resolve_right
      fun hnot => by simp [h] at hnot
  have hmethod : method = cstr "PUT" := by
    by_contra hput
    simp [streamTakes, hput] at h
  subst hmethod
  have hroute : Conn.findStreamingRoute (s3Server S3Env.reference).routes (cstr "PUT") url =
      some (s3StreamingPutHandler S3Env.reference) := by
    have hhead : url.head? = some 47 := by
      by_contra hhead
      simp [streamTakes, parseS3Url, hhead] at h
    obtain ⟨rest, rfl⟩ := List.head?_eq_some_iff.mp hhead
    rfl
  have hdone : s3StreamOnRequestComplete S3Env.reference s [] =
      (putSuccess (Upload.formatEtag (Vector.replicate 16 0)) [], [⟨s.httpRequest, none,
        .store ⟨s.bucket, s.key, [], s.contentType, s.userMeta⟩ true⟩]) := by
    rw [s3StreamOnRequestComplete, hupload]
    rfl
  refine ⟨⟨s.httpRequest, none, .store ⟨s.bucket, s.key, [], s.contentType, s.userMeta⟩ true⟩, ?_,
    by rw [StreamUpload.httpRequest, hreq], by rw [StreamUpload.httpRequest, hreq], rfl, rfl⟩
  simp [Conn.run, Conn.step, Conn.create, Conn.onRead, Conn.execute, Conn.wake, Conn.callbacks,
    Conn.callback, Conn.onUrl, Conn.onHeadersComplete, Conn.headersRead, Conn.startStream, hroute,
    Conn.takeStart, Conn.streamRequest, s3StreamingPutHandler, hstart, Conn.respondIfAny,
    Conn.onMessageComplete, Conn.finishMessage, Conn.finishStream, hdone]
  exact List.mem_singleton_self _

/-- **For a method and a URL**: whatever the environment and the run, what such requests write was
verified, EXACTLY IF the streaming handler does not take them. -/
theorem s3Server_verified_iff (method url : CString) :
    (∀ env : S3Env, env.authEnabled = true → ∀ events,
      ∀ call ∈ (Conn.run (s3Server env) (Conn.create []) events).world,
        call.request.method = method → call.request.uri = url →
          call.action.writesObject = true → call.verdict = some .ok) ↔
      streamTakes method url = false := by
  constructor
  · intro h
    by_contra htakes
    obtain ⟨call, hcall, hmethod, huri, hstores, hverdict⟩ :=
      stores_of_streamTakes (Bool.not_eq_false _ ▸ htakes)
    have hok := h S3Env.reference rfl _ call hcall hmethod huri
      (Action.writesObject_of_storesStream hstores)
    rw [hverdict] at hok
    cases hok
  · rintro htakes env hauth events call hcall rfl rfl
    refine (allAccounted_run hauth events call hcall).verified_iff.mpr ?_
    rintro ⟨h, -⟩
    rw [htakes] at h
    cases h

/-- The callbacks for a request with one header, `Host`. -/
def hostCallbacks (method url : String) (body : List Callback) : List Callback :=
  [.messageBegin, .methodComplete (cstr method), .url (cstr url), .headerField (cstr "Host"),
    .headerValue (cstr "h"), .headerValueComplete, .headersComplete 0 true] ++
    (body ++ [.messageComplete])

/-- A signed `POST` that completes a multipart upload goes to the legacy handler. -/
def signedComplete : HttpRequest :=
  { signedPut digestOfA "71676304296132303236303130312f722f73332f617773345f72657175657374" "" with
    method := cstr "POST"
    uri := cstr "/b/o?uploadId=1" }

def signedCallbacks : List Callback :=
  [.methodComplete signedComplete.method, .url signedComplete.uri] ++
    (signedComplete.headers.flatMap fun header =>
      [.headerField header.1, .headerValue header.2, .headerValueComplete]) ++
    [.headersComplete 0 true, .messageComplete]

theorem s3Server_writes_verified_complete : ∃ call : Call,
    call ∈ (Conn.run (s3Server S3Env.reference) (Conn.create [])
        [.read signedCallbacks true, .work, .afterWork]).world ∧
      call.action.writesObject = true ∧ call.verdict = some .ok := by
  have hcall : (⟨signedComplete, some .ok, .operation .completeMultipartUpload⟩ : Call) ∈
      (Conn.run (s3Server S3Env.reference) (Conn.create [])
        [.read signedCallbacks true, .work, .afterWork]).world := by
    decide +kernel
  refine ⟨_, hcall, rfl, (s3Server_writes_verified_iff S3Env.reference rfl _ _ hcall).mpr ?_ rfl⟩
  rintro ⟨-, h⟩
  cases h

/-- **An object is stored without a signature.**  A PUT of `/b/o` with a `Host` header only, in one
read: the object is stored, although the request would not have been accepted. -/
theorem s3Server_stores_unsigned : ∃ events : List ConnEvent, ∃ call : Call,
    (Conn.run (s3Server S3Env.reference) (Conn.create []) events).world = [call] ∧
    call.action = .store ⟨cstr "b", cstr "o", cstr "x", [], []⟩ true ∧
    call.verdict = none ∧
    s3Verify S3Env.reference.crypto S3Env.reference.secrets call.request = .errAccessDenied :=
  ⟨[.read (hostCallbacks "PUT" "/b/o" [.body (cstr "x")]) true],
    ⟨⟨cstr "PUT", cstr "/b/o", [(cstr "Host", cstr "h")], cstr "x"⟩, none,
      .store ⟨cstr "b", cstr "o", cstr "x", [], []⟩ true⟩,
    by decide +kernel, rfl, rfl, by decide +kernel⟩

end Buckets
