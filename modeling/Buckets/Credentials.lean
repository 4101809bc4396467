/-
# The credential store: `credentials.c`

Access keys and secrets live in one array that only grows, and in one file that is written anew
after every change.  A key is GENERATED, compared with every key in the array and tried again, at
most a hundred times; a key is deleted by moving everything behind it down by one.

What the store is for is a map, from access keys to secrets that are good or blocked (`Ledger`).
A create enters what the caller was given, a delete removes it, and nothing else touches a key.

* `shift_eq` -- moving down removes the one entry and keeps the order of the rest;
* `createKey_fresh` -- whatever the random bytes, a key that is handed out is new;
* `credentialFromJson_toJson` -- an entry is read back from its JSON, but for the rounding of times;
* `Inv.step` -- every call keeps the store in line with the ledger;
* `credentials_run` -- so after every run the keys are distinct, the array is large enough, a secret
  is found exactly for the keys that are good, and the file loads as the same store.
-/
import Buckets.Json
import Buckets.Lib.Strtoull

namespace Buckets.Credentials

open Strtoull

/-! ## 1. The array -/

/-- `MAX_CREDENTIALS`. -/
def maxCredentials : ℕ := 1000

/-- `buckets_credential_t`. -/
structure Credential where
  accessKey : CString
  secretKey : CString
  name : CString
  policy : CString
  created : ℤ
  lastUsed : ℤ
  enabled : Bool
  deriving DecidableEq, Repr

/-- An entry after `memset`. -/
def Credential.zero : Credential := ⟨[], [], [], [], 0, 0, false⟩

/-- `g_default_credentials`. -/
def defaultCredentials : List Credential :=
  [⟨cstr "minioadmin", cstr "minioadmin", cstr "Default MinIO-compatible admin", cstr "readwrite",
      0, 0, true⟩,
    ⟨cstr "buckets-admin", cstr "buckets-secret-key-change-me", cstr "Default Buckets admin",
      cstr "readwrite", 0, 0, true⟩]

/-- The entry has this access key. -/
def Credential.hasKey (key : CString) (c : Credential) : Bool := c.accessKey == key

/-- `find_credential_unlocked`. -/
def findCredential (creds : List Credential) (key : CString) : Option Credential :=
  creds.find? (Credential.hasKey key)

/-- Where it is: the loop of `buckets_credentials_delete`, and the pointer that
`find_credential_unlocked` returns. -/
def findIndex (creds : List Credential) (key : CString) : Option ℕ :=
  creds.findIdx? (Credential.hasKey key)

/-- The loop that moves the entries behind `i` down, `n` of them. -/
def shift : (i n : ℕ) → List Credential → List Credential
  | _, 0, creds => creds
  | i, n + 1, creds => shift (i + 1) n (creds.set i (creds.getD (i + 1) .zero))

/-- The entries after the removal of entry `i`: cleared, moved over, and one entry less. -/
def removeAt (creds : List Credential) (i : ℕ) : List Credential :=
  (shift i (creds.length - 1 - i) (creds.set i .zero)).take (creds.length - 1)

/-! ## 2. The file -/

/-- One entry of `credentials_to_json`. -/
def credentialToJson (c : Credential) : Json :=
  .mkObject
    [(cstr "access_key", some (.string c.accessKey)),
      (cstr "secret_key", some (.string c.secretKey)),
      (cstr "name", some (.string c.name)),
      (cstr "policy", some (.string c.policy)),
      (cstr "created", some (.int c.created)),
      (cstr "last_used", some (.int c.lastUsed)),
      (cstr "enabled", some (.bool c.enabled))]

/-- `credentials_to_json`. -/
def credentialsToJson (creds : List Credential) : Json :=
  .mkObject
    [(cstr "credentials", some (.array (creds.map credentialToJson))),
      (cstr "version", some (.int 1))]

/-- The member `name` as a `time_t`, 0 if it is not a number. -/
def timeItem (j : Json) (name : CString) : ℤ :=
  (((j.getObjectItem name).bind Json.asNumber).map Double.val).getD 0

/-- One turn of the loop of `credentials_from_json`: an entry without its two keys is skipped. -/
def credentialFromJson (j : Json) : Option Credential :=
  match j.stringItem (cstr "access_key"), j.stringItem (cstr "secret_key") with
  | some accessKey, some secretKey =>
    some
      { accessKey := charArray 128 accessKey
        secretKey := charArray 128 secretKey
        name := charArray 256 ((j.stringItem (cstr "name")).getD [])
        policy := ((j.stringItem (cstr "policy")).map (charArray 64)).getD (cstr "readwrite")
        created := timeItem j (cstr "created")
        lastUsed := timeItem j (cstr "last_used")
        enabled :=
          match j.getObjectItem (cstr "enabled") with
          | none => true
          | some enabled => enabled.asBool == some true }
  | _, _ => none

/-- The globals: the entries in use, `g_credential_capacity`, and the contents of the file. -/
structure Store (cjson : CJson) where
  credentials : List Credential
  capacity : ℕ
  file : Option cjson.Text

section

variable {cjson : CJson}

/-- `credentials_to_json` and `buckets_atomic_write`. -/
def Store.save (s : Store cjson) : Store cjson :=
  { s with file := some (cjson.print (credentialsToJson s.credentials)) }

/-- `credentials_from_json`. -/
def credentialsFromJson (s : Store cjson) (text : cjson.Text) : Option (Store cjson) :=
  (cjson.parse text).bind fun root =>
    (root.arrayItem (cstr "credentials")).map fun items =>
      { s with
        credentials := items.filterMap credentialFromJson
        capacity := if s.capacity < items.length then items.length + 16 else s.capacity }

/-- `buckets_credentials_init` in a new process, at the time `now`.  A file that is there but cannot
be read leaves the store empty. -/
def credentialsInit (cjson : CJson) (file : Option cjson.Text) (now : ℕ) : Store cjson :=
  let s : Store cjson := { credentials := [], capacity := 32, file := file }
  match file with
  | some text => (credentialsFromJson s text).getD s
  | none =>
    Store.save { s with credentials := defaultCredentials.map fun c => { c with created := now } }

/-! ## 3. The calls -/

/-- The codes the functions return. -/
inductive Err where
  | invalidArg
  | notFound
  | accessDenied
  | limit
  | internal
  deriving DecidableEq, Repr

/-- `buckets_credentials_get_secret`.  The output is a buffer of `secretLen` bytes, or `NULL`. -/
def getSecret (creds : List Credential) (accessKey : Option CString) (secretLen : Option ℕ) :
    Except Err CString :=
  match accessKey, secretLen with
  | some key, some (n + 1) =>
    match findCredential creds key with
    | none => .error .notFound
    | some c => if c.enabled then .ok (charArray (n + 1) c.secretKey) else .error .accessDenied
  | _, _ => .error .invalidArg

/-- `buckets_credentials_get_policy`. -/
def getPolicy (creds : List Credential) (accessKey : Option CString) (policyLen : Option ℕ) :
    Except Err CString :=
  match accessKey, policyLen with
  | some key, some (n + 1) =>
    match findCredential creds key with
    | none => .error .notFound
    | some c => .ok (charArray (n + 1) c.policy)
  | _, _ => .error .invalidArg

def accessKeyCharset : CString := cstr "ABCDEFGHIJKLMNOPQRSTUVWXYZ0123456789"

def secretKeyCharset : CString :=
  cstr "ABCDEFGHIJKLMNOPQRSTUVWXYZabcdefghijklmnopqrstuvwxyz0123456789+/"

/-- `generate_access_key` and `generate_secret_key`: one character for each random byte. -/
def generateKey (charset : CString) (bytes : Bytes) : CString :=
  bytes.map fun byte => charset.getD (byte.toNat % charset.length) 0

/-- The random bytes and the clock that a create reads. -/
structure Random where
  /-- The bytes of each attempt at an access key. -/
  keys : ℕ → Vector UInt8 20
  secret : Vector UInt8 40
  now : ℕ

/-- The access key of an attempt. -/
def Random.accessKey (random : Random) (attempt : ℕ) : CString :=
  generateKey accessKeyCharset (random.keys attempt).toList

def Random.secretKey (random : Random) : CString :=
  generateKey secretKeyCharset random.secret.toList

/-- The `do … while` of `buckets_credentials_create` with `n` attempts left: the last key and the
number of attempts. -/
def createKey (creds : List Credential) (random : Random) : (attempts n : ℕ) → CString × ℕ
  | attempts, 0 => (random.accessKey attempts, attempts + 1)
  | attempts, n + 1 =>
    if (findCredential creds (random.accessKey attempts)).isSome then
      createKey creds random (attempts + 1) n
    else (random.accessKey attempts, attempts + 1)

/-- A text that is there and not empty, or else a default. -/
def textOr (text : Option CString) (default : CString) : CString :=
  match text with
  | none => default
  | some text => if text.length = 0 then default else text

/-- The entry a create fills. -/
def newCredential (name policy : Option CString) (key secret : CString) (now : ℕ) : Credential where
  accessKey := charArray 128 key
  secretKey := charArray 128 secret
  name := charArray 256 (textOr name (cstr "Key created " ++ printDec now))
  policy := charArray 64 (textOr policy (cstr "readwrite"))
  created := now
  lastUsed := 0
  enabled := true

/-- `buckets_credentials_create`: the store, and what the caller gets in its two buffers. -/
def create (s : Store cjson) (name policy : Option CString) (accessKeyLen secretKeyLen : Option ℕ)
    (random : Random) : Store cjson × Except Err (CString × CString) :=
  match accessKeyLen, secretKeyLen with
  | some keyLen, some secretLen =>
    if keyLen < 21 ∨ secretLen < 41 then (s, .error .invalidArg)
    else if maxCredentials ≤ s.credentials.length then (s, .error .limit)
    else
      let s :=
        if s.capacity ≤ s.credentials.length then { s with capacity := s.capacity * 2 } else s
      let (key, attempts) := createKey s.credentials random 0 99
      if 100 ≤ attempts then (s, .error .internal)
      else
        let c := newCredential name policy key random.secretKey random.now
        (Store.save { s with credentials := s.credentials ++ [c] },
          .ok (charArray keyLen key, charArray secretLen random.secretKey))
  | _, _ => (s, .error .invalidArg)

/-- `buckets_credentials_delete`. -/
def delete (s : Store cjson) (accessKey : Option CString) : Store cjson × Except Err Unit :=
  match accessKey with
  | none => (s, .error .invalidArg)
  | some key =>
    match findIndex s.credentials key with
    | none => (s, .error .notFound)
    | some i => (Store.save { s with credentials := removeAt s.credentials i }, .ok ())

/-- `buckets_credentials_set_enabled`. -/
def setEnabled (s : Store cjson) (accessKey : Option CString) (enabled : Bool) :
    Store cjson × Except Err Unit :=
  match accessKey with
  | none => (s, .error .invalidArg)
  | some key =>
    match findIndex s.credentials key with
    | none => (s, .error .notFound)
    | some i =>
      (Store.save { s with
        credentials := s.credentials.modify i fun c => { c with enabled := enabled } }, .ok ())

/-! ## 4. What the store is for -/

/-- A secret that was issued, and whether it is good. -/
structure Issued where
  secret : CString
  enabled : Bool
  deriving DecidableEq, Repr

/-- The secrets by access key. -/
abbrev Ledger := CString → Option Issued

/-- What an entry of the store stands for. -/
def Credential.issued (c : Credential) : Issued := ⟨c.secretKey, c.enabled⟩

/-- The default keys have been issued. -/
def Ledger.initial : Ledger := fun key =>
  (findCredential defaultCredentials key).map Credential.issued

inductive Request where
  | create (name policy : Option CString) (accessKeyLen secretKeyLen : Option ℕ) (random : Random)
  | delete (accessKey : Option CString)
  | setEnabled (accessKey : Option CString) (enabled : Bool)

/-- A key and its secret were handed out. -/
def Ledger.created (ledger : Ledger) : Except Err (CString × CString) → Ledger
  | .ok (key, secret) => Function.update ledger key (some ⟨secret, true⟩)
  | .error _ => ledger

def Ledger.deleted (ledger : Ledger) : Option CString → Except Err Unit → Ledger
  | some key, .ok _ => Function.update ledger key none
  | _, _ => ledger

def Ledger.switched (ledger : Ledger) (enabled : Bool) : Option CString → Except Err Unit → Ledger
  | some key, .ok _ =>
    Function.update ledger key
      ((ledger key).map fun issued => { issued with enabled := enabled })
  | _, _ => ledger

/-- One call: what it does to the store, and what its answer enters in the ledger. -/
def step (state : Store cjson × Ledger) : Request → Store cjson × Ledger
  | .create name policy accessKeyLen secretKeyLen random =>
    let result := create state.1 name policy accessKeyLen secretKeyLen random
    (result.1, state.2.created result.2)
  | .delete accessKey =>
    let result := delete state.1 accessKey
    (result.1, state.2.deleted accessKey result.2)
  | .setEnabled accessKey enabled =>
    let result := setEnabled state.1 accessKey enabled
    (result.1, state.2.switched enabled accessKey result.2)

/-- A run of the store from the start, without a file. -/
def run (cjson : CJson) (now : ℕ) (requests : List Request) : Store cjson × Ledger :=
  requests.foldl step (credentialsInit cjson none now, Ledger.initial)

end

/-! ## 5. Finding, removing and changing an entry -/

/-- **The index found** is that of the only entry so far with the key. -/
theorem findIndex_some {creds : List Credential} {key : CString} {i : ℕ}
    (h : findIndex creds key = some i) : ∃ front c back, creds = front ++ c :: back ∧
      front.length = i ∧ c.accessKey = key ∧ ∀ c' ∈ front, c'.accessKey ≠ key := by
  induction creds generalizing i with
  | nil => cases h
  | cons c creds ih =>
    rw [findIndex, List.findIdx?_cons] at h
    split at h
    · rename_i hc
      obtain rfl := Option.some.inj h
      refine ⟨[], c, creds, rfl, rfl, beq_iff_eq.mp hc, ?_⟩
      intro c' hc'
      cases hc'
    · rename_i hc
      obtain ⟨j, hj, rfl⟩ := Option.map_eq_some_iff.mp h
      obtain ⟨front, d, back, rfl, rfl, hd, hfront⟩ := ih hj
      refine ⟨c :: front, d, back, rfl, rfl, hd, ?_⟩
      intro c' hc'
      rcases List.mem_cons.mp hc' with rfl | hc'
      · intro heq
        exact hc (beq_iff_eq.mpr heq)
      · exact hfront c' hc'

theorem findCredential_append (front back : List Credential) (key : CString) :
    findCredential (front ++ back) key =
      (findCredential front key).or (findCredential back key) := List.find?_append

theorem findCredential_cons (c : Credential) (creds : List Credential) (key : CString) :
    findCredential (c :: creds) key =
      if c.accessKey = key then some c else findCredential creds key := by
  rw [findCredential, List.find?_cons]
  by_cases h : c.accessKey = key
  · rw [if_pos h, Credential.hasKey, beq_iff_eq.mpr h]
  · rw [if_neg h, Credential.hasKey, beq_eq_false_iff_ne.mpr h]
    rfl

theorem findCredential_eq_none {creds : List Credential} {key : CString} :
    findCredential creds key = none ↔ key ∉ creds.map Credential.accessKey := by
  rw [findCredential, List.find?_eq_none, List.mem_map]
  constructor
  · rintro h ⟨c, hc, hkey⟩
    exact h c hc (beq_iff_eq.mpr hkey)
  · intro h c hc hkey
    exact h ⟨c, hc, beq_iff_eq.mp hkey⟩

theorem set_append_cons (front : List Credential) (c d : Credential) (back : List Credential) :
    (front ++ c :: back).set front.length d = front ++ d :: back := by
  rw [List.set_append_right _ _ (Nat.le_refl _), Nat.sub_self, List.set_cons_zero]

/-- **Moving down** puts every entry behind one place further to the front; the last one is left
twice. -/
theorem shift_eq (front : List Credential) (c : Credential) (back : List Credential) :
    shift front.length back.length (front ++ c :: back) =
      front ++ back ++ [(c :: back).getLast (List.cons_ne_nil _ _)] := by
  -- by induction on what is behind: after one move the entry moved belongs to the front
  induction back generalizing front c with
  | nil => simp [shift]
  | cons d back ih =>
    have hnext : (front ++ c :: d :: back).getD (front.length + 1) .zero = d := by
      simp [List.getD_eq_getElem?_getD]
    have h := ih (front ++ [d]) d
    rw [List.length_append, List.length_singleton] at h
    rw [List.length_cons, shift, hnext, set_append_cons]
    simp only [List.append_assoc, List.singleton_append] at h
    rw [h, List.getLast_cons (List.cons_ne_nil _ _)]
    simp

theorem removeAt_eq (front : List Credential) (c : Credential) (back : List Credential) :
    removeAt (front ++ c :: back) front.length = front ++ back := by
  have hlen : (front ++ c :: back).length - 1 = (front ++ back).length := by simp
  have hbehind : (front ++ back).length - front.length = back.length := by simp
  rw [removeAt, hlen, hbehind, set_append_cons, shift_eq]
  exact List.take_left

theorem modify_append_cons (front : List Credential) (c : Credential) (back : List Credential)
    (f : Credential → Credential) :
    (front ++ c :: back).modify front.length f = front ++ f c :: back := by
  induction front with
  | nil => rfl
  | cons d front ih => simpa using ih

/-! ## 6. A new key -/

/-- **Before the hundredth attempt**, the loop ends with a key that nobody has. -/
theorem createKey_fresh (creds : List Credential) (random : Random) (n attempts : ℕ)
    (h : (createKey creds random attempts n).2 < attempts + n + 1) :
    findCredential creds (createKey creds random attempts n).1 = none := by
  induction n generalizing attempts with
  | zero => exact absurd h (Nat.lt_irrefl _)
  | succ n ih =>
    rw [createKey] at h ⊢
    split
    · rename_i htaken
      rw [if_pos htaken] at h
      refine ih (attempts + 1) ?_
      omega
    · rename_i hfree
      rw [Option.not_isSome_iff_eq_none] at hfree
      exact hfree

theorem createKey_eq (creds : List Credential) (random : Random) (n attempts : ℕ) :
    ∃ attempt, (createKey creds random attempts n).1 = random.accessKey attempt := by
  induction n generalizing attempts with
  | zero => exact ⟨attempts, rfl⟩
  | succ n ih =>
    rw [createKey]
    split
    · exact ih (attempts + 1)
    · exact ⟨attempts, rfl⟩

theorem length_accessKey (random : Random) (attempt : ℕ) :
    (random.accessKey attempt).length = 20 := by
  rw [Random.accessKey, generateKey, List.length_map, Vector.length_toList]

theorem length_secretKey (random : Random) : random.secretKey.length = 40 := by
  rw [Random.secretKey, generateKey, List.length_map, Vector.length_toList]

/-! ## 7. An entry in the file -/

/-- The texts of an entry fit its arrays. -/
structure Credential.Fits (c : Credential) : Prop where
  accessKey : c.accessKey.length < 128
  secretKey : c.secretKey.length < 128
  name : c.name.length < 256
  policy : c.policy.length < 64

theorem length_charArray_lt {size : ℕ} (h : 0 < size) (s : CString) :
    (charArray size s).length < size := by
  rw [charArray, List.length_take]
  omega

theorem fits_newCredential (name policy : Option CString) (key secret : CString) (now : ℕ) :
    (newCredential name policy key secret now).Fits where
  accessKey := length_charArray_lt (by decide) _
  secretKey := length_charArray_lt (by decide) _
  name := length_charArray_lt (by decide) _
  policy := length_charArray_lt (by decide) _

theorem fits_default : ∀ c ∈ defaultCredentials, c.Fits := by
  intro c hc
  simp only [defaultCredentials, List.mem_cons, List.not_mem_nil, or_false] at hc
  rcases hc with rfl | rfl
  · exact ⟨by decide, by decide, by decide, by decide⟩
  · exact ⟨by decide, by decide, by decide, by decide⟩

/-- What is read back: the times go through `double`. -/
def Credential.reread (c : Credential) : Credential :=
  { c with created := (Double.ofInt c.created).val, lastUsed := (Double.ofInt c.lastUsed).val }

theorem timeItem_eq {j : Json} {name : CString} {t : ℤ}
    (h : j.getObjectItem name = some (.int t)) : timeItem j name = (Double.ofInt t).val := by
  rw [timeItem, h]
  rfl

/-- **An entry is read back.** -/
theorem credentialFromJson_toJson {c : Credential} (h : c.Fits) :
    credentialFromJson (credentialToJson c) = some c.reread := by
  have hitem : ∀ {name v}, (name, v) ∈ [(cstr "access_key", some (Json.string c.accessKey)),
      (cstr "secret_key", some (.string c.secretKey)), (cstr "name", some (.string c.name)),
      (cstr "policy", some (.string c.policy)), (cstr "created", some (.int c.created)),
      (cstr "last_used", some (.int c.lastUsed)), (cstr "enabled", some (.bool c.enabled))] →
      (credentialToJson c).getObjectItem name = v := by
    intro name v hmem
    exact Json.getObjectItem_mkObject
      (by simp only [Json.names, List.map_cons, List.map_nil]; decide) hmem
  have hkey : (credentialToJson c).stringItem (cstr "access_key") = some c.accessKey :=
    Json.stringItem_eq (hitem (by simp))
  have hsecret : (credentialToJson c).stringItem (cstr "secret_key") = some c.secretKey :=
    Json.stringItem_eq (hitem (by simp))
  have hname : (credentialToJson c).stringItem (cstr "name") = some c.name :=
    Json.stringItem_eq (hitem (by simp))
  have hpolicy : (credentialToJson c).stringItem (cstr "policy") = some c.policy :=
    Json.stringItem_eq (hitem (by simp))
  have hcreated : timeItem (credentialToJson c) (cstr "created") = (Double.ofInt c.created).val :=
    timeItem_eq (hitem (by simp))
  have hlastUsed :
      timeItem (credentialToJson c) (cstr "last_used") = (Double.ofInt c.lastUsed).val :=
    timeItem_eq (hitem (by simp))
  have henabled : (credentialToJson c).getObjectItem (cstr "enabled") = some (.bool c.enabled) :=
    hitem (by simp)
  rw [credentialFromJson, hkey, hsecret]
  dsimp only
  rw [hname, hpolicy, hcreated, hlastUsed, henabled, Option.map_some, Option.getD_some,
    Option.getD_some, charArray_of_lt h.accessKey, charArray_of_lt h.secretKey,
    charArray_of_lt h.name, charArray_of_lt h.policy]
  cases hc : c.enabled <;> simp [Credential.reread, Json.asBool, hc]

theorem filterMap_toJson {creds : List Credential} (h : ∀ c ∈ creds, c.Fits) :
    (creds.map credentialToJson).filterMap credentialFromJson = creds.map Credential.reread := by
  rw [List.filterMap_map, ← List.filterMap_eq_map]
  refine List.filterMap_congr ?_
  intro c hc
  exact credentialFromJson_toJson (h c hc)

/-- **The file loads** as the entries it was made from. -/
theorem credentialsInit_save {cjson : CJson} {creds : List Credential} (h : ∀ c ∈ creds, c.Fits)
    (now : ℕ) :
    (credentialsInit cjson (some (cjson.print (credentialsToJson creds))) now).credentials =
      creds.map Credential.reread := by
  have harray : (credentialsToJson creds).arrayItem (cstr "credentials") =
      some (creds.map credentialToJson) :=
    Json.arrayItem_eq (Json.getObjectItem_mkObject
      (by simp only [Json.names, List.map_cons, List.map_nil]; decide) (by simp))
  simp only [credentialsInit, credentialsFromJson, cjson.parse_print, Option.bind_some, harray,
    Option.map_some, Option.getD_some]
  exact filterMap_toJson h

/-! ## 8. Runs -/

variable {cjson : CJson}

/-- The store is in line with the ledger, and so is its file. -/
structure Inv (s : Store cjson) (ledger : Ledger) : Prop where
  nodup : (s.credentials.map Credential.accessKey).Nodup
  capacity_pos : 0 < s.capacity
  count_le : s.credentials.length ≤ s.capacity
  count_le_max : s.credentials.length ≤ maxCredentials
  fits : ∀ c ∈ s.credentials, c.Fits
  issued : ∀ key, (findCredential s.credentials key).map Credential.issued = ledger key
  saved : s.file = some (cjson.print (credentialsToJson s.credentials))

theorem Inv.init (now : ℕ) : Inv (credentialsInit cjson none now) Ledger.initial := by
  have hfind : ∀ (creds : List Credential) key,
      (findCredential (creds.map fun c => { c with created := (now : ℤ) }) key).map
        Credential.issued = (findCredential creds key).map Credential.issued := by
    intro creds key
    induction creds with
    | nil => rfl
    | cons c creds ih =>
      rw [List.map_cons, findCredential_cons, findCredential_cons]
      dsimp only
      split
      · rfl
      · exact ih
  have hkeys : (defaultCredentials.map Credential.accessKey).Nodup := by decide
  refine ⟨?_, by simp [credentialsInit, Store.save], by simp [credentialsInit, Store.save,
    defaultCredentials],
    by simp [credentialsInit, Store.save, defaultCredentials, maxCredentials], ?_,
    hfind defaultCredentials, rfl⟩
  · simp only [credentialsInit, Store.save, List.map_map]
    exact hkeys
  · intro c hc
    obtain ⟨d, hd, rfl⟩ := List.mem_map.mp hc
    have h := fits_default d hd
    exact ⟨h.accessKey, h.secretKey, h.name, h.policy⟩

/-- A larger array is as good. -/
theorem Inv.grow {s : Store cjson} {ledger : Ledger} (h : Inv s ledger) :
    ∃ capacity, Inv { s with capacity := capacity } ledger ∧ s.credentials.length < capacity ∧
      (if s.capacity ≤ s.credentials.length then { s with capacity := s.capacity * 2 } else s) =
        { s with capacity := capacity } := by
  have hpos := h.capacity_pos
  have hle := h.count_le
  split
  · refine ⟨s.capacity * 2, { h with capacity_pos := ?_, count_le := ?_ }, ?_, rfl⟩
    · show 0 < s.capacity * 2
      omega
    · show s.credentials.length ≤ s.capacity * 2
      omega
    · omega
  · exact ⟨s.capacity, h, by omega, rfl⟩

/-- One more entry, with a key that nobody has. -/
theorem Inv.append {s : Store cjson} {ledger : Ledger} (h : Inv s ledger) {c : Credential}
    (hroom : s.credentials.length < s.capacity) (hmax : s.credentials.length < maxCredentials)
    (hfits : c.Fits) (hnew : findCredential s.credentials c.accessKey = none) :
    Inv (Store.save { s with credentials := s.credentials ++ [c] })
      (Function.update ledger c.accessKey (some c.issued)) where
  nodup := by
    show ((s.credentials ++ [c]).map Credential.accessKey).Nodup
    rw [List.map_append, List.map_singleton, List.nodup_append]
    refine ⟨h.nodup, List.nodup_singleton _, ?_⟩
    rintro key hkey _ hlast rfl
    rw [List.mem_singleton] at hlast
    rw [hlast] at hkey
    exact findCredential_eq_none.mp hnew hkey
  capacity_pos := h.capacity_pos
  count_le := by
    show (s.credentials ++ [c]).length ≤ s.capacity
    rw [List.length_append, List.length_singleton]
    exact hroom
  count_le_max := by
    show (s.credentials ++ [c]).length ≤ maxCredentials
    rw [List.length_append, List.length_singleton]
    exact hmax
  fits := by
    intro d hd
    rcases List.mem_append.mp hd with hd | hd
    · exact h.fits d hd
    · rw [List.mem_singleton.mp hd]
      exact hfits
  issued := by
    intro key
    show (findCredential (s.credentials ++ [c]) key).map Credential.issued = _
    rw [findCredential_append, findCredential_cons, Function.update_apply]
    by_cases hkey : key = c.accessKey
    · rw [if_pos hkey, if_pos hkey.symm, hkey, hnew]
      rfl
    · rw [if_neg hkey, if_neg (Ne.symm hkey), ← h.issued key]
      cases findCredential s.credentials key <;> rfl
  saved := rfl

/-- **One entry changed or removed**: `middle` is what is in its place afterwards. -/
theorem Inv.replace {s : Store cjson} {ledger : Ledger} (h : Inv s ledger)
    {front back : List Credential} {c : Credential} (hcreds : s.credentials = front ++ c :: back)
    {middle : Option Credential} (hkey : ∀ d ∈ middle, d.accessKey = c.accessKey)
    (hfits : ∀ d ∈ middle, d.Fits) :
    Inv (Store.save { s with credentials := front ++ middle.toList ++ back })
      (Function.update ledger c.accessKey (middle.map Credential.issued)) := by
  have hnodup := h.nodup
  have hlen := congrArg List.length hcreds
  have hcount := h.count_le
  have hmax := h.count_le_max
  rw [hcreds, List.map_append, List.map_cons] at hnodup
  rw [List.length_append, List.length_cons] at hlen
  have hmiddle : middle.toList.length ≤ 1 := by cases middle <;> simp
  have hcopy : (front ++ middle.toList ++ back).length ≤ s.credentials.length := by
    simp only [List.length_append]
    omega
  -- the key of the entry is in neither part
  have hout : findCredential front c.accessKey = none ∧ findCredential back c.accessKey = none := by
    rw [findCredential_eq_none, findCredential_eq_none]
    have hsplit := List.nodup_append.mp hnodup
    refine ⟨?_, (List.nodup_cons.mp hsplit.2.1).1⟩
    intro hmem
    exact hsplit.2.2 _ hmem _ List.mem_cons_self rfl
  refine ⟨?_, h.capacity_pos, hcopy.trans hcount, hcopy.trans hmax, ?_, ?_, rfl⟩
  · show ((front ++ middle.toList ++ back).map Credential.accessKey).Nodup
    have hsub : (middle.toList.map Credential.accessKey).Sublist [c.accessKey] := by
      cases middle with
      | none => exact List.nil_sublist _
      | some d => simp [hkey d rfl]
    rw [List.map_append, List.map_append, List.append_assoc]
    refine List.Nodup.sublist ?_ hnodup
    exact (List.Sublist.refl _).append (hsub.append (List.Sublist.refl _))
  · intro d hd
    rcases List.mem_append.mp hd with hd | hd
    · rcases List.mem_append.mp hd with hd | hd
      · exact h.fits d (by rw [hcreds]; exact List.mem_append_left _ hd)
      · exact hfits d (by simpa using hd)
    · exact h.fits d (by rw [hcreds]; exact List.mem_append_right _ (List.mem_cons_of_mem _ hd))
  · intro key
    have hold := h.issued key
    rw [hcreds, findCredential_append, findCredential_cons] at hold
    show (findCredential (front ++ middle.toList ++ back) key).map Credential.issued = _
    rw [List.append_assoc, findCredential_append, findCredential_append, Function.update_apply]
    by_cases hc : key = c.accessKey
    · rw [if_pos hc, hc, hout.1, hout.2]
      cases middle with
      | none => rfl
      | some d => simp [findCredential_cons, hkey d rfl]
    · rw [if_neg hc, ← hold, if_neg (Ne.symm hc)]
      cases middle with
      | none => rfl
      | some d =>
        have hd : ¬d.accessKey = key := by
          rw [hkey d rfl]
          exact Ne.symm hc
        rw [Option.toList_some, findCredential_cons, if_neg hd]
        rfl

/-- **What a create can do**: fail, having perhaps made the array larger, or enter a new key. -/
theorem create_cases {s : Store cjson} {ledger : Ledger} (h : Inv s ledger)
    (name policy : Option CString) (accessKeyLen secretKeyLen : Option ℕ) (random : Random) :
    ∃ grown : Store cjson, Inv grown ledger ∧
      ((∃ err, create s name policy accessKeyLen secretKeyLen random = (grown, .error err)) ∨
        ∃ key, key.length = 20 ∧ findCredential grown.credentials key = none ∧
          grown.credentials.length < grown.capacity ∧
          grown.credentials.length < maxCredentials ∧
          create s name policy accessKeyLen secretKeyLen random =
            (Store.save { grown with credentials := grown.credentials ++
              [newCredential name policy key random.secretKey random.now] },
              .ok (key, random.secretKey))) := by
  unfold create
  split
  · rename_i keyLen secretLen
    split
    · exact ⟨s, h, .inl ⟨_, rfl⟩⟩
    · rename_i hlens
      split
      · exact ⟨s, h, .inl ⟨_, rfl⟩⟩
      · rename_i hmax
        obtain ⟨capacity, hgrown, hroom, heq⟩ := h.grow
        rw [heq]
        dsimp only
        refine ⟨_, hgrown, ?_⟩
        split
        · exact .inl ⟨_, rfl⟩
        · rename_i hattempts
          obtain ⟨attempt, hkey⟩ := createKey_eq s.credentials random 99 0
          have hfresh := createKey_fresh s.credentials random 99 0 (by omega)
          have hlen := length_accessKey random attempt
          have hsecret := length_secretKey random
          rw [hkey] at hfresh ⊢
          refine .inr ⟨_, hlen, hfresh, hroom, Nat.lt_of_not_le hmax, ?_⟩
          rw [charArray_of_lt (by omega), charArray_of_lt (by omega)]
  · exact ⟨s, h, .inl ⟨_, rfl⟩⟩

theorem Inv.create {s : Store cjson} {ledger : Ledger} (h : Inv s ledger)
    (name policy : Option CString) (accessKeyLen secretKeyLen : Option ℕ) (random : Random) :
    Inv (create s name policy accessKeyLen secretKeyLen random).1
      (ledger.created (create s name policy accessKeyLen secretKeyLen random).2) := by
  obtain ⟨grown, hgrown, ⟨err, heq⟩ | ⟨key, hlen, hnew, hroom, hmax, heq⟩⟩ :=
    create_cases h name policy accessKeyLen secretKeyLen random
  · rw [heq]
    exact hgrown
  · have hkey : charArray 128 key = key := charArray_of_lt (by omega)
    have hsecret : charArray 128 random.secretKey = random.secretKey :=
      charArray_of_lt (by rw [length_secretKey]; decide)
    have hadded := hgrown.append hroom hmax
      (fits_newCredential name policy key random.secretKey random.now)
      (by rw [newCredential, hkey]; exact hnew)
    rw [Credential.issued, newCredential, hkey, hsecret] at hadded
    rw [heq, Ledger.created, newCredential, hkey, hsecret]
    exact hadded

theorem Inv.delete {s : Store cjson} {ledger : Ledger} (h : Inv s ledger)
    (accessKey : Option CString) :
    Inv (delete s accessKey).1 (ledger.deleted accessKey (delete s accessKey).2) := by
  cases accessKey with
  | none => exact h
  | some key =>
    unfold Credentials.delete
    dsimp only
    cases hfind : findIndex s.credentials key with
    | none => exact h
    | some i =>
      obtain ⟨front, c, back, hcreds, rfl, rfl, -⟩ := findIndex_some hfind
      have hgone := @Inv.replace _ s ledger h front back c hcreds none (by simp) (by simp)
      rw [Option.toList_none, List.append_nil] at hgone
      dsimp only
      rw [hcreds, removeAt_eq]
      exact hgone

theorem Inv.setEnabled {s : Store cjson} {ledger : Ledger} (h : Inv s ledger)
    (accessKey : Option CString) (enabled : Bool) :
    Inv (setEnabled s accessKey enabled).1
      (ledger.switched enabled accessKey (setEnabled s accessKey enabled).2) := by
  cases accessKey with
  | none => exact h
  | some key =>
    unfold Credentials.setEnabled
    dsimp only
    cases hfind : findIndex s.credentials key with
    | none => exact h
    | some i =>
      obtain ⟨front, c, back, hcreds, rfl, rfl, hfront⟩ := findIndex_some hfind
      have hc := h.fits c (by rw [hcreds]; exact List.mem_append_right _ List.mem_cons_self)
      have hledger : ledger c.accessKey = some c.issued := by
        have hnone : findCredential front c.accessKey = none := by
          rw [findCredential_eq_none, List.mem_map]
          rintro ⟨d, hd, heq⟩
          exact hfront d hd heq
        rw [← h.issued, hcreds, findCredential_append, hnone, findCredential_cons, if_pos rfl]
        rfl
      have hset := @Inv.replace _ s ledger h front back c hcreds
        (some { c with enabled := enabled }) (by simp)
        (by simpa using ⟨hc.accessKey, hc.secretKey, hc.name, hc.policy⟩)
      rw [Option.toList_some, List.append_assoc, List.singleton_append] at hset
      dsimp only [Ledger.switched]
      rw [hcreds, modify_append_cons, hledger]
      exact hset

/-- **Every call keeps the store in line with the ledger.** -/
theorem Inv.step {s : Store cjson} {ledger : Ledger} (h : Inv s ledger) (request : Request) :
    Inv (step (s, ledger) request).1 (step (s, ledger) request).2 := by
  cases request with
  | create name policy accessKeyLen secretKeyLen random =>
    exact h.create name policy accessKeyLen secretKeyLen random
  | delete accessKey => exact h.delete accessKey
  | setEnabled accessKey enabled => exact h.setEnabled accessKey enabled

theorem Inv.steps {state : Store cjson × Ledger} (h : Inv state.1 state.2)
    (requests : List Request) :
    Inv (requests.foldl Credentials.step state).1 (requests.foldl Credentials.step state).2 := by
  induction requests generalizing state with
  | nil => exact h
  | cons request requests ih => exact ih (h.step request)

/-- **A secret is found exactly for the good keys.** -/
theorem Inv.getSecret {s : Store cjson} {ledger : Ledger} (h : Inv s ledger) (key : CString)
    {secretLen : ℕ} (hpos : 0 < secretLen)
    (hlen : ∀ issued, ledger key = some issued → issued.secret.length < secretLen) :
    getSecret s.credentials (some key) (some secretLen) =
      match ledger key with
      | none => .error .notFound
      | some issued => if issued.enabled then .ok issued.secret else .error .accessDenied := by
  obtain ⟨n, rfl⟩ : ∃ n, secretLen = n + 1 := ⟨secretLen - 1, by omega⟩
  have hissued := h.issued key
  rw [Credentials.getSecret]
  cases hfind : findCredential s.credentials key with
  | none =>
    rw [hfind] at hissued
    rw [← hissued]
    rfl
  | some c =>
    rw [hfind, Option.map_some] at hissued
    have hfit : c.secretKey.length < n + 1 := hlen _ hissued.symm
    rw [← hissued]
    dsimp only
    rw [charArray_of_lt hfit]
    rfl

/-- What a credential is, to those who use it. -/
def Credential.view (c : Credential) : CString × CString × CString × Bool :=
  (c.accessKey, c.secretKey, c.policy, c.enabled)

/-- **The store over any run** of creates, deletes and changes of the flag, from a start without a
file, with any random bytes: no two entries have the same key; the count is within the array and
within the limit; with a buffer that holds it, the secret is given out EXACTLY for the keys that
were issued, not deleted, and not disabled since, and it is the one that was issued; and a new
process that loads the file has the same keys, secrets, policies and flags. -/
theorem credentials_run (cjson : CJson) (now : ℕ) (requests : List Request) :
    ((run cjson now requests).1.credentials.map Credential.accessKey).Nodup ∧
      (run cjson now requests).1.credentials.length ≤ (run cjson now requests).1.capacity ∧
      (run cjson now requests).1.credentials.length ≤ maxCredentials ∧
      (∀ key, (findCredential (run cjson now requests).1.credentials key).isSome =
        ((run cjson now requests).2 key).isSome) ∧
      (∀ (key : CString) (secretLen : ℕ), 0 < secretLen →
        (∀ issued, (run cjson now requests).2 key = some issued →
          issued.secret.length < secretLen) →
        getSecret (run cjson now requests).1.credentials (some key) (some secretLen) =
          match (run cjson now requests).2 key with
          | none => .error .notFound
          | some issued => if issued.enabled then .ok issued.secret else .error .accessDenied) ∧
      ∀ later, (credentialsInit cjson (run cjson now requests).1.file later).credentials.map
          Credential.view = (run cjson now requests).1.credentials.map Credential.view := by
  have h : Inv (run cjson now requests).1 (run cjson now requests).2 :=
    Inv.steps (Inv.init now) requests
  refine ⟨h.nodup, h.count_le, h.count_le_max, ?_, ?_, ?_⟩
  · intro key
    rw [← h.issued key, Option.isSome_map]
  · intro key secretLen hpos hlen
    exact h.getSecret key hpos hlen
  · intro later
    rw [h.saved, credentialsInit_save h.fits later, List.map_map]
    rfl

/-- Random bytes that are all 0. -/
def Random.zeros : Random := ⟨fun _ => Vector.replicate 20 0, Vector.replicate 40 0, 0⟩

/-- A key for reading, created and then disabled: its secret is there before and not after. -/
theorem credentials_run_disabled :
    getSecret (run .reference 0 [.create none (some (cstr "readonly")) (some 128) (some 128)
        .zeros]).1.credentials (some (List.replicate 20 65)) (some 128) =
      .ok (List.replicate 40 65) ∧
    getSecret (run .reference 0 [.create none (some (cstr "readonly")) (some 128) (some 128)
        .zeros, .setEnabled (some (List.replicate 20 65)) false]).1.credentials
          (some (List.replicate 20 65)) (some 128) = .error .accessDenied := by
  have hissued : (run .reference 0 [.create none (some (cstr "readonly")) (some 128) (some 128)
      .zeros]).2 (List.replicate 20 65) = some ⟨List.replicate 40 65, true⟩ := by
    decide +kernel
  have hdisabled : (run .reference 0 [.create none (some (cstr "readonly")) (some 128) (some 128)
      .zeros, .setEnabled (some (List.replicate 20 65)) false]).2 (List.replicate 20 65) =
      some ⟨List.replicate 40 65, false⟩ := by
    decide +kernel
  obtain ⟨-, -, -, -, hsecret, -⟩ := credentials_run .reference 0
    [.create none (some (cstr "readonly")) (some 128) (some 128) .zeros]
  obtain ⟨-, -, -, -, hdenied, -⟩ := credentials_run .reference 0
    [.create none (some (cstr "readonly")) (some 128) (some 128) .zeros,
      .setEnabled (some (List.replicate 20 65)) false]
  have h1 := hsecret (List.replicate 20 65) 128 (by decide) (by rw [hissued]; simp)
  have h2 := hdenied (List.replicate 20 65) 128 (by decide) (by rw [hdisabled]; simp)
  rw [hissued] at h1
  rw [hdisabled] at h2
  exact ⟨h1, h2⟩

end Buckets.Credentials
