/-
# `buckets_s3_parse_request`: the query parameters and their buffers

`S3Request.lean` has the pairs of a query string as they are decoded (`parseQuery`).  The code
decodes each key into `char decoded_key[256]` and each value into `char decoded_value[1024]`, with
`url_decode`, which is NOT GIVEN the size of its destination; and the HTTP layer puts no limit on a
URL.  What is stored is a copy of the buffer up to its first zero, and `%00` decodes to one.

The arrays of the pairs are as long as a first pass over the string counts, one more than its
ampersands.  That is enough: `strtok_r` leaves the empty pairs out (`length_strtok_le`).

`params_stored_iff` says for which requests every write is inside its buffer and the stored pairs
are the decoded ones.
-/
import Mathlib.Data.List.TakeWhile
import Buckets.S3Request
import Buckets.UrlCoding

namespace Buckets.QueryParams

open CStr
open UrlCoding (put terminate put_of_lt terminate_of_lt)

/-! ## 1. The parser -/

/-- The loop of `url_decode` of `s3_handler.c`, at the rest of the string, into a buffer of `size`
bytes; `none` if it writes outside of it. -/
def decodeInto (size : ℕ) : CString → Bytes → Option Bytes
  | 37 :: a :: b :: src, dst =>
    match hexValue a, hexValue b with
    | some x, some y => (put size dst (UInt8.ofNat (16 * x + y))).bind (decodeInto size src)
    | _, _ => (put size dst 37).bind (decodeInto size (a :: b :: src))
  | 43 :: src, dst => (put size dst 32).bind (decodeInto size src)
  | c :: src, dst => (put size dst c).bind (decodeInto size src)
  | [], dst => some dst

/-- `url_decode`, and the copy `buckets_strdup` makes of the buffer. -/
def decodeCopy (size : ℕ) (src : CString) : Option CString :=
  (decodeInto size src []).bind (terminate size)

/-- One pair: what is decoded into `decoded_key` and `decoded_value`. -/
def decodePair (pair : CString) : Option (CString × CString) :=
  match CStr.strchr pair 61 with
  | some equals =>
    (decodeCopy 256 (before pair 61)).bind fun key =>
      (decodeCopy 1024 equals.tail).map fun value => (key, value)
  | none => (decodeCopy 256 pair).map fun key => (key, [])

/-- The loop over the pairs, into arrays of `count` elements. -/
def storePairs (count : ℕ) : List CString → List (CString × CString) →
    Option (List (CString × CString))
  | [], stored => some stored
  | pair :: rest, stored =>
    if stored.length < count then
      (decodePair pair).bind fun param => storePairs count rest (stored ++ [param])
    else some stored

/-- The parameters of a request: `none` if a write is outside of its buffer. -/
def queryParams (query : Option CString) : Option (List (CString × CString)) :=
  match query with
  | none => some []
  | some query =>
    let query := if query.head? = some 63 then query.tail else query
    storePairs (query.count 38 + 1) (strtok 38 query) []

/-! ## 2. The pairs -/

/-- The decoded key and value of a pair, all their bytes. -/
def decoded (pair : CString) : Bytes × Bytes :=
  match CStr.strchr pair 61 with
  | some equals => (urlDecodeBytes (before pair 61), urlDecodeBytes equals.tail)
  | none => (urlDecodeBytes pair, [])

/-- The non-empty pairs of a request's query string, in order. -/
def pairs (query : Option CString) : List CString :=
  match query with
  | none => []
  | some query => strtok 38 query.tail

/-- The key and the value fit their buffers. -/
def Fits (pair : CString) : Prop := (decoded pair).1.length < 256 ∧ (decoded pair).2.length < 1024

instance (pair : CString) : Decidable (Fits pair) := inferInstanceAs (Decidable (_ ∧ _))

/-- The key and the value have no zero byte. -/
def Textual (pair : CString) : Prop := 0 ∉ (decoded pair).1 ∧ 0 ∉ (decoded pair).2

/-! ## 3. Decoding into a buffer -/

/-- The loop writes the decoded bytes one by one. -/
theorem decodeInto_eq (size : ℕ) (src : CString) (dst : Bytes) :
    decodeInto size src dst = (urlDecodeBytes src).foldlM (put size) dst := by
  induction src using urlDecodeBytes.induct generalizing dst with
  | case1 a b src x y hx hy ih =>
    rw [decodeInto, urlDecodeBytes, hx, hy]
    dsimp only
    rw [List.foldlM_cons]
    exact congrArg _ (funext fun dst => ih dst)
  | case2 a b src hnot ih =>
    have hdecode : urlDecodeBytes (37 :: a :: b :: src) = 37 :: urlDecodeBytes (a :: b :: src) := by
      rw [urlDecodeBytes]
      split
      · exact (hnot _ _ ‹_› ‹_›).elim
      · rfl
    rw [decodeInto, hdecode, List.foldlM_cons]
    split
    · exact (hnot _ _ ‹_› ‹_›).elim
    · exact congrArg _ (funext fun dst => ih dst)
  | case3 src ih =>
    rw [decodeInto, urlDecodeBytes, List.foldlM_cons]
    exact congrArg _ (funext fun dst => ih dst)
  | case4 c src h1 h2 ih =>
    rw [decodeInto, urlDecodeBytes, List.foldlM_cons]
    · exact congrArg _ (funext fun dst => ih dst)
    all_goals assumption
  | case5 => rfl

theorem foldlM_put {size : ℕ} (bytes : Bytes) {dst : Bytes} (h : dst.length ≤ size) :
    bytes.foldlM (put size) dst =
      if dst.length + bytes.length ≤ size then some (dst ++ bytes) else none := by
  induction bytes generalizing dst with
  | nil => simp [h]
  | cons c bytes ih =>
    rw [List.foldlM_cons, List.length_cons]
    by_cases hlt : dst.length < size
    · rw [put_of_lt hlt]
      have ih := @ih (dst ++ [c]) (by simpa using hlt)
      simp only [List.length_append, List.length_singleton, List.append_assoc,
        List.singleton_append] at ih
      rw [Nat.add_comm bytes.length 1, ← Nat.add_assoc]
      exact ih
    · rw [put, if_neg hlt, if_neg (by omega)]
      rfl

/-- **A decoded string is copied exactly if it fits.** -/
theorem decodeCopy_eq {size : ℕ} (src : CString) :
    decodeCopy size src =
      if (urlDecodeBytes src).length < size then some (urlDecode src) else none := by
  rw [decodeCopy, decodeInto_eq, foldlM_put _ (Nat.zero_le _)]
  simp only [List.length_nil, Nat.zero_add, List.nil_append]
  by_cases hlt : (urlDecodeBytes src).length < size
  · rw [if_pos hlt.le, if_pos hlt]
    exact terminate_of_lt hlt
  · rw [if_neg hlt]
    split
    · rw [Option.bind_some, terminate, put, if_neg hlt]
      rfl
    · rfl

theorem decodePair_eq (pair : CString) :
    decodePair pair =
      if Fits pair then some (text (decoded pair).1, text (decoded pair).2) else none := by
  cases hequals : CStr.strchr pair 61 with
  | none =>
    simp only [decodePair, Fits, decoded, hequals, decodeCopy_eq]
    split <;> simp_all [urlDecode, text]
  | some equals =>
    simp only [decodePair, Fits, decoded, hequals, decodeCopy_eq]
    by_cases hkey : (urlDecodeBytes (before pair 61)).length < 256
    · by_cases hvalue : (urlDecodeBytes equals.tail).length < 1024
      · simp [hkey, hvalue, urlDecode]
      · simp [hkey, hvalue]
    · simp [hkey]

/-! ## 4. The loop over the pairs -/

/-- The first pass counts enough. -/
theorem length_strtok_le (c : UInt8) (s : CString) : (strtok c s).length ≤ s.count c + 1 := by
  have hsplit : (s.splitOn c).length = s.count c + 1 := by
    induction s with
    | nil => rfl
    | cons x s ih =>
      rw [List.splitOn, List.splitOnP_cons_eq_if_modifyHead, List.count_cons]
      rw [List.splitOn] at ih
      split
      · rw [List.length_cons, ih]
      · rw [List.length_modifyHead, ih, Nat.add_zero]
  exact (List.length_filter_le ..).trans hsplit.le

theorem storePairs_eq {count : ℕ} (tokens : List CString) {stored : List (CString × CString)}
    (h : stored.length + tokens.length ≤ count) :
    storePairs count tokens stored =
      if ∀ pair ∈ tokens, Fits pair then
        some (stored ++ tokens.map fun pair => (text (decoded pair).1, text (decoded pair).2))
      else none := by
  induction tokens generalizing stored with
  | nil => simp [storePairs]
  | cons pair rest ih =>
    rw [List.length_cons] at h
    rw [storePairs, if_pos (by omega), decodePair_eq]
    by_cases hfits : Fits pair
    · rw [if_pos hfits, Option.bind_some, ih (by simp; omega)]
      simp [hfits]
    · rw [if_neg hfits, if_neg fun hall => hfits (hall pair List.mem_cons_self)]
      rfl

theorem head_strchr {s rest : CString} {c : UInt8} (h : CStr.strchr s c = some rest) :
    rest.head? = some c := by
  rw [CStr.strchr] at h
  split at h
  · rename_i hmem
    obtain rfl := Option.some.inj h
    clear h
    induction s with
    | nil => cases hmem
    | cons x s ih =>
      by_cases hx : x = c
      · simp [hx]
      · have hmem' : c ∈ s := (List.mem_cons.mp hmem).resolve_left (Ne.symm hx)
        rw [List.dropWhile_cons_of_pos (by simpa using hx)]
        exact ih hmem'
  · cases h

/-- **What the parser does**, for the query string of a request. -/
theorem queryParams_eq (req : HttpRequest) :
    queryParams req.queryString =
      if ∀ pair ∈ pairs req.queryString, Fits pair then
        some ((pairs req.queryString).map fun pair =>
          (text (decoded pair).1, text (decoded pair).2))
      else none := by
  unfold queryParams pairs
  split
  · simp
  · rename_i query heq
    rw [if_pos (head_strchr heq), storePairs_eq _ (by simpa using length_strtok_le 38 query.tail)]
    simp

/-- The pairs of `S3Request.lean` are those that are stored. -/
theorem queryParams_parseQuery {req : HttpRequest} (h : ∀ pair ∈ pairs req.queryString, Fits pair) :
    queryParams req.queryString = some (parseQuery req.queryString) := by
  rw [queryParams_eq, if_pos h]
  cases req.queryString with
  | none => rfl
  | some query =>
    refine congrArg some (List.map_congr_left fun pair _ => ?_)
    unfold decoded
    cases CStr.strchr pair 61 <;> rfl

theorem text_eq_iff (s : Bytes) : text s = s ↔ 0 ∉ s := by
  rw [text, List.takeWhile_eq_self_iff]
  constructor
  · intro h hmem
    simpa using h 0 hmem
  · intro h c hc
    have hne : c ≠ 0 := fun h0 => h (h0 ▸ hc)
    simpa using hne

/-- **Which requests' parameters are stored as they are decoded**, with every write inside its
buffer: those whose keys and values fit and have no zero byte. -/
theorem params_stored_iff (req : HttpRequest) :
    queryParams req.queryString = some ((pairs req.queryString).map decoded) ↔
      ∀ pair ∈ pairs req.queryString, Fits pair ∧ Textual pair := by
  rw [queryParams_eq]
  constructor
  · intro h
    split at h
    · rename_i hfits
      have hall := List.map_inj_left.mp (Option.some.inj h)
      intro pair hpair
      obtain ⟨hkey, hvalue⟩ := Prod.ext_iff.mp (hall pair hpair)
      exact ⟨hfits pair hpair, (text_eq_iff _).mp hkey, (text_eq_iff _).mp hvalue⟩
    · cases h
  · intro h
    rw [if_pos fun pair hpair => (h pair hpair).1]
    refine congrArg some (List.map_congr_left fun pair hpair => ?_)
    obtain ⟨-, hkey, hvalue⟩ := h pair hpair
    exact Prod.ext ((text_eq_iff _).mpr hkey) ((text_eq_iff _).mpr hvalue)

/-- A request for `/b` with this query string. -/
def asking (query : CString) : HttpRequest := ⟨cstr "GET", cstr "/b?" ++ query, [], []⟩

/-- **A key of 256 bytes** is decoded past the end of its buffer; and of `k%00=v` the key is cut. -/
theorem params_long_key :
    queryParams (asking (List.replicate 256 97)).queryString = none ∧
      queryParams (asking (cstr "k%00x=v")).queryString = some [(cstr "k", cstr "v")] ∧
      (pairs (asking (cstr "k%00x=v")).queryString).map decoded = [([107, 0, 120], cstr "v")] := by
  decide +kernel

end Buckets.QueryParams
