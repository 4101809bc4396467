/-
# `storage/binary_transport.c`: the names in a chunk request

The object and the disk path of a chunk go to the other node in headers, percent-coded by
`url_encode` and read back by `url_decode`.  Each writes into a buffer of its own, at a place `p`
that moves on, and `put` is `none` for a write OUTSIDE the buffer.  A `sprintf` of three characters
writes four: the last is the terminator, over which the next write goes.

* `urlEncode_eq`, `urlDecode_eq`: every write is inside, for EVERY string;
* `urlDecode_urlEncode`: what was encoded is decoded.
-/
import Buckets.Json
import Buckets.Lib.CStr

namespace Buckets
namespace UrlCoding

open CStr

/-! ## 1. The two functions -/

/-- `*p++ = c` in a buffer of `size` bytes, with what is before `p`. -/
def put (size : ℕ) (p : Bytes) (c : UInt8) : Option Bytes :=
  if p.length < size then some (p ++ [c]) else none

/-- `sprintf(p, ..)` and `p += 3`. -/
def sprintf (size : ℕ) (p cs : Bytes) : Option Bytes :=
  if p.length + cs.length < size then some (p ++ cs) else none

/-- `*p = '\0'`, and the string that is there then. -/
def terminate (size : ℕ) (p : Bytes) : Option CString := (put size p 0).map text

/-- The characters `url_encode` leaves. -/
def isUnreserved (c : UInt8) : Bool :=
  (65 ≤ c && c ≤ 90) || (97 ≤ c && c ≤ 122) || (48 ≤ c && c ≤ 57) || c == 45 || c == 95 ||
    c == 46 || c == 126

/-- A digit of `%02X`. -/
def upperDigit (n : ℕ) : UInt8 := if n < 10 then UInt8.ofNat (48 + n) else UInt8.ofNat (55 + n)

/-- `"%%%02X"`. -/
def percent (c : UInt8) : CString := [37, upperDigit (c.toNat / 16), upperDigit (c.toNat % 16)]

/-- One turn of the loop of `url_encode`. -/
def encodeChar (size : ℕ) (p : Bytes) (c : UInt8) : Option Bytes :=
  if isUnreserved c then put size p c else sprintf size p (percent c)

/-- `url_encode`; `none` if it writes outside of its buffer. -/
def urlEncode (str : CString) : Option CString :=
  (str.foldlM (encodeChar (str.length * 3 + 1)) []).bind (terminate (str.length * 3 + 1))

/-- `sscanf(s, "%2x", &val) == 1`, and the `val`: of two digits it is their number. -/
structure ScanHex where
  scan : CString → Option ℕ
  scan_digits : ∀ {a b x y} s, hexValue a = some x → hexValue b = some y →
    scan (a :: b :: s) = some (16 * x + y)

/-- The loop of `url_decode`, at the rest of the string. -/
def decodeFrom (sscanf : ScanHex) (size : ℕ) : CString → Bytes → Option Bytes
  | [], p => some p
  | 37 :: a :: b :: s, p =>
    match sscanf.scan (a :: b :: s) with
    | some val => (put size p (UInt8.ofNat val)).bind (decodeFrom sscanf size s)
    | none => (put size p 37).bind (decodeFrom sscanf size (a :: b :: s))
  | 43 :: s, p => (put size p 32).bind (decodeFrom sscanf size s)
  | c :: s, p => (put size p c).bind (decodeFrom sscanf size s)

/-- `url_decode`; `none` if it writes outside of its buffer. -/
def urlDecode (sscanf : ScanHex) (str : CString) : Option CString :=
  (decodeFrom sscanf (str.length + 1) str []).bind (terminate (str.length + 1))

/-! ## 2. The writes are inside -/

theorem put_of_lt {size : ℕ} {p : Bytes} (h : p.length < size) (c : UInt8) :
    put size p c = some (p ++ [c]) := if_pos h

theorem terminate_of_lt {size : ℕ} {p : Bytes} (h : p.length < size) :
    terminate size p = some (text p) := by
  rw [terminate, put_of_lt h, Option.map_some, text_append_zero]

/-- What one character becomes. -/
def encoded (c : UInt8) : CString := if isUnreserved c then [c] else percent c

theorem length_encoded_le (c : UInt8) : (encoded c).length ≤ 3 := by
  rw [encoded]
  split <;> simp [percent]

theorem length_flatMap_encoded_le (str : CString) :
    (str.flatMap encoded).length ≤ str.length * 3 := by
  induction str with
  | nil => simp
  | cons c str ih =>
    have hc := length_encoded_le c
    simp only [List.flatMap_cons, List.length_append, List.length_cons]
    omega

theorem encodeChar_eq {size : ℕ} {p : Bytes} (h : p.length + 3 < size) (c : UInt8) :
    encodeChar size p c = some (p ++ encoded c) := by
  rw [encodeChar, encoded]
  split
  · exact put_of_lt (by omega) c
  · exact if_pos (by simpa [percent] using h)

theorem foldlM_encodeChar {size : ℕ} (str : CString) {p : Bytes}
    (h : p.length + str.length * 3 < size) :
    str.foldlM (encodeChar size) p = some (p ++ str.flatMap encoded) := by
  induction str generalizing p with
  | nil => simp
  | cons c str ih =>
    have hc := length_encoded_le c
    simp only [List.length_cons] at h
    have hp : (p ++ encoded c).length + str.length * 3 < size := by
      rw [List.length_append]
      omega
    simp [encodeChar_eq (show p.length + 3 < size by omega), ih hp]

/-- `url_encode` keeps to its buffer. -/
theorem urlEncode_eq (str : CString) : urlEncode str = some (text (str.flatMap encoded)) := by
  have h := length_flatMap_encoded_le str
  rw [urlEncode, foldlM_encodeChar str (by simp), Option.bind_some, List.nil_append,
    terminate_of_lt (by omega)]

/-- What `url_decode` writes, without the buffer. -/
def decoded (sscanf : ScanHex) : CString → Bytes
  | [] => []
  | 37 :: a :: b :: s =>
    match sscanf.scan (a :: b :: s) with
    | some val => UInt8.ofNat val :: decoded sscanf s
    | none => 37 :: decoded sscanf (a :: b :: s)
  | 43 :: s => 32 :: decoded sscanf s
  | c :: s => c :: decoded sscanf s

theorem length_decoded_le (sscanf : ScanHex) (s : CString) :
    (decoded sscanf s).length ≤ s.length := by
  fun_induction decoded sscanf s with
  | case1 => simp
  | case2 a b s val hv ih =>
    simp only [List.length_cons]
    omega
  | case3 a b s hv ih => simpa using ih
  | case4 s ih => simpa using ih
  | case5 c s h1 h2 ih => simpa using ih

theorem decodeFrom_eq (sscanf : ScanHex) {size : ℕ} (s : CString) {p : Bytes}
    (h : p.length + s.length ≤ size) :
    decodeFrom sscanf size s p = some (p ++ decoded sscanf s) := by
  fun_induction decoded sscanf s generalizing p with
  | case1 => simp [decodeFrom]
  | case2 a b s val hv ih =>
    simp only [List.length_cons] at h
    rw [decodeFrom, hv]
    simp [put_of_lt (show p.length < size by omega),
      ih (p := p ++ [UInt8.ofNat val]) (by simp; omega)]
  | case3 a b s hv ih =>
    simp only [List.length_cons] at h ih
    rw [decodeFrom, hv]
    simp [put_of_lt (show p.length < size by omega), ih (p := p ++ [37]) (by simp; omega)]
  | case4 s ih =>
    simp only [List.length_cons] at h
    rw [decodeFrom]
    simp [put_of_lt (show p.length < size by omega), ih (p := p ++ [32]) (by simp; omega)]
  | case5 c s h1 h2 ih =>
    simp only [List.length_cons] at h
    rw [decodeFrom.eq_4 _ _ _ _ _ h1 h2]
    simp [put_of_lt (show p.length < size by omega), ih (p := p ++ [c]) (by simp; omega)]

/-- `url_decode` keeps to its buffer. -/
theorem urlDecode_eq (sscanf : ScanHex) (str : CString) :
    urlDecode sscanf str = some (text (decoded sscanf str)) := by
  have h := length_decoded_le sscanf str
  rw [urlDecode, decodeFrom_eq sscanf str (by simp), Option.bind_some, List.nil_append,
    terminate_of_lt (by omega)]

/-! ## 3. The round trip -/

theorem hexValue_upperDigit {n : ℕ} (h : n < 16) : hexValue (upperDigit n) = some n := by
  interval_cases n <;> decide

theorem upperDigit_ne_zero {n : ℕ} (h : n < 16) : upperDigit n ≠ 0 := by
  interval_cases n <;> decide

theorem zero_notMem_encoded {c : UInt8} (hc : c ≠ 0) : ∀ d ∈ encoded c, d ≠ 0 := by
  have hn := c.toNat_lt
  intro d hd
  rw [encoded] at hd
  split at hd
  · simp_all
  · simp only [percent, List.mem_cons, List.not_mem_nil, or_false] at hd
    rcases hd with rfl | rfl | rfl
    · decide
    · exact upperDigit_ne_zero (by omega)
    · exact upperDigit_ne_zero (by omega)

theorem decoded_percent (sscanf : ScanHex) (c : UInt8) (s : CString) :
    decoded sscanf (percent c ++ s) = c :: decoded sscanf s := by
  have hn := c.toNat_lt
  have h1 := hexValue_upperDigit (show c.toNat / 16 < 16 by omega)
  have h2 := hexValue_upperDigit (show c.toNat % 16 < 16 by omega)
  simp only [percent, List.cons_append, List.nil_append]
  rw [decoded, sscanf.scan_digits s h1 h2]
  simp [Nat.div_add_mod]

/-- An unreserved character is neither `%` nor `+`. -/
theorem decoded_cons {sscanf : ScanHex} {c : UInt8} (hc : isUnreserved c = true) (s : CString) :
    decoded sscanf (c :: s) = c :: decoded sscanf s := by
  rw [decoded]
  · rintro a b t rfl
    simp [isUnreserved] at hc
  · rintro rfl
    simp [isUnreserved] at hc

/-- One encoded character, in front of anything. -/
theorem decoded_encoded (sscanf : ScanHex) (c : UInt8) (s : CString) :
    decoded sscanf (encoded c ++ s) = c :: decoded sscanf s := by
  rw [encoded]
  split
  · rename_i hc
    exact decoded_cons hc s
  · exact decoded_percent sscanf c s

theorem decoded_flatMap_encoded (sscanf : ScanHex) (str : CString) :
    decoded sscanf (str.flatMap encoded) = str := by
  induction str with
  | nil => rfl
  | cons c str ih => rw [List.flatMap_cons, decoded_encoded, ih]

theorem text_of_ne_zero {s : CString} (h : ∀ c ∈ s, c ≠ 0) : text s = s := by
  simpa [text] using text_append h []

/-- **Decoding takes back encoding**, and neither of the two writes outside of the buffer it
allocates, whatever the string. -/
theorem urlDecode_urlEncode (sscanf : ScanHex) {str : CString} (h : ∀ c ∈ str, c ≠ 0) :
    (∃ encoded, urlEncode str = some encoded ∧ urlDecode sscanf encoded = some str) ∧
      ∀ s, urlEncode s ≠ none ∧ urlDecode sscanf s ≠ none := by
  constructor
  · refine ⟨_, urlEncode_eq str, ?_⟩
    have ht : text (str.flatMap encoded) = str.flatMap encoded := by
      refine text_of_ne_zero fun d hd => ?_
      obtain ⟨c, hc, hd⟩ := List.mem_flatMap.mp hd
      exact zero_notMem_encoded (h c hc) d hd
    rw [ht, urlDecode_eq, decoded_flatMap_encoded, text_of_ne_zero h]
  · intro s
    simp [urlEncode_eq, urlDecode_eq]

/-- A `sscanf` that reads two digits and nothing else. -/
def ScanHex.strict : ScanHex where
  scan
    | a :: b :: _ => (hexValue a).bind fun x => (hexValue b).map (16 * x + ·)
    | _ => none
  scan_digits s ha hb := by simp [ha, hb]

theorem urlDecode_urlEncode_name :
    (∃ encoded, urlEncode (cstr "a b%") = some encoded ∧
      urlDecode ScanHex.strict encoded = some (cstr "a b%")) ∧
      ∀ s, urlEncode s ≠ none ∧ urlDecode ScanHex.strict s ≠ none := by
  have h : 0 ∉ cstr "a b%" := by decide
  exact urlDecode_urlEncode ScanHex.strict fun c hc h0 => h (h0 ▸ hc)

example : urlEncode (cstr "a b%") = some (cstr "a%20b%25") := by decide

end UrlCoding
end Buckets
