/-
# `s3/s3_handler.c`: decoding a string over itself

`url_decode` writes what it decodes into another buffer, `url_decode_inplace` into the one that it
reads.  Both read one character, or the three of `%XX`, and write one.  So the place that is written
is never past the one that is read next, and what is still to be read is as it was.

The two differ in their calls of `isxdigit`: the second converts the character to `unsigned char`,
the first passes it as it is, a `char`, which may be NEGATIVE.  The C standard says nothing about
such an argument; what is assumed here is what glibc's table has there (`Ctype`).

* `decodeChar_spec`: one turn, against the characters that are decoded in `S3Request.lean`;
* `Decodes.turn`: what holds at the head of the loop, wherever it reads;
* `urlDecodeInplace_eq_urlDecode`: the two leave the SAME bytes.
-/
import Buckets.S3Request
import Buckets.Lib.MemoryLoop

namespace Buckets.UrlDecodeInplace

open CStr MemoryLoop

/-! ## 1. The two functions -/

/-- The value of a `char`, which has a sign. -/
def schar (c : UInt8) : ℤ := if c < 128 then c.toNat else c.toNat - 256

/-- `isxdigit`: of an `unsigned char` as the standard has it, of a negative `char` as glibc has
it. -/
structure Ctype where
  isxdigit : ℤ → Bool
  isxdigit_unsigned : ∀ c : UInt8, isxdigit c.toNat = (hexValue c).isSome
  isxdigit_negative : ∀ c : UInt8, 128 ≤ c → isxdigit (schar c) = false

/-- `if (a >= 'a') a -= 'a'-'A'; if (a >= 'A') a -= ('A' - 10); else a -= '0';` -/
def digit (a : UInt8) : ℤ :=
  let a := schar a
  let a := if 97 ≤ a then a - 32 else a
  if 65 ≤ a then a - 55 else a - 48

/-- `16*a+b`, as it is stored in a `char`. -/
def hexByte (a b : UInt8) : UInt8 := UInt8.ofNat ((16 * digit a + digit b) % 256).toNat

/-- `((a = src[1]) && (b = src[2])) && (isxdigit(a) && isxdigit(b))`, and the two characters; what
is not there is not read (`none`). -/
def escape (isDigit : UInt8 → Bool) : Bytes → Option (Option (UInt8 × UInt8))
  | [] => none
  | [a] => if a = 0 then some none else none
  | a :: b :: _ =>
    if a ≠ 0 ∧ b ≠ 0 ∧ isDigit a ∧ isDigit b then some (some (a, b)) else some none

/-- A turn of the loop at `src`: what is written, and how far `src` moves on. -/
def decodeChar (isDigit : UInt8 → Bool) : Bytes → Option (Option (UInt8 × ℕ))
  | [] => none
  | c :: src =>
    if c = 0 then some none
    else if c = 37 then
      (escape isDigit src).map fun
        | some (a, b) => some (hexByte a b, 3)
        | none => some (c, 1)
    else if c = 43 then some (some (32, 1))
    else some (some (c, 1))

/-- The buffer that is written, and the two positions. -/
structure Decoding where
  buffer : Bytes
  src : ℕ
  dst : ℕ

/-- One turn; `source` is the buffer that is read, given the one that is written. -/
def turn (isDigit : UInt8 → Bool) (source : Bytes → Bytes) (s : Decoding) :
    Option (Turn Decoding) :=
  match decodeChar isDigit ((source s.buffer).drop s.src) with
  | none => none
  | some none => some .over
  | some (some (c, n)) =>
    (MemoryLoop.write s.buffer s.dst [c]).map fun buffer => .again ⟨buffer, s.src + n, s.dst + 1⟩

/-- The loop, and `*dst = '\0'`. -/
def decode (isDigit : UInt8 → Bool) (source : Bytes → Bytes) (fuel : ℕ) (buffer : Bytes) :
    Option Bytes :=
  (MemoryLoop.run (turn isDigit source) fuel ⟨buffer, 0, 0⟩).bind fun s =>
    MemoryLoop.write s.buffer s.dst [0]

/-- `isxdigit(a)`. -/
def Ctype.isDigit (ctype : Ctype) (a : UInt8) : Bool := ctype.isxdigit (schar a)

/-- `isxdigit((unsigned char)a)`. -/
def Ctype.isDigitUnsigned (ctype : Ctype) (a : UInt8) : Bool := ctype.isxdigit a.toNat

/-- `url_decode`: what `dst` holds afterwards; `none` if it is left, or `src`. -/
def urlDecode (ctype : Ctype) (dst src : Bytes) : Option Bytes :=
  decode ctype.isDigit (fun _ => src) (src.length + 1) dst

/-- One turn of `url_decode_inplace`. -/
def inplaceTurn (ctype : Ctype) : Decoding → Option (Turn Decoding) :=
  turn ctype.isDigitUnsigned id

/-- `url_decode_inplace`: what `str` holds afterwards; `none` if it is left. -/
def urlDecodeInplace (ctype : Ctype) (str : Bytes) : Option Bytes :=
  decode ctype.isDigitUnsigned id (str.length + 1) str

/-! ## 2. Digits -/

theorem isDigitUnsigned_eq (ctype : Ctype) (c : UInt8) :
    ctype.isDigitUnsigned c = (hexValue c).isSome := ctype.isxdigit_unsigned c

theorem hexValue_cases {c : UInt8} {x : ℕ} (h : hexValue c = some x) :
    (48 ≤ c.toNat ∧ c.toNat ≤ 57 ∧ x = c.toNat - 48) ∨
      (97 ≤ c.toNat ∧ c.toNat ≤ 102 ∧ x = c.toNat - 87) ∨
      (65 ≤ c.toNat ∧ c.toNat ≤ 70 ∧ x = c.toNat - 55) := by
  unfold hexValue at h
  simp only [UInt8.le_iff_toNat_le] at h
  split at h
  · rename_i hc
    exact .inl ⟨hc.1, hc.2, (Option.some.inj h).symm⟩
  · split at h
    · rename_i hc
      exact .inr (.inl ⟨hc.1, hc.2, (Option.some.inj h).symm⟩)
    · split at h
      · rename_i hc
        exact .inr (.inr ⟨hc.1, hc.2, (Option.some.inj h).symm⟩)
      · cases h

theorem schar_of_lt {c : UInt8} (h : c.toNat < 128) : schar c = c.toNat :=
  if_pos (UInt8.lt_iff_toNat_lt.mpr h)

/-- The two calls of `isxdigit` have the same answer. -/
theorem isDigit_eq (ctype : Ctype) (c : UInt8) : ctype.isDigit c = (hexValue c).isSome := by
  rw [Ctype.isDigit]
  by_cases hc : c.toNat < 128
  · rw [schar_of_lt hc]
    exact ctype.isxdigit_unsigned c
  · have hle : 128 ≤ c := UInt8.le_iff_toNat_le.mpr (Nat.le_of_not_lt hc)
    rw [ctype.isxdigit_negative c hle]
    cases hvalue : hexValue c with
    | none => rfl
    | some x =>
      have hcases := hexValue_cases hvalue
      omega

/-- glibc's table. -/
def Ctype.glibc : Ctype where
  isxdigit c := (48 ≤ c ∧ c ≤ 57) ∨ (97 ≤ c ∧ c ≤ 102) ∨ (65 ≤ c ∧ c ≤ 70)
  isxdigit_unsigned c := by
    unfold hexValue
    simp only [UInt8.le_iff_toNat_le, UInt8.reduceToNat]
    split
    · simp; omega
    · split
      · simp; omega
      · split
        · simp; omega
        · simp; omega
  isxdigit_negative c hc := by
    have hlt := c.toNat_lt
    have hnot : ¬c < 128 := UInt8.not_lt.mpr hc
    simp only [schar, if_neg hnot, decide_eq_false_iff_not]
    omega

/-- The arithmetic on the characters. -/
theorem digit_eq {c : UInt8} {x : ℕ} (h : hexValue c = some x) : digit c = x ∧ x < 16 := by
  have hcases := hexValue_cases h
  rw [digit, schar_of_lt (by omega)]
  rcases hcases with ⟨hge, hle, rfl⟩ | ⟨hge, hle, rfl⟩ | ⟨hge, hle, rfl⟩
  · have hlower : ¬(97 : ℤ) ≤ c.toNat := by omega
    rw [if_neg hlower, if_neg (by omega)]
    omega
  · have hlower : (97 : ℤ) ≤ c.toNat := by omega
    rw [if_pos hlower, if_pos (by omega)]
    omega
  · have hlower : ¬(97 : ℤ) ≤ c.toNat := by omega
    rw [if_neg hlower, if_pos (by omega)]
    omega

theorem hexByte_eq {a b : UInt8} {x y : ℕ} (ha : hexValue a = some x) (hb : hexValue b = some y) :
    hexByte a b = UInt8.ofNat (16 * x + y) := by
  obtain ⟨hdigit, hx⟩ := digit_eq ha
  obtain ⟨hdigit', hy⟩ := digit_eq hb
  rw [hexByte, hdigit, hdigit']
  congr 1
  omega

/-! ## 3. One turn -/

section Char

variable {isDigit : UInt8 → Bool} {rest : CString}

/-- A `%` that begins no escape is copied. -/
theorem urlDecodeBytes_percent {src : CString}
    (h : ∀ a b back, src = a :: b :: back → hexValue a = none ∨ hexValue b = none) :
    urlDecodeBytes (37 :: src) = 37 :: urlDecodeBytes src := by
  match src with
  | [] => rfl
  | [a] => rfl
  | a :: b :: back =>
    rw [urlDecodeBytes]
    split
    · rename_i x y hx hy
      rcases h a b back rfl with hnone | hnone
      · rw [hx] at hnone
        cases hnone
      · rw [hy] at hnone
        cases hnone
    · rfl

/-- The characters behind a `%`, with the terminator where the string ends. -/
theorem escape_spec (hdigit : ∀ c, isDigit c = (hexValue c).isSome) (h : 0 ∉ rest)
    (behind : Bytes) :
    (escape isDigit (rest ++ 0 :: behind) = some none ∧
        urlDecodeBytes (37 :: rest) = 37 :: urlDecodeBytes rest) ∨
      ∃ a b, escape isDigit (rest ++ 0 :: behind) = some (some (a, b)) ∧ 2 ≤ rest.length ∧
        urlDecodeBytes (37 :: rest) = hexByte a b :: urlDecodeBytes (rest.drop 2) := by
  match rest with
  | [] =>
    refine .inl ⟨?_, rfl⟩
    cases behind with
    | nil => rfl
    | cons b behind =>
      rw [List.nil_append, escape]
      exact if_neg fun hand => hand.1 rfl
  | [a] => exact .inl ⟨if_neg fun hand : _ ∧ (0 : UInt8) ≠ 0 ∧ _ => hand.2.1 rfl, rfl⟩
  | a :: b :: back =>
    have ha : a ≠ 0 := fun h0 => h (h0 ▸ List.mem_cons_self)
    have hb : b ≠ 0 := fun h0 => h (h0 ▸ List.mem_cons_of_mem a List.mem_cons_self)
    rw [List.cons_append, List.cons_append, escape, hdigit a, hdigit b]
    cases hx : hexValue a with
    | none =>
      refine .inl ⟨if_neg fun hand => by simp at hand, urlDecodeBytes_percent ?_⟩
      rintro _ _ _ ⟨⟩
      exact .inl hx
    | some x =>
      cases hy : hexValue b with
      | none =>
        refine .inl ⟨if_neg fun hand => by simp at hand, urlDecodeBytes_percent ?_⟩
        rintro _ _ _ ⟨⟩
        exact .inr hy
      | some y =>
        refine .inr ⟨a, b, if_pos ⟨ha, hb, rfl, rfl⟩, Nat.le_add_left 2 back.length, ?_⟩
        rw [urlDecodeBytes, hx, hy, hexByte_eq hx hy]
        rfl

/-- **One turn**: at the terminator the loop is over; before it, a character is decoded. -/
theorem decodeChar_spec (hdigit : ∀ c, isDigit c = (hexValue c).isSome) (h : 0 ∉ rest)
    (behind : Bytes) :
    (rest = [] ∧ decodeChar isDigit (rest ++ 0 :: behind) = some none) ∨
      ∃ c n, decodeChar isDigit (rest ++ 0 :: behind) = some (some (c, n)) ∧
        0 < n ∧ n ≤ rest.length ∧ urlDecodeBytes rest = c :: urlDecodeBytes (rest.drop n) := by
  cases rest with
  | nil => exact .inl ⟨rfl, rfl⟩
  | cons c rest =>
    have hc : c ≠ 0 := fun h0 => h (h0 ▸ List.mem_cons_self)
    have hrest : 0 ∉ rest := fun hmem => h (List.mem_cons_of_mem c hmem)
    have hone : 1 ≤ (c :: rest).length := Nat.le_add_left 1 rest.length
    refine .inr ?_
    rw [List.cons_append, decodeChar, if_neg hc]
    by_cases hpercent : c = 37
    · subst hpercent
      rw [if_pos rfl]
      rcases escape_spec hdigit hrest behind with
        ⟨hescape, hdecode⟩ | ⟨a, b, hescape, hlength, hdecode⟩
      · exact ⟨37, 1, by rw [hescape]; rfl, Nat.one_pos, hone, hdecode⟩
      · exact ⟨hexByte a b, 3, by rw [hescape]; rfl, by decide, Nat.succ_le_succ hlength, hdecode⟩
    · rw [if_neg hpercent]
      by_cases hplus : c = 43
      · subst hplus
        exact ⟨32, 1, if_pos rfl, Nat.one_pos, hone, by rw [urlDecodeBytes]; rfl⟩
      · refine ⟨c, 1, if_neg hplus, Nat.one_pos, hone, ?_⟩
        rw [urlDecodeBytes]
        · rfl
        · intro _ _ _ h37
          exact absurd h37 hpercent
        · exact hplus

end Char

theorem length_urlDecodeBytes_le (str : CString) : (urlDecodeBytes str).length ≤ str.length := by
  induction str using urlDecodeBytes.induct with
  | case1 a b src x y hx hy ih =>
    rw [urlDecodeBytes, hx, hy]
    simp only [List.length_cons]
    omega
  | case2 a b src hnone ih =>
    rw [urlDecodeBytes]
    split
    · rename_i x y hx hy
      exact absurd hy (hnone x y hx)
    · simp only [List.length_cons] at ih ⊢
      omega
  | case3 src ih =>
    rw [urlDecodeBytes]
    exact Nat.succ_le_succ ih
  | case4 c src hpercent hplus ih =>
    rw [urlDecodeBytes]
    · exact Nat.succ_le_succ ih
    · exact hpercent
    · exact hplus
  | case5 => exact Nat.le_refl 0

/-! ## 4. The loop -/

/-- At the head of the loop, `original` being what the buffer held at first: what is decoded so far
is in the buffer up to `dst`, the rest of it is as it was, and what is still to be decoded gives the
rest of the text. -/
structure Decodes (str : CString) (original : Bytes) (s : Decoding) : Prop where
  src_le : s.src ≤ str.length
  dst_le : s.dst ≤ s.src
  buffer : ∃ written : Bytes, written.length = s.dst ∧
    s.buffer = written ++ original.drop s.dst ∧
    written ++ urlDecodeBytes (str.drop s.src) = urlDecodeBytes str

/-- From the position on that is read next, the source holds the string as it was. -/
def Unread (source : Bytes → Bytes) (original text : Bytes) : Prop :=
  ∀ (written : Bytes) (n : ℕ), written.length ≤ n →
    (source (written ++ original.drop written.length)).drop n = text.drop n

theorem unread_const (original text : Bytes) : Unread (fun _ => text) original text :=
  fun _ _ _ => rfl

/-- In place, too, since no write goes past the position that is read. -/
theorem unread_id (text : Bytes) : Unread id text text := by
  intro written n hle
  obtain ⟨k, rfl⟩ := Nat.exists_eq_add_of_le hle
  rw [id, ← List.drop_drop, List.drop_left, List.drop_drop]

section Loop

variable {isDigit : UInt8 → Bool} {source : Bytes → Bytes} {str : CString}
  {behind original : Bytes} {s : Decoding}

theorem decodes_start (str : CString) (original : Bytes) :
    Decodes str original ⟨original, 0, 0⟩ where
  src_le := Nat.zero_le _
  dst_le := Nat.le_refl 0
  buffer := ⟨[], rfl, rfl, rfl⟩

/-- **A turn of the loop.** -/
theorem Decodes.turn (h : Decodes str original s)
    (hdigit : ∀ c, isDigit c = (hexValue c).isSome) (hstr : 0 ∉ str)
    (hsource : Unread source original (str ++ 0 :: behind))
    (hroom : (urlDecodeBytes str).length < original.length) :
    (turn isDigit source s = some .over ∧ s.src = str.length) ∨
      ∃ s', UrlDecodeInplace.turn isDigit source s = some (.again s') ∧ s.src < s'.src ∧
        Decodes str original s' := by
  obtain ⟨written, hlength, hbuffer, hdecoded⟩ := h.buffer
  have hread : (source s.buffer).drop s.src = str.drop s.src ++ 0 :: behind := by
    rw [hbuffer, ← hlength, hsource written s.src (hlength ▸ h.dst_le),
      List.drop_append_of_le_length h.src_le]
  have hrest : 0 ∉ str.drop s.src := fun hmem => hstr (List.mem_of_mem_drop hmem)
  unfold UrlDecodeInplace.turn
  rw [hread]
  rcases decodeChar_spec hdigit hrest behind with ⟨hnil, hover⟩ | ⟨c, n, hchar, hpos, hn, hcons⟩
  · rw [hover]
    exact .inl ⟨rfl, Nat.le_antisymm h.src_le (List.drop_eq_nil_iff.mp hnil)⟩
  · -- The byte that is written is one of the decoded text, which has room.
    have hlengths := congrArg List.length hdecoded
    rw [hcons, List.length_append, List.length_cons] at hlengths
    have hone : [c].length ≤ (original.drop s.dst).length := by
      rw [List.length_drop, List.length_singleton]
      omega
    have hwrite : MemoryLoop.write s.buffer s.dst [c] =
        some (written ++ ([c] ++ original.drop (s.dst + 1))) := by
      rw [hbuffer, ← hlength, MemoryLoop.write_append (hlength ▸ hone), List.drop_drop]
      rfl
    have hsrc : s.src + n ≤ str.length := by
      rw [List.length_drop] at hn
      have hle := h.src_le
      omega
    rw [hchar]
    dsimp only
    rw [hwrite]
    refine .inr ⟨⟨_, s.src + n, s.dst + 1⟩, rfl, Nat.lt_add_of_pos_right hpos, hsrc, ?_,
      written ++ [c], ?_, ?_, ?_⟩
    · exact Nat.add_le_add h.dst_le hpos
    · rw [List.length_append, hlength]
      rfl
    · exact (List.append_assoc ..).symm
    · rw [List.append_assoc, ← List.drop_drop, ← hdecoded, hcons]
      rfl

/-- **The loop decodes the string.** -/
theorem decode_eq (hdigit : ∀ c, isDigit c = (hexValue c).isSome) (hstr : 0 ∉ str)
    (hsource : Unread source original (str ++ 0 :: behind))
    (hroom : (urlDecodeBytes str).length < original.length) {fuel : ℕ} (hfuel : str.length < fuel) :
    decode isDigit source fuel original =
      some (urlDecodeBytes str ++ 0 :: original.drop ((urlDecodeBytes str).length + 1)) := by
  have hturn : ∀ s, Decodes str original s →
      turn isDigit source s = some .over ∧ s.src = str.length ∨
      ∃ s', turn isDigit source s = some (.again s') ∧
        str.length - s'.src < str.length - s.src ∧ Decodes str original s' := by
    intro s h
    rcases h.turn hdigit hstr hsource hroom with hover | ⟨s', hagain, hlt, h'⟩
    · exact .inl hover
    · have hle := h'.src_le
      exact .inr ⟨s', hagain, by omega, h'⟩
  obtain ⟨s, hrun, h, hsrc⟩ := MemoryLoop.exists_run (fun s => str.length - s.src) hturn
    (decodes_start str original) hfuel
  obtain ⟨written, hlength, hbuffer, hdecoded⟩ := h.buffer
  rw [hsrc, List.drop_length, urlDecodeBytes, List.append_nil] at hdecoded
  subst hdecoded
  have hone : [(0 : UInt8)].length ≤ (original.drop (urlDecodeBytes str).length).length := by
    rw [List.length_drop, List.length_singleton]
    omega
  rw [decode, hrun, Option.bind_some, hbuffer, ← hlength, MemoryLoop.write_append hone,
    List.drop_drop]
  rfl

end Loop

/-! ## 5. In place and not in place -/

section Functions

variable (ctype : Ctype) {str : CString} (hstr : 0 ∉ str) (behind : Bytes)

include hstr

theorem urlDecodeInplace_eq :
    urlDecodeInplace ctype (str ++ 0 :: behind) = some (urlDecodeBytes str ++
      0 :: (str ++ 0 :: behind).drop ((urlDecodeBytes str).length + 1)) := by
  have hle := length_urlDecodeBytes_le str
  have hlength : str.length < (str ++ 0 :: behind).length := by simp
  exact decode_eq (isDigitUnsigned_eq ctype) hstr (unread_id _) (Nat.lt_of_le_of_lt hle hlength)
    (Nat.lt_succ_of_lt hlength)

theorem urlDecode_eq {dst : Bytes} (hroom : (urlDecodeBytes str).length < dst.length) :
    urlDecode ctype dst (str ++ 0 :: behind) = some (urlDecodeBytes str ++
      0 :: dst.drop ((urlDecodeBytes str).length + 1)) := by
  have hlength : str.length < (str ++ 0 :: behind).length := by simp
  exact decode_eq (isDigit_eq ctype) hstr (unread_const dst _) hroom (Nat.lt_succ_of_lt hlength)

/-- The string in the buffer is the one of `S3Request.lean`. -/
theorem text_urlDecodeInplace :
    (urlDecodeInplace ctype (str ++ 0 :: behind)).map text = some (Buckets.urlDecode str) := by
  rw [urlDecodeInplace_eq ctype hstr behind, Option.map_some, text_append_zero]
  rfl

/-- **The position that is written is not past the one that is read**, at any turn. -/
theorem dst_le_src {s : Decoding}
    (h : Reaches (inplaceTurn ctype) ⟨str ++ 0 :: behind, 0, 0⟩ s) : s.dst ≤ s.src := by
  have hle := length_urlDecodeBytes_le str
  have hroom : (urlDecodeBytes str).length < (str ++ 0 :: behind).length :=
    Nat.lt_of_le_of_lt hle (by simp)
  refine (h.keeps ?_ (decodes_start str _)).dst_le
  intro s hs
  rcases hs.turn (isDigitUnsigned_eq ctype) hstr (unread_id _) hroom with
    ⟨hover, -⟩ | ⟨s', hagain, -, hs'⟩
  · exact .inl hover
  · exact .inr ⟨s', hagain, hs'⟩

end Functions

/-- **Decoding in place**, for every string that is terminated: the buffer then has the bytes that
`url_decode` writes into any other with room for them, and behind them each is as it was.  They are
no more than the string had, and no turn writes past what it reads next. -/
theorem urlDecodeInplace_eq_urlDecode (ctype : Ctype) {str : Bytes} (hstr : 0 ∈ str) :
    ∃ written : Bytes,
      urlDecodeInplace ctype str = some (written ++ 0 :: str.drop (written.length + 1)) ∧
      (∀ dst : Bytes, written.length < dst.length →
        urlDecode ctype dst str = some (written ++ 0 :: dst.drop (written.length + 1))) ∧
      written.length ≤ (text str).length ∧
      ∀ s, Reaches (inplaceTurn ctype) ⟨str, 0, 0⟩ s → s.dst ≤ s.src := by
  obtain ⟨behind, hbehind⟩ := exists_text_append hstr
  have hzero := zero_notMem_text str
  generalize text str = front at hbehind hzero ⊢
  subst hbehind
  refine ⟨urlDecodeBytes front, urlDecodeInplace_eq ctype hzero behind, ?_,
    length_urlDecodeBytes_le front, ?_⟩
  · intro dst hroom
    exact urlDecode_eq ctype hzero behind hroom
  · intro s hreaches
    exact dst_le_src ctype hzero behind hreaches

theorem urlDecodeInplace_eq_urlDecode_name :
    0 ∈ cstr "my%20cat+%zz%4" ++ [0, 255] ∧ ∃ written : Bytes,
      urlDecodeInplace .glibc (cstr "my%20cat+%zz%4" ++ [0, 255]) =
        some (written ++ 0 :: (cstr "my%20cat+%zz%4" ++ [0, 255]).drop (written.length + 1)) ∧
      (∀ dst : Bytes, written.length < dst.length →
        urlDecode .glibc dst (cstr "my%20cat+%zz%4" ++ [0, 255]) =
          some (written ++ 0 :: dst.drop (written.length + 1))) ∧
      written.length ≤ (text (cstr "my%20cat+%zz%4" ++ [0, 255])).length ∧
      ∀ s, Reaches (inplaceTurn .glibc) ⟨cstr "my%20cat+%zz%4" ++ [0, 255], 0, 0⟩ s →
        s.dst ≤ s.src :=
  ⟨by decide, urlDecodeInplace_eq_urlDecode .glibc (by decide)⟩

/-- What the decoded string leaves of the old one stays behind its terminator. -/
example : urlDecodeInplace .glibc (cstr "a%2Fb+" ++ [0]) = some (cstr "a/b " ++ [0, 43, 0]) := by
  decide

end Buckets.UrlDecodeInplace
