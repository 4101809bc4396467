/-
# Reading and printing unsigned numbers in C

`strtoull` as the C standard has it (blanks, a sign, the `0x` of base 16, the longest run of
digits, saturation at `2^64 - 1`) and the decimal text that `%lu` prints.

* `strtoull_of_digits`: blanks, then digits, then anything that does not start with a digit: the
  result is the number the digits denote.
* `strtoull_printDec`: what `%lu` prints is read back.
-/
import Mathlib.Data.Nat.Digits.Defs
import Mathlib.Data.Nat.Digits.Lemmas
import Mathlib.Data.UInt

namespace Strtoull

/-! ## 1. Characters -/

/-- `isspace`. -/
def isSpace (c : UInt8) : Bool := c == 32 || (9 ≤ c && c ≤ 13)

/-- The value of a digit, letters of either case standing for 10 and up. -/
def digitValue (c : UInt8) : Option ℕ :=
  if 48 ≤ c ∧ c ≤ 57 then some (c.toNat - 48)
  else if 97 ≤ c ∧ c ≤ 122 then some (c.toNat - 87)
  else if 65 ≤ c ∧ c ≤ 90 then some (c.toNat - 55)
  else none

/-- The value of a digit of base `base`. -/
def digit (base : ℕ) (c : UInt8) : Option ℕ := (digitValue c).filter (· < base)

variable {base : ℕ} {c : UInt8} {d : ℕ} {ds : List ℕ}

theorem digitValue_of_digit (h : digit base c = some d) :
    digitValue c = some d ∧ d < base := by
  simpa [digit, Option.filter_eq_some_iff] using h

theorem digit_eq_none (h : digitValue c = none) : digit base c = none := by
  rw [digit, h, Option.filter_none]

theorem isSpace_eq_false_of_digit (h : digit base c = some d) :
    isSpace c = false := by
  have hd := (digitValue_of_digit h).1
  unfold digitValue at hd
  simp only [isSpace, UInt8.le_iff_toNat_le, Bool.or_eq_false_iff, Bool.and_eq_false_iff,
    beq_eq_false_iff_ne, ne_eq, decide_eq_false_iff_not, ← UInt8.toNat_inj] at hd ⊢
  split_ifs at hd <;> simp at * <;> omega

theorem ne_of_digit {c' : UInt8} (h : digit base c = some d)
    (h' : digit base c' = none) : c ≠ c' := by
  rintro rfl
  rw [h] at h'
  exact Option.some_ne_none d h'

/-! ## 2. `strtoull` -/

/-- The longest run of digits at the start. -/
def digits (base : ℕ) : List UInt8 → List ℕ
  | [] => []
  | c :: t =>
    match digit base c with
    | some d => d :: digits base t
    | none => []

/-- The number a run of digits denotes, most significant first. -/
def value (base : ℕ) (ds : List ℕ) : ℕ := Nat.ofDigits base ds.reverse

/-- A sign, and what follows it. -/
def sign : List UInt8 → Bool × List UInt8
  | 45 :: t => (true, t)
  | 43 :: t => (false, t)
  | s => (false, s)

/-- `0x` counts only in front of a digit. -/
def skipHexMark : List UInt8 → List UInt8
  | 48 :: x :: c :: t =>
    if (x = 120 ∨ x = 88) ∧ (digit 16 c).isSome then c :: t else 48 :: x :: c :: t
  | s => s

/-- `strtoull(s, NULL, base)`, for a base other than 0. -/
def strtoull (base : ℕ) (s : List UInt8) : ℕ :=
  let (negative, s) := sign (s.dropWhile isSpace)
  let s := if base = 16 then skipHexMark s else s
  let n := value base (digits base s)
  if 2 ^ 64 ≤ n then 2 ^ 64 - 1 else if negative then (2 ^ 64 - n) % 2 ^ 64 else n

/-! ## 3. A run of digits is read as its number -/

/-- `s` spells the digits `ds`. -/
def Spells (base : ℕ) (s : List UInt8) (ds : List ℕ) : Prop := s.map (digit base) = ds.map some

theorem spells_cons {s : List UInt8} :
    Spells base (c :: s) ds ↔ ∃ d ds', ds = d :: ds' ∧ digit base c = some d ∧
      Spells base s ds' := by
  cases ds <;> simp [Spells]

theorem spells_digits : ∀ {s : List UInt8}, (∀ c ∈ s, (digit base c).isSome) →
    Spells base s (digits base s)
  | [], _ => rfl
  | c :: s, h => by
    obtain ⟨d, hd⟩ := Option.isSome_iff_exists.mp (h c List.mem_cons_self)
    refine spells_cons.mpr ⟨d, digits base s, by rw [digits, hd], hd, ?_⟩
    exact spells_digits fun c' hc' => h c' (List.mem_cons_of_mem c hc')

/-- The rest of a text goes on with neither a digit nor a letter. -/
def Stops (rest : List UInt8) : Prop := ∀ c ∈ rest.head?, digitValue c = none

theorem digits_append {rest : List UInt8} (hrest : Stops rest) :
    ∀ {s : List UInt8} {ds : List ℕ}, Spells base s ds → digits base (s ++ rest) = ds
  | [], ds, h => by
    obtain rfl : ds = [] := by simpa [Spells] using h.symm
    cases rest with
    | nil => rfl
    | cons c t => simp [digits, digit_eq_none (hrest c rfl)]
  | c :: s, ds, h => by
    obtain ⟨d, ds', rfl, hd, hs⟩ := spells_cons.mp h
    simp [digits, hd, digits_append hrest hs]

theorem sign_of_digit {t : List UInt8}
    (h : digit base c = some d) : sign (c :: t) = (false, c :: t) := by
  have h1 : c ≠ 45 := ne_of_digit h (digit_eq_none (by decide))
  have h2 : c ≠ 43 := ne_of_digit h (digit_eq_none (by decide))
  unfold sign
  split <;> simp_all

theorem skipHexMark_of_ne {x : UInt8} {t : List UInt8} (h1 : x ≠ 120) (h2 : x ≠ 88) :
    skipHexMark (c :: x :: t) = c :: x :: t := by
  unfold skipHexMark
  split
  · simp_all
  · rfl

theorem skipHexMark_append {s rest : List UInt8}
    (hs : Spells 16 s ds) (hrest : Stops rest) :
    skipHexMark (c :: (s ++ rest)) = c :: (s ++ rest) := by
  have hx : digit 16 120 = none := by decide
  have hX : digit 16 88 = none := by decide
  cases s with
  | cons x s =>
    obtain ⟨d, -, -, hd, -⟩ := spells_cons.mp hs
    exact skipHexMark_of_ne (ne_of_digit hd hx) (ne_of_digit hd hX)
  | nil =>
    cases rest with
    | nil =>
      unfold skipHexMark
      split
      · simp_all
      · rfl
    | cons x rest =>
      have hnone := hrest x rfl
      exact skipHexMark_of_ne (by rintro rfl; simp [digitValue] at hnone)
        (by rintro rfl; simp [digitValue] at hnone)

/-- **Blanks, then digits, then an end**: the number of the digits. -/
theorem strtoull_of_digits {blanks s rest : List UInt8}
    (hblanks : ∀ c ∈ blanks, isSpace c = true) (hs : Spells base s ds) (hne : s ≠ [])
    (hrest : Stops rest) (hlt : value base ds < 2 ^ 64) :
    strtoull base (blanks ++ (s ++ rest)) = value base ds := by
  obtain ⟨c, s, rfl⟩ := List.exists_cons_of_ne_nil hne
  obtain ⟨d, ds', rfl, hd, hs'⟩ := spells_cons.mp hs
  have hdrop : (blanks ++ (c :: s ++ rest)).dropWhile isSpace = c :: s ++ rest := by
    rw [List.dropWhile_append_of_pos hblanks, List.cons_append, List.dropWhile_cons_of_neg]
    rw [isSpace_eq_false_of_digit hd]
    exact Bool.false_ne_true
  have hskip : (if base = 16 then skipHexMark (c :: s ++ rest) else c :: s ++ rest) =
      c :: s ++ rest := by
    split
    · rename_i hbase
      subst hbase
      exact skipHexMark_append hs' hrest
    · rfl
  have hsign : sign (c :: s ++ rest) = (false, c :: s ++ rest) := sign_of_digit hd
  rw [strtoull, hdrop, hsign]
  dsimp only
  rw [hskip, digits_append hrest hs, if_neg (not_le.mpr hlt), if_neg Bool.false_ne_true]

/-! ## 4. `%lu` -/

/-- The character of a decimal digit. -/
def decChar (d : ℕ) : UInt8 := UInt8.ofNat (48 + d)

theorem digit_decChar (h : d < 10) : digit 10 (decChar d) = some d := by
  interval_cases d <;> decide

/-- `%lu`. -/
def printDec (n : ℕ) : List UInt8 :=
  if n = 0 then [decChar 0] else (Nat.digits 10 n).reverse.map decChar

/-- `%d`. -/
def printInt (n : ℤ) : List UInt8 := if n < 0 then 45 :: printDec n.natAbs else printDec n.natAbs

theorem spells_map_decChar (h : ∀ d ∈ ds, d < 10) :
    Spells 10 (ds.map decChar) ds := by
  rw [Spells, List.map_map]
  exact List.map_congr_left fun d hd => digit_decChar (h d hd)

theorem spells_printDec (n : ℕ) : ∃ ds, Spells 10 (printDec n) ds ∧ printDec n ≠ [] ∧
    value 10 ds = n := by
  unfold printDec
  split
  · rename_i hn
    have hzero : Spells 10 ([0].map decChar) [0] := spells_map_decChar (by simp)
    exact ⟨[0], hzero, by simp, by simp [value, hn]⟩
  · rename_i hn
    refine ⟨(Nat.digits 10 n).reverse, spells_map_decChar ?_, ?_, ?_⟩
    · exact fun d hd => Nat.digits_lt_base (by omega) (List.mem_reverse.mp hd)
    · simpa [Nat.digits_ne_nil_iff_ne_zero] using hn
    · rw [value, List.reverse_reverse, Nat.ofDigits_digits]

/-- **What `%lu` prints is read back.** -/
theorem strtoull_printDec {n : ℕ} (h : n < 2 ^ 64) : strtoull 10 (printDec n) = n := by
  obtain ⟨ds, hspells, hne, hvalue⟩ := spells_printDec n
  have hread : strtoull 10 ([] ++ (printDec n ++ [])) = value 10 ds :=
    strtoull_of_digits (by simp) hspells hne (by simp [Stops]) (hvalue ▸ h)
  rwa [List.nil_append, List.append_nil, hvalue] at hread

/-! ## 5. `atoi` -/

/-- `strtol(s, NULL, 10)`. -/
def strtol (s : List UInt8) : ℤ :=
  let (negative, s) := sign (s.dropWhile isSpace)
  let n : ℤ := value 10 (digits 10 s)
  if negative then max (-2 ^ 63) (-n) else min (2 ^ 63 - 1) n

/-- `atoi`: the `int` of what `strtol` reads. -/
def atoi (s : List UInt8) : ℤ := Int.bmod (strtol s) (2 ^ 32)

/-- What the digits of a number are read as. -/
theorem read_printDec (n : ℕ) : (printDec n).dropWhile isSpace = printDec n ∧
    sign (printDec n) = (false, printDec n) ∧ value 10 (digits 10 (printDec n)) = n := by
  obtain ⟨ds, hspells, hne, hvalue⟩ := spells_printDec n
  obtain ⟨c, s, hcons⟩ := List.exists_cons_of_ne_nil hne
  rw [hcons] at hspells ⊢
  obtain ⟨d, ds', -, hd, -⟩ := spells_cons.mp hspells
  have hdigits : digits 10 (c :: s) = ds := by
    have hend : Stops [] := by simp [Stops]
    have happend := digits_append hend hspells
    rwa [List.append_nil] at happend
  refine ⟨?_, sign_of_digit hd, by rw [hdigits, hvalue]⟩
  rw [List.dropWhile_cons_of_neg]
  rw [isSpace_eq_false_of_digit hd]
  exact Bool.false_ne_true

theorem strtol_printDec {n : ℕ} (h : n < 2 ^ 63) : strtol (printDec n) = n := by
  obtain ⟨hblank, hsign, hvalue⟩ := read_printDec n
  rw [strtol, hblank, hsign]
  dsimp only
  rw [hvalue, if_neg Bool.false_ne_true]
  omega

/-- The same behind a minus sign. -/
theorem strtol_neg_printDec {n : ℕ} (h : n ≤ 2 ^ 63) : strtol (45 :: printDec n) = -n := by
  have hblank : (45 :: printDec n).dropWhile isSpace = 45 :: printDec n :=
    List.dropWhile_cons_of_neg (by decide)
  rw [strtol, hblank, sign]
  dsimp only
  rw [(read_printDec n).2.2, if_pos rfl]
  omega

/-- **What `%d` prints is read back.** -/
theorem atoi_printDec {n : ℕ} (h : n < 2 ^ 31) : atoi (printDec n) = n := by
  rw [atoi, strtol_printDec (by omega)]
  exact Int.bmod_eq_of_le (by omega) (by omega)

end Strtoull
