/-
# C strings as lists of bytes

The functions of `string.h` the program parses with, on the bytes before the terminator.  A
pointer into a string is the rest of the string from there on.
-/
import Mathlib.Data.List.Basic
import Mathlib.Data.List.TakeWhile
import Mathlib.Data.UInt

namespace CStr

/-! ## Searching -/

/-- What a buffer holds as a C string: the bytes before the first zero. -/
def text (s : List UInt8) : List UInt8 := s.takeWhile (· != 0)

/-- `strchr`: the rest of the string from the first `c` on. -/
def strchr (s : List UInt8) (c : UInt8) : Option (List UInt8) :=
  if c ∈ s then some (s.dropWhile (· != c)) else none

/-- The part before the first `c`, or all of it. -/
def before (s : List UInt8) (c : UInt8) : List UInt8 := s.takeWhile (· != c)

/-- `strstr`: the rest of the string from the first occurrence of `needle` on. -/
def strstr (needle : List UInt8) : List UInt8 → Option (List UInt8)
  | [] => if needle.isPrefixOf [] then some [] else none
  | c :: s => if needle.isPrefixOf (c :: s) then some (c :: s) else strstr needle s

/-- The text after the first occurrence of `needle`. -/
def after (needle s : List UInt8) : Option (List UInt8) :=
  (strstr needle s).map (List.drop needle.length)

/-- `isdigit`. -/
def isDigit (c : UInt8) : Bool := 48 ≤ c && c ≤ 57

/-- The tokens `strtok_r` finds with one delimiter. -/
def strtok (c : UInt8) (s : List UInt8) : List (List UInt8) :=
  (s.splitOn c).filter fun token => token.length != 0

theorem text_append {a : List UInt8} (ha : ∀ c ∈ a, c ≠ 0) (b : List UInt8) :
    text (a ++ b) = a ++ text b :=
  List.takeWhile_append_of_pos (by simpa using ha)

theorem text_append_zero (a b : List UInt8) : text (a ++ 0 :: b) = text a := by
  induction a with
  | nil => rfl
  | cons c a ih =>
    rw [text] at ih ⊢
    rw [List.cons_append, List.takeWhile_cons, ih, text, text, List.takeWhile_cons]

theorem strchr_append {c : UInt8} {a : List UInt8} (ha : c ∉ a) (b : List UInt8) :
    strchr (a ++ c :: b) c = some (c :: b) := by
  have hd : (a ++ c :: b).dropWhile (· != c) = c :: b := by
    rw [List.dropWhile_append_of_pos]
    · simp
    · intro x hx
      simp only [bne_iff_ne, ne_eq]
      rintro rfl
      exact ha hx
  simp [strchr, hd]

theorem before_append {c : UInt8} {a : List UInt8} (ha : c ∉ a) (b : List UInt8) :
    before (a ++ c :: b) c = a := by
  rw [before, List.takeWhile_append_of_pos, List.takeWhile_cons_of_neg (by simp), List.append_nil]
  intro x hx
  simp only [bne_iff_ne, ne_eq]
  rintro rfl
  exact ha hx

/-! ## Byte order -/

/-- `strcmp`: the difference at the first byte that differs; a string that ends there is less. -/
def strcmp : List UInt8 → List UInt8 → ℤ
  | [], [] => 0
  | [], _ :: _ => -1
  | _ :: _, [] => 1
  | a :: s, b :: t => if a = b then strcmp s t else (a.toNat : ℤ) - b.toNat

/-- `strcmp` is the lexicographic order of the bytes. -/
theorem strcmp_neg_iff : ∀ {s t : List UInt8}, strcmp s t < 0 ↔ s < t
  | [], [] => by simp [strcmp]
  | [], b :: t => by simp [strcmp]
  | a :: s, [] => by simp [strcmp]
  | a :: s, b :: t => by
    rw [strcmp, List.cons_lt_cons_iff, UInt8.lt_iff_toNat_lt]
    split
    · rename_i heq
      subst heq
      rw [strcmp_neg_iff]
      simp
    · rename_i hne
      have hnat : a.toNat ≠ b.toNat := fun heq => hne (UInt8.toNat_inj.mp heq)
      simp only [hne, false_and, or_false]
      omega

theorem strcmp_eq_zero_iff : ∀ {s t : List UInt8}, strcmp s t = 0 ↔ s = t
  | [], [] => by simp [strcmp]
  | [], b :: t => by simp [strcmp]
  | a :: s, [] => by simp [strcmp]
  | a :: s, b :: t => by
    rw [strcmp, List.cons.injEq]
    split
    · rename_i heq
      rw [strcmp_eq_zero_iff]
      simp [heq]
    · rename_i hne
      have hnat : a.toNat ≠ b.toNat := fun heq => hne (UInt8.toNat_inj.mp heq)
      simp only [hne, false_and, iff_false]
      omega

theorem strcmp_nonpos_iff {s t : List UInt8} : strcmp s t ≤ 0 ↔ s < t ∨ s = t := by
  rw [← strcmp_neg_iff, ← strcmp_eq_zero_iff]
  omega

theorem strcmp_swap : ∀ s t : List UInt8, strcmp t s = -strcmp s t
  | [], [] => rfl
  | [], _ :: _ => rfl
  | _ :: _, [] => rfl
  | a :: s, b :: t => by
    simp only [strcmp]
    by_cases heq : a = b
    · rw [if_pos heq, if_pos heq.symm, strcmp_swap s t]
    · rw [if_neg heq, if_neg fun h => heq h.symm]
      omega

/-- What is not up to `t` is behind it. -/
theorem strcmp_pos_iff {s t : List UInt8} : ¬ strcmp s t ≤ 0 ↔ t < s := by
  rw [← strcmp_neg_iff, strcmp_swap s t]
  omega

end CStr
