/-
# Cutting a list into blocks and copying it back together

A list is cut into consecutive blocks of `b` elements, the last ones possibly short or empty.
Two facts are all that a copy loop over the blocks needs:

* the blocks, put end to end, are the list (`flatMap_block`);
* a loop that writes pieces of the blocks' lengths at the offsets `0, b, 2b, ..` of a buffer
  leaves the pieces put end to end (`foldl_splice`), WHATEVER the pieces hold.

The second is stated for arbitrary pieces so that it also says what the loop produces when
some of the pieces are not the blocks of the original.
-/
import Mathlib.Data.List.Basic
import Mathlib.Data.List.TakeDrop
import Mathlib.Algebra.Order.Group.Nat
import Mathlib.Tactic.Ring

namespace Split

variable {α : Type*}

/-! ## 1. Blocks -/

/-- Elements `i * b, .., i * b + b - 1`, as far as the list has them. -/
def block (l : List α) (b i : ℕ) : List α := (l.drop (i * b)).take b

/-- The length of block `i` of a list of `n` elements. -/
def blockLen (n b i : ℕ) : ℕ := min b (n - i * b)

@[simp] theorem length_block (l : List α) (b i : ℕ) :
    (block l b i).length = blockLen l.length b i := by
  simp [block, blockLen]

theorem take_succ_mul (l : List α) (b k : ℕ) :
    l.take ((k + 1) * b) = l.take (k * b) ++ block l b k := by
  rw [Nat.succ_mul, List.take_add]
  rfl

/-- The first `k` blocks put end to end. -/
theorem flatMap_block (l : List α) (b k : ℕ) :
    (List.range k).flatMap (block l b) = l.take (k * b) := by
  induction k with
  | zero => simp
  | succ k ih => rw [List.range_succ, List.flatMap_append, ih, take_succ_mul]; simp

variable {l : List α} {n : ℕ}

theorem flatMap_block_eq {b k : ℕ} (h : l.length ≤ k * b) :
    (List.range k).flatMap (block l b) = l := by
  rw [flatMap_block, List.take_of_length_le h]

theorem sum_blockLen (n b k : ℕ) :
    ((List.range k).map (blockLen n b)).sum = min n (k * b) := by
  induction k with
  | zero => simp
  | succ k ih =>
    have hmul : (k + 1) * b = k * b + b := Nat.succ_mul k b
    simp only [List.range_succ, List.map_append, List.sum_append, ih, List.map_cons, List.map_nil,
      List.sum_cons, List.sum_nil, blockLen]
    omega

/-- Pieces of equal lengths put end to end agree exactly if they agree one by one. -/
theorem flatMap_range_eq_iff {p q : ℕ → List α} (k : ℕ)
    (hlen : ∀ i < k, (p i).length = (q i).length) :
    (List.range k).flatMap p = (List.range k).flatMap q ↔ ∀ i < k, p i = q i := by
  induction k with
  | zero => simp
  | succ k ih =>
    have ih := ih fun i hi => hlen i (by omega)
    simp only [List.range_succ, List.flatMap_append, List.flatMap_singleton]
    constructor
    · intro h i hi
      have hsplit := List.append_inj' h (hlen k (by omega))
      rcases Nat.lt_succ_iff_lt_or_eq.mp hi with hlt | rfl
      · exact ih.mp hsplit.1 i hlt
      · exact hsplit.2
    · intro h
      rw [ih.mpr fun i hi => h i (by omega), h k (by omega)]

/-- Element `r * k + j` of rows of length `k` put end to end is element `j` of row `r`. -/
theorem getElem?_flatMap_rows {β : Type*} {f : β → List α} {k j : ℕ} (hj : j < k) :
    ∀ {l : List β} {r : ℕ} (hr : r < l.length), (∀ x ∈ l, (f x).length = k) →
      (l.flatMap f)[r * k + j]? = (f l[r])[j]?
  | x :: t, 0, _, hlen => by
    have hx := hlen x (by simp)
    simp only [List.flatMap_cons, Nat.zero_mul, Nat.zero_add, List.getElem_cons_zero]
    exact List.getElem?_append_left (by omega)
  | x :: t, r + 1, hr, hlen => by
    have hx := hlen x (by simp)
    have ih := getElem?_flatMap_rows hj (l := t) (r := r) (by simpa using hr)
      fun y hy => hlen y (by simp [hy])
    simp only [List.flatMap_cons, List.getElem_cons_succ]
    rw [List.getElem?_append_right (by rw [hx, Nat.succ_mul]; omega), ← ih]
    congr 1
    rw [hx, Nat.succ_mul]; omega

/-! ## 2. Copying into a buffer -/

/-- Overwrite the elements of `dest` from `off` on by those of `src`. -/
def splice (dest : List α) (off : ℕ) (src : List α) : List α :=
  dest.take off ++ src ++ dest.drop (off + src.length)

@[simp] theorem splice_nil (dest : List α) (off : ℕ) : splice dest off [] = dest := by
  simp [splice]

theorem splice_append {a d : List α} {off : ℕ} (src : List α) (h : a.length = off) :
    splice (a ++ d) off src = a ++ src ++ d.drop src.length := by
  subst h
  simp [splice, List.drop_append]

/-- **The copy loop.**  Pieces `p i` of the block lengths, written at offsets `i * b`, leave the
pieces put end to end and the rest of the buffer as it was. -/
theorem foldl_splice {p : ℕ → List α} {dest : List α} {b : ℕ} (k : ℕ)
    (hlen : ∀ i < k, (p i).length = blockLen dest.length b i) :
    (List.range k).foldl (fun d i => splice d (i * b) (p i)) dest =
      (List.range k).flatMap p ++ dest.drop (k * b) := by
  induction k with
  | zero => simp
  | succ k ih =>
    have ih := ih fun i hi => hlen i (by omega)
    have hk := hlen k (by omega)
    have hmul : (k + 1) * b = k * b + b := Nat.succ_mul k b
    have hpre : ((List.range k).flatMap p).length = min dest.length (k * b) := by
      rw [List.length_flatMap, ← sum_blockLen]
      congr 1
      exact List.map_congr_left fun i hi => hlen i (by have := List.mem_range.mp hi; omega)
    rw [List.range_succ, List.foldl_append, ih, List.flatMap_append]
    simp only [List.foldl_cons, List.foldl_nil, List.flatMap_singleton]
    -- past the end of the buffer the piece is empty and nothing is written
    rcases Nat.lt_or_ge dest.length (k * b) with hbeyond | hwithin
    · have hnil : p k = [] := by
        apply List.eq_nil_of_length_eq_zero
        rw [hk, blockLen]; omega
      rw [hnil, splice_nil, List.append_nil, List.drop_eq_nil_of_le (by omega),
        List.drop_eq_nil_of_le (by omega)]
    · rw [splice_append _ (by rw [hpre]; omega), List.drop_drop, hmul]
      congr 1
      rcases Nat.lt_or_ge dest.length (k * b + b) with hlast | hfull
      · rw [List.drop_eq_nil_of_le (by rw [hk, blockLen]; omega),
          List.drop_eq_nil_of_le (by omega)]
      · rw [hk, blockLen, Nat.min_eq_left (by omega)]

/-- The copy loop over a buffer the blocks cover. -/
theorem foldl_splice_eq {p : ℕ → List α} {dest : List α} {b : ℕ} {k : ℕ}
    (hlen : ∀ i < k, (p i).length = blockLen dest.length b i) (hcover : dest.length ≤ k * b) :
    (List.range k).foldl (fun d i => splice d (i * b) (p i)) dest = (List.range k).flatMap p := by
  rw [foldl_splice k hlen, List.drop_eq_nil_of_le hcover, List.append_nil]

/-! ## 3. Reading from a buffer that may be too short -/

/-- The first `n` elements of a buffer, with `oob` for those past its end: what a C program
gets that reads `n` elements from a block of memory without looking at its length. -/
def readN (oob : ℕ → α) (l : List α) (n : ℕ) : List α :=
  (List.range n).map fun i => l.getD i (oob i)

@[simp] theorem length_readN (oob : ℕ → α) (l : List α) (n : ℕ) : (readN oob l n).length = n := by
  simp [readN]

theorem readN_eq_take {oob : ℕ → α} (h : n ≤ l.length) :
    readN oob l n = l.take n := by
  apply List.ext_getElem
  · simp [h]
  · intro i h1 h2
    have hi : i < l.length := by rw [length_readN] at h1; omega
    simp [readN, List.getElem?_eq_getElem hi]

theorem readN_of_length_eq {oob : ℕ → α} (h : l.length = n) :
    readN oob l n = l := by
  rw [readN_eq_take h.ge, List.take_of_length_le h.le]

/-- Fill up with `x` to `n` elements. -/
def padTo (n : ℕ) (x : α) (l : List α) : List α := l ++ List.replicate (n - l.length) x

theorem length_padTo {x : α} (h : l.length ≤ n) :
    (padTo n x l).length = n := by
  simp [padTo]; omega

theorem take_padTo {m : ℕ} {x : α} (h : l.length = m) :
    (padTo n x l).take m = l := by
  subst h; simp [padTo]

end Split
