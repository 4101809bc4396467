/-
# Loops that update one cell per round

A loop over `0, .., n - 1` whose round `i` changes the cell `key i` of a state and no other, with
no two rounds at the same cell: each cell is what its own round made of it, and a cell of no round
is as it was.  Which order the rounds run in does not enter the result, so the same statement
serves rounds that run at the same time.
-/
import Mathlib.Data.List.Range
import Mathlib.Data.Set.Function
import Mathlib.Order.Interval.Set.Defs

namespace PointLoop

variable {S K V : Type*} {get : S → K → V} {step : S → ℕ → S} {key : ℕ → K} {upd : ℕ → V → V}

/-- Round `i` makes `upd i` of the cell `key i` and leaves the others. -/
structure Updates (get : S → K → V) (step : S → ℕ → S) (key : ℕ → K) (upd : ℕ → V → V) : Prop where
  own : ∀ s i, get (step s i) (key i) = upd i (get s (key i))
  other : ∀ s i c, c ≠ key i → get (step s i) c = get s c

theorem Updates.get_foldl_other (h : Updates get step key upd) {n : ℕ} {c : K}
    (hc : ∀ i < n, c ≠ key i) (s : S) : get ((List.range n).foldl step s) c = get s c := by
  induction n with
  | zero => rfl
  | succ n ih =>
    rw [List.range_succ, List.foldl_append, List.foldl_cons, List.foldl_nil,
      h.other _ _ _ (hc n (by omega))]
    exact ih fun i hi => hc i (by omega)

theorem Updates.get_foldl_own (h : Updates get step key upd) {n : ℕ}
    (hinj : Set.InjOn key (Set.Iio n)) {i : ℕ} (hi : i < n) (s : S) :
    get ((List.range n).foldl step s) (key i) = upd i (get s (key i)) := by
  induction n with
  | zero => omega
  | succ n ih =>
    rw [List.range_succ, List.foldl_append, List.foldl_cons, List.foldl_nil]
    rcases Nat.lt_succ_iff_lt_or_eq.mp hi with hlt | rfl
    · have hne : key i ≠ key n := by
        intro heq
        have := hinj (Set.mem_Iio.mpr hi) (Set.mem_Iio.mpr (Nat.lt_succ_self n)) heq
        omega
      rw [h.other _ _ _ hne]
      exact ih
        (hinj.mono fun j hj => Set.mem_Iio.mpr ((Set.mem_Iio.mp hj).trans (Nat.lt_succ_self n)))
        hlt
    · rw [h.own]
      congr 1
      refine h.get_foldl_other (fun j hj heq => ?_) s
      have := hinj (Set.mem_Iio.mpr hi) (Set.mem_Iio.mpr (by omega)) heq
      omega

end PointLoop
