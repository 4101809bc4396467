/-
# The systematic Cauchy code: any `k` coordinates determine the message

The generator has `k` unit rows followed by rows `(x i - x j)⁻¹` of a Cauchy matrix, over an
arbitrary field.  `det_rows_ne_zero` says that ANY `k` of its rows are independent, so a message
of `k` symbols is recovered from any `k` symbols of its codeword (`mulVec_inv_codeword`).

**The argument.**  Let `v` be in the kernel of `k` chosen rows.  The chosen unit rows make `v`
vanish outside the columns `T` that no unit row was chosen for; there are as many Cauchy rows
chosen as `T` has columns.  On `T` the Cauchy rows say that the polynomial

    `numerator T v = Σ_{j ∈ T} v j · Π_{l ∈ T, l ≠ j} (X - x l)`

vanishes at the `|T|` points `x i` of those rows.  Its degree is below `|T|`, so it is zero, and
its value at `x j` is `v j` times a nonzero product.
-/
import Mathlib.LinearAlgebra.Lagrange
import Mathlib.LinearAlgebra.Matrix.NonsingularInverse
import Mathlib.LinearAlgebra.Matrix.ToLinearEquiv

namespace Cauchy

open Polynomial Finset

variable {F : Type*} [Field F]

/-! ## 1. The numerator polynomial of a Cauchy combination -/

section Numerator

variable {ι : Type*} [DecidableEq ι] (T : Finset ι) (y v : ι → F)

/-- The numerator of `Σ_{j ∈ T} v j / (X - y j)` over the common denominator. -/
noncomputable def numerator : F[X] := ∑ j ∈ T, C (v j) * Lagrange.nodal (T.erase j) y

theorem degree_numerator_lt : (numerator T y v).degree < T.card := by
  rw [← mem_degreeLT]
  refine Submodule.sum_mem _ fun j hj => ?_
  rw [mem_degreeLT, ← smul_eq_C_mul]
  refine lt_of_le_of_lt (degree_smul_le _ _) ?_
  rw [Lagrange.degree_nodal]
  exact_mod_cast card_erase_lt_of_mem hj

variable {T y v}

theorem eval_numerator {x : F} (hx : ∀ j ∈ T, x ≠ y j) :
    (numerator T y v).eval x = (∏ l ∈ T, (x - y l)) * ∑ j ∈ T, v j * (x - y j)⁻¹ := by
  rw [numerator, eval_finsetSum, mul_sum]
  refine sum_congr rfl fun j hj => ?_
  have hne : x - y j ≠ 0 := sub_ne_zero.mpr (hx j hj)
  rw [eval_mul, eval_C, Lagrange.eval_nodal, ← mul_prod_erase T _ hj]
  field_simp

theorem eval_numerator_node {j : ι} (hj : j ∈ T) :
    (numerator T y v).eval (y j) = v j * ∏ l ∈ T.erase j, (y j - y l) := by
  rw [numerator, eval_finsetSum, sum_eq_single_of_mem j hj, eval_mul, eval_C, Lagrange.eval_nodal]
  intro i _ hij
  rw [eval_mul, Lagrange.eval_nodal_at_node (mem_erase.mpr ⟨hij.symm, hj⟩), mul_zero]

/-- **A Cauchy system has only the zero solution.**  As many rows as unknowns suffice. -/
theorem eq_zero_of_sum_inv_eq_zero {κ : Type*} {R : Finset κ} {x : κ → F}
    (hx : Set.InjOn x R) (hy : Set.InjOn y T) (hxy : ∀ i ∈ R, ∀ j ∈ T, x i ≠ y j)
    (hcard : T.card ≤ R.card) (hsum : ∀ i ∈ R, ∑ j ∈ T, v j * (x i - y j)⁻¹ = 0) :
    ∀ j ∈ T, v j = 0 := by
  have hzero : numerator T y v = 0 := by
    refine Polynomial.eq_zero_of_degree_lt_of_eval_index_eq_zero R hx ?_ fun i hi => ?_
    · exact lt_of_lt_of_le (degree_numerator_lt T y v) (by exact_mod_cast hcard)
    · rw [eval_numerator (hxy i hi), hsum i hi, mul_zero]
  intro j hj
  have hprod : ∏ l ∈ T.erase j, (y j - y l) ≠ 0 := by
    refine prod_ne_zero_iff.mpr fun l hl => sub_ne_zero.mpr fun heq => ?_
    exact (mem_erase.mp hl).1 (hy (mem_erase.mp hl).2 hj heq.symm)
  have heval := eval_numerator_node (v := v) (y := y) hj
  rw [hzero, eval_zero] at heval
  exact (mul_eq_zero.mp heval.symm).resolve_right hprod

end Numerator

/-! ## 2. The generator and its codewords -/

section Generator

variable (k : ℕ) (x : ℕ → F)

/-- Row `i` of the generator: a unit row below `k`, a Cauchy row from `k` on. -/
def generator (i j : ℕ) : F :=
  if i < k then (if i = j then 1 else 0) else (x i - x j)⁻¹

/-- Symbol `i` of the codeword of the message `d`. -/
def codeword (d : ℕ → F) (i : ℕ) : F := ∑ j ∈ range k, generator k x i j * d j

theorem codeword_of_lt (d : ℕ → F) {i : ℕ} (hi : i < k) : codeword k x d i = d i := by
  rw [codeword, sum_eq_single_of_mem i (mem_range.mpr hi)]
  · simp [generator, hi]
  · intro j _ hj
    simp [generator, hi, hj.symm]

/-- `k` chosen rows of the generator, as a square matrix. -/
def rowsMatrix (rows : ℕ → ℕ) : Matrix (Fin k) (Fin k) F := fun r c => generator k x (rows r) c

variable {k x} {rows : ℕ → ℕ}

/-- There are as many chosen Cauchy rows as columns without a chosen unit row. -/
theorem card_columns_le (hrows : Set.InjOn rows (Set.Iio k)) :
    (univ.filter fun c : Fin k => ∀ r : Fin k, rows r ≠ c).card ≤
      (univ.filter fun r : Fin k => ¬ rows r < k).card := by
  have hunit : (univ.filter fun r : Fin k => rows r < k).card ≤
      (univ.filter fun c : Fin k => ¬ ∀ r : Fin k, rows r ≠ c).card := by
    refine card_le_card_of_injOn (fun r => if h : rows r < k then ⟨rows r, h⟩ else r) ?_ ?_
    · intro r hr
      have hr : rows r < k := by simpa using hr
      simp only [hr, dif_pos, coe_filter, mem_univ, true_and, Set.mem_ofPred_eq,
        not_forall, not_not]
      exact ⟨r, rfl⟩
    · intro r hr r' hr' heq
      have hr : rows r < k := by simpa using hr
      have hr' : rows r' < k := by simpa using hr'
      simp only [hr, hr', dif_pos, Fin.mk.injEq] at heq
      exact Fin.ext (hrows r.isLt r'.isLt heq)
  have hrowsCard := card_filter_add_card_filter_not (s := (univ : Finset (Fin k)))
    (fun r => rows r < k)
  have hcolsCard := card_filter_add_card_filter_not (s := (univ : Finset (Fin k)))
    (fun c => ∀ r : Fin k, rows r ≠ c)
  omega

/-- **Any `k` rows of the generator are independent.** -/
theorem det_rows_ne_zero {n : ℕ} (hx : Set.InjOn x (Set.Iio n)) (hkn : k ≤ n)
    (hrows : Set.InjOn rows (Set.Iio k)) (hlt : ∀ r < k, rows r < n) :
    (rowsMatrix k x rows).det ≠ 0 := by
  intro hdet
  obtain ⟨v, hv, hker⟩ := Matrix.exists_mulVec_eq_zero_iff.mpr hdet
  have hrow : ∀ r : Fin k, ∑ c : Fin k, generator k x (rows r) c * v c = 0 :=
    fun r => congrFun hker r
  set T : Finset (Fin k) := {c : Fin k | ∀ r : Fin k, rows r ≠ c} with hT
  -- a chosen unit row makes `v` vanish in its column
  have hout : ∀ c ∉ T, v c = 0 := by
    intro c hc
    simp only [hT, mem_filter, mem_univ, true_and, not_forall, not_not] at hc
    obtain ⟨r, hr⟩ := hc
    have hsum := hrow r
    rw [sum_eq_single_of_mem c (mem_univ c)] at hsum
    · simpa [generator, hr] using hsum
    · intro c' _ hc'
      have hne : rows r ≠ c' := fun h => hc' (Fin.ext (h.symm.trans hr))
      simp [generator, hr ▸ c.isLt, hne]
  -- the chosen Cauchy rows do the rest
  have hin : ∀ c ∈ T, v c = 0 := by
    refine eq_zero_of_sum_inv_eq_zero (T := T) (R := {r : Fin k | ¬ rows r < k})
      (x := fun r => x (rows r)) (y := fun c => x c) ?_ ?_ ?_ (card_columns_le hrows) ?_
    · intro r _ r' _ heq
      exact Fin.ext (hrows r.isLt r'.isLt (hx (hlt r r.isLt) (hlt r' r'.isLt) heq))
    · intro c _ c' _ heq
      exact Fin.ext (hx (lt_of_lt_of_le c.isLt hkn) (lt_of_lt_of_le c'.isLt hkn) heq)
    · intro r hr c _ heq
      have hr : ¬ rows r < k := by simpa using hr
      exact hr (hx (hlt r r.isLt) (lt_of_lt_of_le c.isLt hkn) heq ▸ c.isLt)
    · intro r hr
      have hr : ¬ rows r < k := by simpa using hr
      rw [← hrow r, ← sum_subset (subset_univ T) fun c _ hc => by rw [hout c hc, mul_zero]]
      exact sum_congr rfl fun c _ => by simp [generator, hr, mul_comm]
  exact hv (funext fun c => if hc : c ∈ T then hin c hc else hout c hc)

/-- **Decoding.**  The inverse of the chosen rows, applied to the codeword's symbols at those
rows, is the message. -/
theorem mulVec_inv_codeword {n : ℕ} (hx : Set.InjOn x (Set.Iio n)) (hkn : k ≤ n)
    (hrows : Set.InjOn rows (Set.Iio k)) (hlt : ∀ r < k, rows r < n) (d : ℕ → F) (i : Fin k) :
    ∑ r : Fin k, (rowsMatrix k x rows)⁻¹ i r * codeword k x d (rows r) = d i := by
  have hunit : IsUnit (rowsMatrix k x rows).det :=
    isUnit_iff_ne_zero.mpr (det_rows_ne_zero hx hkn hrows hlt)
  have hcode : ∀ r : Fin k,
      codeword k x d (rows r) = ((rowsMatrix k x rows).mulVec fun c => d c) r := by
    intro r
    rw [codeword, ← Fin.sum_univ_eq_sum_range (fun j => generator k x (rows r) j * d j)]
    rfl
  have hinv : (rowsMatrix k x rows)⁻¹.mulVec ((rowsMatrix k x rows).mulVec fun c : Fin k => d c) =
      fun c : Fin k => d c := by
    rw [Matrix.mulVec_mulVec, Matrix.nonsing_inv_mul _ hunit, Matrix.one_mulVec]
  simp only [hcode]
  exact congrFun hinv i

end Generator

end Cauchy
