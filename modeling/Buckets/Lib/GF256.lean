/-
# The field of 256 elements, on bytes

Addition is `xor`; multiplication is that of `GF(2)[x]` modulo the polynomial `0x11d`
(`x^8 + x^4 + x^3 + x^2 + 1`), for which `x` is a primitive element.  Multiplication is
DEFINED through logarithms to the base `x`, the way byte-oriented erasure libraries compute it,
and the only facts about the polynomial the file needs are finite checks that `x` has order 255:
`x^255 = 1`, and `x^85`, `x^51`, `x^15` are not 1.  Its 255 powers are then distinct and, since
there are 255 nonzero bytes, they are all of them.

The law that is not read off the logarithms is distributivity.  It follows because multiplying
by `x^i` is `i` rounds of `xtime`, and one round is additive.
-/
import Mathlib.Algebra.Field.Basic
import Mathlib.Data.List.Iterate
import Mathlib.Logic.Function.Iterate
import Mathlib.Data.List.Nodup
import Mathlib.Dynamics.PeriodicPts.Defs
import Mathlib.NumberTheory.Divisors
import Mathlib.Data.Fintype.Card

namespace GF256

/-! ## 1. Multiplication by `x` and its powers -/

/-- Multiplication by `x`: shift, and reduce by `0x1d` if the top bit falls out. -/
def xtime (a : BitVec 8) : BitVec 8 := (a <<< 1) ^^^ (if a.msb then 0x1d#8 else 0#8)

theorem xtime_xor (a b : BitVec 8) : xtime (a ^^^ b) = xtime a ^^^ xtime b := by
  unfold xtime
  rw [BitVec.shiftLeft_xor_distrib, BitVec.msb_xor]
  cases a.msb <;> cases b.msb
  · simp
  · simp [BitVec.xor_assoc]
  · simp only [Bool.xor_false, if_true, Bool.false_eq_true, if_false, BitVec.xor_zero]
    rw [BitVec.xor_assoc, BitVec.xor_comm (b <<< 1), ← BitVec.xor_assoc]
  · simp only [bne_self_eq_false, if_true, Bool.false_eq_true, if_false, BitVec.xor_zero]
    rw [BitVec.xor_assoc, ← BitVec.xor_assoc 0x1d#8, BitVec.xor_comm 0x1d#8,
      BitVec.xor_assoc (b <<< 1), BitVec.xor_self, BitVec.xor_zero]

theorem iterate_xtime_xor (i : ℕ) (a b : BitVec 8) :
    xtime^[i] (a ^^^ b) = xtime^[i] a ^^^ xtime^[i] b := by
  induction i generalizing a b with
  | zero => rfl
  | succ i ih => rw [Function.iterate_succ_apply, xtime_xor, ih]; rfl

theorem iterate_xtime_zero (i : ℕ) : xtime^[i] 0#8 = 0#8 := by
  have h := iterate_xtime_xor i 0#8 0#8
  simpa using h

/-- `x^i`. -/
def gexp (i : ℕ) : BitVec 8 := xtime^[i] 1#8

theorem gexp_add (i j : ℕ) : gexp (i + j) = xtime^[i] (gexp j) :=
  Function.iterate_add_apply xtime i j 1#8

/-! ## 2. The powers of `x` are the nonzero bytes -/

theorem xtime_injective : Function.Injective xtime := by
  have hker : ∀ a : BitVec 8, xtime a = 0#8 → a = 0#8 := by decide +kernel
  intro a b hab
  have hzero : xtime (a ^^^ b) = 0#8 := by rw [xtime_xor, hab, BitVec.xor_self]
  have heq := congrArg (· ^^^ b) (hker _ hzero)
  simpa [BitVec.xor_assoc] using heq

theorem gexp_ne_zero (i : ℕ) : gexp i ≠ 0#8 := by
  intro h
  rw [gexp, ← iterate_xtime_zero i] at h
  exact absurd (xtime_injective.iterate i h) (by decide)

theorem isPeriodicPt_xtime : Function.IsPeriodicPt xtime 255 1#8 := by
  unfold Function.IsPeriodicPt Function.IsFixedPt
  decide +kernel

/-- **`x` is primitive.**  Its order divides 255, and it divides none of the three maximal proper
divisors `255 / 3`, `255 / 5`, `255 / 17`. -/
theorem minimalPeriod_xtime : Function.minimalPeriod xtime 1#8 = 255 := by
  have hdvd : Function.minimalPeriod xtime 1#8 ∈ Nat.divisors 255 :=
    Nat.mem_divisors.mpr ⟨isPeriodicPt_xtime.minimalPeriod_dvd, by decide⟩
  have hdivisors : ∀ d ∈ Nat.divisors 255, d = 255 ∨ d ∣ 85 ∨ d ∣ 51 ∨ d ∣ 15 := by decide +kernel
  have hnot : ∀ {n}, ¬ Function.IsPeriodicPt xtime n 1#8 →
      ¬ Function.minimalPeriod xtime 1#8 ∣ n :=
    fun hn h => hn (Function.isPeriodicPt_iff_minimalPeriod_dvd.mpr h)
  unfold Function.IsPeriodicPt Function.IsFixedPt at hnot
  rcases hdivisors _ hdvd with h | h | h | h
  · exact h
  · exact absurd h (hnot (by decide +kernel))
  · exact absurd h (hnot (by decide +kernel))
  · exact absurd h (hnot (by decide +kernel))

theorem gexp_mod (i : ℕ) : gexp (i % 255) = gexp i := by
  rw [← minimalPeriod_xtime]
  exact Function.iterate_mod_minimalPeriod_eq

theorem gexp_inj {i j : ℕ} (hi : i < 255) (hj : j < 255) (h : gexp i = gexp j) : i = j := by
  rw [← minimalPeriod_xtime] at hi hj
  exact (Function.iterate_injOn_Iio_minimalPeriod (f := xtime) (x := 1#8)) hi hj h

/-- The powers `x^0, .., x^254`. -/
def powers : List (BitVec 8) := List.iterate xtime 1#8 255

@[simp] theorem length_powers : powers.length = 255 := List.length_iterate xtime 1#8 255

theorem powers_getElem {i : ℕ} (h : i < powers.length) : powers[i] = gexp i := by
  simp only [powers, gexp, List.getElem_iterate]

theorem nodup_powers : powers.Nodup := by
  rw [List.nodup_iff_injective_get]
  intro i j h
  simp only [List.get_eq_getElem, powers_getElem] at h
  exact Fin.ext (gexp_inj (by simpa using i.isLt) (by simpa using j.isLt) h)

/-- There are 255 of them, as many as there are nonzero bytes. -/
theorem mem_powers {a : BitVec 8} (h : a ≠ 0#8) : a ∈ powers := by
  -- counted on the bytes' values, as a set of numbers
  have hsub : (powers.map BitVec.toNat).toFinset ⊆ (Finset.range 256).erase 0 := by
    intro n hn
    obtain ⟨b, hb, rfl⟩ := List.mem_map.mp (List.mem_toFinset.mp hn)
    obtain ⟨i, hi, rfl⟩ := List.mem_iff_getElem.mp hb
    rw [powers_getElem, Finset.mem_erase, Finset.mem_range]
    exact ⟨fun h0 => gexp_ne_zero i (BitVec.eq_of_toNat_eq h0), (gexp i).isLt⟩
  have hnodup : (powers.map BitVec.toNat).Nodup :=
    nodup_powers.map fun _ _ => BitVec.eq_of_toNat_eq
  have hcard : ((Finset.range 256).erase 0).card ≤ (powers.map BitVec.toNat).toFinset.card := by
    rw [List.toFinset_card_of_nodup hnodup, List.length_map, length_powers,
      Finset.card_erase_of_mem (by simp), Finset.card_range]
  have hmem : a.toNat ∈ (powers.map BitVec.toNat).toFinset := by
    rw [Finset.eq_of_subset_of_card_le hsub hcard, Finset.mem_erase, Finset.mem_range]
    exact ⟨fun h0 => h (BitVec.eq_of_toNat_eq h0), a.isLt⟩
  obtain ⟨b, hb, hba⟩ := List.mem_map.mp (List.mem_toFinset.mp hmem)
  exact BitVec.eq_of_toNat_eq hba ▸ hb

/-- The logarithm of a byte to the base `x` (255 for the byte 0, which has none). -/
def glog (a : BitVec 8) : ℕ := powers.idxOf a

theorem glog_lt {a : BitVec 8} (h : a ≠ 0#8) : glog a < 255 := by
  have := List.idxOf_lt_length_iff.mpr (mem_powers h)
  rwa [length_powers] at this

theorem gexp_glog {a : BitVec 8} (h : a ≠ 0#8) : gexp (glog a) = a := by
  have hlt : powers.idxOf a < powers.length := List.idxOf_lt_length_iff.mpr (mem_powers h)
  rw [glog, ← powers_getElem hlt]
  exact List.getElem_idxOf hlt

theorem glog_gexp {i : ℕ} (h : i < 255) : glog (gexp i) = i :=
  gexp_inj (glog_lt (gexp_ne_zero i)) h (gexp_glog (gexp_ne_zero i))

end GF256

/-! ## 3. The field -/

/-- An element of the field: a byte. -/
structure GF256 where
  val : BitVec 8
deriving DecidableEq

namespace GF256

theorem ext_val {a b : GF256} (h : a.val = b.val) : a = b := by
  cases a; cases b; simpa using h

instance : Zero GF256 := ⟨⟨0#8⟩⟩
instance : One GF256 := ⟨⟨1#8⟩⟩
instance : Add GF256 := ⟨fun a b => ⟨a.val ^^^ b.val⟩⟩
instance : Neg GF256 := ⟨fun a => a⟩

/-- Add the logarithms, with the byte 0 set apart. -/
instance : Mul GF256 :=
  ⟨fun a b => if a = 0 ∨ b = 0 then 0 else ⟨gexp ((glog a.val + glog b.val) % 255)⟩⟩

/-- Negate the logarithm. -/
instance : Inv GF256 := ⟨fun a => if a = 0 then 0 else ⟨gexp (255 - glog a.val)⟩⟩

@[simp] theorem val_zero : (0 : GF256).val = 0#8 := rfl
@[simp] theorem val_one : (1 : GF256).val = 1#8 := rfl
@[simp] theorem val_add (a b : GF256) : (a + b).val = a.val ^^^ b.val := rfl

theorem val_ne_zero {a : GF256} (h : a ≠ 0) : a.val ≠ 0#8 := fun hv => h (ext_val hv)

/-- The nonzero element with logarithm `i`. -/
def ofLog (i : ℕ) : GF256 := ⟨gexp i⟩

theorem ofLog_ne_zero (i : ℕ) : ofLog i ≠ 0 :=
  fun h => gexp_ne_zero i (congrArg val h)

theorem exists_ofLog {a : GF256} (h : a ≠ 0) : ∃ i, i < 255 ∧ a = ofLog i :=
  ⟨glog a.val, glog_lt (val_ne_zero h), ext_val (gexp_glog (val_ne_zero h)).symm⟩

theorem zero_mul' (a : GF256) : 0 * a = 0 := if_pos (Or.inl rfl)

theorem mul_zero' (a : GF256) : a * 0 = 0 := if_pos (Or.inr rfl)

theorem ofLog_mul_ofLog (i j : ℕ) : ofLog i * ofLog j = ofLog (i + j) := by
  have hi : glog (gexp i) = i % 255 := by
    rw [← gexp_mod i, glog_gexp (Nat.mod_lt _ (by omega))]
  have hj : glog (gexp j) = j % 255 := by
    rw [← gexp_mod j, glog_gexp (Nat.mod_lt _ (by omega))]
  have hmul : ofLog i * ofLog j = ⟨gexp ((glog (gexp i) + glog (gexp j)) % 255)⟩ :=
    if_neg (by simp [ofLog_ne_zero])
  rw [hmul, hi, hj, ← Nat.add_mod, gexp_mod]
  rfl

/-- Multiplying by `x^i` is `i` rounds of `xtime`, on the byte 0 as well. -/
theorem ofLog_mul_val (i : ℕ) (a : GF256) : (ofLog i * a).val = xtime^[i] a.val := by
  by_cases ha : a = 0
  · subst ha
    rw [mul_zero', val_zero, iterate_xtime_zero]
  · obtain ⟨j, -, rfl⟩ := exists_ofLog ha
    rw [ofLog_mul_ofLog]
    exact gexp_add i j

theorem mul_comm' (a b : GF256) : a * b = b * a := by
  by_cases ha : a = 0
  · subst ha; rw [zero_mul', mul_zero']
  by_cases hb : b = 0
  · subst hb; rw [zero_mul', mul_zero']
  obtain ⟨i, -, rfl⟩ := exists_ofLog ha
  obtain ⟨j, -, rfl⟩ := exists_ofLog hb
  rw [ofLog_mul_ofLog, ofLog_mul_ofLog, Nat.add_comm]

theorem mul_assoc' (a b c : GF256) : a * b * c = a * (b * c) := by
  by_cases ha : a = 0
  · subst ha; simp only [zero_mul']
  by_cases hb : b = 0
  · subst hb; simp only [zero_mul', mul_zero']
  by_cases hc : c = 0
  · subst hc; simp only [mul_zero']
  obtain ⟨i, -, rfl⟩ := exists_ofLog ha
  obtain ⟨j, -, rfl⟩ := exists_ofLog hb
  obtain ⟨l, -, rfl⟩ := exists_ofLog hc
  simp only [ofLog_mul_ofLog, Nat.add_assoc]

/-- **Distributivity**: the one law the logarithms do not give. -/
theorem mul_add' (a b c : GF256) : a * (b + c) = a * b + a * c := by
  by_cases ha : a = 0
  · subst ha; simp only [zero_mul']; rfl
  obtain ⟨i, -, rfl⟩ := exists_ofLog ha
  apply ext_val
  rw [val_add, ofLog_mul_val, ofLog_mul_val, ofLog_mul_val, val_add, iterate_xtime_xor]

theorem one_mul' (a : GF256) : 1 * a = a := ext_val (ofLog_mul_val 0 a)

theorem ofLog_period : ofLog 255 = 1 := by
  apply ext_val
  rw [ofLog, gexp, isPeriodicPt_xtime.eq, val_one]

theorem mul_inv_cancel' (a : GF256) (ha : a ≠ 0) : a * a⁻¹ = 1 := by
  obtain ⟨i, hi, rfl⟩ := exists_ofLog ha
  have hinv : (ofLog i)⁻¹ = ofLog (255 - glog (gexp i)) := if_neg ha
  rw [hinv, glog_gexp hi, ofLog_mul_ofLog, Nat.add_sub_cancel' (by omega), ofLog_period]

instance : Field GF256 where
  add_assoc a b c := ext_val (BitVec.xor_assoc _ _ _)
  zero_add a := ext_val (by simp)
  add_zero a := ext_val (by simp)
  add_comm a b := ext_val (BitVec.xor_comm _ _)
  neg_add_cancel a := ext_val BitVec.xor_self
  left_distrib := mul_add'
  right_distrib a b c := by rw [mul_comm', mul_add', mul_comm' c a, mul_comm' c b]
  zero_mul := zero_mul'
  mul_zero := mul_zero'
  mul_assoc := mul_assoc'
  one_mul := one_mul'
  mul_one a := by rw [mul_comm', one_mul']
  mul_comm := mul_comm'
  exists_pair_ne := ⟨0, 1, by decide⟩
  mul_inv_cancel := mul_inv_cancel'
  inv_zero := if_pos rfl
  nsmul := nsmulRec
  zsmul := zsmulRec
  nnqsmul := _
  nnqsmul_def := fun _ _ => rfl
  qsmul := _
  qsmul_def := fun _ _ => rfl

/-- A byte of the program read as an element of the field. -/
def ofByte : UInt8 ≃ GF256 where
  toFun b := ⟨b.toBitVec⟩
  invFun a := UInt8.ofBitVec a.val
  left_inv _ := rfl
  right_inv _ := rfl

theorem ofByte_xor (a b : UInt8) : ofByte (a ^^^ b) = ofByte a + ofByte b := rfl

end GF256
