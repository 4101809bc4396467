/-
# Words from bytes, and rotations

Programs read a word from bytes by shifting each into its place and joining them with `|`, in
whatever order they were written, and rotate it by two shifts and another `|`.  What is meant is a
NUMBER, with the first byte in the lowest place, and a rotation of its bits.

* `toNat_orBytes` -- the bytes joined with `|` are the number;
* `word_last` -- and so is a buffer filled up with zeros and a last byte;
* `rotl_eq`, `rotr_eq` -- two shifts make a rotation.
-/
import Mathlib.Data.Nat.Bitwise
import Mathlib.Data.UInt
import Mathlib.Tactic.Ring

namespace LittleEndian

/-! ## 1. Numbers -/

/-- The number that bytes stand for, the first one lowest. -/
def value : List UInt8 → ℕ
  | [] => 0
  | b :: bytes => b.toNat + 256 * value bytes

/-- The word that bytes stand for. -/
def word (bytes : List UInt8) : UInt64 := UInt64.ofNat (value bytes)

theorem value_lt (bytes : List UInt8) : value bytes < 256 ^ bytes.length := by
  induction bytes with
  | nil => exact Nat.one_pos
  | cons b bytes ih =>
    have hb := b.toNat_lt
    rw [value, List.length_cons, Nat.pow_succ]
    omega

theorem value_append (front back : List UInt8) :
    value (front ++ back) = value front + 256 ^ front.length * value back := by
  induction front with
  | nil => simp [value]
  | cons b front ih =>
    rw [List.cons_append, value, value, ih, List.length_cons, Nat.pow_succ]
    ring

theorem value_zeros (n : ℕ) : value (List.replicate n 0) = 0 := by
  induction n with
  | zero => rfl
  | succ n ih => rw [List.replicate_succ, value, ih]; rfl

/-! ## 2. Bytes joined by `|` -/

/-- Each byte shifted into its place, the first one to place `k`, and all joined. -/
def orBytes : (k : ℕ) → List UInt8 → UInt64
  | _, [] => 0
  | k, b :: bytes => b.toUInt64 <<< UInt64.ofNat (8 * k) ||| orBytes (k + 1) bytes

/-- Eight bytes, or four, at the front of a buffer. -/
def load (n : ℕ) (p : List UInt8) : UInt64 := orBytes 0 (p.take n)

theorem or_shiftLeft {b : ℕ} (hb : b < 2 ^ 8) (n : ℕ) : b ||| n <<< 8 = b + 256 * n := by
  rw [Nat.lor_comm, ← Nat.shiftLeft_add_eq_or_of_lt hb, Nat.shiftLeft_eq, Nat.add_comm,
    Nat.mul_comm]

theorem xor_shiftLeft {b : ℕ} (hb : b < 2 ^ 8) (n : ℕ) : n <<< 8 ^^^ b = b + 256 * n := by
  have hlow : ∀ j, 8 ≤ j → b.testBit j = false := fun j hj =>
    Nat.testBit_lt_two_pow (hb.trans_le (Nat.pow_le_pow_right (by decide) hj))
  have hadd : b + 256 * n = 2 ^ 8 * n + b := Nat.add_comm ..
  refine Nat.eq_of_testBit_eq fun j => ?_
  rw [hadd, Nat.testBit_two_pow_mul_add n hb, Nat.testBit_xor, Nat.testBit_shiftLeft]
  split
  · next hj => simp [Nat.not_le.mpr hj]
  · next hj =>
    have hj' : 8 ≤ j := Nat.le_of_not_lt hj
    simp [hj', hlow j hj']

/-- **The bytes joined are the number.** -/
theorem toNat_orBytes (bytes : List UInt8) (k : ℕ) (h : k + bytes.length ≤ 8) :
    (orBytes k bytes).toNat = value bytes <<< (8 * k) := by
  induction bytes generalizing k with
  | nil => simp [orBytes, value]
  | cons b bytes ih =>
    rw [List.length_cons] at h
    have hb := b.toNat_lt
    have hk : (UInt64.ofNat (8 * k)).toNat % 64 = 8 * k := by
      rw [UInt64.toNat_ofNat']
      omega
    -- the byte does not leave the word
    have hplace : b.toNat <<< (8 * k) < 2 ^ 64 := by
      rw [Nat.shiftLeft_eq]
      calc b.toNat * 2 ^ (8 * k) < 2 ^ 8 * 2 ^ (8 * k) :=
            Nat.mul_lt_mul_of_pos_right hb (Nat.two_pow_pos _)
        _ = 2 ^ (8 + 8 * k) := (Nat.pow_add _ _ _).symm
        _ ≤ 2 ^ 64 := Nat.pow_le_pow_right (by decide) (by omega)
    have hnext : value bytes <<< (8 * (k + 1)) = (value bytes <<< 8) <<< (8 * k) := by
      rw [← Nat.shiftLeft_add]
      congr 1
      omega
    rw [orBytes, UInt64.toNat_or, UInt64.toNat_shiftLeft, hk, ih (k + 1) (by omega), hnext,
      UInt8.toNat_toUInt64, Nat.mod_eq_of_lt hplace, ← Nat.shiftLeft_or_distrib, or_shiftLeft hb,
      value]

theorem orBytes_eq_word {bytes : List UInt8} (h : bytes.length ≤ 8) :
    orBytes 0 bytes = word bytes := by
  have hlt : value bytes < 2 ^ 64 := by
    calc value bytes < 256 ^ bytes.length := value_lt bytes
      _ ≤ 256 ^ 8 := Nat.pow_le_pow_right (by decide) h
      _ = 2 ^ 64 := by decide
  refine UInt64.toNat_inj.mp ?_
  rw [toNat_orBytes bytes 0 (by omega), word, UInt64.toNat_ofNat', Nat.mod_eq_of_lt hlt]
  rfl

theorem load_eq_word {n : ℕ} (hn : n ≤ 8) (p : List UInt8) : load n p = word (p.take n) :=
  orBytes_eq_word ((List.length_take_le n p).trans hn)

/-- **A byte put behind others**: `front` in its places, zeros, and one byte in the last place. -/
theorem word_last {front : List UInt8} (h : front.length ≤ 7) (b : UInt8) :
    word (front ++ List.replicate (7 - front.length) 0 ++ [b]) =
      b.toUInt64 <<< 56 ||| orBytes 0 front := by
  have hb := b.toNat_lt
  have hfront : value front < 2 ^ 56 := by
    calc value front < 256 ^ front.length := value_lt front
      _ ≤ 256 ^ 7 := Nat.pow_le_pow_right (by decide) h
      _ = 2 ^ 56 := by decide
  have hlen : (front ++ List.replicate (7 - front.length) 0).length = 7 := by
    rw [List.length_append, List.length_replicate]
    omega
  have hvalue : value (front ++ List.replicate (7 - front.length) 0 ++ [b]) =
      b.toNat <<< 56 ||| value front := by
    rw [value_append, hlen, value_append, value_zeros, ← Nat.shiftLeft_add_eq_or_of_lt hfront,
      Nat.shiftLeft_eq, value, value]
    omega
  have hshift : (b.toUInt64 <<< 56).toNat = b.toNat <<< 56 := by
    rw [UInt64.toNat_shiftLeft, UInt8.toNat_toUInt64]
    refine Nat.mod_eq_of_lt ?_
    show b.toNat <<< 56 < 2 ^ 64
    rw [Nat.shiftLeft_eq]
    omega
  refine UInt64.toNat_inj.mp ?_
  rw [word, UInt64.toNat_ofNat', hvalue, UInt64.toNat_or, hshift, toNat_orBytes front 0 (by omega),
    Nat.mul_zero, Nat.shiftLeft_zero, ← Nat.shiftLeft_add_eq_or_of_lt hfront, Nat.shiftLeft_eq]
  omega

/-- Joining may go through the bytes from the last to the first. -/
theorem foldr_or (bytes : List UInt8) (k : ℕ) (w : UInt64) :
    (bytes.zipIdx k).foldr (fun b w => w ||| b.1.toUInt64 <<< UInt64.ofNat (8 * b.2)) w =
      w ||| orBytes k bytes := by
  induction bytes generalizing k with
  | nil => simp [orBytes]
  | cons b bytes ih =>
    rw [List.zipIdx_cons, List.foldr_cons, ih, orBytes, UInt64.or_assoc]
    congr 1
    exact UInt64.or_comm _ _

/-! ## 3. Bytes from words -/

/-- The bytes of a word by shifts. -/
def store (w : UInt64) : List UInt8 :=
  (List.range 8).map fun i => (w >>> UInt64.ofNat (8 * i)).toUInt8

/-- The bytes of a word, as digits of its number. -/
def bytesOf (w : UInt64) : List UInt8 :=
  (List.range 8).map fun i => UInt8.ofNat (w.toNat / 256 ^ i % 256)

theorem store_eq (w : UInt64) : store w = bytesOf w := by
  refine List.map_congr_left ?_
  intro i hi
  have hlt := List.mem_range.mp hi
  have hshift : (UInt64.ofNat (8 * i)).toNat % 64 = 8 * i := by
    rw [UInt64.toNat_ofNat']
    omega
  have hpow : 2 ^ (8 * i) = 256 ^ i := by rw [Nat.pow_mul]
  refine UInt8.toNat_inj.mp ?_
  rw [UInt64.toNat_toUInt8, UInt64.toNat_shiftRight, hshift, UInt8.toNat_ofNat',
    Nat.shiftRight_eq_div_pow, hpow]
  omega

/-! ## 4. Rotations -/

/-- The rotations of the bits of a word. -/
def rotateLeft (x : UInt64) (b : ℕ) : UInt64 := ⟨x.toBitVec.rotateLeft b⟩

def rotateRight (x : UInt64) (b : ℕ) : UInt64 := ⟨x.toBitVec.rotateRight b⟩

/-- Two shifts and a `|`. -/
def rotl (x : UInt64) (b : ℕ) : UInt64 := x <<< UInt64.ofNat b ||| x >>> UInt64.ofNat (64 - b)

def rotr (x : UInt64) (b : ℕ) : UInt64 := x >>> UInt64.ofNat b ||| x <<< UInt64.ofNat (64 - b)

theorem toNat_ofNat_mod {b : ℕ} (h : b < 64) : (UInt64.ofNat b).toNat % 64 = b := by
  rw [UInt64.toNat_ofNat']
  omega

/-- **Two shifts make a rotation.** -/
theorem rotl_eq (x : UInt64) {b : ℕ} (h0 : 0 < b) (h : b < 64) : rotl x b = rotateLeft x b := by
  refine UInt64.toNat_inj.mp ?_
  have hmod : b % 64 = b := Nat.mod_eq_of_lt h
  show (rotl x b).toNat = (x.toBitVec.rotateLeft b).toNat
  rw [rotl, BitVec.rotateLeft_def, hmod, UInt64.toNat_or, UInt64.toNat_shiftLeft,
    UInt64.toNat_shiftRight, toNat_ofNat_mod h, toNat_ofNat_mod (by omega), BitVec.toNat_or,
    BitVec.toNat_shiftLeft, BitVec.toNat_ushiftRight]
  rfl

theorem rotr_eq (x : UInt64) {b : ℕ} (h0 : 0 < b) (h : b < 64) : rotr x b = rotateRight x b := by
  refine UInt64.toNat_inj.mp ?_
  have hmod : b % 64 = b := Nat.mod_eq_of_lt h
  show (rotr x b).toNat = (x.toBitVec.rotateRight b).toNat
  rw [rotr, BitVec.rotateRight_def, hmod, UInt64.toNat_or, UInt64.toNat_shiftLeft,
    UInt64.toNat_shiftRight, toNat_ofNat_mod h, toNat_ofNat_mod (by omega), BitVec.toNat_or,
    BitVec.toNat_shiftLeft, BitVec.toNat_ushiftRight]
  rfl

end LittleEndian
