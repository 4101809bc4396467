/-
# `erasure/erasure.c`: Reed-Solomon encoding and decoding over ISA-L

The functions of `erasure.c` are modelled as the code computes them: the splitting loop with its
zero padding, the parity rows cut out of the generated matrix, the survivors collected in index
order, the inverted `k x k` matrix and the recovery row READ FROM IT BY THE MISSING INDEX.  That
last read is only inside the matrix for a missing DATA chunk; for a missing parity chunk the code
reads past the end of `invert_matrix`, so the value is a parameter (`oob`) and every theorem is
proved for all values of it.

ISA-L itself is not part of the repository.  `IsaL` is its contract -- the Cauchy generator,
matrix inversion and `ec_encode_data` over a field with 256 elements -- and `IsaL.reference` an
instance of it.  That any `k` rows of the generator are invertible is not assumed: it is
`Cauchy.det_rows_ne_zero`.

* `ecEncode_spec` -- what is produced is a codeword, symbol by symbol (`Encodes`);
* `ecReconstruct_spec` -- from any `k` chunks of a codeword the data chunks come back;
* `ecDecode_of_encodes`, `ecDecode_of_complete` -- what the decoder returns, with chunks missing
  and with none missing (in which case it never looks at the parity);
* `ecDecode_ecEncode` -- the two composed.
-/
import Mathlib.Data.UInt
import Buckets.Lib.Cauchy
import Buckets.Lib.GF256
import Buckets.Lib.Split

namespace Buckets

open Split

/-- A byte string of the program. -/
abbrev Bytes := List UInt8

/-! ## 1. The contract of ISA-L -/

/-- **ISA-L's erasure-code interface, with its contract.**  `byte` reads a byte as an element of
the field; matrices are flat, row after row, as in the C interface.  The caller passes buffers;
what the functions do with shorter ones than announced is left open. -/
structure IsaL (F : Type) [Field F] where
  byte : UInt8 ≃ F
  byte_xor : ∀ a b, byte (a ^^^ b) = byte a + byte b
  /-- The expanded multiplication tables of `ec_init_tables`. -/
  Tables : Type
  /-- `gf_gen_cauchy1_matrix(a, m, k)`: `m` rows of `k` coefficients. -/
  gfGenCauchy1Matrix : (m k : ℕ) → Bytes
  length_gfGenCauchy1Matrix : ∀ m k, (gfGenCauchy1Matrix m k).length = m * k
  gfGenCauchy1Matrix_entry : ∀ {m k i j : ℕ}, k ≤ m → m ≤ 256 → i < m → j < k →
    byte ((gfGenCauchy1Matrix m k).getD (i * k + j) 0) =
      if i < k then (if i = j then 1 else 0) else (byte (UInt8.ofNat i ^^^ UInt8.ofNat j))⁻¹
  /-- `gf_invert_matrix(in, out, k)`: `none` is its nonzero return. -/
  gfInvertMatrix : Bytes → ℕ → Option Bytes
  gfInvertMatrix_spec : ∀ {a : Bytes} {k : ℕ} {M : Matrix (Fin k) (Fin k) F}, a.length = k * k →
    (∀ i j : Fin k, byte (a.getD (i * k + j) 0) = M i j) → M.det ≠ 0 →
    ∃ inv, gfInvertMatrix a k = some inv ∧ inv.length = k * k ∧
      ∀ i j : Fin k, byte (inv.getD (i * k + j) 0) = M⁻¹ i j
  /-- `ec_init_tables(k, rows, a, gftbls)`. -/
  ecInitTables : (k rows : ℕ) → Bytes → Tables
  /-- `ec_encode_data(len, k, rows, gftbls, data, coding)`. -/
  ecEncodeData : (len : ℤ) → (k rows : ℕ) → Tables → (ℕ → Bytes) → ℕ → Bytes
  ecEncodeData_spec : ∀ {len k rows i : ℕ} {a : Bytes} {src : ℕ → Bytes}, a.length = rows * k →
    (∀ j < k, (src j).length = len) → i < rows →
    ecEncodeData len k rows (ecInitTables k rows a) src i =
      (List.range len).map fun p => byte.symm
        (∑ j ∈ Finset.range k, byte (a.getD (i * k + j) 0) * byte ((src j).getD p 0))

namespace IsaL

variable {F : Type} [Field F] (isal : IsaL F)

@[simp] theorem byte_zero : isal.byte 0 = 0 := by
  have h := isal.byte_xor 0 0
  simpa using h

theorem byte_add_self (a : UInt8) : isal.byte a + isal.byte a = 0 := by
  rw [← isal.byte_xor, UInt8.xor_self, byte_zero]

/-- Addition is subtraction. -/
theorem byte_xor_sub (a b : UInt8) : isal.byte (a ^^^ b) = isal.byte a - isal.byte b := by
  rw [isal.byte_xor, sub_eq_add_neg, neg_eq_of_add_eq_zero_right (isal.byte_add_self b)]

/-- The point of the Cauchy matrix that belongs to index `i`. -/
def point (i : ℕ) : F := isal.byte (UInt8.ofNat i)

theorem point_injOn {n : ℕ} (hn : n ≤ 256) : Set.InjOn isal.point (Set.Iio n) := by
  intro i hi j hj h
  have hof := congrArg UInt8.toNat (isal.byte.injective h)
  simp only [Set.mem_Iio] at hi hj
  rwa [UInt8.toNat_ofNat_of_lt' (show i < 256 by omega),
    UInt8.toNat_ofNat_of_lt' (show j < 256 by omega)] at hof

theorem gfGenCauchy1Matrix_generator {m k i j : ℕ} (hk : k ≤ m) (hm : m ≤ 256) (hi : i < m)
    (hj : j < k) :
    isal.byte ((isal.gfGenCauchy1Matrix m k).getD (i * k + j) 0) =
      Cauchy.generator k isal.point i j := by
  rw [isal.gfGenCauchy1Matrix_entry hk hm hi hj, byte_xor_sub]
  rfl

end IsaL

/-! ## 2. The functions of `erasure.c` -/

section Model

variable {F : Type} [Field F] (isal : IsaL F)

/-- `buckets_ec_ctx_t`: what later calls read.  (`decode_matrix`, `invert_matrix` and
`error_list` are scratch space.) -/
structure EcCtx where
  k : ℕ
  m : ℕ
  n : ℕ
  encodeMatrix : Bytes
  gftbls : isal.Tables

/-- `buckets_ec_validate_config`. -/
def ecValidateConfig (k m : ℕ) : Bool :=
  if k < 1 || k > 16 then false
  else if m < 1 || m > 16 then false
  else if k + m > 32 then false
  else true

/-- `buckets_ec_calc_chunk_size`: rounded up to a multiple of 16. -/
def ecCalcChunkSize (dataSize k : ℕ) : ℕ :=
  if k = 0 then 0
  else
    let chunkSize := (dataSize + k - 1) / k
    (chunkSize + 15) / 16 * 16

/-- `buckets_ec_init`. -/
def ecInit (k m : ℕ) : Option (EcCtx isal) :=
  if !ecValidateConfig k m then none
  else
    let fullMatrix := isal.gfGenCauchy1Matrix (k + m) k
    -- the parity rows, the last `m`
    let encodeMatrix := (fullMatrix.drop (k * k)).take (m * k)
    some { k := k, m := m, n := k + m, encodeMatrix := encodeMatrix,
           gftbls := isal.ecInitTables k m encodeMatrix }

/-- How many bytes of the object chunk `i` holds: the loops of encode and decode compute it the
same way. -/
def copySize (dataSize bytesPerChunk i : ℕ) : ℕ :=
  let offset := i * bytesPerChunk
  let remaining := if offset < dataSize then dataSize - offset else 0
  if remaining > bytesPerChunk then bytesPerChunk else remaining

/-- `(int)size`: the conversion of a `size_t` to a 32-bit `int`. -/
def intOfSize (size : ℕ) : ℤ := (size : ℤ).bmod (2 ^ 32)

variable {isal}

/-- `buckets_ec_encode`: the data chunks and the parity chunks. -/
def ecEncode (ctx : EcCtx isal) (data : Bytes) (chunkSize : ℕ) :
    Option ((ℕ → Bytes) × (ℕ → Bytes)) :=
  if chunkSize = 0 then none
  else if chunkSize < ecCalcChunkSize data.length ctx.k then none
  else
    let bytesPerChunk := (data.length + ctx.k - 1) / ctx.k
    let dataChunks := fun i =>
      let copied := (data.drop (i * bytesPerChunk)).take (copySize data.length bytesPerChunk i)
      padTo chunkSize 0 copied
    some (dataChunks,
      isal.ecEncodeData (intOfSize chunkSize) ctx.k ctx.m ctx.gftbls dataChunks)

/-- The chunk positions that are not null. -/
def present (n : ℕ) (chunks : ℕ → Option Bytes) : List ℕ :=
  (List.range n).filter fun i => (chunks i).isSome

/-- The chunk positions that are null: the error list. -/
def absent (n : ℕ) (chunks : ℕ → Option Bytes) : List ℕ :=
  (List.range n).filter fun i => (chunks i).isNone

variable (isal) in
/-- The `k x k` matrix of the rows of the available chunks. -/
def ecDecodeMatrix (k m : ℕ) (availableIndices : List ℕ) : Bytes :=
  let fullMatrix := isal.gfGenCauchy1Matrix (k + m) k
  availableIndices.flatMap fun row => (fullMatrix.drop (row * k)).take k

/-- One round of the reconstruction loop: a missing chunk from the available ones, with the
coefficients found at its index in the inverted matrix.  `oob b p` is what a read of byte `p`
past the end of buffer `b` yields; buffer `ctx.n` is `invert_matrix`. -/
def ecRecoverChunk (ctx : EcCtx isal) (oob : ℕ → ℕ → UInt8) (chunks : ℕ → Option Bytes)
    (chunkSize : ℕ) (availableIndices : List ℕ) (invertMatrix : Bytes) (missingIdx : ℕ) : Bytes :=
  -- past the end of the matrix for a parity index
  let recoveryRow := (List.range ctx.k).map fun j =>
    invertMatrix.getD (missingIdx * ctx.k + j) (oob ctx.n (missingIdx * ctx.k + j))
  let availableChunks := fun j =>
    let i := availableIndices.getD j 0
    readN (oob i) ((chunks i).getD []) chunkSize
  isal.ecEncodeData (intOfSize chunkSize) ctx.k 1 (isal.ecInitTables ctx.k 1 recoveryRow)
    availableChunks 0

/-- `buckets_ec_reconstruct`: fill in the chunks `missing` (a null pointer is `none`). -/
def ecReconstruct (ctx : EcCtx isal) (oob : ℕ → ℕ → UInt8) (chunks : ℕ → Option Bytes)
    (chunkSize : ℕ) (missing : List ℕ) : Option (ℕ → Option Bytes) :=
  if missing.length = 0 then some chunks
  else if missing.length > ctx.m then none
  else
    let availableIndices := (present ctx.n chunks).take ctx.k
    if availableIndices.length < ctx.k then none
    else
      match isal.gfInvertMatrix (ecDecodeMatrix isal ctx.k ctx.m availableIndices) ctx.k with
      | none => none
      | some invertMatrix => some fun i =>
          if i ∈ missing then
            some (ecRecoverChunk ctx oob chunks chunkSize availableIndices invertMatrix i)
          else chunks i

/-- The reassembly loop of `buckets_ec_decode`: copy the pieces of the data chunks to `dest`. -/
def ecReassemble (k : ℕ) (oob : ℕ → ℕ → UInt8) (chunks : ℕ → Option Bytes) (dest : Bytes)
    (dataSize : ℕ) : Bytes :=
  let bytesPerChunk := (dataSize + k - 1) / k
  (List.range k).foldl (fun d i =>
    let size := copySize dataSize bytesPerChunk i
    if size > 0 then splice d (i * bytesPerChunk) (readN (oob i) ((chunks i).getD []) size)
    else d) dest

/-- `buckets_ec_decode` into the buffer `dest`. -/
def ecDecode (ctx : EcCtx isal) (oob : ℕ → ℕ → UInt8) (chunks : ℕ → Option Bytes) (chunkSize : ℕ)
    (dest : Bytes) (dataSize : ℕ) : Option Bytes :=
  let errorList := absent ctx.n chunks
  let availableCount := (present ctx.n chunks).length
  if availableCount < ctx.k then none
  else if errorList.length = 0 then some (ecReassemble ctx.k oob chunks dest dataSize)
  else
    match ecReconstruct ctx oob chunks chunkSize errorList with
    | none => none
    | some chunks' => some (ecReassemble ctx.k oob chunks' dest dataSize)

end Model

/-! ## 3. Sizes -/

theorem ecValidateConfig_iff {k m : ℕ} :
    ecValidateConfig k m = true ↔ 1 ≤ k ∧ k ≤ 16 ∧ 1 ≤ m ∧ m ≤ 16 := by
  simp only [ecValidateConfig, Bool.or_eq_true, decide_eq_true_eq]
  constructor
  · intro h
    split at h
    · cases h
    · split at h
      · cases h
      · omega
  · intro h
    rw [if_neg (by omega), if_neg (by omega), if_neg (by omega)]

theorem copySize_eq (dataSize b i : ℕ) : copySize dataSize b i = blockLen dataSize b i := by
  simp only [copySize, blockLen]
  split <;> split <;> omega

theorem intOfSize_of_lt {size : ℕ} (h : size < 2 ^ 31) : intOfSize size = size := by
  exact Int.bmod_eq_of_le_mul_two (by norm_num; omega) (by norm_num; omega)

/-- The `k` pieces cover the object. -/
theorem le_mul_bytesPerChunk (size : ℕ) {k : ℕ} (hk : 0 < k) :
    size ≤ k * ((size + k - 1) / k) := by
  have h := Nat.lt_mul_div_succ (size + k - 1) hk
  rw [Nat.mul_succ] at h
  omega

theorem bytesPerChunk_le_ecCalcChunkSize (size : ℕ) {k : ℕ} (hk : 0 < k) :
    (size + k - 1) / k ≤ ecCalcChunkSize size k := by
  rw [ecCalcChunkSize, if_neg (by omega)]
  dsimp only
  omega

theorem blockLen_le (size b i : ℕ) : blockLen size b i ≤ b := Nat.min_le_left _ _

/-! ## 4. What encoding produces -/

section Codewords

variable {F : Type} [Field F] {isal : IsaL F}

/-- `n` chunks of `len` bytes are a codeword: symbol by symbol, the chunks from `k` on are the
Cauchy combinations of the first `k`. -/
structure Encodes (isal : IsaL F) (k n len : ℕ) (C : ℕ → Bytes) : Prop where
  length : ∀ i < n, (C i).length = len
  symbol : ∀ i < n, ∀ p < len, isal.byte ((C i).getD p 0) =
    Cauchy.codeword k isal.point (fun j => isal.byte ((C j).getD p 0)) i

/-- The data chunks followed by the parity chunks, as the callers put them in one array. -/
def allChunks (k : ℕ) (chunks : (ℕ → Bytes) × (ℕ → Bytes)) (i : ℕ) : Bytes :=
  if i < k then chunks.1 i else chunks.2 (i - k)

variable {i k m : ℕ} {ctx : EcCtx isal} {len : ℕ} {chunks : ℕ → Option Bytes} {C : ℕ → Bytes}
  {dest : Bytes}

theorem allChunks_of_lt (chunks : (ℕ → Bytes) × (ℕ → Bytes)) (hi : i < k) :
    allChunks k chunks i = chunks.1 i := if_pos hi

theorem allChunks_of_le (D E : ℕ → Bytes) (hi : k ≤ i) :
    allChunks k (D, E) i = E (i - k) := if_neg (by omega)

/-- The context `buckets_ec_init` builds. -/
structure EcCtx.Valid (ctx : EcCtx isal) (k m : ℕ) : Prop where
  config : ecValidateConfig k m = true
  k_eq : ctx.k = k
  m_eq : ctx.m = m
  n_eq : ctx.n = k + m
  gftbls_eq : ctx.gftbls = isal.ecInitTables k m
    (((isal.gfGenCauchy1Matrix (k + m) k).drop (k * k)).take (m * k))

theorem ecInit_valid (isal : IsaL F) (h : ecValidateConfig k m = true) :
    ∃ ctx, ecInit isal k m = some ctx ∧ ctx.Valid k m := by
  refine ⟨_, by rw [ecInit, h]; rfl, ⟨h, rfl, rfl, rfl, rfl⟩⟩

theorem ecInit_eq_some (h : ecInit isal k m = some ctx) :
    ctx.Valid k m := by
  cases hv : ecValidateConfig k m with
  | true =>
    obtain ⟨ctx', hctx', hvalid⟩ := ecInit_valid isal hv
    exact Option.some.inj (hctx'.symm.trans h) ▸ hvalid
  | false => simp [ecInit, hv] at h

theorem getD_parityRows {j : ℕ} (hi : i < m) (hj : j < k) (a : Bytes) :
    ((a.drop (k * k)).take (m * k)).getD (i * k + j) 0 = a.getD ((k + i) * k + j) 0 := by
  have hlt : i * k + j < m * k := by
    calc i * k + j < i * k + k := by omega
      _ = (i + 1) * k := by ring
      _ ≤ m * k := Nat.mul_le_mul_right k hi
  rw [List.getD_eq_getElem?_getD, List.getD_eq_getElem?_getD, List.getElem?_take_of_lt hlt,
    List.getElem?_drop, show k * k + (i * k + j) = (k + i) * k + j by ring]

/-- The parity chunks are the Cauchy combinations of the data chunks. -/
theorem ecEncodeData_encodes (hconfig : ecValidateConfig k m = true)
    (hint : len < 2 ^ 31) {D : ℕ → Bytes} (hD : ∀ j < k, (D j).length = len) :
    Encodes isal k (k + m) len (allChunks k (D, isal.ecEncodeData (intOfSize len) k m
      (isal.ecInitTables k m (((isal.gfGenCauchy1Matrix (k + m) k).drop (k * k)).take (m * k)))
      D)) := by
  obtain ⟨hk1, hk, hm1, hm⟩ := ecValidateConfig_iff.mp hconfig
  have hrows : (((isal.gfGenCauchy1Matrix (k + m) k).drop (k * k)).take (m * k)).length =
      m * k := by
    rw [List.length_take, List.length_drop, isal.length_gfGenCauchy1Matrix, Nat.add_mul,
      Nat.add_sub_cancel_left, Nat.min_self]
  rw [intOfSize_of_lt hint]
  constructor
  · intro i hi
    rcases Nat.lt_or_ge i k with hik | hik
    · rw [allChunks_of_lt _ hik]
      exact hD i hik
    · rw [allChunks_of_le _ _ hik, isal.ecEncodeData_spec hrows hD (by omega)]
      simp
  · intro i hi p hp
    -- a codeword's message is read off its first `k` chunks
    have hmsg : ∀ E : ℕ → Bytes,
        Cauchy.codeword k isal.point (fun j => isal.byte ((allChunks k (D, E) j).getD p 0)) i =
          Cauchy.codeword k isal.point (fun j => isal.byte ((D j).getD p 0)) i := by
      intro E
      refine Finset.sum_congr rfl fun j hj => ?_
      dsimp only
      rw [allChunks_of_lt _ (Finset.mem_range.mp hj)]
    rw [hmsg]
    rcases Nat.lt_or_ge i k with hik | hik
    · rw [allChunks_of_lt _ hik, Cauchy.codeword_of_lt _ _ _ hik]
    · rw [allChunks_of_le _ _ hik, isal.ecEncodeData_spec hrows hD (by omega),
        List.getD_eq_getElem?_getD, List.getElem?_map, List.getElem?_range hp]
      simp only [Option.map_some, Option.getD_some, Equiv.apply_symm_apply]
      refine Finset.sum_congr rfl fun j hj => ?_
      have hj := Finset.mem_range.mp hj
      rw [getD_parityRows (by omega) hj, show k + (i - k) = i by omega,
        isal.gfGenCauchy1Matrix_generator (by omega) (by omega) hi hj]

/-- Data chunk `i` of an object: its piece of the object, padded with zeros. -/
def dataChunk (data : Bytes) (k chunkSize i : ℕ) : Bytes :=
  padTo chunkSize 0 (block data ((data.length + k - 1) / k) i)

theorem length_dataChunk {data : Bytes} {chunkSize : ℕ} (hk : 0 < k)
    (hsize : ecCalcChunkSize data.length k ≤ chunkSize) (i : ℕ) :
    (dataChunk data k chunkSize i).length = chunkSize := by
  apply length_padTo
  rw [length_block]
  calc blockLen data.length ((data.length + k - 1) / k) i
      ≤ (data.length + k - 1) / k := blockLen_le _ _ _
    _ ≤ ecCalcChunkSize data.length k := bytesPerChunk_le_ecCalcChunkSize _ hk
    _ ≤ chunkSize := hsize

/-- **What `buckets_ec_encode` produces**: the padded pieces of the object, extended to a
codeword. -/
theorem ecEncode_spec (hctx : ctx.Valid k m) {data : Bytes}
    {chunkSize : ℕ} (hpos : chunkSize ≠ 0) (hsize : ecCalcChunkSize data.length k ≤ chunkSize)
    (hint : chunkSize < 2 ^ 31) :
    ∃ chunks, ecEncode ctx data chunkSize = some chunks ∧
      (∀ i, chunks.1 i = dataChunk data k chunkSize i) ∧
      Encodes isal k (k + m) chunkSize (allChunks k chunks) := by
  obtain ⟨hconfig, rfl, rfl, hn, hgf⟩ := hctx
  have hk : 0 < ctx.k := (ecValidateConfig_iff.mp hconfig).1
  have hD : ∀ i, padTo chunkSize 0 ((data.drop (i * ((data.length + ctx.k - 1) / ctx.k))).take
      (copySize data.length ((data.length + ctx.k - 1) / ctx.k) i)) =
      dataChunk data ctx.k chunkSize i := by
    intro i
    rw [copySize_eq, dataChunk, block]
    congr 1
    rw [List.take_eq_take_iff, List.length_drop, blockLen]
    omega
  refine ⟨_, by rw [ecEncode, if_neg hpos, if_neg (by omega)], hD, ?_⟩
  dsimp only
  rw [hgf]
  refine ecEncodeData_encodes hconfig hint fun j _ => ?_
  rw [hD, length_dataChunk hk hsize]

theorem ecEncode_zero (data : Bytes) : ecEncode ctx data 0 = none := if_pos rfl

/-! ## 5. Reconstruction from any `k` chunks -/

theorem length_present_add_length_absent (n : ℕ) (chunks : ℕ → Option Bytes) :
    (present n chunks).length + (absent n chunks).length = n := by
  have h := List.length_eq_length_filter_add (l := List.range n) fun i => (chunks i).isSome
  simp only [List.length_range, Option.not_isSome] at h
  exact h.symm

theorem mem_present {n : ℕ} :
    i ∈ present n chunks ↔ i < n ∧ (chunks i).isSome := by
  simp [present]

theorem mem_absent {n : ℕ} :
    i ∈ absent n chunks ↔ i < n ∧ chunks i = none := by
  simp [absent]

theorem nodup_present (n : ℕ) (chunks : ℕ → Option Bytes) : (present n chunks).Nodup :=
  List.nodup_range.filter _

/-- Survivor number `r`, in index order: the row of the generator that row `r` of the decode
matrix is. -/
def survivor (n k : ℕ) (chunks : ℕ → Option Bytes) (r : ℕ) : ℕ :=
  ((present n chunks).take k).getD r 0

section Survivors

variable {n k : ℕ} {chunks : ℕ → Option Bytes} (hcount : k ≤ (present n chunks).length)

include hcount

theorem length_take_present : ((present n chunks).take k).length = k := by
  rw [List.length_take, Nat.min_eq_left hcount]

theorem getElem?_survivor {r : ℕ} (hr : r < k) :
    ((present n chunks).take k)[r]? = some (survivor n k chunks r) := by
  have hlt : r < ((present n chunks).take k).length := by rwa [length_take_present hcount]
  rw [survivor, List.getD_eq_getElem?_getD, List.getElem?_eq_getElem hlt, Option.getD_some]

theorem survivor_mem {r : ℕ} (hr : r < k) : survivor n k chunks r ∈ present n chunks :=
  List.mem_of_mem_take (List.mem_of_getElem? (getElem?_survivor hcount hr))

theorem survivor_lt {r : ℕ} (hr : r < k) : survivor n k chunks r < n :=
  (mem_present.mp (survivor_mem hcount hr)).1

theorem survivor_injOn : Set.InjOn (survivor n k chunks) (Set.Iio k) := by
  intro r hr r' hr' h
  have hlt : r < ((present n chunks).take k).length := by rwa [length_take_present hcount]
  refine (List.getElem?_inj hlt (nodup_present n chunks).take).mp ?_
  rw [getElem?_survivor hcount hr, getElem?_survivor hcount hr', h]

end Survivors

theorem length_generatorRow {row : ℕ}
    (hrow : row ∈ (present (k + m) chunks).take k) :
    (((isal.gfGenCauchy1Matrix (k + m) k).drop (row * k)).take k).length = k := by
  have hlt : row + 1 ≤ k + m := (mem_present.mp (List.mem_of_mem_take hrow)).1
  have hmul := Nat.mul_le_mul_right k hlt
  rw [Nat.succ_mul] at hmul
  rw [List.length_take, List.length_drop, isal.length_gfGenCauchy1Matrix]
  omega

theorem length_ecDecodeMatrix
    (hcount : k ≤ (present (k + m) chunks).length) :
    (ecDecodeMatrix isal k m ((present (k + m) chunks).take k)).length = k * k := by
  rw [ecDecodeMatrix, List.length_flatMap,
    List.map_congr_left fun row hrow => length_generatorRow hrow, List.map_const',
    List.sum_replicate, length_take_present hcount, smul_eq_mul]

section Reconstruct

variable {k m : ℕ} (hconfig : ecValidateConfig k m = true) {chunks : ℕ → Option Bytes}
  (hcount : k ≤ (present (k + m) chunks).length)

include hconfig hcount

/-- The decode matrix the code assembles is the survivors' rows of the generator. -/
theorem ecDecodeMatrix_entry (i j : Fin k) :
    isal.byte ((ecDecodeMatrix isal k m ((present (k + m) chunks).take k)).getD (i * k + j) 0) =
      Cauchy.rowsMatrix k isal.point (survivor (k + m) k chunks) i j := by
  obtain ⟨hk1, hk, hm1, hm⟩ := ecValidateConfig_iff.mp hconfig
  have hi : (i : ℕ) < ((present (k + m) chunks).take k).length := by
    rw [length_take_present hcount]; exact i.isLt
  have hsurv := getElem?_survivor hcount i.isLt
  rw [List.getElem?_eq_getElem hi] at hsurv
  rw [ecDecodeMatrix, List.getD_eq_getElem?_getD,
    getElem?_flatMap_rows j.isLt hi fun row hrow => length_generatorRow hrow,
    Option.some.inj hsurv, List.getElem?_take_of_lt j.isLt, List.getElem?_drop,
    ← List.getD_eq_getElem?_getD,
    isal.gfGenCauchy1Matrix_generator (by omega) (by omega) (survivor_lt hcount i.isLt) j.isLt]
  rfl

/-- A missing data chunk of a codeword is recovered from the inverse of the decode matrix. -/
theorem ecRecoverChunk_spec {ctx : EcCtx isal} (hctx : ctx.Valid k m) {len : ℕ}
    (hint : len < 2 ^ 31) {C : ℕ → Bytes} (hC : Encodes isal k (k + m) len C)
    (hsome : ∀ i < k + m, ∀ c, chunks i = some c → c = C i) {inv : Bytes}
    (hlen : inv.length = k * k)
    (hinv : ∀ i j : Fin k, isal.byte (inv.getD (i * k + j) 0) =
      (Cauchy.rowsMatrix k isal.point (survivor (k + m) k chunks))⁻¹ i j)
    (oob : ℕ → ℕ → UInt8) {i : ℕ} (hi : i < k) :
    ecRecoverChunk ctx oob chunks len ((present (k + m) chunks).take k) inv i = C i := by
  obtain ⟨hk1, hk, hm1, hm⟩ := ecValidateConfig_iff.mp hconfig
  have hsrc : ∀ j < k, readN (oob (survivor (k + m) k chunks j))
      ((chunks (survivor (k + m) k chunks j)).getD []) len = C (survivor (k + m) k chunks j) := by
    intro j hj
    obtain ⟨hlt, hpres⟩ := mem_present.mp (survivor_mem hcount hj)
    obtain ⟨c, hc⟩ := Option.isSome_iff_exists.mp hpres
    rw [hc, Option.getD_some, hsome _ hlt c hc, readN_of_length_eq (hC.length _ hlt)]
  have hrow : ∀ j < k, ((List.range k).map fun j =>
      inv.getD (i * k + j) (oob (k + m) (i * k + j))).getD (0 * k + j) 0 =
      inv.getD (i * k + j) 0 := by
    intro j hj
    have hin : i * k + j < inv.length := by
      rw [hlen]
      calc i * k + j < i * k + k := by omega
        _ = (i + 1) * k := by ring
        _ ≤ k * k := Nat.mul_le_mul_right k hi
    rw [Nat.zero_mul, Nat.zero_add, List.getD_eq_getElem?_getD, List.getElem?_map,
      List.getElem?_range hj, Option.map_some, Option.getD_some, List.getD_eq_getElem?_getD,
      List.getD_eq_getElem?_getD, List.getElem?_eq_getElem hin, Option.getD_some, Option.getD_some]
  obtain ⟨-, rfl, rfl, hn, -⟩ := hctx
  rw [ecRecoverChunk, hn, intOfSize_of_lt hint,
    isal.ecEncodeData_spec (by simp) (fun j _ => length_readN _ _ _) Nat.one_pos]
  apply List.ext_getElem
  · simp [hC.length i (by omega)]
  intro p hp hp'
  have hp : p < len := by simpa using hp
  -- symbol `p` is the decoded message's symbol `i`
  have hdecode := Cauchy.mulVec_inv_codeword (isal.point_injOn (n := ctx.k + ctx.m) (by omega))
    (Nat.le_add_right ctx.k ctx.m) (survivor_injOn hcount) (fun r hr => survivor_lt hcount hr)
    (fun j => isal.byte ((C j).getD p 0)) ⟨i, hi⟩
  rw [List.getElem_map, List.getElem_range, Equiv.symm_apply_eq]
  calc _ = ∑ r : Fin ctx.k, (Cauchy.rowsMatrix ctx.k isal.point
            (survivor (ctx.k + ctx.m) ctx.k chunks))⁻¹ ⟨i, hi⟩ r *
          Cauchy.codeword ctx.k isal.point (fun j => isal.byte ((C j).getD p 0))
            (survivor (ctx.k + ctx.m) ctx.k chunks r) := by
        rw [Finset.sum_range]
        refine Finset.sum_congr rfl fun r _ => ?_
        rw [hrow r r.isLt, hinv ⟨i, hi⟩ r, ← hC.symbol _ (survivor_lt hcount r.isLt) p hp,
          ← hsrc r r.isLt]
        rfl
    _ = isal.byte ((C i).getD p 0) := hdecode
    _ = _ := by rw [List.getD_eq_getElem?_getD, List.getElem?_eq_getElem hp', Option.getD_some]

end Reconstruct

/-- **Reconstruction on request.**  From at least `k` chunks of a codeword, every data chunk that is
asked for comes back; nothing is said about parity chunks, and the other chunks stay as they are. -/
theorem ecReconstruct_requested (hctx : ctx.Valid k m)
    (hint : len < 2 ^ 31) (hC : Encodes isal k (k + m) len C)
    (hsome : ∀ i < k + m, ∀ c, chunks i = some c → c = C i)
    (hcount : k ≤ (present (k + m) chunks).length) {missing : List ℕ} (hne : missing ≠ [])
    (hmissing : missing.length ≤ m) (oob : ℕ → ℕ → UInt8) :
    ∃ chunks', ecReconstruct ctx oob chunks len missing = some chunks' ∧
      (∀ i ∈ missing, i < k → chunks' i = some (C i)) ∧ ∀ i ∉ missing, chunks' i = chunks i := by
  obtain ⟨hk1, hk, hm1, hm⟩ := ecValidateConfig_iff.mp hctx.config
  have hlength : missing.length ≠ 0 := by rwa [Ne, List.length_eq_zero_iff]
  have hdet := Cauchy.det_rows_ne_zero (isal.point_injOn (n := k + m) (by omega))
    (Nat.le_add_right k m) (survivor_injOn hcount) fun r hr => survivor_lt hcount hr
  obtain ⟨inv, hinv, hlen, hentry⟩ := isal.gfInvertMatrix_spec
    (length_ecDecodeMatrix hcount) (ecDecodeMatrix_entry hctx.config hcount) hdet
  refine ⟨fun i => if i ∈ missing then
    some (ecRecoverChunk ctx oob chunks len ((present (k + m) chunks).take k) inv i)
    else chunks i, ?_, ?_, ?_⟩
  · rw [ecReconstruct, hctx.n_eq, hctx.k_eq, hctx.m_eq, if_neg hlength, if_neg (by omega)]
    dsimp only
    rw [if_neg (by rw [length_take_present hcount]; omega), hinv]
  · intro i hi hik
    dsimp only
    rw [if_pos hi, ecRecoverChunk_spec hctx.config hcount hctx hint hC hsome hlen hentry oob hik]
  · intro i hi
    exact if_neg hi

/-- **Reconstruction.**  From at least `k` chunks of a codeword, every missing data chunk comes
back; nothing is said about the missing parity chunks. -/
theorem ecReconstruct_spec (hctx : ctx.Valid k m)
    (hint : len < 2 ^ 31) (hC : Encodes isal k (k + m) len C)
    (hsome : ∀ i < k + m, ∀ c, chunks i = some c → c = C i)
    (hcount : k ≤ (present (k + m) chunks).length) (hmissing : absent (k + m) chunks ≠ [])
    (oob : ℕ → ℕ → UInt8) :
    ∃ chunks', ecReconstruct ctx oob chunks len (absent (k + m) chunks) = some chunks' ∧
      ∀ i < k, chunks' i = some (C i) := by
  have htotal := length_present_add_length_absent (k + m) chunks
  obtain ⟨chunks', hrec, hfilled, hkept⟩ :=
    ecReconstruct_requested hctx hint hC hsome hcount hmissing (by omega) oob
  refine ⟨chunks', hrec, ?_⟩
  intro i hi
  by_cases hmem : i ∈ absent (k + m) chunks
  · exact hfilled i hmem hi
  · rw [hkept i hmem]
    rw [mem_absent, not_and] at hmem
    obtain ⟨c, hc⟩ := Option.ne_none_iff_exists'.mp (hmem (by omega))
    rw [hc, hsome i (by omega) c hc]

/-! ## 6. Decoding -/

/-- The reassembly loop returns the pieces end to end, whatever the chunks hold. -/
theorem ecReassemble_eq {size : ℕ} (hk : 0 < k) (oob : ℕ → ℕ → UInt8)
    (chunks : ℕ → Option Bytes) (hdest : dest.length = size) :
    ecReassemble k oob chunks dest size = (List.range k).flatMap fun i =>
      readN (oob i) ((chunks i).getD []) (blockLen size ((size + k - 1) / k) i) := by
  subst hdest
  -- the guard on the copy only skips empty copies
  have hguard : ∀ (d : Bytes) (i : ℕ),
      (let n := copySize dest.length ((dest.length + k - 1) / k) i
       if n > 0 then splice d (i * ((dest.length + k - 1) / k))
         (readN (oob i) ((chunks i).getD []) n) else d) =
      splice d (i * ((dest.length + k - 1) / k)) (readN (oob i) ((chunks i).getD [])
        (blockLen dest.length ((dest.length + k - 1) / k) i)) := by
    intro d i
    simp only [copySize_eq]
    split
    · rfl
    · rename_i hzero
      rw [show blockLen dest.length ((dest.length + k - 1) / k) i = 0 by omega]
      simp [readN]
  simp only [ecReassemble, hguard]
  exact foldl_splice_eq (fun i _ => length_readN _ _ _) (le_mul_bytesPerChunk _ hk)

theorem ecDecode_of_present_lt
    (hcount : (present ctx.n chunks).length < ctx.k) (oob : ℕ → ℕ → UInt8) (chunkSize : ℕ)
    (dest : Bytes) (size : ℕ) : ecDecode ctx oob chunks chunkSize dest size = none := by
  rw [ecDecode, if_pos hcount]

/-- With no chunk missing the data chunks are returned as they are: the parity chunks are not
looked at. -/
theorem ecDecode_of_complete (hctx : ctx.Valid k m)
    (hall : ∀ i < k + m, chunks i = some (C i))
    (oob : ℕ → ℕ → UInt8) (chunkSize : ℕ) {size : ℕ} (hdest : dest.length = size) :
    ecDecode ctx oob chunks chunkSize dest size = some ((List.range k).flatMap fun i =>
      readN (oob i) (C i) (blockLen size ((size + k - 1) / k) i)) := by
  obtain ⟨hk1, -, -, -⟩ := ecValidateConfig_iff.mp hctx.config
  have habsent : absent (k + m) chunks = [] := by
    refine List.eq_nil_iff_forall_not_mem.mpr fun i hi => ?_
    obtain ⟨hlt, hnone⟩ := mem_absent.mp hi
    rw [hall i hlt] at hnone
    cases hnone
  have htotal := length_present_add_length_absent (k + m) chunks
  rw [habsent, List.length_nil] at htotal
  rw [ecDecode, hctx.n_eq, hctx.k_eq, if_neg (by omega), habsent, if_pos List.length_nil,
    ecReassemble_eq hk1 oob chunks hdest]
  congr 1
  refine List.flatMap_congr fun i hi => ?_
  rw [hall i (by have := List.mem_range.mp hi; omega), Option.getD_some]

/-- **From any `k` chunks of a codeword** the decoder returns the pieces of its data chunks. -/
theorem ecDecode_of_encodes (hctx : ctx.Valid k m)
    (hint : len < 2 ^ 31) (hC : Encodes isal k (k + m) len C)
    (hsome : ∀ i < k + m, ∀ c, chunks i = some c → c = C i)
    (hcount : k ≤ (present (k + m) chunks).length) (oob : ℕ → ℕ → UInt8) {size : ℕ}
    (hdest : dest.length = size) (hsize : (size + k - 1) / k ≤ len) :
    ecDecode ctx oob chunks len dest size = some ((List.range k).flatMap fun i =>
      (C i).take (blockLen size ((size + k - 1) / k) i)) := by
  obtain ⟨hk1, -, -, -⟩ := ecValidateConfig_iff.mp hctx.config
  have hread : ∀ i < k, readN (oob i) (C i) (blockLen size ((size + k - 1) / k) i) =
      (C i).take (blockLen size ((size + k - 1) / k) i) := by
    intro i hi
    refine readN_eq_take ?_
    rw [hC.length i (by omega)]
    exact (blockLen_le _ _ _).trans hsize
  by_cases hmissing : absent (k + m) chunks = []
  · have hall : ∀ i < k + m, chunks i = some (C i) := by
      intro i hi
      have hnot : i ∉ absent (k + m) chunks := by simp [hmissing]
      rw [mem_absent, not_and] at hnot
      obtain ⟨c, hc⟩ := Option.ne_none_iff_exists'.mp (hnot hi)
      rw [hc, hsome i hi c hc]
    rw [ecDecode_of_complete hctx hall oob len hdest]
    congr 1
    exact List.flatMap_congr fun i hi => hread i (List.mem_range.mp hi)
  · obtain ⟨chunks', hrec, hdata⟩ := ecReconstruct_spec hctx hint hC hsome hcount hmissing oob
    have hne : (absent (k + m) chunks).length ≠ 0 := by rwa [Ne, List.length_eq_zero_iff]
    rw [ecDecode, hctx.n_eq, hctx.k_eq, if_neg (by omega), if_neg hne, hrec]
    dsimp only
    rw [ecReassemble_eq hk1 oob chunks' hdest]
    congr 1
    refine List.flatMap_congr fun i hi => ?_
    rw [hdata i (List.mem_range.mp hi), Option.getD_some, hread i (List.mem_range.mp hi)]

theorem take_dataChunk (data : Bytes) (k chunkSize i : ℕ) :
    (dataChunk data k chunkSize i).take (blockLen data.length ((data.length + k - 1) / k) i) =
      block data ((data.length + k - 1) / k) i :=
  take_padTo (length_block _ _ _)

/-- The pieces of an object's data chunks, end to end, are the object. -/
theorem flatMap_dataChunk (data : Bytes) (hk : 0 < k) (chunkSize : ℕ) :
    ((List.range k).flatMap fun i => (dataChunk data k chunkSize i).take
      (blockLen data.length ((data.length + k - 1) / k) i)) = data := by
  simp only [take_dataChunk]
  exact flatMap_block_eq (le_mul_bytesPerChunk _ hk)

/-- The chunks an encoding leaves when the positions `lost` are gone. -/
def surviving (lost : Finset ℕ) (C : ℕ → Bytes) (i : ℕ) : Option Bytes :=
  if i ∈ lost then none else some (C i)

theorem present_surviving (n : ℕ) (lost : Finset ℕ) (C : ℕ → Bytes) :
    present n (surviving lost C) = (List.range n).filter fun i => i ∉ lost := by
  refine List.filter_congr fun i _ => ?_
  unfold surviving
  split <;> simp_all

/-- Decoding an object's own chunks, any of them missing. -/
theorem ecDecode_surviving (hctx : ctx.Valid k m)
    (hint : len < 2 ^ 31) {data : Bytes} (hsize : ecCalcChunkSize data.length k ≤ len)
    (hC : Encodes isal k (k + m) len C)
    (hdata : ∀ i < k, C i = dataChunk data k len i)
    (hsome : ∀ i < k + m, ∀ c, chunks i = some c → c = C i)
    (hcount : k ≤ (present (k + m) chunks).length) (oob : ℕ → ℕ → UInt8)
    (hdest : dest.length = data.length) :
    ecDecode ctx oob chunks len dest data.length = some data := by
  obtain ⟨hk1, -, -, -⟩ := ecValidateConfig_iff.mp hctx.config
  rw [ecDecode_of_encodes hctx hint hC hsome hcount oob hdest
    ((bytesPerChunk_le_ecCalcChunkSize _ hk1).trans hsize)]
  congr 1
  conv_rhs => rw [← flatMap_dataChunk data hk1 len]
  refine List.flatMap_congr fun i hi => ?_
  rw [hdata i (List.mem_range.mp hi)]

/-- **Encoding and decoding.**  For every accepted configuration, object and chunk size: the
chunk size 0 is rejected; otherwise encoding succeeds, and decoding what is left of the chunks
returns the object if at least `k` are left and an error if fewer are, for every set of lost
positions and whatever is read past the end of a buffer. -/
theorem ecDecode_ecEncode (isal : IsaL F) {k m : ℕ} (hconfig : ecValidateConfig k m = true)
    (data : Bytes) (chunkSize : ℕ) (hsize : ecCalcChunkSize data.length k ≤ chunkSize)
    (hint : chunkSize < 2 ^ 31) :
    ∃ ctx, ecInit isal k m = some ctx ∧
      (chunkSize = 0 → ecEncode ctx data chunkSize = none) ∧
      (chunkSize ≠ 0 → ∃ chunks, ecEncode ctx data chunkSize = some chunks ∧
        ∀ (lost : Finset ℕ) (oob : ℕ → ℕ → UInt8) (dest : Bytes), dest.length = data.length →
          let survivors := ((List.range (k + m)).filter fun i => i ∉ lost).length
          let decoded := ecDecode ctx oob (surviving lost (allChunks k chunks)) chunkSize dest
            data.length
          (k ≤ survivors → decoded = some data) ∧ (survivors < k → decoded = none)) := by
  obtain ⟨ctx, hinit, hctx⟩ := ecInit_valid isal hconfig
  refine ⟨ctx, hinit, fun h0 => h0 ▸ ecEncode_zero data, fun hpos => ?_⟩
  obtain ⟨chunks, henc, hdata, hC⟩ := ecEncode_spec hctx hpos hsize hint
  refine ⟨chunks, henc, fun lost oob dest hdest => ⟨fun hcount => ?_, fun hcount => ?_⟩⟩
  · rw [← present_surviving (k + m) lost (allChunks k chunks)] at hcount
    refine ecDecode_surviving hctx hint hsize hC (fun i hi => ?_) (fun i _ c hc => ?_) hcount oob
      hdest
    · rw [allChunks_of_lt _ hi, hdata]
    · unfold surviving at hc
      split at hc
      · cases hc
      · exact (Option.some.inj hc).symm
  · rw [← present_surviving (k + m) lost (allChunks k chunks)] at hcount
    exact ecDecode_of_present_lt (by rwa [hctx.n_eq, hctx.k_eq]) oob chunkSize dest data.length

end Codewords

/-! ## 7. An instance of the contract

The contract is satisfiable: the operations computed entry by entry over `GF256`. -/

/-- A matrix of bytes, row after row. -/
def flatMatrix (rows cols : ℕ) (f : ℕ → ℕ → UInt8) : Bytes :=
  (List.range (rows * cols)).map fun t => f (t / cols) (t % cols)

theorem getD_flatMatrix {rows cols i j : ℕ} (hi : i < rows) (hj : j < cols) (f : ℕ → ℕ → UInt8) :
    (flatMatrix rows cols f).getD (i * cols + j) 0 = f i j := by
  have hlt : i * cols + j < rows * cols := by
    calc i * cols + j < i * cols + cols := by omega
      _ = (i + 1) * cols := by ring
      _ ≤ rows * cols := Nat.mul_le_mul_right cols hi
  rw [flatMatrix, List.getD_eq_getElem?_getD, List.getElem?_map, List.getElem?_range hlt,
    Option.map_some, Option.getD_some, Nat.mul_comm i cols, Nat.mul_add_div (by omega),
    Nat.div_eq_of_lt hj, Nat.mul_add_mod, Nat.mod_eq_of_lt hj, Nat.add_zero]

/-- The square matrix a flat one stands for. -/
def squareMatrix (k : ℕ) (a : Bytes) : Matrix (Fin k) (Fin k) GF256 :=
  fun i j => GF256.ofByte (a.getD (i * k + j) 0)

/-- Entry `i`, `j` of a square matrix, 0 outside of it. -/
def entryOrZero {k : ℕ} (M : Matrix (Fin k) (Fin k) GF256) (i j : ℕ) : GF256 :=
  if h : i < k ∧ j < k then M ⟨i, h.1⟩ ⟨j, h.2⟩ else 0

/-- ISA-L, entry by entry. -/
noncomputable def IsaL.reference : IsaL GF256 where
  byte := GF256.ofByte
  byte_xor := GF256.ofByte_xor
  Tables := Bytes
  gfGenCauchy1Matrix m k := flatMatrix m k fun i j => GF256.ofByte.symm
    (if i < k then (if i = j then 1 else 0)
     else (GF256.ofByte (UInt8.ofNat i ^^^ UInt8.ofNat j))⁻¹)
  length_gfGenCauchy1Matrix m k := by simp [flatMatrix]
  gfGenCauchy1Matrix_entry _ _ hi hj := by
    rw [getD_flatMatrix hi hj, Equiv.apply_symm_apply]
  gfInvertMatrix a k :=
    if (squareMatrix k a).det ≠ 0 then
      some (flatMatrix k k fun i j => GF256.ofByte.symm (entryOrZero (squareMatrix k a)⁻¹ i j))
    else none
  gfInvertMatrix_spec := by
    intro a k M _ hM hdet
    have heq : squareMatrix k a = M := funext fun i => funext fun j => hM i j
    refine ⟨_, if_pos (heq ▸ hdet), by simp [flatMatrix], fun i j => ?_⟩
    rw [getD_flatMatrix i.isLt j.isLt, Equiv.apply_symm_apply, entryOrZero,
      dif_pos ⟨i.isLt, j.isLt⟩, heq]
  ecInitTables _ _ a := a
  ecEncodeData len k _ a src i := (List.range len.toNat).map fun p => GF256.ofByte.symm
    (∑ j ∈ Finset.range k, GF256.ofByte (a.getD (i * k + j) 0) * GF256.ofByte ((src j).getD p 0))
  ecEncodeData_spec _ _ _ := rfl

/-- Three bytes on two data chunks and one parity chunk, with chunk 0 lost. -/
theorem ecDecode_ecEncode_two_one : ecValidateConfig 2 1 = true ∧
    ∃ ctx chunks, ecInit IsaL.reference 2 1 = some ctx ∧
      ecEncode ctx [1, 2, 3] 16 = some chunks ∧
      ecDecode ctx (fun _ _ => 0) (surviving {0} (allChunks 2 chunks)) 16 [0, 0, 0] 3 =
        some [1, 2, 3] := by
  obtain ⟨ctx, hinit, -, hpos⟩ := ecDecode_ecEncode IsaL.reference (k := 2) (m := 1) (by decide)
    [1, 2, 3] 16 (by decide) (by decide)
  obtain ⟨chunks, henc, hdec⟩ := hpos (by decide)
  exact ⟨by decide, ctx, chunks, hinit, henc,
    (hdec {0} (fun _ _ => 0) [0, 0, 0] rfl).1 (by decide)⟩

end Buckets
