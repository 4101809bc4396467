/-
# Repairing single chunks: `buckets_ec_reconstruct`

The header offers to fill in "specific missing data or parity chunks".  The code has the inverse of
the `k` rows it was given, and takes as coefficients the ROW OF THE MISSING INDEX in it.  For a data
chunk that is right.  A parity chunk would need the product of its generator row with the inverse;
its index is `k` or more, and the row the code takes lies behind the end of the matrix.

* `invertMatrixReads` -- the places of the inverse that are read;
* `invertMatrixReads_lt_iff` -- they are inside exactly if only data chunks are asked for;
* `ecReconstruct_exact_iff` -- and this is exactly when a repair is right.
-/
import Buckets.Erasure

namespace Buckets.ErasureRepair

variable {F : Type} [Field F]

/-- The places of `invert_matrix` that the loops over the missing chunks and their coefficients
read. -/
def invertMatrixReads (k : ℕ) (missing : List ℕ) : List ℕ :=
  missing.flatMap fun missingIdx => (List.range k).map fun j => missingIdx * k + j

theorem mem_invertMatrixReads {k : ℕ} {missing : List ℕ} {p : ℕ} :
    p ∈ invertMatrixReads k missing ↔ ∃ i ∈ missing, ∃ j < k, i * k + j = p := by
  simp [invertMatrixReads]

/-- **The reads are inside** exactly if only data chunks are asked for. -/
theorem invertMatrixReads_lt_iff {k : ℕ} (hk : 0 < k) (missing : List ℕ) :
    (∀ p ∈ invertMatrixReads k missing, p < k * k) ↔ ∀ i ∈ missing, i < k := by
  constructor
  · intro h i hi
    have hread := h (i * k + 0) (mem_invertMatrixReads.mpr ⟨i, hi, 0, hk, rfl⟩)
    exact Nat.lt_of_mul_lt_mul_right hread
  · intro h p hp
    obtain ⟨i, hi, j, hj, rfl⟩ := mem_invertMatrixReads.mp hp
    calc i * k + j < i * k + k := by omega
      _ = (i + 1) * k := by rw [Nat.succ_mul]
      _ ≤ k * k := Nat.mul_le_mul_right k (h i hi)

/-- An encode that succeeds had a chunk size that is large enough. -/
theorem size_of_ecEncode {isal : IsaL F} {ctx : EcCtx isal} {data : Bytes} {chunkSize : ℕ}
    {encoded : (ℕ → Bytes) × (ℕ → Bytes)} (h : ecEncode ctx data chunkSize = some encoded) :
    chunkSize ≠ 0 ∧ ecCalcChunkSize data.length ctx.k ≤ chunkSize := by
  unfold ecEncode at h
  split at h
  · cases h
  · rename_i hpos
    split at h
    · cases h
    · rename_i hsize
      exact ⟨hpos, Nat.not_lt.mp hsize⟩

/-- **Exactly when a repair is right.**  For every configuration that is accepted, every encoded
object, every set of at most `m` missing chunks and every selection of them that is asked for: all
of these are filled with the bytes of the encoding, whatever lies behind the buffers, and no read
leaves the inverse, exactly if NO PARITY CHUNK is asked for. -/
theorem ecReconstruct_exact_iff (isal : IsaL F) {k m : ℕ} {ctx : EcCtx isal}
    (hinit : ecInit isal k m = some ctx) {data : Bytes} {chunkSize : ℕ}
    {encoded : (ℕ → Bytes) × (ℕ → Bytes)} (hencode : ecEncode ctx data chunkSize = some encoded)
    (hint : chunkSize < 2 ^ 31) {chunks : ℕ → Option Bytes}
    (hsome : ∀ i < k + m, ∀ c, chunks i = some c → c = allChunks k encoded i)
    (habsent : (absent (k + m) chunks).length ≤ m) {missing : List ℕ} (hnodup : missing.Nodup)
    (hmissing : ∀ i ∈ missing, i ∈ absent (k + m) chunks) :
    ((∀ oob, ∃ chunks', ecReconstruct ctx oob chunks chunkSize missing = some chunks' ∧
        ∀ i ∈ missing, chunks' i = some (allChunks k encoded i)) ∧
      ∀ p ∈ invertMatrixReads k missing, p < k * k) ↔ ∀ i ∈ missing, i < k := by
  have hctx := ecInit_eq_some hinit
  obtain ⟨hk1, -, -, -⟩ := ecValidateConfig_iff.mp hctx.config
  rw [invertMatrixReads_lt_iff hk1]
  constructor
  · rintro ⟨-, hinside⟩
    exact hinside
  · intro hdata
    refine ⟨?_, hdata⟩
    intro oob
    obtain ⟨hpos, hsize⟩ := size_of_ecEncode hencode
    rw [hctx.k_eq] at hsize
    obtain ⟨encoded', hencode', -, hC⟩ := ecEncode_spec hctx hpos hsize hint
    obtain rfl : encoded' = encoded := Option.some.inj (hencode'.symm.trans hencode)
    by_cases hnil : missing = []
    · -- nothing is asked for
      subst hnil
      refine ⟨chunks, if_pos rfl, ?_⟩
      intro i hi
      cases hi
    · have hcount : missing.length ≤ (absent (k + m) chunks).length :=
        (List.subperm_of_subset hnodup hmissing).length_le
      have htotal := length_present_add_length_absent (k + m) chunks
      obtain ⟨chunks', hrec, hfilled, -⟩ := ecReconstruct_requested hctx hint hC hsome (by omega)
        hnil (by omega) oob
      refine ⟨chunks', hrec, ?_⟩
      intro i hi
      exact hfilled i hi (hdata i hi)

/-- Three bytes on two data chunks and one parity chunk. -/
theorem encode_twoOne : ∃ ctx encoded, ecInit IsaL.reference 2 1 = some ctx ∧
    ecEncode ctx [1, 2, 3] 16 = some encoded := by
  obtain ⟨ctx, hinit, hctx⟩ := @ecInit_valid _ _ 2 1 IsaL.reference (by decide)
  obtain ⟨encoded, hencode, -, -⟩ := @ecEncode_spec _ _ _ 2 1 ctx hctx [1, 2, 3] 16 (by decide)
    (by decide) (by decide)
  exact ⟨ctx, encoded, hinit, hencode⟩

theorem surviving_eq {lost : Finset ℕ} {C : ℕ → Bytes} {i : ℕ} {c : Bytes}
    (h : surviving lost C i = some c) : c = C i := by
  unfold surviving at h
  split at h
  · cases h
  · exact (Option.some.inj h).symm

/-- A data chunk is repaired. -/
theorem ecReconstruct_exact_data : ∃ ctx encoded, ecInit IsaL.reference 2 1 = some ctx ∧
    ecEncode ctx [1, 2, 3] 16 = some encoded ∧ ∃ chunks',
      ecReconstruct ctx (fun _ _ => 0) (surviving {0} (allChunks 2 encoded)) 16 [0] =
        some chunks' ∧ chunks' 0 = some (allChunks 2 encoded 0) := by
  obtain ⟨ctx, encoded, hinit, hencode⟩ := encode_twoOne
  have habsent : absent (2 + 1) (surviving {0} (allChunks 2 encoded)) = [0] := rfl
  have h := (ecReconstruct_exact_iff IsaL.reference hinit hencode (by decide)
    (fun i _ c hc => surviving_eq hc) (by rw [habsent]; decide) (List.nodup_singleton 0)
    (by rw [habsent]; exact fun i hi => hi)).mpr (by simp)
  obtain ⟨chunks', hrec, hfilled⟩ := h.1 fun _ _ => 0
  exact ⟨ctx, encoded, hinit, hencode, chunks', hrec, hfilled 0 List.mem_cons_self⟩

/-- **A parity chunk is not.**  Of two data chunks and a parity chunk the parity chunk is missing
and asked for: the coefficients are read from place 4 of a matrix of 4 bytes on. -/
theorem ecReconstruct_parity_outside : ∃ ctx encoded, ecInit IsaL.reference 2 1 = some ctx ∧
    ecEncode ctx [1, 2, 3] 16 = some encoded ∧
    absent (2 + 1) (surviving {2} (allChunks 2 encoded)) = [2] ∧
    ¬∀ p ∈ invertMatrixReads 2 [2], p < 2 * 2 := by
  obtain ⟨ctx, encoded, hinit, hencode⟩ := encode_twoOne
  refine ⟨ctx, encoded, hinit, hencode, rfl, ?_⟩
  decide

end Buckets.ErasureRepair
