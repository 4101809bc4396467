/-
# Which chunk goes into which batch

The grouping loop of `buckets_batched_parallel_write_chunks` finds or starts a batch by the endpoint
of the disk's node, with `"local"` for all disks of this node.  A remote endpoint has a `:` and is
never `"local"`, so the key of a batch IS its node (`nodeOf_inj`), and the batches are the chunks of
each node in their order (`classify_batches`).

A disk path is copied into 512 bytes by `strncpy`, which cuts longer ones (`classify_long_path`).
-/
import Buckets.BatchedWrite

namespace Buckets
namespace ChunkGrouping

open CStr Grouping

/-! ## 1. The node of a disk -/

theorem strstr_eq_some {needle s t : CString} (h : strstr needle s = some t) :
    ∃ pre, s = pre ++ t ∧ needle <+: t := by
  induction s with
  | nil =>
    rw [strstr] at h
    split at h
    · rename_i hp
      obtain rfl := Option.some.inj h
      exact ⟨[], rfl, List.isPrefixOf_iff_prefix.mp hp⟩
    · simp at h
  | cons c s ih =>
    rw [strstr] at h
    split at h
    · rename_i hp
      obtain rfl := Option.some.inj h
      exact ⟨[], rfl, List.isPrefixOf_iff_prefix.mp hp⟩
    · obtain ⟨pre, hs, hp⟩ := ih h
      exact ⟨c :: pre, by rw [hs, List.cons_append], hp⟩

theorem after_eq_some {needle s rest : CString} (h : after needle s = some rest) :
    ∃ pre, s = pre ++ needle ++ rest := by
  obtain ⟨t, ht, rfl⟩ := Option.map_eq_some_iff.mp h
  obtain ⟨pre, hs, r, rfl⟩ := strstr_eq_some ht
  exact ⟨pre, by simp [hs]⟩

/-- The endpoint of a node is empty, or has the colon of its scheme. -/
theorem mem_extractNodeEndpoint {size : ℕ} {disk node : CString}
    (h : extractNodeEndpoint size disk = some node) : node = [] ∨ 58 ∈ node := by
  rw [extractNodeEndpoint] at h
  split at h
  · exact .inl (Option.some.inj h).symm
  · rename_i rest hrest
    obtain ⟨pre, rfl⟩ := after_eq_some hrest
    dsimp only at h
    split at h
    · simp at h
    · refine .inr (Option.some.inj h ▸ ?_)
      have h1 : (pre ++ cstr "://" ++ rest).length - rest.length = (pre ++ cstr "://").length := by
        rw [List.length_append, Nat.add_sub_cancel]
      rw [h1, List.take_length_add_append]
      have h2 : (58 : UInt8) ∈ cstr "://" := by decide
      simp [h2]

/-- The node of a disk; the loop finds one for every endpoint. -/
def nodeOf (localNodeEndpoint diskEndpoint : CString) : BatchNode :=
  if isLocalDisk localNodeEndpoint diskEndpoint then ⟨cstr "local", true⟩
  else ⟨(extractNodeEndpoint 256 diskEndpoint).getD [], false⟩

theorem batchNode_eq (localNodeEndpoint diskEndpoint : CString) :
    batchNode localNodeEndpoint diskEndpoint = some (nodeOf localNodeEndpoint diskEndpoint) := by
  rw [batchNode, nodeOf]
  split
  · rfl
  · rename_i hl
    cases he : extractNodeEndpoint 256 diskEndpoint with
    | none => simp [isLocalDisk, he] at hl
    | some node => rfl

theorem nodeOf_remote {localNodeEndpoint diskEndpoint : CString}
    (h : ¬ isLocalDisk localNodeEndpoint diskEndpoint = true) :
    (nodeOf localNodeEndpoint diskEndpoint).nodeEndpoint ≠ cstr "local" := by
  rw [nodeOf, if_neg h]
  cases he : extractNodeEndpoint 256 diskEndpoint with
  | none => simp [isLocalDisk, he] at h
  | some node =>
    rcases mem_extractNodeEndpoint he with rfl | hm
    · simp [isLocalDisk, he] at h
    · rintro heq
      have hl : (58 : UInt8) ∉ cstr "local" := by decide
      exact hl (heq ▸ hm)

/-- The key of a batch is its node. -/
theorem nodeOf_inj {localNodeEndpoint d d' : CString}
    (h : (nodeOf localNodeEndpoint d).nodeEndpoint = (nodeOf localNodeEndpoint d').nodeEndpoint) :
    nodeOf localNodeEndpoint d = nodeOf localNodeEndpoint d' := by
  by_cases hd : isLocalDisk localNodeEndpoint d = true <;>
    by_cases hd' : isLocalDisk localNodeEndpoint d' = true
  · simp [nodeOf, hd, hd']
  · refine absurd ?_ (nodeOf_remote hd')
    rw [← h, nodeOf, if_pos hd]
  · refine absurd ?_ (nodeOf_remote hd)
    rw [h, nodeOf, if_pos hd']
  · simpa [nodeOf, hd, hd'] using h

/-! ## 2. The batches -/

/-- One position of a placement, and its chunk. -/
structure Position where
  diskEndpoint : CString
  diskPath : CString
  chunkData : Bytes

def Position.slot (p : Position) : ChunkSlot := ⟨some p.diskEndpoint, some p.diskPath, p.chunkData⟩

variable {localNodeEndpoint bucket object : CString}

/-- The chunk of a position, as its batch should have it. -/
def chunkOf (bucket object : CString) (p : Position × ℕ) : BatchChunk :=
  batchChunk bucket object p.2 p.1.diskPath p.1.chunkData

/-- The chunks from position `i` on, with their nodes. -/
def entries (localNodeEndpoint bucket object : CString) (ps : List Position) (i : ℕ) :
    List (BatchNode × BatchChunk) :=
  (ps.zipIdx i).map fun p => (nodeOf localNodeEndpoint p.1.diskEndpoint, chunkOf bucket object p)

theorem entries_cons (p : Position) (ps : List Position) (i : ℕ) :
    entries localNodeEndpoint bucket object (p :: ps) i =
      (nodeOf localNodeEndpoint p.diskEndpoint, chunkOf bucket object (p, i)) ::
        entries localNodeEndpoint bucket object ps (i + 1) := rfl

/-- The loop, from any groups on. -/
theorem classify_grouped {ps : List Position} {i : ℕ} {items : List (BatchNode × BatchChunk)}
    {batches : List NodeBatch} (h : Grouped BatchNode.nodeEndpoint items batches)
    (h16 : ∀ k, ((items ++ entries localNodeEndpoint bucket object ps i).filter fun e =>
      e.1.nodeEndpoint = k).length ≤ maxBatchSize)
    (h32 : (items ++ entries localNodeEndpoint bucket object ps i).length ≤ 32) :
    ∃ batches', classify localNodeEndpoint bucket object i (ps.map Position.slot) batches =
        some batches' ∧
      Grouped BatchNode.nodeEndpoint (items ++ entries localNodeEndpoint bucket object ps i)
        batches' := by
  induction ps generalizing i items batches with
  | nil => exact ⟨batches, rfl, by simpa [entries] using h⟩
  | cons p ps ih =>
    rw [entries_cons] at h16 h32 ⊢
    have hc : (items.filter fun e => e.1.nodeEndpoint =
        (nodeOf localNodeEndpoint p.diskEndpoint).nodeEndpoint).length < maxBatchSize := by
      have h1 := h16 (nodeOf localNodeEndpoint p.diskEndpoint).nodeEndpoint
      simp only [List.filter_append, List.length_append, List.filter_cons, decide_true, if_true,
        List.length_cons] at h1
      omega
    have hr : batches.length < 32 := by
      have h1 := h.length_le
      simp only [List.length_append, List.length_cons] at h32
      omega
    obtain ⟨next, hn, hg⟩ := h.insert (chunkOf bucket object (p, i)) hc hr
    rw [List.append_cons] at h16 h32 ⊢
    obtain ⟨batches', hb, hg'⟩ := ih hg h16 h32
    refine ⟨batches', ?_, hg'⟩
    have hn' : Grouping.insert BatchNode.nodeEndpoint maxBatchSize 32 batches
        (nodeOf localNodeEndpoint p.diskEndpoint)
        (batchChunk bucket object i p.diskPath p.chunkData) = some next := hn
    simp only [List.map_cons, Position.slot, classify, batchNode_eq, hn']
    exact hb

theorem slotChunks_slots (ps : List Position) (i : ℕ) :
    slotChunks bucket object i (ps.map Position.slot) =
      (ps.zipIdx i).map (chunkOf bucket object) := by
  induction ps generalizing i with
  | nil => rfl
  | cons p ps ih => simp [slotChunks, Position.slot, chunkOf, ih]

/-- At most 16 chunks of a node are at most 16 chunks of a key. -/
theorem length_filter_entries {ps : List Position}
    (h16 : ∀ node, ps.countP (fun p => nodeOf localNodeEndpoint p.diskEndpoint = node) ≤
      maxBatchSize)
    (k : CString) : ((entries localNodeEndpoint bucket object ps 0).filter fun e =>
      e.1.nodeEndpoint = k).length ≤ maxBatchSize := by
  have h1 : ((entries localNodeEndpoint bucket object ps 0).filter fun e =>
      e.1.nodeEndpoint = k).length =
      ps.countP fun p => (nodeOf localNodeEndpoint p.diskEndpoint).nodeEndpoint = k := by
    rw [← List.countP_eq_length_filter, entries, List.countP_map]
    conv_rhs => rw [← List.zipIdx_map_fst 0 ps, List.countP_map]
    rfl
  rw [h1]
  by_cases hk : ∃ p ∈ ps, (nodeOf localNodeEndpoint p.diskEndpoint).nodeEndpoint = k
  · obtain ⟨p, hp, rfl⟩ := hk
    refine le_trans (List.countP_mono_left fun q _ hq => ?_)
      (h16 (nodeOf localNodeEndpoint p.diskEndpoint))
    exact decide_eq_true (nodeOf_inj (of_decide_eq_true hq))
  · rw [List.countP_eq_zero.mpr]
    · exact Nat.zero_le _
    · intro p hp hpk
      exact hk ⟨p, hp, of_decide_eq_true hpk⟩

/-- **The grouping loop**, for any positions: with at most 32 chunks and 16 of a node it makes one
batch for each node, and that has the chunks of the node in their order; every chunk has the index
and the data of its position, and its disk path if that has less than 511 bytes. -/
theorem classify_batches {ps : List Position} (h32 : ps.length ≤ 32)
    (h16 : ∀ node, ps.countP (fun p => nodeOf localNodeEndpoint p.diskEndpoint = node) ≤
      maxBatchSize) :
    ∃ batches, classify localNodeEndpoint bucket object 0 (ps.map Position.slot) [] = some batches ∧
      (members batches).Perm (ps.zipIdx.map (chunkOf bucket object)) ∧
      (batches.map Prod.fst).Nodup ∧
      (∀ b ∈ batches, b.2 = (ps.zipIdx.filter fun p =>
        nodeOf localNodeEndpoint p.1.diskEndpoint = b.1).map (chunkOf bucket object)) ∧
      (∀ p ∈ ps, ∃ b ∈ batches, b.1 = nodeOf localNodeEndpoint p.diskEndpoint) ∧
      ∀ p ∈ ps.zipIdx, (chunkOf bucket object p).chunkIndex = p.2 + 1 ∧
        (chunkOf bucket object p).chunkData = p.1.chunkData ∧
        (p.1.diskPath.length < 511 → (chunkOf bucket object p).diskPath = p.1.diskPath) := by
  have hl : ([] ++ entries localNodeEndpoint bucket object ps 0).length ≤ 32 := by
    simpa [entries] using h32
  obtain ⟨batches, hc, hg⟩ := classify_grouped (grouped_nil _)
    (by simpa using @length_filter_entries localNodeEndpoint bucket object ps h16) hl
  rw [List.nil_append] at hg
  -- Every header is the node of some position, so equal keys are equal nodes.
  have hnode : ∀ b ∈ batches, ∃ p ∈ ps, nodeOf localNodeEndpoint p.diskEndpoint = b.1 := by
    intro b hb
    obtain ⟨e, he, heq⟩ := hg.header b hb
    obtain ⟨q, hq, rfl⟩ := List.mem_map.mp he
    exact ⟨q.1, List.fst_mem_of_mem_zipIdx hq, heq⟩
  refine ⟨batches, hc, ?_, ?_, fun b hb => ?_, fun p hp => ?_,
    fun p hp => ⟨rfl, rfl, fun hlt => ?_⟩⟩
  · simpa [members, slotChunks_slots] using classify_members hc
  · refine List.Nodup.of_map BatchNode.nodeEndpoint ?_
    rw [List.map_map]
    exact hg.apart
  · obtain ⟨p, hp, hpb⟩ := hnode b hb
    rw [hg.inOrder b hb, entries, List.filter_map, List.map_map]
    have hf : ∀ q : Position × ℕ, ((fun e : BatchNode × BatchChunk =>
        decide (e.1.nodeEndpoint = b.1.nodeEndpoint)) ∘ fun q =>
          (nodeOf localNodeEndpoint q.1.diskEndpoint, chunkOf bucket object q)) q =
        decide (nodeOf localNodeEndpoint q.1.diskEndpoint = b.1) := by
      intro q
      refine decide_eq_decide.mpr ⟨fun hq => ?_, fun hq => congrArg BatchNode.nodeEndpoint hq⟩
      rw [← hpb] at hq ⊢
      exact nodeOf_inj hq
    rw [List.filter_congr fun q _ => hf q]
    rfl
  · obtain ⟨i, hi, rfl⟩ := List.getElem_of_mem hp
    have he : (nodeOf localNodeEndpoint (ps[i]).diskEndpoint, chunkOf bucket object (ps[i], i)) ∈
        entries localNodeEndpoint bucket object ps 0 :=
      List.mem_map.mpr ⟨(ps[i], i), by simp [List.mem_zipIdx_iff_getElem?, hi], rfl⟩
    obtain ⟨b, hb, hk⟩ := hg.covered _ he
    obtain ⟨q, -, hq⟩ := hnode b hb
    refine ⟨b, hb, ?_⟩
    rw [← hq] at hk ⊢
    exact nodeOf_inj hk
  · exact charArray_of_lt (by omega)

/-- Three chunks on two nodes, one of them this one. -/
def threePositions (path : CString) : List Position :=
  [⟨cstr "http://n1:9000/d1", cstr "/d1", [1]⟩, ⟨cstr "http://n2:9000/d2", path, [2]⟩,
    ⟨cstr "http://n1:9000/d3", cstr "/d3", [3]⟩]

theorem classify_batches_three : ∃ batches,
    classify (cstr "http://n1:9000") [98] [111] 0
      ((threePositions (cstr "/d2")).map Position.slot) [] =
      some batches ∧ (batches.map Prod.fst).Nodup := by
  have h16 : ∀ node, (threePositions (cstr "/d2")).countP
      (fun p => nodeOf (cstr "http://n1:9000") p.diskEndpoint = node) ≤ maxBatchSize := by
    intro node
    exact le_trans List.countP_le_length (by decide)
  obtain ⟨batches, h1, -, h2, -⟩ := @classify_batches _ [98] [111] _ (by decide) h16
  exact ⟨batches, h1, h2⟩

theorem diskPath_chunkOf_ne {p : Position × ℕ} (h : 512 ≤ p.1.diskPath.length) :
    (chunkOf bucket object p).diskPath ≠ p.1.diskPath := by
  intro heq
  have hl := congrArg List.length heq
  simp only [chunkOf, batchChunk, charArray, List.length_take] at hl
  omega

/-- A disk path of 512 bytes does not fit: the chunk of its position has another one. -/
theorem classify_long_path : ∃ batches,
    classify (cstr "http://n1:9000") [98] [111] 0
        ((threePositions (List.replicate 512 47)).map Position.slot) [] = some batches ∧
      ∃ c ∈ members batches, c.chunkIndex = 2 ∧ c.diskPath ≠ List.replicate 512 47 := by
  refine ⟨_, rfl, chunkOf [98] [111] (⟨cstr "http://n2:9000/d2", List.replicate 512 47, [2]⟩, 1),
    ?_, rfl, ?_⟩
  · decide +kernel
  · exact diskPath_chunkOf_ne (List.length_replicate ..).ge

end ChunkGrouping
end Buckets
