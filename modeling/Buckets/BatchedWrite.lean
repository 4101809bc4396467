/-
# `storage/parallel_chunks_batched.c`: chunk writes grouped by node

`buckets_batched_parallel_write_chunks` sends the chunks of an object in one request per node.  Here
are the loop that groups them (`classify_members`: it loses and doubles no chunk) and the handler of
a batch, which acknowledges it when MORE THAN HALF of it is written; the request is modelled by the
chunks it carries.
-/
import Buckets.Lib.CStr
import Buckets.Lib.Grouping
import Buckets.Json

namespace Buckets

/-! ## 1. Endpoints -/

/-- `buckets_distributed_extract_node_endpoint`: the endpoint up to the path, empty without a
scheme; `none` is the error return. -/
def extractNodeEndpoint (size : ℕ) (diskEndpoint : CString) : Option CString :=
  match CStr.after (cstr "://") diskEndpoint with
  | none => some []
  | some rest =>
    let endpointLen := diskEndpoint.length - rest.length + (CStr.before rest 47).length
    if endpointLen ≥ size then none else some (diskEndpoint.take endpointLen)

/-- `buckets_distributed_is_local_disk`. -/
def isLocalDisk (localNodeEndpoint diskEndpoint : CString) : Bool :=
  if localNodeEndpoint = [] then true
  else
    match extractNodeEndpoint 256 diskEndpoint with
    | none => true
    | some nodeEndpoint => nodeEndpoint = [] || nodeEndpoint = localNodeEndpoint

/-! ## 2. The grouping loop -/

/-- `buckets_batch_chunk_t`. -/
structure BatchChunk where
  chunkIndex : ℕ
  chunkData : Bytes
  bucket : CString
  object : CString
  diskPath : CString
deriving DecidableEq

/-- The node of a `node_batch_t`. -/
structure BatchNode where
  nodeEndpoint : CString
  isLocal : Bool
deriving DecidableEq

/-- `node_batch_t`: a node and its chunks. -/
abbrev NodeBatch := BatchNode × List BatchChunk

/-- What the loop reads at one position: the disk's endpoint and path (`none` for a null pointer)
and the chunk. -/
structure ChunkSlot where
  diskEndpoint : Option CString
  diskPath : Option CString
  chunkData : Bytes

/-- The node of a disk. -/
def batchNode (localNodeEndpoint diskEndpoint : CString) : Option BatchNode :=
  if isLocalDisk localNodeEndpoint diskEndpoint then some ⟨cstr "local", true⟩
  else (extractNodeEndpoint 256 diskEndpoint).map (⟨·, false⟩)

/-- The chunk of position `i` as the batch holds it: of each name the bytes that `strncpy` copies.
The record is on the stack, so behind 255, 1023 or 511 of them there need not be a zero byte. -/
def batchChunk (bucket object : CString) (i : ℕ) (diskPath : CString) (data : Bytes) : BatchChunk :=
  ⟨i + 1, data, charArray 256 bucket, charArray 1024 object, charArray 512 diskPath⟩

/-- `MAX_BATCH_SIZE`. -/
def maxBatchSize : ℕ := 16

/-- The loop of `buckets_batched_parallel_write_chunks` that puts chunk `i` and the following ones
into batches; `none` is its error return. -/
def classify (localNodeEndpoint bucket object : CString) :
    ℕ → List ChunkSlot → List NodeBatch → Option (List NodeBatch)
  | _, [], batches => some batches
  | i, slot :: slots, batches =>
    match slot.diskEndpoint, slot.diskPath with
    | some diskEndpoint, some diskPath =>
      match batchNode localNodeEndpoint diskEndpoint with
      | none => none
      | some node =>
        match Grouping.insert BatchNode.nodeEndpoint maxBatchSize 32 batches node
            (batchChunk bucket object i diskPath slot.chunkData) with
        | none => none
        | some batches => classify localNodeEndpoint bucket object (i + 1) slots batches
    | _, _ => none

/-! ## 3. The handler of a batch -/

/-- What happens during a write: whether the thread of a node's batch is started, whether a node
receives its request, whether its answer comes back, and whether the disk write of a chunk
succeeds. -/
structure BatchIo where
  started : CString → Bool
  reached : CString → Bool
  answered : CString → Bool
  written : ℕ → Bool

/-- The chunks whose disk write succeeds. -/
def BatchIo.stored (io : BatchIo) (chunks : List BatchChunk) : List BatchChunk :=
  chunks.filter fun chunk => io.written chunk.chunkIndex

/-- Everything works but the writes of the chunks in `lost`. -/
def BatchIo.losing (lost : List ℕ) : BatchIo :=
  ⟨fun _ => true, fun _ => true, fun _ => true, fun i => decide (i ∉ lost)⟩

/-- `buckets_handle_batch_chunk_write` on the chunks of a request: the status and the chunks
written. -/
def handleBatchChunkWrite (io : BatchIo) (chunks : List BatchChunk) : ℕ × List BatchChunk :=
  if chunks.length = 0 ∨ chunks.length > 32 then (400, [])
  else
    let stored := io.stored chunks
    (if stored.length ≥ chunks.length / 2 + 1 then 200 else 500, stored)

/-! ## 4. The grouping keeps the chunks -/

/-- The chunks of the positions from `i` on. -/
def slotChunks (bucket object : CString) : ℕ → List ChunkSlot → List BatchChunk
  | _, [] => []
  | i, slot :: slots =>
    batchChunk bucket object i (slot.diskPath.getD []) slot.chunkData ::
      slotChunks bucket object (i + 1) slots

variable {batches : List NodeBatch}

/-- One step of the loop, inverted. -/
theorem classify_cons {localNodeEndpoint bucket object : CString} {i : ℕ} {slot : ChunkSlot}
    {slots : List ChunkSlot} {batches' : List NodeBatch}
    (h : classify localNodeEndpoint bucket object i (slot :: slots) batches = some batches') :
    ∃ node next, Grouping.insert BatchNode.nodeEndpoint maxBatchSize 32 batches node
        (batchChunk bucket object i (slot.diskPath.getD []) slot.chunkData) = some next ∧
      classify localNodeEndpoint bucket object (i + 1) slots next = some batches' := by
  unfold classify at h
  split at h
  case h_1 diskEndpoint diskPath _ hpath =>
    split at h
    case h_1 => exact absurd h (by simp)
    case h_2 node _ =>
      split at h
      case h_1 => exact absurd h (by simp)
      case h_2 next hnext => exact ⟨node, next, by rw [hpath]; exact hnext, h⟩
  case h_2 => exact absurd h (by simp)

/-- **The grouping loop loses and doubles no chunk.** -/
theorem classify_members {localNodeEndpoint bucket object : CString} {slots : List ChunkSlot}
    {i : ℕ} {batches' : List NodeBatch}
    (h : classify localNodeEndpoint bucket object i slots batches = some batches') :
    (Grouping.members batches').Perm
      (Grouping.members batches ++ slotChunks bucket object i slots) := by
  induction slots generalizing i batches with
  | nil =>
    obtain rfl : batches = batches' := Option.some.inj h
    simp [slotChunks]
  | cons slot slots ih =>
    obtain ⟨node, next, hnext, hrest⟩ := classify_cons h
    refine (ih hrest).trans ?_
    have hinsert := (Grouping.members_insert hnext).append_right
      (slotChunks bucket object (i + 1) slots)
    simpa [slotChunks] using hinsert

end Buckets
