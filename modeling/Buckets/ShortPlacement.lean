/-
# Placements with too few disks

`buckets_put_object` and `buckets_get_object` choose between one disk and many by DIFFERENT
conditions.  The put counts disks: with fewer than `k + m` in the placement, and fewer than that in
set 0 of the multi-disk layer, it writes all chunks and `xl.meta` to the placement's first disk.
The get asks only whether there is a placement, and then takes chunk `i` from `disk_paths[i]`, for
every `i` below `k + m`.  The array has one entry per disk, so the get reads PAST ITS END; and so
does the put itself when set 0 does have enough disks, because the disks it counted are not the ones
it then writes to.

A read past the end of an array has no meaning in C.  `Checked` keeps such calls apart from those
with a result, and `Checked.Allows` says that they may end in any way.  The model covers placements
with and without endpoints; `putFilesChecked_allows` and `readObjectChecked_allows` connect it with
the one of `storage/object.c` without them.

* `startWrite_short`, `taskLoop_short`: where the loops over a short array end;
* `putFilesChecked_short`: what a put of a large object does with such a placement;
* `get_of_written`: a get of what it wrote goes past the array, whatever else is there;
* `roundTrip_iff`: so the bytes come back EXACTLY IF the put fails.
-/
import Buckets.ChunkGrouping
import Buckets.ObjectRuns

namespace Buckets.ShortPlacement

/-! ## 1. Calls that index an array -/

/-- The result of a call, or that it has read past the end of an array. -/
inductive Checked (α : Type) where
  | inside (a : α)
  | outside

namespace Checked

variable {α β : Type}

def bind : Checked α → (α → Checked β) → Checked β
  | inside a, f => f a
  | outside, _ => outside

/-- The results the language allows: any, after a read past the end of an array. -/
def Allows : Checked α → α → Prop
  | inside a, b => b = a
  | outside, _ => True

@[simp] theorem inside_bind (a : α) (f : α → Checked β) : (inside a).bind f = f a := rfl

end Checked

open Checked ChunkGrouping

/-- `has_endpoints`. -/
def hasEndpoints (p : Placement) : Bool := p.diskEndpoints.headD [] ≠ []

/-- The loop that fills the tasks of a parallel read or write, one entry of `disk_paths` each:
`left` rounds to go, and what is left of the array. -/
def taskLoop : ℕ → List CString → Checked Unit
  | 0, _ => inside ()
  | _ + 1, [] => outside
  | left + 1, _ :: rest => taskLoop left rest

/-- The loop of `buckets_batched_parallel_write_chunks`: `left` rounds to go from position `i` on,
and what is left of `disk_endpoints` and `disk_paths`.  `false` is the error return. -/
def classifyLoop (localNode bucket object : CString) (chunks : ℕ → Bytes) :
    ℕ → List (CString × CString) → ℕ → List NodeBatch → Checked Bool
  | 0, _, _, _ => inside true
  | _ + 1, [], _, _ => outside
  | left + 1, (endpoint, path) :: rest, i, batches =>
    match classify localNode bucket object i [⟨some endpoint, some path, chunks i⟩] batches with
    | none => inside false
    | some batches => classifyLoop localNode bucket object chunks left rest (i + 1) batches

/-- `buckets_batched_parallel_write_chunks` up to its threads: whether they are started. -/
def startWrite (localNode bucket object : CString) (p : Placement) (chunks : ℕ → Bytes)
    (numChunks : ℕ) : Checked Bool :=
  if numChunks > 32 then inside false
  else if hasEndpoints p then
    classifyLoop localNode bucket object chunks numChunks (p.diskEndpoints.zip p.diskPaths) 0 []
  else (taskLoop numChunks p.diskPaths).bind fun _ => inside true

/-! ## 2. Put -/

section Model

variable {F : Type} [Field F] (prims : Prims F) (localNode : CString)

/-- What the threads of a distributed write do, given the object path, the placement, the chunks and
the record: the files of this node's disks afterwards, and whether all succeeded. -/
abbrev Launch :=
  Disks prims.cjson.Text → CString → Placement → (ℕ → Bytes) → XlMeta →
    Disks prims.cjson.Text × Bool

/-- The threads without endpoints. -/
def localLaunch (node : Node) (io : PutIo) : Launch prims := fun s path p chunks xl =>
  putParallel prims io s path p.diskPaths (putSetDisks node (some p)) chunks xl
    (node.defaultEcK + node.defaultEcM)

/-- The erasure-coded branch of `buckets_put_object`, once the chunks are made. -/
def putChunksChecked (node : Node) (launch : Launch prims) (io : PutIo) (s : Disks prims.cjson.Text)
    (call : PutCall) (placement : Option Placement) (chunks : ℕ → Bytes) (xl : XlMeta) :
    Checked (Disks prims.cjson.Text × Bool) :=
  let path := computeObjectPath prims.hashes call.bucket call.object
  let total := node.defaultEcK + node.defaultEcM
  match placement with
  | none => inside (putSingleDisk prims io s path (firstDisk node placement) chunks xl total)
  | some p =>
    if (putSetDisks node placement).length < total then
      inside (putSingleDisk prims io s path (firstDisk node placement) chunks xl total)
    else
      (startWrite localNode call.bucket call.object p chunks total).bind fun started =>
        inside (if started then launch s path p chunks xl else (s, false))

/-- Erasure coding: `write` gets the chunks, and nothing is written if there are none. -/
def encodeThen {β : Type} (isal : IsaL F) (node : Node) (data : Bytes) (failed : β)
    (write : (ℕ → Bytes) → β) : β :=
  match ecInit isal node.defaultEcK node.defaultEcM with
  | none => failed
  | some ctx =>
    match ecEncode ctx data (calculateChunkSize data.length node.defaultEcK) with
    | none => failed
    | some chunks => write (allChunks node.defaultEcK chunks)

/-- `buckets_put_object` up to the registry record. -/
def putFilesChecked (node : Node) (launch : Launch prims) (io : PutIo) (s : Disks prims.cjson.Text)
    (call : PutCall) : Checked (Disks prims.cjson.Text × Bool) :=
  let path := computeObjectPath prims.hashes call.bucket call.object
  let placement := placementCompute prims.hashes node call.bucket call.object
  if shouldInlineObject call.data.length then
    inside (writeXlMeta prims s (io.xlMeta 0) (firstDisk node placement) path (inlineMeta call),
      (io.xlMeta 0).isOk)
  else
    encodeThen prims.isal node call.data (inside (s, false)) fun chunks =>
      putChunksChecked prims localNode node launch io s call placement chunks
        (ecMeta prims.hashes call node.defaultEcK node.defaultEcM
          (calculateChunkSize call.data.length node.defaultEcK) chunks)

/-- `buckets_put_object`: the files, and whether it succeeded.  A failure of the registry record is
only logged. -/
def putObjectChecked (node : Node) (launch launchRegistry : Launch prims) (io ioRegistry : PutIo)
    (s : Disks prims.cjson.Text) (call : PutCall) : Checked (Disks prims.cjson.Text × Bool) :=
  (putFilesChecked prims localNode node launch io s call).bind fun written =>
    if written.2 && recordsLocation node call then
      (putFilesChecked prims localNode node launchRegistry ioRegistry written.1
        (registryCall prims node call)).bind fun recorded => inside (recorded.1, written.2)
    else inside written

/-! ## 3. Get -/

/-- What the other nodes answer about the object, by node endpoint and disk path. -/
structure Peers where
  xlMeta : CString → CString → Option XlMeta
  part : CString → CString → ℕ → Option Bytes

/-- Nodes that hold nothing of the object. -/
def Peers.nothing : Peers := ⟨fun _ _ => none, fun _ _ _ => none⟩

/-- The endpoint of the node to ask about disk `i`, if that is not this node. -/
def remoteNode (p : Placement) (i : ℕ) : Option CString :=
  match p.diskEndpoints[i]? with
  | none => none
  | some endpoint =>
    if hasEndpoints p && !isLocalDisk localNode endpoint then extractNodeEndpoint 256 endpoint
    else none

/-- The loop that looks for `xl.meta`: on each disk first as if it were local, then on its node. -/
def findMeta (peers : Peers) (s : Disks prims.cjson.Text) (path : CString) (p : Placement)
    (setDiskPaths : List CString) : Option XlMeta :=
  setDiskPaths.zipIdx.findSome? fun disk =>
    match readXlMeta prims s disk.1 path with
    | some xl => some xl
    | none => (remoteNode localNode p disk.2).bind fun node => peers.xlMeta node disk.1

/-- What task `i` of a parallel read finds. -/
def readTask {Text : Type} (peers : Peers) (s : Disks Text) (path : CString)
    (p : Placement) (i : ℕ) : Option Bytes :=
  let diskPath := charArray 512 (p.diskPaths.getD i [])
  match remoteNode localNode p i with
  | some node => peers.part node diskPath (i + 1)
  | none => s.part diskPath path (i + 1)

/-- `buckets_parallel_read_chunks`: `none` is its error return. -/
def parallelReadChunksChecked {Text : Type} (peers : Peers) (s : Disks Text) (path : CString)
    (p : Placement) (numChunks : ℕ) : Checked (Option (ℕ → Option Bytes)) :=
  if numChunks > 32 then inside none
  else (taskLoop numChunks p.diskPaths).bind fun _ => inside (some fun i =>
    if i < numChunks then readTask localNode peers s path p i else none)

/-- The end of `buckets_get_object`: enough chunks, and the decoding. -/
def decodeChunks (junk : Junk) (xl : XlMeta) (chunks : ℕ → Option Bytes) : Option Bytes :=
  if (present (xl.erasure.data + xl.erasure.parity) chunks).length < xl.erasure.data then none
  else
    match ecInit prims.isal xl.erasure.data xl.erasure.parity with
    | none => none
    | some ctx =>
      ecDecode ctx junk.oob chunks xl.erasure.blockSize
        ((List.range xl.stat.size).map junk.fresh) xl.stat.size

/-- `buckets_get_object` with a placement. -/
def readObjectChecked (peers : Peers) (s : Disks prims.cjson.Text) (junk : Junk) (path : CString)
    (p : Placement) (setDiskPaths : List CString) : Checked (Option Bytes) :=
  match findMeta prims localNode peers s path p setDiskPaths with
  | none => inside none
  | some xl =>
    match xl.inlineData with
    | some text => inside (some (base64Decode text))
    | none =>
      (parallelReadChunksChecked localNode peers s path p
        (xl.erasure.data + xl.erasure.parity)).bind fun chunks =>
          inside (chunks.bind (decodeChunks prims junk xl))

/-- `buckets_get_object`: `none` is its error return. -/
def getObjectChecked (peers : Peers) (node : Node) (s : Disks prims.cjson.Text) (junk : Junk)
    (location : Option ℕ) (bucket object : CString) : Checked (Option Bytes) :=
  let disks := getDisks prims node bucket object location
  let path := computeObjectPath prims.hashes bucket object
  match disks.1 with
  | none => inside (readObject prims s junk path none disks.2)
  | some p => readObjectChecked prims localNode peers s junk path p disks.2

/-! ## 4. Without endpoints -/

/-- Without endpoints a put is that of the local model, or goes past the array. -/
theorem putFilesChecked_allows {node : Node} {call : PutCall}
    (hlocal : ∀ p, placementCompute prims.hashes node call.bucket call.object = some p →
      hasEndpoints p = false) (io : PutIo) (s : Disks prims.cjson.Text) :
    (putFilesChecked prims localNode node (localLaunch prims node io) io s call).Allows
      (putFiles prims node io s call) := by
  unfold putFilesChecked putFiles encodeThen
  dsimp only
  split
  · exact rfl
  · cases ecInit prims.isal node.defaultEcK node.defaultEcM with
    | none => exact rfl
    | some ctx =>
      dsimp only
      cases ecEncode ctx call.data (calculateChunkSize call.data.length node.defaultEcK) with
      | none => exact rfl
      | some chunks =>
        dsimp only
        unfold putChunksChecked putChunks
        cases hp : placementCompute prims.hashes node call.bucket call.object with
        | none => exact rfl
        | some p =>
          dsimp only
          split
          · exact rfl
          · unfold startWrite
            rw [hlocal p hp]
            by_cases h32 : node.defaultEcK + node.defaultEcM > 32
            · rw [if_pos h32]
              show _ = (s, false)
              simp only [putParallel, parallelWriteChunks, if_pos h32, Bool.false_eq_true, if_false]
            · rw [if_neg h32]
              simp only [Bool.false_eq_true, if_false]
              cases taskLoop (node.defaultEcK + node.defaultEcM) p.diskPaths with
              | inside _ => exact rfl
              | outside => exact trivial

/-- A loop over an array that is too short leaves it. -/
theorem taskLoop_short : ∀ {n : ℕ} {paths : List CString}, paths.length < n →
    taskLoop n paths = outside
  | 0, _, h => absurd h (Nat.not_lt_zero _)
  | _ + 1, [], _ => rfl
  | n + 1, _ :: paths, h => show taskLoop n paths = outside from taskLoop_short (by simpa using h)

theorem taskLoop_enough : ∀ {n : ℕ} {paths : List CString}, n ≤ paths.length →
    taskLoop n paths = inside ()
  | 0, _, _ => rfl
  | _ + 1, [], h => absurd h (Nat.not_succ_le_zero _)
  | n + 1, _ :: paths, h =>
    show taskLoop n paths = inside () from taskLoop_enough (by simpa using h)

theorem remoteNode_local {p : Placement} (hlocal : hasEndpoints p = false) (i : ℕ) :
    remoteNode localNode p i = none := by
  unfold remoteNode
  rw [hlocal]
  split <;> rfl

/-- With nothing to learn from other nodes, the loop reads the disks in turn. -/
theorem findMeta_eq {peers : Peers} {p : Placement}
    (hpeers : ∀ i disk, ((remoteNode localNode p i).bind fun node => peers.xlMeta node disk) = none)
    (s : Disks prims.cjson.Text) (path : CString) (paths : List CString) :
    findMeta prims localNode peers s path p paths =
      paths.findSome? fun disk => readXlMeta prims s disk path := by
  have hround : ∀ disk : CString × ℕ, (match readXlMeta prims s disk.1 path with
      | some xl => some xl
      | none => (remoteNode localNode p disk.2).bind fun node => peers.xlMeta node disk.1) =
      readXlMeta prims s disk.1 path := by
    intro disk
    rw [hpeers]
    cases readXlMeta prims s disk.1 path <;> rfl
  unfold findMeta
  simp only [hround]
  conv_rhs => rw [← List.zipIdx_map_fst 0 paths]
  rw [List.findSome?_map]
  rfl

/-- Without endpoints a get is that of the local model, or goes past the array. -/
theorem readObjectChecked_allows {p : Placement} (hlocal : hasEndpoints p = false) (peers : Peers)
    (s : Disks prims.cjson.Text) (junk : Junk) (path : CString) (paths : List CString) :
    (readObjectChecked prims localNode peers s junk path p paths).Allows
      (readObject prims s junk path (some p) paths) := by
  have hremote := remoteNode_local localNode hlocal
  unfold readObjectChecked readObject
  rw [findMeta_eq prims localNode (fun i disk => by rw [hremote]; rfl)]
  cases paths.findSome? fun disk => readXlMeta prims s disk path with
  | none => exact rfl
  | some xl =>
    dsimp only
    cases xl.inlineData with
    | some text => exact rfl
    | none =>
      dsimp only
      unfold readChunksAndDecode parallelReadChunksChecked
      simp only [readChunks, parallelReadChunks]
      by_cases h32 : xl.erasure.data + xl.erasure.parity > 32
      · rw [if_pos h32, if_pos h32]
        exact rfl
      · rw [if_neg h32, if_neg h32]
        by_cases hlen : p.diskPaths.length < xl.erasure.data + xl.erasure.parity
        · rw [taskLoop_short hlen]
          exact trivial
        · rw [taskLoop_enough (not_lt.mp hlen), if_neg hlen]
          simp only [readTask, hremote]
          exact rfl

/-! ## 5. The loops over a short placement -/

/-- The nodes of a placement's disks, as the batches are named. -/
def nodeNames (endpoints : List CString) : List CString :=
  endpoints.map fun endpoint => (nodeOf localNode endpoint).nodeEndpoint

/-- One round of the loop. -/
theorem classify_one {bucket object endpoint path : CString} {data : Bytes} {i : ℕ}
    (batches : List NodeBatch) :
    classify localNode bucket object i [⟨some endpoint, some path, data⟩] batches =
      Grouping.insert BatchNode.nodeEndpoint maxBatchSize 32 batches (nodeOf localNode endpoint)
        (batchChunk bucket object i path data) := by
  simp only [classify, batchNode_eq]
  cases Grouping.insert BatchNode.nodeEndpoint maxBatchSize 32 batches (nodeOf localNode endpoint)
    (batchChunk bucket object i path data) <;> rfl

/-- **The grouping loop over arrays that are too short** stops at a node with more than 16 of the
disks, and otherwise leaves the arrays. -/
theorem classifyLoop_short {bucket object : CString} {chunks : ℕ → Bytes}
    {rest : List (CString × CString)} {left i : ℕ} {items : List (BatchNode × BatchChunk)}
    {batches : List NodeBatch} (h : Grouping.Grouped BatchNode.nodeEndpoint items batches)
    (h16 : ∀ n, (items.map fun e => e.1.nodeEndpoint).count n ≤ maxBatchSize)
    (h32 : items.length + rest.length ≤ 32) (hleft : rest.length < left) :
    ((∀ n, ((items.map fun e => e.1.nodeEndpoint) ++ nodeNames localNode (rest.map Prod.fst)).count
        n ≤ maxBatchSize) ∧
      classifyLoop localNode bucket object chunks left rest i batches = outside) ∨
    ((∃ n, maxBatchSize < ((items.map fun e => e.1.nodeEndpoint) ++
        nodeNames localNode (rest.map Prod.fst)).count n) ∧
      classifyLoop localNode bucket object chunks left rest i batches = inside false) := by
  induction rest generalizing left i items batches with
  | nil =>
    obtain ⟨left, rfl⟩ := Nat.exists_eq_add_of_lt hleft
    exact Or.inl ⟨by simpa [nodeNames] using h16, rfl⟩
  | cons disk rest ih =>
    obtain ⟨endpoint, path⟩ := disk
    obtain ⟨left, rfl⟩ : ∃ n, left = n + 1 := ⟨left - 1, by omega⟩
    rw [classifyLoop, classify_one]
    set node := nodeOf localNode endpoint with hnode
    have hcount : (items.filter fun e => e.1.nodeEndpoint = node.nodeEndpoint).length =
        (items.map fun e => e.1.nodeEndpoint).count node.nodeEndpoint := by
      rw [← List.countP_eq_length_filter, List.count, List.countP_map]
      exact List.countP_congr fun e _ => by simp
    by_cases hfull : maxBatchSize ≤ (items.map fun e => e.1.nodeEndpoint).count node.nodeEndpoint
    · -- the seventeenth disk of a node
      refine Or.inr ⟨⟨node.nodeEndpoint, ?_⟩, ?_⟩
      · simp only [nodeNames, List.map_cons, List.count_append, List.count_cons, ← hnode,
          beq_self_eq_true, if_true]
        omega
      · rw [h.insert_full _ (by decide) (hcount ▸ hfull)]
    · have hroom : batches.length < 32 := by
        have hle := h.length_le
        simp only [List.length_cons] at h32
        omega
      obtain ⟨next, hnext, hgrouped⟩ := h.insert (batchChunk bucket object i path (chunks i))
        (hcount.trans_lt (not_le.mp hfull)) hroom
      rw [hnext]
      have hstep := @ih left (i + 1) _ next hgrouped ?_ ?_ (by simpa using hleft)
      · simpa [nodeNames] using hstep
      · intro n
        rw [List.map_append, List.count_append]
        by_cases hn : node.nodeEndpoint = n
        · subst hn
          simp only [List.map_cons, List.map_nil, List.count_singleton_self]
          omega
        · simpa [List.count_singleton, hn] using h16 n
      · simp only [List.length_append, List.length_cons, List.length_nil] at h32 ⊢
        omega

/-! ## 6. Put with a short placement -/

variable {node : Node} {call : PutCall} {p : Placement}

/-- A key whose placement has disks, but fewer than `k + m`. -/
structure Short (hashes : Hashes) (node : Node) (bucket object : CString) (p : Placement) :
    Prop where
  compute : placementCompute hashes node bucket object = some p
  nonempty : p.diskPaths ≠ []
  few : p.diskPaths.length < node.defaultEcK + node.defaultEcM

/-- A placement has one endpoint for each path. -/
theorem length_diskEndpoints {hashes : Hashes} {bucket object : CString}
    (h : placementCompute hashes node bucket object = some p) :
    p.diskEndpoints.length = p.diskPaths.length := by
  unfold placementCompute at h
  split at h
  · cases h
  · split at h
    · split at h
      · cases h
      · rename_i set _
        dsimp only at h
        split at h
        · obtain rfl := Option.some.inj h
          rfl
        · rename_i first rest hdisks
          split at h
          · split at h
            · rename_i hle
              obtain rfl := Option.some.inj h
              dsimp only
              rw [List.length_map, List.length_take, Nat.min_eq_left hle]
            · cases h
          · obtain rfl := Option.some.inj h
            simp only [List.length_map]
    · cases h

/-- At most 16 of the disks are on one node, as far as the disks have nodes. -/
def Spread (p : Placement) : Prop :=
  hasEndpoints p = true → ∀ n, (nodeNames localNode p.diskEndpoints).count n ≤ maxBatchSize

/-- **A distributed write to a short placement** goes past the arrays, unless it is refused
before. -/
theorem startWrite_short {hashes : Hashes} {bucket object : CString}
    (h : Short hashes node bucket object p) (h32 : node.defaultEcK + node.defaultEcM ≤ 32)
    (chunks : ℕ → Bytes) :
    (Spread localNode p ∧ startWrite localNode bucket object p chunks
      (node.defaultEcK + node.defaultEcM) = outside) ∨
    (¬ Spread localNode p ∧ startWrite localNode bucket object p chunks
      (node.defaultEcK + node.defaultEcM) = inside false) := by
  have hfew := h.few
  unfold startWrite
  rw [if_neg (by omega)]
  cases hendpoints : hasEndpoints p with
  | false =>
    refine Or.inl ⟨fun htrue => absurd (hendpoints.symm.trans htrue) (by decide), ?_⟩
    rw [if_neg (by decide), taskLoop_short hfew]
    rfl
  | true =>
    rw [if_pos rfl]
    have hlength := length_diskEndpoints h.compute
    have hfst : (p.diskEndpoints.zip p.diskPaths).map Prod.fst = p.diskEndpoints :=
      List.map_fst_zip (by omega)
    have hloop := @classifyLoop_short localNode bucket object chunks
      (p.diskEndpoints.zip p.diskPaths) (node.defaultEcK + node.defaultEcM) 0 [] []
      (Grouping.grouped_nil _) (fun n => by simp) ?_ ?_
    · rw [hfst] at hloop
      rcases hloop with ⟨hcount, hloop⟩ | ⟨⟨n, hcount⟩, hloop⟩
      · exact Or.inl ⟨fun _ n => by simpa using hcount n, hloop⟩
      · refine Or.inr ⟨fun hspread => ?_, hloop⟩
        have hle := hspread hendpoints n
        simp only [List.map_nil, List.nil_append] at hcount
        omega
    · rw [List.length_zip]
      simp only [List.length_nil]
      omega
    · rw [List.length_zip]
      omega

/-- Erasure coding succeeds if the configuration is valid and the object not too large. -/
theorem encodeThen_cases {β : Type} (isal : IsaL F) (node : Node) (data : Bytes) (failed : β)
    (write : (ℕ → Bytes) → β) :
    (¬ (ecValidateConfig node.defaultEcK node.defaultEcM = true ∧
        ecCalcChunkSize data.length node.defaultEcK ≤ maxChunkSize) ∧
      encodeThen isal node data failed write = failed) ∨
    ∃ C, EcCode isal node.defaultEcK node.defaultEcM
      (calculateChunkSize data.length node.defaultEcK)
        data C ∧ encodeThen isal node data failed write = write C := by
  unfold encodeThen
  cases hinit : ecInit isal node.defaultEcK node.defaultEcM with
  | none =>
    refine Or.inl ⟨fun h => ?_, rfl⟩
    obtain ⟨ctx, hctx, -⟩ := ecInit_valid isal h.1
    rw [hinit] at hctx
    cases hctx
  | some ctx =>
    dsimp only
    cases henc : ecEncode ctx data (calculateChunkSize data.length node.defaultEcK) with
    | none =>
      refine Or.inl ⟨fun h => ?_, rfl⟩
      obtain ⟨chunks, hchunks⟩ := ecEncode_isSome hinit h.2
      rw [henc] at hchunks
      cases hchunks
    | some chunks => exact Or.inr ⟨_, ecCode_of_ecEncode hinit henc, rfl⟩

theorem ecCode_fits {isal : IsaL F} {k m : ℕ} {data : Bytes} {C : ℕ → Bytes}
    (h : EcCode isal k m (calculateChunkSize data.length k) data C) :
    ecValidateConfig k m = true ∧ ecCalcChunkSize data.length k ≤ maxChunkSize :=
  ⟨h.config, h.fits.trans (calculateChunkSize_le data.length k)⟩

/-- The writes of the single-disk fallback all succeed. -/
def AllWritten (node : Node) (io : PutIo) : Prop :=
  (∀ i < node.defaultEcK + node.defaultEcM, (io.chunk i).isOk = true) ∧ (io.xlMeta 0).isOk = true

theorem writeChunksSequential_ok {Text : Type} (io : ℕ → ChunkWrite) (disk path : CString)
    (chunks : ℕ → Bytes) : ∀ (l : List ℕ) (s : Disks Text),
      (writeChunksSequential io disk path chunks l s).2 = l.all fun i => (io i).isOk
  | [], _ => rfl
  | i :: rest, s => by
    rw [writeChunksSequential, List.all_cons]
    cases hi : (io i).isOk with
    | false => rfl
    | true =>
      rw [if_pos rfl, Bool.true_and]
      exact writeChunksSequential_ok io disk path chunks rest _

theorem xlMeta_writeChunksSequential {Text : Type} (io : ℕ → ChunkWrite) (disk path : CString)
    (chunks : ℕ → Bytes) (d o : CString) : ∀ (l : List ℕ) (s : Disks Text),
      (writeChunksSequential io disk path chunks l s).1.xlMeta d o = s.xlMeta d o
  | [], _ => rfl
  | i :: rest, s => by
    rw [writeChunksSequential]
    split
    · exact xlMeta_writeChunksSequential io disk path chunks d o rest _
    · rfl

theorem putSingleDisk_ok (io : PutIo) (s : Disks prims.cjson.Text) (path disk : CString)
    (chunks : ℕ → Bytes) (xl : XlMeta) :
    (putSingleDisk prims io s path disk chunks xl (node.defaultEcK + node.defaultEcM)).2 = true ↔
      AllWritten node io := by
  have hwritten := writeChunksSequential_ok io.chunk disk path chunks
    (List.range (node.defaultEcK + node.defaultEcM)) s
  unfold putSingleDisk AllWritten
  dsimp only
  cases hall : (List.range (node.defaultEcK + node.defaultEcM)).all fun i => (io.chunk i).isOk with
  | true =>
    rw [hall] at hwritten
    rw [if_pos hwritten]
    have hchunks : ∀ i < node.defaultEcK + node.defaultEcM, (io.chunk i).isOk = true :=
      fun i hi => List.all_eq_true.mp hall i (List.mem_range.mpr hi)
    exact ⟨fun h => ⟨hchunks, h⟩, fun h => h.2⟩
  | false =>
    rw [hall] at hwritten
    rw [if_neg (by rw [hwritten]; decide), hwritten]
    refine ⟨fun h => absurd h (by decide), fun h => ?_⟩
    have htrue := List.all_eq_true.mpr fun i hi => h.1 i (List.mem_range.mp hi)
    exact absurd (hall.symm.trans htrue) (by decide)

/-- What the single-disk fallback leaves where no `xl.meta` was. -/
theorem xlMeta_putSingleDisk {io : PutIo} (hall : AllWritten node io) (s : Disks prims.cjson.Text)
    (path disk : CString) (chunks : ℕ → Bytes) (xl : XlMeta) (d : CString) :
    (putSingleDisk prims io s path disk chunks xl
      (node.defaultEcK + node.defaultEcM)).1.xlMeta d path =
      if d = disk then some (prims.cjson.print (xlMetaToJson xl)) else s.xlMeta d path := by
  have hwritten : (writeChunksSequential io.chunk disk path chunks
      (List.range (node.defaultEcK + node.defaultEcM)) s).2 = true := by
    rw [writeChunksSequential_ok]
    exact List.all_eq_true.mpr fun i hi => hall.1 i (List.mem_range.mp hi)
  unfold putSingleDisk writeXlMeta
  dsimp only
  rw [if_pos hwritten, if_pos (AtomicWrite.installs_of_isOk hall.2), Disks.xlMeta_setXlMeta,
    xlMeta_writeChunksSequential]
  simp only [and_true]

/-- Set 0 of the multi-disk layer has `k + m` disks online. -/
def SetZeroEnough (node : Node) : Prop :=
  node.defaultEcK + node.defaultEcM ≤
    (getSetDisks node.multidisk 0 (node.defaultEcK + node.defaultEcM)).length

/-- Nothing stops the put of a large object: it can be encoded, and then either the distributed
write is begun and not refused, or every write to the one disk succeeds. -/
structure Unstopped (node : Node) (p : Placement) (io : PutIo) (call : PutCall) : Prop where
  config : ecValidateConfig node.defaultEcK node.defaultEcM = true
  fits : ecCalcChunkSize call.data.length node.defaultEcK ≤ maxChunkSize
  distributed : SetZeroEnough node → Spread localNode p
  single : ¬ SetZeroEnough node → AllWritten node io

/-- The record of the put. -/
def putRecord (node : Node) (call : PutCall) (C : ℕ → Bytes) : XlMeta :=
  ecRecord prims.hashes call node.defaultEcK node.defaultEcM
    (calculateChunkSize call.data.length node.defaultEcK) C 0

/-- The only `xl.meta` of the object is the record on one disk. -/
def OnlyRecord (node : Node) (call : PutCall) (C : ℕ → Bytes) (s : Disks prims.cjson.Text)
    (disk : CString) : Prop :=
  ∀ d, s.xlMeta d (call.path prims.hashes) =
    if d = disk then some (prims.cjson.print (xlMetaToJson (putRecord prims node call C))) else none

variable (h : Short prims.hashes node call.bucket call.object p)
  (hlarge : shouldInlineObject call.data.length = false)

include h hlarge

/-- **A put of a large object**, with its chunks made: what follows depends on set 0. -/
theorem putFilesChecked_short (launch : Launch prims) (io : PutIo) (s : Disks prims.cjson.Text) :
    (¬ (ecValidateConfig node.defaultEcK node.defaultEcM = true ∧
        ecCalcChunkSize call.data.length node.defaultEcK ≤ maxChunkSize) ∧
      putFilesChecked prims localNode node launch io s call = inside (s, false)) ∨
    ∃ C, EcCode prims.isal node.defaultEcK node.defaultEcM
        (calculateChunkSize call.data.length node.defaultEcK) call.data C ∧
      ((SetZeroEnough node ∧ Spread localNode p ∧
          putFilesChecked prims localNode node launch io s call = outside) ∨
        (SetZeroEnough node ∧ ¬ Spread localNode p ∧
          putFilesChecked prims localNode node launch io s call = inside (s, false)) ∨
        (¬ SetZeroEnough node ∧ putFilesChecked prims localNode node launch io s call =
          inside (putSingleDisk prims io s (call.path prims.hashes) (firstDisk node (some p)) C
            (putRecord prims node call C) (node.defaultEcK + node.defaultEcM)))) := by
  unfold putFilesChecked
  rw [h.compute, hlarge]
  simp only [Bool.false_eq_true, if_false]
  rcases encodeThen_cases prims.isal node call.data (inside (s, false)) (fun chunks =>
    putChunksChecked prims localNode node launch io s call (some p) chunks
      (ecMeta prims.hashes call node.defaultEcK node.defaultEcM
        (calculateChunkSize call.data.length node.defaultEcK) chunks)) with
      hfailed | ⟨C, hcode, hthen⟩
  · exact Or.inl hfailed
  · obtain ⟨-, hk, -, hm⟩ := hcode.bounds
    have hdisks : putSetDisks node (some p) =
        getSetDisks node.multidisk 0 (node.defaultEcK + node.defaultEcM) :=
          if_neg (not_le.mpr h.few)
    refine Or.inr ⟨C, hcode, ?_⟩
    rw [hthen]
    unfold putChunksChecked
    dsimp only
    rw [hdisks]
    by_cases hset : SetZeroEnough node
    · rw [if_neg (not_lt.mpr hset)]
      rcases startWrite_short localNode h (by omega) C with ⟨hspread, hstart⟩ | ⟨hspread, hstart⟩
      · rw [hstart]
        exact Or.inl ⟨hset, hspread, rfl⟩
      · rw [hstart]
        exact Or.inr (Or.inl ⟨hset, hspread, rfl⟩)
    · rw [if_pos (not_le.mp hset)]
      exact Or.inr (Or.inr ⟨hset, rfl⟩)

/-- **A put of a large object that is stopped** fails. -/
theorem putFilesChecked_stopped {io : PutIo} (hstopped : ¬ Unstopped localNode node p io call)
    (launch : Launch prims) (s : Disks prims.cjson.Text) :
    ∃ s', putFilesChecked prims localNode node launch io s call = inside (s', false) := by
  rcases putFilesChecked_short prims localNode h hlarge launch io s with
    ⟨-, hput⟩ | ⟨C, hcode, ⟨hset, hspread, -⟩ | ⟨-, -, hput⟩ | ⟨hset, hput⟩⟩
  · exact ⟨s, hput⟩
  · obtain ⟨hconfig, hfits⟩ := ecCode_fits hcode
    exact absurd ⟨hconfig, hfits, fun _ => hspread, fun hnot => absurd hset hnot⟩ hstopped
  · exact ⟨s, hput⟩
  · obtain ⟨hconfig, hfits⟩ := ecCode_fits hcode
    refine ⟨_, hput.trans (congrArg inside (Prod.ext rfl (Bool.eq_false_iff.mpr fun hok => ?_)))⟩
    have hall := (putSingleDisk_ok prims io s _ _ C _).mp hok
    exact hstopped ⟨hconfig, hfits, fun henough => absurd henough hset, fun _ => hall⟩

/-- **A put of a large object that is not stopped** reads past the placement's arrays, or writes its
record to the one disk. -/
theorem putFilesChecked_unstopped {io : PutIo} (hgoes : Unstopped localNode node p io call)
    (launch : Launch prims) {s : Disks prims.cjson.Text}
    (hfresh : ∀ d, s.xlMeta d (call.path prims.hashes) = none) :
    (SetZeroEnough node ∧ putFilesChecked prims localNode node launch io s call = outside) ∨
    (¬ SetZeroEnough node ∧ ∃ s' C,
      putFilesChecked prims localNode node launch io s call = inside (s', true) ∧
      EcCode prims.isal node.defaultEcK node.defaultEcM
        (calculateChunkSize call.data.length node.defaultEcK) call.data C ∧
      OnlyRecord prims node call C s' (firstDisk node (some p))) := by
  rcases putFilesChecked_short prims localNode h hlarge launch io s with
    ⟨hnot, -⟩ | ⟨C, hcode, ⟨hset, -, hput⟩ | ⟨hset, hspread, -⟩ | ⟨hset, hput⟩⟩
  · exact absurd ⟨hgoes.config, hgoes.fits⟩ hnot
  · exact Or.inl ⟨hset, hput⟩
  · exact absurd (hgoes.distributed hset) hspread
  · have hall := hgoes.single hset
    have hok := (putSingleDisk_ok prims io s (call.path prims.hashes) (firstDisk node (some p)) C
      (putRecord prims node call C)).mpr hall
    refine Or.inr ⟨hset, _, C, hput.trans (congrArg inside (Prod.ext rfl hok)), hcode, fun d => ?_⟩
    rw [← hfresh d]
    exact xlMeta_putSingleDisk prims hall s _ _ C _ d

omit hlarge

/-! ## 7. Get with a short placement -/

omit h in
theorem readXlMeta_of_onlyRecord {C : ℕ → Bytes} {s : Disks prims.cjson.Text} {disk : CString}
    (hcode : EcCode prims.isal node.defaultEcK node.defaultEcM
      (calculateChunkSize call.data.length node.defaultEcK) call.data C)
    (honly : OnlyRecord prims node call C s disk) (d : CString) :
    readXlMeta prims s d (call.path prims.hashes) =
      if d = disk then some (putRecord prims node call C) else none := by
  obtain ⟨-, hk, -, hm⟩ := hcode.bounds
  have hd := honly d
  split at hd
  · rename_i heq
    rw [if_pos heq]
    exact readXlMeta_of_print prims hd (ecRecord_storable hcode.size_lt hk hm hcode.int (by omega))
  · rename_i hne
    rw [if_neg hne, readXlMeta, hd]
    rfl

/-- **A record of `k + m` chunks takes a get past a short placement.** -/
theorem readObjectChecked_record {C : ℕ → Bytes} {peers : Peers} {s : Disks prims.cjson.Text}
    {path : CString} {paths : List CString}
    (hcode : EcCode prims.isal node.defaultEcK node.defaultEcM
      (calculateChunkSize call.data.length node.defaultEcK) call.data C)
    (hfound : findMeta prims localNode peers s path p paths = some (putRecord prims node call C))
    (junk : Junk) : readObjectChecked prims localNode peers s junk path p paths = outside := by
  obtain ⟨-, hk, -, hm⟩ := hcode.bounds
  unfold readObjectChecked
  rw [hfound]
  show (parallelReadChunksChecked localNode peers s path p
    (node.defaultEcK + node.defaultEcM)).bind _ = outside
  unfold parallelReadChunksChecked
  rw [if_neg (by omega), taskLoop_short h.few]
  rfl

omit h in
/-- The `xl.meta` a get decides by, when the other nodes have nothing. -/
theorem findMeta_nothing (s : Disks prims.cjson.Text) (path : CString) (paths : List CString) :
    findMeta prims localNode .nothing s path p paths =
      paths.findSome? fun disk => readXlMeta prims s disk path :=
  findMeta_eq prims localNode (fun i _ => by cases remoteNode localNode p i <;> rfl) s path paths

/-- No record on the disks of the placement: not found. -/
theorem get_unread {s : Disks prims.cjson.Text}
    (hnone : ∀ d ∈ p.diskPaths, readXlMeta prims s d (call.path prims.hashes) = none) (junk : Junk)
    (location : Option ℕ) :
    getObjectChecked prims localNode .nothing node s junk location call.bucket call.object =
      inside none := by
  have hfind : findMeta prims localNode .nothing s
      (computeObjectPath prims.hashes call.bucket call.object) p p.diskPaths = none := by
    rw [findMeta_nothing]
    exact List.findSome?_eq_none_iff.mpr hnone
  unfold getObjectChecked
  rw [getDisks_of_compute prims h.compute h.nonempty]
  dsimp only
  unfold readObjectChecked
  rw [hfind]

/-- **A get of what the single-disk write left**: the record is found on the placement's disks, and
takes it past the array, or it is not. -/
theorem get_of_written {C : ℕ → Bytes} {s : Disks prims.cjson.Text} {disk : CString}
    (hcode : EcCode prims.isal node.defaultEcK node.defaultEcM
      (calculateChunkSize call.data.length node.defaultEcK) call.data C)
    (honly : OnlyRecord prims node call C s disk) (junk : Junk) (location : Option ℕ) :
    getObjectChecked prims localNode .nothing node s junk location call.bucket call.object =
      if disk ∈ p.diskPaths then outside else inside none := by
  have hread := readXlMeta_of_onlyRecord prims hcode honly
  split
  · rename_i hmem
    have hfind : findMeta prims localNode .nothing s
        (computeObjectPath prims.hashes call.bucket call.object) p p.diskPaths =
        some (putRecord prims node call C) := by
      rw [findMeta_nothing]
      cases hfound : p.diskPaths.findSome? fun d =>
          readXlMeta prims s d (computeObjectPath prims.hashes call.bucket call.object) with
      | none =>
        have hnone := List.findSome?_eq_none_iff.mp hfound disk hmem
        exact absurd ((hread disk).symm.trans hnone) (by simp)
      | some xl =>
        obtain ⟨d, -, hd⟩ := List.exists_of_findSome?_eq_some hfound
        exact (Option.ite_none_right_eq_some.mp ((hread d).symm.trans hd)).2.symm
    unfold getObjectChecked
    rw [getDisks_of_compute prims h.compute h.nonempty]
    exact readObjectChecked_record prims localNode h hcode hfind junk
  · rename_i hmem
    refine get_unread prims localNode h (fun d hd => (hread d).trans (if_neg ?_)) junk location
    rintro rfl
    exact hmem hd

/-! ## 8. The bytes that come back -/

omit h

/-- The registry's put, with no write taking effect, leaves every `xl.meta`. -/
theorem putFilesChecked_dead (call : PutCall) (s : Disks prims.cjson.Text) :
    putFilesChecked prims localNode node (fun s _ _ _ _ => (s, false)) PutIo.dead s call = outside ∨
    ∃ written, putFilesChecked prims localNode node (fun s _ _ _ _ => (s, false))
      PutIo.dead s call = inside written ∧ ∀ d o, written.1.xlMeta d o = s.xlMeta d o := by
  have hsingle : ∀ (path disk : CString) (chunks : ℕ → Bytes) (xl : XlMeta) (n : ℕ) (d o : CString),
      (putSingleDisk prims PutIo.dead s path disk chunks xl n).1.xlMeta d o = s.xlMeta d o := by
    intro path disk chunks xl n d o
    unfold putSingleDisk
    dsimp only
    split <;> exact xlMeta_writeChunksSequential _ disk path chunks d o _ s
  unfold putFilesChecked
  dsimp only
  split
  · exact Or.inr ⟨_, rfl, fun _ _ => rfl⟩
  · rcases encodeThen_cases prims.isal node call.data (inside (s, false)) (fun chunks =>
      putChunksChecked prims localNode node (fun s _ _ _ _ => (s, false)) PutIo.dead s call
        (placementCompute prims.hashes node call.bucket call.object) chunks
        (ecMeta prims.hashes call node.defaultEcK node.defaultEcM
          (calculateChunkSize call.data.length node.defaultEcK) chunks)) with
        ⟨-, hthen⟩ | ⟨C, -, hthen⟩
    · exact Or.inr ⟨_, hthen, fun _ _ => rfl⟩
    · rw [hthen]
      unfold putChunksChecked
      dsimp only
      cases placementCompute prims.hashes node call.bucket call.object with
      | none => exact Or.inr ⟨_, rfl, hsingle _ _ _ _ _⟩
      | some p =>
        dsimp only
        split
        · exact Or.inr ⟨_, rfl, hsingle _ _ _ _ _⟩
        · cases startWrite localNode call.bucket call.object p C
              (node.defaultEcK + node.defaultEcM) with
          | outside => exact Or.inl rfl
          | inside started => exact Or.inr ⟨_, rfl, fun _ _ => by cases started <;> rfl⟩

/-- **A put that is not stopped loses the object**: on empty disks it may succeed, and the get that
follows may return an error. -/
theorem lost_of_unstopped (h : Short prims.hashes node call.bucket call.object p)
    (hlarge : shouldInlineObject call.data.length = false) {io : PutIo}
    (hgoes : Unstopped localNode node p io call) (launch : Launch prims) (junk : Junk)
    (location : Option ℕ) :
    ∃ s', (putObjectChecked prims localNode node launch (fun s _ _ _ _ => (s, false)) io
        PutIo.dead .empty call).Allows (s', true) ∧
      (getObjectChecked prims localNode .nothing node s' junk location call.bucket
        call.object).Allows none := by
  unfold putObjectChecked
  rcases putFilesChecked_unstopped prims localNode h hlarge hgoes launch (s := .empty)
    (fun _ => rfl) with ⟨-, hput⟩ | ⟨-, s', C, hput, hcode, honly⟩
  · refine ⟨.empty, by rw [hput]; trivial, ?_⟩
    rw [get_unread prims localNode h (fun d _ => rfl)]
    rfl
  · -- whatever the registry's put leaves of the record
    have hget : ∀ {s'' : Disks prims.cjson.Text}, (∀ d o, s''.xlMeta d o = s'.xlMeta d o) →
        (getObjectChecked prims localNode .nothing node s'' junk location call.bucket
          call.object).Allows none := by
      intro s'' hsame
      rw [get_of_written prims localNode h hcode (fun d => (hsame d _).trans (honly d))]
      split
      · trivial
      · rfl
    rw [hput]
    simp only [inside_bind, Bool.true_and]
    cases recordsLocation node call with
    | false => exact ⟨s', rfl, hget fun _ _ => rfl⟩
    | true =>
      rw [if_pos rfl]
      rcases putFilesChecked_dead prims localNode (registryCall prims node call) s' with
        hrecord | ⟨written, hrecord, hsame⟩
      · exact ⟨s', by rw [hrecord]; trivial, hget fun _ _ => rfl⟩
      · exact ⟨written.1, by rw [hrecord]; rfl, hget hsame⟩

/-- **A put that succeeds is read back.**  Whatever the threads and the registry's record do,
whatever is on the disks and on the other nodes, and whatever the registry answers: if the put may
succeed and leave the files `s'`, a get from them may return nothing but the bytes. -/
def RoundTrip (node : Node) (io : PutIo) (call : PutCall) : Prop :=
  ∀ (launch launchRegistry : Launch prims) (ioRegistry : PutIo) (peers : Peers)
    (s s' : Disks prims.cjson.Text) (junk : Junk) (location : Option ℕ) (r : Option Bytes),
    (putObjectChecked prims localNode node launch launchRegistry io ioRegistry s call).Allows
      (s', true) →
    (getObjectChecked prims localNode peers node s' junk location call.bucket call.object).Allows
      r →
    r = some call.data

/-- **Placements with too few disks.**  A large object comes back exactly if its put fails: it
cannot be encoded, or set 0 has enough disks and more than 16 of the placement's are on one node, or
set 0 does not and a write to the first disk fails. -/
theorem roundTrip_iff (h : Short prims.hashes node call.bucket call.object p)
    (hlarge : shouldInlineObject call.data.length = false) (io : PutIo) :
    RoundTrip prims localNode node io call ↔ ¬ Unstopped localNode node p io call := by
  constructor
  · intro hround hgoes
    obtain ⟨s', hput, hget⟩ := lost_of_unstopped prims localNode h hlarge hgoes
      (fun s _ _ _ _ => (s, false)) ⟨fun _ _ => 0, fun _ => 0⟩ none
    exact Option.some_ne_none _ (hround _ _ _ _ _ s' _ _ none hput hget).symm
  · intro hstopped launch launchRegistry ioRegistry peers s s' junk location r hput _
    obtain ⟨files, hfiles⟩ := putFilesChecked_stopped prims localNode h hlarge hstopped launch s
    unfold putObjectChecked at hput
    rw [hfiles] at hput
    cases congrArg Prod.snd hput

end Model

/-! ## 9. Three disks for four chunks -/

theorem threeDisks_short : ∃ p, Short Prims.reference.hashes (threeDiskNode true 2 2)
    (largePut 0).bucket
    (largePut 0).object p ∧ p.diskPaths = [cstr "/d0", cstr "/d1", cstr "/d2"] := by
  obtain ⟨ctx, vnode, set, disks, hset⟩ := (threeDisks_localMode true 2 2).keySet
    Prims.reference.hashes (largePut 0).bucket (largePut 0).object
  obtain rfl := List.mem_singleton.mp hset.mem
  obtain rfl := Option.some.inj hset.multidisk
  obtain rfl := Option.some.inj hset.getSet
  obtain ⟨p, hp, -, hpaths, -⟩ := hset.placementCompute_eq.1 (by decide)
  have hpaths : p.diskPaths = [cstr "/d0", cstr "/d1", cstr "/d2"] := hpaths
  refine ⟨p, ⟨hp, ?_, ?_⟩, hpaths⟩
  · rw [hpaths]
    exact List.cons_ne_nil _ _
  · rw [hpaths]
    decide

theorem threeDisks_setZero : ¬ SetZeroEnough (threeDiskNode true 2 2) := by
  unfold SetZeroEnough
  decide

/-- With no write taking effect the put fails, and there is nothing to read back. -/
theorem roundTrip_dead : ∃ p, Short Prims.reference.hashes (threeDiskNode true 2 2)
      (largePut 0).bucket (largePut 0).object p ∧
    RoundTrip Prims.reference [] (threeDiskNode true 2 2) PutIo.dead (largePut 0) := by
  obtain ⟨p, hp, -⟩ := threeDisks_short
  refine ⟨p, hp, (roundTrip_iff Prims.reference [] hp (largePut_not_inline 0) _).mpr
    fun hgoes => ?_⟩
  cases (hgoes.single threeDisks_setZero).2

/-- **Three disks, `2 + 2` chunks, no fault anywhere**: the put succeeds, and every get of the
object goes past the three paths of the placement. -/
theorem roundTrip_three_disks :
    (∃ p, Short Prims.reference.hashes (threeDiskNode true 2 2) (largePut 0).bucket
      (largePut 0).object p) ∧
    (∃ s', putObjectChecked Prims.reference [] (threeDiskNode true 2 2)
        (localLaunch Prims.reference (threeDiskNode true 2 2) .noFault)
        (localLaunch Prims.reference (threeDiskNode true 2 2) .noFault) .noFault .noFault .empty
        (largePut 0) = .inside (s', true) ∧
      ∀ junk location, getObjectChecked Prims.reference [] .nothing (threeDiskNode true 2 2) s' junk
        location (largePut 0).bucket (largePut 0).object = .outside) ∧
    ¬ RoundTrip Prims.reference [] (threeDiskNode true 2 2) .noFault (largePut 0) := by
  obtain ⟨p, hp, hpaths⟩ := threeDisks_short
  have hgoes : Unstopped [] (threeDiskNode true 2 2) p .noFault (largePut 0) :=
    ⟨rfl, largePut_fits 0 (by decide), fun henough => absurd henough threeDisks_setZero,
      fun _ => ⟨fun _ _ => rfl, rfl⟩⟩
  refine ⟨⟨p, hp⟩, ?_, fun hround => ?_⟩
  · rcases putFilesChecked_unstopped Prims.reference [] hp (largePut_not_inline 0) hgoes
      (localLaunch Prims.reference (threeDiskNode true 2 2) .noFault) (s := .empty)
      (fun _ => rfl) with ⟨henough, -⟩ | ⟨-, s', C, hput, hcode, honly⟩
    · exact absurd henough threeDisks_setZero
    · refine ⟨s', ?_, fun junk location => ?_⟩
      · unfold putObjectChecked
        rw [hput]
        rfl
      · rw [get_of_written Prims.reference [] hp hcode honly, if_pos]
        have hfirst : firstDisk (threeDiskNode true 2 2) (some p) = cstr "/d0" := by
          simp only [firstDisk, hpaths]
          decide
        rw [hfirst, hpaths]
        exact List.mem_cons_self
  · obtain ⟨s', hput, hget⟩ := lost_of_unstopped Prims.reference [] hp (largePut_not_inline 0) hgoes
      (localLaunch Prims.reference (threeDiskNode true 2 2) .noFault) ⟨fun _ _ => 0,
        fun _ => 0⟩ none
    exact Option.some_ne_none _ (hround _ _ _ _ _ s' _ _ none hput hget).symm

end Buckets.ShortPlacement
