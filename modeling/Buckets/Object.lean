/-
# `storage/object.c`: storing and reading an object

`buckets_put_object` and `buckets_get_object` in local mode: no disk has an endpoint, so the
branches that replicate or read over the network are not taken, and the asynchronous write modes
are off.  Everything else is as the code has it -- the disk chosen for an inline object, the
fallbacks when there is no placement, the chunk files and the `xl.meta` copies of an
erasure-coded one, the registry record written through a second put, and on the read side the
FIRST readable `xl.meta` of the set and the chunks by position.

A write can fail, and a failed write of a chunk can leave the file as it was, remove it or leave
other bytes in it: `PutIo` says what happens to each write of a put.

* `putFiles_inline`, `putFiles_ec` -- what a put writes;
* `getObject_placed` -- a get reads the disks of the key's placement, whatever the registry says;
* `readObject_inline`, `readObject_ec` -- what is read when the first `xl.meta` is that of an
  inline object, and when it is that of an erasure-coded one with any `k` of its parts left.
-/
import Mathlib.Data.List.GetD
import Buckets.Lib.PointLoop
import Buckets.XlMeta
import Buckets.Placement

namespace Buckets

/-! ## 1. The files of the disks -/

/-- The object files of a node's disks, by disk path and object path: the `xl.meta` file, and the
files `part.1`, `part.2`, .. . -/
structure Disks (Text : Type) where
  xlMeta : CString → CString → Option Text
  part : CString → CString → ℕ → Option Bytes

namespace Disks

variable {Text : Type}

def setXlMeta (s : Disks Text) (disk path : CString) (file : Option Text) : Disks Text :=
  { s with xlMeta := fun d o => if d = disk ∧ o = path then file else s.xlMeta d o }

def setPart (s : Disks Text) (disk path : CString) (index : ℕ) (file : Option Bytes) :
    Disks Text :=
  { s with part := fun d o i => if d = disk ∧ o = path ∧ i = index then file else s.part d o i }

@[simp] theorem xlMeta_setXlMeta (s : Disks Text) (disk path d o : CString) (file : Option Text) :
    (s.setXlMeta disk path file).xlMeta d o =
      if d = disk ∧ o = path then file else s.xlMeta d o := rfl

@[simp] theorem part_setPart (s : Disks Text) (disk path d o : CString) (index i : ℕ)
    (file : Option Bytes) : (s.setPart disk path index file).part d o i =
      if d = disk ∧ o = path ∧ i = index then file else s.part d o i := rfl

end Disks

/-- The outcome of a chunk write: done, or failed with the file left as it was (`none`) or as
`some file`. -/
inductive ChunkWrite where
  | ok
  | failed (left : Option (Option Bytes))

namespace ChunkWrite

def isOk : ChunkWrite → Bool
  | ok => true
  | failed _ => false

/-- The file after the write. -/
def file (r : ChunkWrite) (old : Option Bytes) (data : Bytes) : Option Bytes :=
  match r with
  | ok => some data
  | failed none => old
  | failed (some left) => left

end ChunkWrite

/-- The outcomes of the writes of one put: of chunk `i`, and of the `xl.meta` on disk `i`.  If
`buckets_create_object_dir` fails there are none: the put ends as with `dead`. -/
structure PutIo where
  chunk : ℕ → ChunkWrite
  xlMeta : ℕ → AtomicWrite

/-- No write fails. -/
def PutIo.noFault : PutIo := ⟨fun _ => .ok, fun _ => .ok⟩

/-- No write has any effect. -/
def PutIo.dead : PutIo := ⟨fun _ => .failed none, fun _ => .failed false⟩

/-! ## 2. Put -/

/-- The libraries the storage layer calls. -/
structure Prims (F : Type) [Field F] where
  isal : IsaL F
  cjson : CJson
  hashes : Hashes

section Model

variable {F : Type} [Field F] (prims : Prims F)

/-- One call of `buckets_put_object`, with the times it reads from the clock. -/
structure PutCall where
  bucket : CString
  object : CString
  data : Bytes
  contentType : Option CString
  modTime : CString
  now : ℤ

/-- The object path of a call. -/
def PutCall.path (call : PutCall) (hashes : Hashes) : CString :=
  computeObjectPath hashes call.bucket call.object

/-- `buckets_write_xl_meta`. -/
def writeXlMeta (s : Disks prims.cjson.Text) (r : AtomicWrite) (disk path : CString) (xl : XlMeta) :
    Disks prims.cjson.Text :=
  if r.installs then s.setXlMeta disk path (some (prims.cjson.print (xlMetaToJson xl))) else s

/-- `buckets_write_chunk`. -/
def writeChunk {Text : Type} (s : Disks Text) (r : ChunkWrite) (disk path : CString) (index : ℕ)
    (data : Bytes) : Disks Text :=
  s.setPart disk path index (r.file (s.part disk path index) data)

/-- `buckets_parallel_write_chunks`: chunk `i` to the file `part.(i+1)` of disk `i`.  All writes
are made, and all must succeed.  The tasks hold at most 511 bytes of a disk path. -/
def parallelWriteChunks {Text : Type} (s : Disks Text) (io : ℕ → ChunkWrite) (path : CString)
    (diskPaths : List CString) (chunks : ℕ → Bytes) (numChunks : ℕ) : Disks Text × Bool :=
  if numChunks > 32 then (s, false)
  else if diskPaths.length < numChunks then (s, false)
  else
    ((List.range numChunks).foldl (fun s i =>
        writeChunk s (io i) (charArray 512 (diskPaths.getD i [])) path (i + 1) (chunks i)) s,
      (List.range numChunks).all fun i => (io i).isOk)

/-- `buckets_parallel_write_metadata`: the record with its disk's index, to each disk. -/
def parallelWriteMetadata (s : Disks prims.cjson.Text) (io : ℕ → AtomicWrite) (path : CString)
    (diskPaths : List CString) (xl : XlMeta) (numDisks : ℕ) : Disks prims.cjson.Text × Bool :=
  if numDisks > 32 then (s, false)
  else
    ((List.range numDisks).foldl (fun s i =>
        writeXlMeta prims s (io i) (charArray 512 (diskPaths.getD i [])) path
          { xl with erasure := { xl.erasure with index := i + 1 } }) s,
      (List.range numDisks).all fun i => (io i).isOk)

/-- The single-disk fallback: the chunks one after the other, stopping at the first failure. -/
def writeChunksSequential {Text : Type} (io : ℕ → ChunkWrite) (disk path : CString)
    (chunks : ℕ → Bytes) : List ℕ → Disks Text → Disks Text × Bool
  | [], s => (s, true)
  | i :: rest, s =>
    let s' := writeChunk s (io i) disk path (i + 1) (chunks i)
    if (io i).isOk then writeChunksSequential io disk path chunks rest s' else (s', false)

/-- The record of an object before its contents are added. -/
def baseMeta (call : PutCall) : XlMeta where
  version := 1
  format := cstr "xl"
  bucket := some call.bucket
  object := some call.object
  stat := { size := call.data.length, modTime := charArray 32 call.modTime }
  userMeta := { contentType := call.contentType }

/-- The record of an inline object. -/
def inlineMeta (call : PutCall) : XlMeta :=
  { baseMeta call with inlineData := some (base64Encode call.data) }

/-- `buckets_compute_chunk_checksum`. -/
def chunkChecksum (hashes : Hashes) (chunk : Bytes) : Checksum where
  algo := cstr "BLAKE2b-256"
  hash := hashes.blake2b256 chunk

/-- The record of an erasure-coded object. -/
def ecMeta (hashes : Hashes) (call : PutCall) (k m chunkSize : ℕ) (chunks : ℕ → Bytes) : XlMeta :=
  { baseMeta call with erasure :=
      { algorithm := cstr "ReedSolomon"
        data := k
        parity := m
        blockSize := chunkSize
        index := 1
        distribution := (List.range (k + m)).map (· + 1)
        checksums := (List.range (k + m)).map fun i => chunkChecksum hashes (chunks i) } }

/-- The directory used when no disk is known: `data_dir`, or the default for tests. -/
def Node.fallbackDisk (node : Node) : CString :=
  match node.dataDir with
  | none => cstr "/tmp/buckets-data"
  | some dir => if dir = [] then cstr "/tmp/buckets-data" else dir

/-- The disk of an inline object, and of all of an object in the single-disk fallback. -/
def firstDisk (node : Node) (placement : Option Placement) : CString :=
  match placement with
  | none => node.fallbackDisk
  | some p =>
    match p.diskPaths with
    | [] => node.fallbackDisk
    | disk :: _ => if disk = [] then cstr "/tmp/buckets-data" else disk

/-- The disks an erasure-coded object goes to: those of the placement if there are enough, and
otherwise those of set 0 of the multi-disk layer. -/
def putSetDisks (node : Node) (placement : Option Placement) : List CString :=
  let total := node.defaultEcK + node.defaultEcM
  match placement with
  | some p => if p.diskPaths.length ≥ total then p.diskPaths else getSetDisks node.multidisk 0 total
  | none => getSetDisks node.multidisk 0 total

/-- The single-disk fallback: all chunks, then `xl.meta`. -/
def putSingleDisk (io : PutIo) (s : Disks prims.cjson.Text) (path disk : CString)
    (chunks : ℕ → Bytes) (xl : XlMeta) (total : ℕ) : Disks prims.cjson.Text × Bool :=
  let written := writeChunksSequential io.chunk disk path chunks (List.range total) s
  if written.2 then (writeXlMeta prims written.1 (io.xlMeta 0) disk path xl, (io.xlMeta 0).isOk)
  else written

/-- The distributed write: the chunks to the disks of the placement, then, if all were written,
`xl.meta` to every disk. -/
def putParallel (io : PutIo) (s : Disks prims.cjson.Text) (path : CString)
    (chunkDisks metaDisks : List CString) (chunks : ℕ → Bytes) (xl : XlMeta) (total : ℕ) :
    Disks prims.cjson.Text × Bool :=
  let written := parallelWriteChunks s io.chunk path chunkDisks chunks total
  if written.2 then parallelWriteMetadata prims written.1 io.xlMeta path metaDisks xl total
  else written

/-- The erasure-coded branch of `buckets_put_object`, once the chunks are made. -/
def putChunks (node : Node) (io : PutIo) (s : Disks prims.cjson.Text) (path : CString)
    (placement : Option Placement) (chunks : ℕ → Bytes) (xl : XlMeta) :
    Disks prims.cjson.Text × Bool :=
  let total := node.defaultEcK + node.defaultEcM
  let setDiskPaths := putSetDisks node placement
  match placement with
  | none => putSingleDisk prims io s path (firstDisk node placement) chunks xl total
  | some p =>
    if setDiskPaths.length < total then
      putSingleDisk prims io s path (firstDisk node placement) chunks xl total
    else putParallel prims io s path p.diskPaths setDiskPaths chunks xl total

/-- `buckets_put_object` up to the registry record: the files, and whether it succeeded. -/
def putFiles (node : Node) (io : PutIo) (s : Disks prims.cjson.Text) (call : PutCall) :
    Disks prims.cjson.Text × Bool :=
  let path := computeObjectPath prims.hashes call.bucket call.object
  let placement := placementCompute prims.hashes node call.bucket call.object
  if shouldInlineObject call.data.length then
    (writeXlMeta prims s (io.xlMeta 0) (firstDisk node placement) path (inlineMeta call),
      (io.xlMeta 0).isOk)
  else
    let k := node.defaultEcK
    let m := node.defaultEcM
    let chunkSize := calculateChunkSize call.data.length k
    match ecInit prims.isal k m with
    | none => (s, false)
    | some ctx =>
      match ecEncode ctx call.data chunkSize with
      | none => (s, false)
      | some chunks =>
        putChunks prims node io s path placement (allChunks k chunks)
          (ecMeta prims.hashes call k m chunkSize (allChunks k chunks))

/-! ## 3. The registry record -/

/-- `BUCKETS_REGISTRY_BUCKET`. -/
def registryBucket : CString := cstr ".buckets-registry"

/-- `buckets_object_location_t` as `record_object_location` fills it. -/
structure ObjectLocation where
  bucket : CString
  object : CString
  versionId : CString
  poolIdx : ℕ
  setIdx : ℕ
  diskCount : ℕ
  diskIdxs : List ℕ
  generation : ℤ
  modTime : ℤ
  size : ℕ

/-- The location `record_object_location` records. -/
def locationOf (call : PutCall) (placement : Option Placement) : ObjectLocation :=
  let diskCount := match placement with
    | some p => min p.diskPaths.length 16
    | none => 1
  { bucket := call.bucket
    object := call.object
    versionId := cstr "latest"
    poolIdx := match placement with | some p => p.poolIdx | none => 0
    setIdx := match placement with | some p => p.setIdx | none => 0
    diskCount := diskCount
    diskIdxs := List.range diskCount
    generation := match placement with | some p => p.generation | none => 1
    modTime := call.now
    size := call.data.length }

/-- `buckets_registry_location_to_json`, up to the printing of the tree. -/
def locationToJson (loc : ObjectLocation) : Json := Json.mkObject
  [(cstr "bucket", some (.string loc.bucket)), (cstr "object", some (.string loc.object)),
   (cstr "version_id", some (.string loc.versionId)), (cstr "pool_idx", some (.int loc.poolIdx)),
   (cstr "set_idx", some (.int loc.setIdx)), (cstr "disk_count", some (.int loc.diskCount)),
   (cstr "disk_idxs", some (.array (loc.diskIdxs.map fun i : ℕ => .int i))),
   (cstr "generation", some (.int loc.generation)), (cstr "mod_time", some (.int loc.modTime)),
   (cstr "size", some (.int loc.size))]

/-- The put `buckets_registry_record` makes: the location under a key cut to 1023 bytes. -/
def registryCall (node : Node) (call : PutCall) : PutCall where
  bucket := registryBucket
  object := charArray 1024 (joinPath (joinPath call.bucket call.object) (cstr "latest.json"))
  data := prims.cjson.chars (prims.cjson.printUnformatted (locationToJson
    (locationOf call (placementCompute prims.hashes node call.bucket call.object))))
  contentType := some (cstr "application/json")
  modTime := call.modTime
  now := call.now

/-- Whether a put is followed by a registry record. -/
def recordsLocation (node : Node) (call : PutCall) : Bool :=
  call.bucket ≠ registryBucket && node.registryInitialized

/-- `buckets_put_object`: the files, whether it succeeded, and whether the registry record, whose
failure is only logged, was written. -/
def putObject (node : Node) (io ioRegistry : PutIo) (s : Disks prims.cjson.Text) (call : PutCall) :
    Disks prims.cjson.Text × Bool × Bool :=
  let written := putFiles prims node io s call
  if written.2 && recordsLocation node call then
    let recorded := putFiles prims node ioRegistry written.1 (registryCall prims node call)
    (recorded.1, written.2, recorded.2)
  else (written.1, written.2, false)

/-! ## 4. Get -/

/-- Bytes the program reads without having written them: past the end of a buffer, and in a fresh
allocation. -/
structure Junk where
  oob : ℕ → ℕ → UInt8
  fresh : ℕ → UInt8

/-- `buckets_read_xl_meta`. -/
def readXlMeta (s : Disks prims.cjson.Text) (disk path : CString) : Option XlMeta :=
  ((s.xlMeta disk path).bind prims.cjson.parse).map xlMetaFromJson

/-- `buckets_parallel_read_chunks`: `none` is its error return. -/
def parallelReadChunks {Text : Type} (s : Disks Text) (path : CString) (diskPaths : List CString)
    (numChunks : ℕ) : Option (ℕ → Option Bytes) :=
  if numChunks > 32 then none
  else if diskPaths.length < numChunks then none
  else some fun i => if i < numChunks then s.part (charArray 512 (diskPaths.getD i [])) path (i + 1)
    else none

/-- All chunks from one disk, when there is no placement. -/
def sequentialReadChunks {Text : Type} (s : Disks Text) (path disk : CString) (numChunks i : ℕ) :
    Option Bytes :=
  if i < numChunks then s.part disk path (i + 1) else none

/-- The chunks a get decodes. -/
def readChunks {Text : Type} (s : Disks Text) (path : CString) (placement : Option Placement)
    (setDiskPaths : List CString) (totalChunks : ℕ) : Option (ℕ → Option Bytes) :=
  match placement with
  | some p => parallelReadChunks s path p.diskPaths totalChunks
  | none => some (sequentialReadChunks s path (setDiskPaths.headD []) totalChunks)

/-- `buckets_get_object` from the decoded `xl.meta` of an erasure-coded object on. -/
def readChunksAndDecode (s : Disks prims.cjson.Text) (junk : Junk) (path : CString)
    (placement : Option Placement) (setDiskPaths : List CString) (xl : XlMeta) : Option Bytes :=
  let k := xl.erasure.data
  let m := xl.erasure.parity
  let totalChunks := k + m
  match readChunks s path placement setDiskPaths totalChunks with
  | none => none
  | some chunks =>
    if (present totalChunks chunks).length < k then none
    else
      match ecInit prims.isal k m with
      | none => none
      | some ctx =>
        ecDecode ctx junk.oob chunks xl.erasure.blockSize
          ((List.range xl.stat.size).map junk.fresh) xl.stat.size

/-- `buckets_get_object` once the disks are known: the first readable `xl.meta` decides. -/
def readObject (s : Disks prims.cjson.Text) (junk : Junk) (path : CString)
    (placement : Option Placement) (setDiskPaths : List CString) : Option Bytes :=
  match setDiskPaths.findSome? fun disk => readXlMeta prims s disk path with
  | none => none
  | some xl =>
    match xl.inlineData with
    | some text => some (base64Decode text)
    | none => readChunksAndDecode prims s junk path placement setDiskPaths xl

/-- The disks a get looks at, and the placement it keeps.  `location` is the set index of the
registry's answer, if it has one. -/
def getDisks (node : Node) (bucket object : CString) (location : Option ℕ) :
    Option Placement × List CString :=
  let skipRegistry := decide (bucket = registryBucket) || decide (bucket = cstr ".buckets.sys")
  let location := if skipRegistry then none else location
  let fromRegistry : Option Placement × List CString :=
    match location with
    | none => (none, [])
    | some setIdx =>
      match placementCompute prims.hashes node bucket object with
      | none => (none, [])
      | some p => (some p, if p.setIdx = setIdx then p.diskPaths else [])
  let computed : Option Placement × List CString :=
    if location.isNone || fromRegistry.2.length = 0 then
      match placementCompute prims.hashes node bucket object with
      | none => fromRegistry
      | some p => (some p, p.diskPaths)
    else fromRegistry
  if computed.2.length = 0 then
    let fallbackPaths := getSetDisks node.multidisk 0 64
    (computed.1, if fallbackPaths.length > 0 then fallbackPaths else [node.fallbackDisk])
  else computed

/-- `buckets_get_object`: `none` is its error return. -/
def getObject (node : Node) (s : Disks prims.cjson.Text) (junk : Junk) (location : Option ℕ)
    (bucket object : CString) : Option Bytes :=
  let disks := getDisks prims node bucket object location
  readObject prims s junk (computeObjectPath prims.hashes bucket object) disks.1 disks.2

end Model

/-! ## 5. A put touches only its own object -/

/-- The files of objects with another path are the same. -/
def SameOutside {Text : Type} (path : CString) (s s' : Disks Text) : Prop :=
  ∀ d o, o ≠ path → s'.xlMeta d o = s.xlMeta d o ∧ ∀ i, s'.part d o i = s.part d o i

namespace SameOutside

variable {Text : Type} {path : CString}

theorem refl (s : Disks Text) : SameOutside path s s := fun _ _ _ => ⟨rfl, fun _ => rfl⟩

theorem trans {s s' s'' : Disks Text} (h : SameOutside path s s') (h' : SameOutside path s' s'') :
    SameOutside path s s'' := by
  intro d o ho
  obtain ⟨hm, hp⟩ := h d o ho
  obtain ⟨hm', hp'⟩ := h' d o ho
  exact ⟨hm'.trans hm, fun i => (hp' i).trans (hp i)⟩

theorem foldl {step : Disks Text → ℕ → Disks Text}
    (hstep : ∀ s i, SameOutside path s (step s i)) :
    ∀ (l : List ℕ) (s : Disks Text), SameOutside path s (l.foldl step s)
  | [], s => refl s
  | i :: t, s => (hstep s i).trans (foldl hstep t (step s i))

end SameOutside

theorem writeChunk_sameOutside {Text : Type} (s : Disks Text) (r : ChunkWrite) (disk path : CString)
    (index : ℕ) (data : Bytes) : SameOutside path s (writeChunk s r disk path index data) := by
  intro d o ho
  refine ⟨rfl, fun i => ?_⟩
  rw [writeChunk, Disks.part_setPart, if_neg fun h => ho h.2.1]

section Frame

variable {F : Type} [Field F] (prims : Prims F)

theorem writeXlMeta_sameOutside (s : Disks prims.cjson.Text) (r : AtomicWrite) (disk path : CString)
    (xl : XlMeta) : SameOutside path s (writeXlMeta prims s r disk path xl) := by
  unfold writeXlMeta
  split
  · intro d o ho
    exact ⟨if_neg fun h => ho h.2, fun _ => rfl⟩
  · exact SameOutside.refl s

theorem parallelWriteChunks_sameOutside {Text : Type} (s : Disks Text) (io : ℕ → ChunkWrite)
    (path : CString) (diskPaths : List CString) (chunks : ℕ → Bytes) (n : ℕ) :
    SameOutside path s (parallelWriteChunks s io path diskPaths chunks n).1 := by
  unfold parallelWriteChunks
  split
  · exact SameOutside.refl s
  · split
    · exact SameOutside.refl s
    · exact SameOutside.foldl (fun s i => writeChunk_sameOutside s _ _ _ _ _) _ s

theorem parallelWriteMetadata_sameOutside (s : Disks prims.cjson.Text) (io : ℕ → AtomicWrite)
    (path : CString) (diskPaths : List CString) (xl : XlMeta) (n : ℕ) :
    SameOutside path s (parallelWriteMetadata prims s io path diskPaths xl n).1 := by
  unfold parallelWriteMetadata
  split
  · exact SameOutside.refl s
  · exact SameOutside.foldl (fun s i => writeXlMeta_sameOutside prims s _ _ _ _) _ s

theorem writeChunksSequential_sameOutside {Text : Type} (io : ℕ → ChunkWrite) (disk path : CString)
    (chunks : ℕ → Bytes) : ∀ (l : List ℕ) (s : Disks Text),
      SameOutside path s (writeChunksSequential io disk path chunks l s).1
  | [], s => SameOutside.refl s
  | i :: t, s => by
    have hwrite := writeChunk_sameOutside s (io i) disk path (i + 1) (chunks i)
    unfold writeChunksSequential
    dsimp only
    split
    · exact hwrite.trans (writeChunksSequential_sameOutside io disk path chunks t _)
    · exact hwrite

theorem putSingleDisk_sameOutside (io : PutIo) (s : Disks prims.cjson.Text) (path disk : CString)
    (chunks : ℕ → Bytes) (xl : XlMeta) (n : ℕ) :
    SameOutside path s (putSingleDisk prims io s path disk chunks xl n).1 := by
  have hchunks := writeChunksSequential_sameOutside io.chunk disk path chunks (List.range n) s
  unfold putSingleDisk
  dsimp only
  split
  · exact hchunks.trans (writeXlMeta_sameOutside prims _ _ _ _ _)
  · exact hchunks

theorem putParallel_sameOutside (io : PutIo) (s : Disks prims.cjson.Text) (path : CString)
    (chunkDisks metaDisks : List CString) (chunks : ℕ → Bytes) (xl : XlMeta) (n : ℕ) :
    SameOutside path s (putParallel prims io s path chunkDisks metaDisks chunks xl n).1 := by
  have hchunks := parallelWriteChunks_sameOutside s io.chunk path chunkDisks chunks n
  unfold putParallel
  dsimp only
  split
  · exact hchunks.trans (parallelWriteMetadata_sameOutside prims _ _ _ _ _ _)
  · exact hchunks

theorem putChunks_sameOutside (node : Node) (io : PutIo) (s : Disks prims.cjson.Text)
    (path : CString) (placement : Option Placement) (chunks : ℕ → Bytes) (xl : XlMeta) :
    SameOutside path s (putChunks prims node io s path placement chunks xl).1 := by
  cases placement with
  | none => exact putSingleDisk_sameOutside prims io s path _ chunks xl _
  | some p =>
    unfold putChunks
    dsimp only
    split
    · exact putSingleDisk_sameOutside prims io s path _ chunks xl _
    · exact putParallel_sameOutside prims io s path _ _ chunks xl _

/-- **Frame.**  Whatever happens to its writes, a put touches no file of another object path. -/
theorem putFiles_sameOutside (node : Node) (io : PutIo) (s : Disks prims.cjson.Text)
    (call : PutCall) : SameOutside (computeObjectPath prims.hashes call.bucket call.object) s
      (putFiles prims node io s call).1 := by
  unfold putFiles
  dsimp only
  split
  · exact writeXlMeta_sameOutside prims _ _ _ _ _
  · split
    · exact SameOutside.refl s
    · split
      · exact SameOutside.refl s
      · exact putChunks_sameOutside prims _ _ _ _ _ _ _

/-- The registry record does not enter the result. -/
theorem putObject_succeeds (node : Node) (io ioRegistry : PutIo) (s : Disks prims.cjson.Text)
    (call : PutCall) :
    (putObject prims node io ioRegistry s call).2.1 = (putFiles prims node io s call).2 := by
  unfold putObject
  dsimp only
  split <;> rfl

/-- A put that succeeds has written its files and, it may be, the registry's. -/
theorem putObject_ok_cases {node : Node} {io ioRegistry : PutIo} {s : Disks prims.cjson.Text}
    {call : PutCall} (hok : (putObject prims node io ioRegistry s call).2.1 = true) :
    (putFiles prims node io s call).2 = true ∧
    ((putObject prims node io ioRegistry s call).1 = (putFiles prims node io s call).1 ∨
     (recordsLocation node call = true ∧ (putObject prims node io ioRegistry s call).1 =
       (putFiles prims node ioRegistry (putFiles prims node io s call).1
         (registryCall prims node call)).1)) := by
  unfold putObject at hok ⊢
  dsimp only at hok ⊢
  cases hrecord : (putFiles prims node io s call).2 && recordsLocation node call with
  | false =>
    rw [hrecord] at hok
    exact ⟨hok, Or.inl rfl⟩
  | true =>
    rw [hrecord] at hok
    exact ⟨hok, Or.inr ⟨((Bool.and_eq_true _ _).mp hrecord).2, rfl⟩⟩

end Frame

/-! ## 6. The records -/

section Records

theorem baseMeta_fields (call : PutCall) : (baseMeta call).stat.modTime.length < 32 := by
  show (charArray 32 call.modTime).length < 32
  rw [charArray, List.length_take]
  omega

theorem inlineMeta_storable {call : PutCall} (hsize : call.data.length < 2 ^ 53) :
    (inlineMeta call).Storable where
  version := show 1 < 2 ^ 31 by decide
  format := show (cstr "xl").length < 8 by decide
  size := hsize
  modTime := baseMeta_fields call
  algorithm := show (0 : ℕ) < 16 by decide
  data := show 0 < 2 ^ 31 by decide
  parity := show 0 < 2 ^ 31 by decide
  blockSize := show 0 < 2 ^ 53 by decide
  index := show 0 < 2 ^ 31 by decide
  distribution_length := rfl
  distribution := fun d hd => absurd hd List.not_mem_nil
  checksums_length := rfl
  checksums := fun c hc => absurd hc List.not_mem_nil
  user := fun e he => absurd he List.not_mem_nil
  versioning := fun _ => rfl

/-- The record `buckets_parallel_write_metadata` writes to disk `i`. -/
def ecRecord (hashes : Hashes) (call : PutCall) (k m chunkSize : ℕ) (C : ℕ → Bytes) (i : ℕ) :
    XlMeta :=
  { ecMeta hashes call k m chunkSize C with
    erasure := { (ecMeta hashes call k m chunkSize C).erasure with index := i + 1 } }

theorem ecRecord_storable {hashes : Hashes} {call : PutCall} {k m chunkSize : ℕ} {C : ℕ → Bytes}
    {i : ℕ} (hsize : call.data.length < 2 ^ 53) (hk : k ≤ 16) (hm : m ≤ 16)
    (hchunk : chunkSize < 2 ^ 31) (hi : i < 32) :
    (ecRecord hashes call k m chunkSize C i).Storable where
  version := show 1 < 2 ^ 31 by decide
  format := show (cstr "xl").length < 8 by decide
  size := hsize
  modTime := baseMeta_fields call
  algorithm := show (cstr "ReedSolomon").length < 16 by decide
  data := show k < 2 ^ 31 by omega
  parity := show m < 2 ^ 31 by omega
  blockSize := show chunkSize < 2 ^ 53 by omega
  index := show i + 1 < 2 ^ 31 by omega
  distribution_length := by simp [ecRecord, ecMeta]
  distribution := by
    intro d hd
    simp only [ecRecord, ecMeta, List.mem_map, List.mem_range] at hd
    obtain ⟨j, hj, rfl⟩ := hd
    omega
  checksums_length := by simp [ecRecord, ecMeta]
  checksums := by
    intro c hc
    simp only [ecRecord, ecMeta, List.mem_map, List.mem_range] at hc
    obtain ⟨j, -, rfl⟩ := hc
    exact ⟨show (cstr "BLAKE2b-256").length < 16 by decide, hashes.length_blake2b256 _⟩
  user := fun e he => absurd he List.not_mem_nil
  versioning := fun _ => rfl

/-- What the read path takes from the record of an erasure-coded object. -/
structure EcRecord (xl : XlMeta) (k m len size : ℕ) : Prop where
  inlineData : xl.inlineData = none
  data : xl.erasure.data = k
  parity : xl.erasure.parity = m
  blockSize : xl.erasure.blockSize = len
  size : xl.stat.size = size

theorem ecRecord_isEcRecord (hashes : Hashes) (call : PutCall) (k m chunkSize : ℕ) (C : ℕ → Bytes)
    (i : ℕ) : EcRecord (ecRecord hashes call k m chunkSize C i) k m chunkSize call.data.length :=
  ⟨rfl, rfl, rfl, rfl, rfl⟩

end Records

/-! ## 7. What a put writes -/

/-- Disk `i` of a placement. -/
def Placement.disk (p : Placement) (i : ℕ) : CString := p.diskPaths.getD i []

namespace Placed

variable {hashes : Hashes} {node : Node} {bucket object : CString} {p : Placement}

theorem disk_mem {i : ℕ} (hi : i < p.diskPaths.length) : p.disk i ∈ p.diskPaths := by
  rw [Placement.disk, List.getD_eq_getElem _ _ hi]
  exact List.getElem_mem hi

theorem charArray_disk (h : Placed hashes node bucket object p) {i : ℕ}
    (hi : i < p.diskPaths.length) : charArray 512 (p.diskPaths.getD i []) = p.disk i :=
  charArray_of_lt (h.short _ (disk_mem hi)).2

theorem disk_injOn (h : Placed hashes node bucket object p) :
    Set.InjOn p.disk (Set.Iio p.diskPaths.length) := by
  intro i hi j hj heq
  simp only [Placement.disk, List.getD_eq_getElem _ _ (Set.mem_Iio.mp hi),
    List.getD_eq_getElem _ _ (Set.mem_Iio.mp hj)] at heq
  exact (h.nodup.getElem_inj_iff).mp heq

theorem length_pos (h : Placed hashes node bucket object p) : 0 < p.diskPaths.length :=
  List.length_pos_of_ne_nil h.nonempty

theorem firstDisk_eq (h : Placed hashes node bucket object p) :
    firstDisk node (some p) = p.disk 0 := by
  obtain ⟨disk, rest, hpaths⟩ := List.exists_cons_of_ne_nil h.nonempty
  have hne : disk ≠ [] := (h.short disk (by rw [hpaths]; simp)).1
  simp [firstDisk, Placement.disk, hpaths, hne]

end Placed

section Writes

variable {F : Type} [Field F] (prims : Prims F) {path : CString}

theorem xlMeta_parallelWriteChunks {Text : Type} (s : Disks Text) (io : ℕ → ChunkWrite)
    (diskPaths : List CString) (chunks : ℕ → Bytes) (n : ℕ) (d o : CString) :
    (parallelWriteChunks s io path diskPaths chunks n).1.xlMeta d o = s.xlMeta d o := by
  have hfold : ∀ (l : List ℕ) (s : Disks Text), (l.foldl (fun s i => writeChunk s (io i)
      (charArray 512 (diskPaths.getD i [])) path (i + 1) (chunks i)) s).xlMeta d o =
      s.xlMeta d o := by
    intro l
    induction l with
    | nil => intro s; rfl
    | cons i t ih => intro s; exact ih _
  unfold parallelWriteChunks
  split
  · rfl
  · split
    · rfl
    · exact hfold _ s

theorem part_parallelWriteMetadata (s : Disks prims.cjson.Text) (io : ℕ → AtomicWrite)
    (diskPaths : List CString) (xl : XlMeta) (n : ℕ) (d o : CString) (j : ℕ) :
    (parallelWriteMetadata prims s io path diskPaths xl n).1.part d o j = s.part d o j := by
  have hwrite : ∀ (s : Disks prims.cjson.Text) r disk xl,
      (writeXlMeta prims s r disk path xl).part d o j = s.part d o j := by
    intro s r disk xl
    unfold writeXlMeta
    split <;> rfl
  have hfold : ∀ (l : List ℕ) (s : Disks prims.cjson.Text), (l.foldl (fun s i =>
      writeXlMeta prims s (io i) (charArray 512 (diskPaths.getD i [])) path
        { xl with erasure := { xl.erasure with index := i + 1 } }) s).part d o j =
      s.part d o j := by
    intro l
    induction l with
    | nil => intro s; rfl
    | cons i t ih => intro s; exact (ih _).trans (hwrite _ _ _ _)
  unfold parallelWriteMetadata
  split
  · rfl
  · exact hfold _ s

variable {hashes : Hashes} {node : Node} {bucket object : CString} {p : Placement}

/-- Round `i` of the chunk loop writes to one part file of disk `i` alone. -/
theorem writeChunk_updates {Text : Type} (path : CString) (diskPaths : List CString)
    (io : ℕ → ChunkWrite) (chunks : ℕ → Bytes) :
    PointLoop.Updates (fun (s : Disks Text) (c : CString × CString × ℕ) =>
      s.part c.1 c.2.1 c.2.2) (fun s i => writeChunk s (io i)
        (charArray 512 (diskPaths.getD i [])) path (i + 1) (chunks i))
      (fun i => (charArray 512 (diskPaths.getD i []), path, i + 1))
      (fun i old => (io i).file old (chunks i)) := by
  constructor
  · intro s i
    simp [writeChunk]
  · rintro s i ⟨d, o, j⟩ hne
    refine if_neg fun h => hne ?_
    obtain ⟨rfl, rfl, rfl⟩ := h
    rfl

variable {i : ℕ} {call : PutCall} {C : ℕ → Bytes} {data : Bytes} {isal : IsaL F} {k len m : ℕ}

/-- Chunk `i` goes to disk `i`, as its write lets it. -/
theorem part_parallelWriteChunks {Text : Type} (hp : Placed hashes node bucket object p)
    (s : Disks Text) (io : ℕ → ChunkWrite) (chunks : ℕ → Bytes) {n : ℕ} (hn : n ≤ 32)
    (hlen : n ≤ p.diskPaths.length) (hi : i < n) :
    (parallelWriteChunks s io path p.diskPaths chunks n).1.part (p.disk i) path (i + 1) =
      (io i).file (s.part (p.disk i) path (i + 1)) (chunks i) := by
  have hinj : Set.InjOn (fun i => (charArray 512 (p.diskPaths.getD i []), path, i + 1))
      (Set.Iio n) := by
    intro i _ j _ heq
    simpa using congrArg (fun c : CString × CString × ℕ => c.2.2) heq
  have hown := (writeChunk_updates path p.diskPaths io chunks).get_foldl_own hinj hi s
  rw [hp.charArray_disk (by omega)] at hown
  rw [parallelWriteChunks, if_neg (by omega), if_neg (by omega)]
  exact hown

/-- Round `i` of the metadata loop writes to disk `i` alone. -/
theorem writeXlMeta_updates (path : CString) (diskPaths : List CString) (io : ℕ → AtomicWrite)
    (xl : XlMeta) :
    PointLoop.Updates (fun (s : Disks prims.cjson.Text) (c : CString × CString) =>
      s.xlMeta c.1 c.2) (fun s i => writeXlMeta prims s (io i)
        (charArray 512 (diskPaths.getD i [])) path
        { xl with erasure := { xl.erasure with index := i + 1 } })
      (fun i => (charArray 512 (diskPaths.getD i []), path))
      (fun i old => if (io i).installs then some (prims.cjson.print (xlMetaToJson
        { xl with erasure := { xl.erasure with index := i + 1 } })) else old) := by
  constructor
  · intro s i
    unfold writeXlMeta
    split <;> simp
  · rintro s i ⟨d, o⟩ hne
    unfold writeXlMeta
    split
    · refine if_neg fun h => hne ?_
      obtain ⟨rfl, rfl⟩ := h
      rfl
    · rfl

/-- Every disk's `xl.meta` is the record with that disk's index, if its write installs it. -/
theorem xlMeta_parallelWriteMetadata (hp : Placed hashes node bucket object p)
    (s : Disks prims.cjson.Text) (io : ℕ → AtomicWrite) (xl : XlMeta) {n : ℕ} (hn : n ≤ 32)
    (hlen : n ≤ p.diskPaths.length) (hi : i < n) :
    (parallelWriteMetadata prims s io path p.diskPaths xl n).1.xlMeta (p.disk i) path =
      if (io i).installs then some (prims.cjson.print (xlMetaToJson
        { xl with erasure := { xl.erasure with index := i + 1 } })) else
      s.xlMeta (p.disk i) path := by
  have hinj : Set.InjOn (fun i => (charArray 512 (p.diskPaths.getD i []), path)) (Set.Iio n) := by
    intro i hi j hj heq
    have hi' := lt_of_lt_of_le (Set.mem_Iio.mp hi) hlen
    have hj' := lt_of_lt_of_le (Set.mem_Iio.mp hj) hlen
    have hdisk := congrArg Prod.fst heq
    simp only [hp.charArray_disk hi', hp.charArray_disk hj'] at hdisk
    exact hp.disk_injOn hi' hj' hdisk
  have hown := (writeXlMeta_updates prims path p.diskPaths io xl).get_foldl_own hinj hi s
  rw [hp.charArray_disk (by omega)] at hown
  rw [parallelWriteMetadata, if_neg (by omega)]
  exact hown

/-- An object path has no files but those of the placement: no record on other disks, and part
`i + 1` on disk `i` only. -/
structure NowhereElse {Text : Type} (p : Placement) (path : CString) (s : Disks Text) : Prop where
  xlMeta : ∀ d, d ∉ p.diskPaths → s.xlMeta d path = none
  part : ∀ d i, s.part d path (i + 1) ≠ none → d = p.disk i

theorem NowhereElse.parallelWriteChunks {Text : Type} (hp : Placed hashes node bucket object p)
    {s : Disks Text} (h : NowhereElse p path s) (io : ℕ → ChunkWrite) (chunks : ℕ → Bytes) (n : ℕ) :
    NowhereElse p path (parallelWriteChunks s io path p.diskPaths chunks n).1 where
  xlMeta := fun d hd => (xlMeta_parallelWriteChunks s io p.diskPaths chunks n d path).trans
    (h.xlMeta d hd)
  part := by
    intro d i hpart
    by_contra hne
    refine hpart ?_
    have hold : s.part d path (i + 1) = none := not_not.mp fun hold => hne (h.part d i hold)
    unfold Buckets.parallelWriteChunks
    split
    · exact hold
    · split
      · exact hold
      · refine ((writeChunk_updates path p.diskPaths io chunks).get_foldl_other
          (c := (d, path, i + 1)) (fun j hj heq => hne ?_) s).trans hold
        rw [hp.charArray_disk (by omega)] at heq
        simp only [Prod.mk.injEq, Nat.add_right_cancel_iff, true_and] at heq
        rw [heq.1, heq.2]

theorem NowhereElse.parallelWriteMetadata (hp : Placed hashes node bucket object p)
    {s : Disks prims.cjson.Text} (h : NowhereElse p path s) (io : ℕ → AtomicWrite) (xl : XlMeta)
    {n : ℕ} (hlen : n ≤ p.diskPaths.length) :
    NowhereElse p path (parallelWriteMetadata prims s io path p.diskPaths xl n).1 where
  part := by
    intro d i hpart
    rw [part_parallelWriteMetadata] at hpart
    exact h.part d i hpart
  xlMeta := by
    intro d hd
    unfold Buckets.parallelWriteMetadata
    split
    · exact h.xlMeta d hd
    · refine ((writeXlMeta_updates prims path p.diskPaths io xl).get_foldl_other
        (c := (d, path)) (fun j hj heq => hd ?_) s).trans (h.xlMeta d hd)
      rw [hp.charArray_disk (by omega)] at heq
      rw [(Prod.mk.inj heq).1]
      exact Placed.disk_mem (by omega)

/-- The distributed write of a call's chunks to the disks of a placement. -/
def ecWrite (node : Node) (p : Placement) (io : PutIo) (s : Disks prims.cjson.Text)
    (call : PutCall) (C : ℕ → Bytes) : Disks prims.cjson.Text × Bool :=
  putParallel prims io s (call.path prims.hashes) p.diskPaths p.diskPaths C
    (ecMeta prims.hashes call node.defaultEcK node.defaultEcM
      (calculateChunkSize call.data.length node.defaultEcK) C)
    (node.defaultEcK + node.defaultEcM)

/-- **All chunks written**: the parts are the chunks, and each `xl.meta` is the record if its write
installs it. -/
theorem ecWrite_of_chunks_ok
    (hp : Placed prims.hashes node call.bucket call.object p)
    (h32 : node.defaultEcK + node.defaultEcM ≤ 32) (io : PutIo)
    (hok : ∀ i < node.defaultEcK + node.defaultEcM, (io.chunk i).isOk = true)
    (s : Disks prims.cjson.Text) (C : ℕ → Bytes) :
    (ecWrite prims node p io s call C).2 =
      ((List.range (node.defaultEcK + node.defaultEcM)).all fun i => (io.xlMeta i).isOk) ∧
    ∀ i < node.defaultEcK + node.defaultEcM,
      (ecWrite prims node p io s call C).1.part (p.disk i) (call.path prims.hashes) (i + 1) =
        some (C i) ∧
      (ecWrite prims node p io s call C).1.xlMeta (p.disk i) (call.path prims.hashes) =
        if (io.xlMeta i).installs then some (prims.cjson.print (xlMetaToJson
          (ecRecord prims.hashes call node.defaultEcK node.defaultEcM
            (calculateChunkSize call.data.length node.defaultEcK) C i)))
        else s.xlMeta (p.disk i) (call.path prims.hashes) := by
  have hlen := hp.enough
  have hchunks : (parallelWriteChunks s io.chunk (call.path prims.hashes) p.diskPaths C
      (node.defaultEcK + node.defaultEcM)).2 = true := by
    rw [parallelWriteChunks, if_neg (by omega), if_neg (by omega)]
    exact List.all_eq_true.mpr fun i hi => hok i (List.mem_range.mp hi)
  simp only [ecWrite, putParallel, hchunks, if_true]
  refine ⟨by rw [parallelWriteMetadata, if_neg (by omega)], fun i hi => ⟨?_, ?_⟩⟩
  · rw [part_parallelWriteMetadata, part_parallelWriteChunks hp s io.chunk C h32 hlen hi]
    have hi := hok i hi
    cases hio : io.chunk i with
    | ok => rfl
    | failed left => rw [hio] at hi; cases hi
  · rw [xlMeta_parallelWriteMetadata prims hp _ io.xlMeta _ h32 hlen hi, xlMeta_parallelWriteChunks]
    rfl

/-- **A chunk write failed**: every `xl.meta` is as it was. -/
theorem ecWrite_of_chunk_failed
    (hp : Placed prims.hashes node call.bucket call.object p)
    (h32 : node.defaultEcK + node.defaultEcM ≤ 32) (io : PutIo)
    (hi : i < node.defaultEcK + node.defaultEcM) (hfailed : (io.chunk i).isOk = false)
    (s : Disks prims.cjson.Text) (C : ℕ → Bytes) :
    (ecWrite prims node p io s call C).2 = false ∧
    (∀ j < node.defaultEcK + node.defaultEcM,
      (ecWrite prims node p io s call C).1.part (p.disk j) (call.path prims.hashes) (j + 1) =
        (io.chunk j).file (s.part (p.disk j) (call.path prims.hashes) (j + 1)) (C j)) ∧
    (∀ d, (ecWrite prims node p io s call C).1.xlMeta d (call.path prims.hashes) =
      s.xlMeta d (call.path prims.hashes)) := by
  have hlen := hp.enough
  have hchunks : (parallelWriteChunks s io.chunk (call.path prims.hashes) p.diskPaths C
      (node.defaultEcK + node.defaultEcM)).2 = false := by
    rw [parallelWriteChunks, if_neg (by omega), if_neg (by omega)]
    exact List.all_eq_false.mpr ⟨i, List.mem_range.mpr hi, by simp [hfailed]⟩
  simp only [ecWrite, putParallel, hchunks, Bool.false_eq_true, if_false]
  exact ⟨trivial, fun j hj => part_parallelWriteChunks hp s io.chunk C h32 hlen hj,
    fun d => xlMeta_parallelWriteChunks s io.chunk p.diskPaths C _ d _⟩

/-- An object's chunks: its padded pieces, extended to a codeword of chunks of `len` bytes. -/
structure EcCode (isal : IsaL F) (k m len : ℕ) (data : Bytes) (C : ℕ → Bytes) : Prop where
  config : ecValidateConfig k m = true
  int : len < 2 ^ 31
  fits : ecCalcChunkSize data.length k ≤ len
  encodes : Encodes isal k (k + m) len C
  data : ∀ i < k, C i = dataChunk data k len i

theorem EcCode.bounds
    (h : EcCode isal k m len data C) : 1 ≤ k ∧ k ≤ 16 ∧ 1 ≤ m ∧ m ≤ 16 :=
  ecValidateConfig_iff.mp h.config

/-- How many bytes of an object of `size` bytes data part `i` holds; the rest is padding. -/
def pieceLen (size k i : ℕ) : ℕ := copySize size ((size + k - 1) / k) i

theorem EcCode.pieceLen_le
    (h : EcCode isal k m len data C) (hi : i < k) :
    pieceLen data.length k i ≤ (C i).length := by
  obtain ⟨hk1, -, -, -⟩ := h.bounds
  rw [pieceLen, copySize_eq, h.encodes.length i (by omega)]
  exact (blockLen_le _ _ _).trans ((bytesPerChunk_le_ecCalcChunkSize _ hk1).trans h.fits)

/-- The object is its data parts, without their padding, end to end. -/
theorem EcCode.flatMap_take
    (h : EcCode isal k m len data C) :
    ((List.range k).flatMap fun i => (C i).take (pieceLen data.length k i)) = data := by
  obtain ⟨hk1, -, -, -⟩ := h.bounds
  refine Eq.trans (List.flatMap_congr fun i hi => ?_) (flatMap_dataChunk data hk1 len)
  rw [h.data i (List.mem_range.mp hi), pieceLen, copySize_eq]

/-- An erasure-coded object is at most 16 chunks of less than `2^31` bytes. -/
theorem EcCode.size_lt
    (h : EcCode isal k m len data C) : data.length < 2 ^ 53 := by
  obtain ⟨hk1, hk, -, -⟩ := h.bounds
  have hpiece := (bytesPerChunk_le_ecCalcChunkSize data.length hk1).trans h.fits
  have hcover := le_mul_bytesPerChunk data.length hk1
  have hmul := Nat.mul_le_mul hk hpiece
  have hint := h.int
  omega

theorem calculateChunkSize_lt_int (size k : ℕ) : calculateChunkSize size k < 2 ^ 31 := by
  have hmax := calculateChunkSize_le size k
  unfold maxChunkSize at hmax
  omega

theorem ecCode_of_ecEncode {ctx : EcCtx isal}
    {chunks : (ℕ → Bytes) × (ℕ → Bytes)} (hinit : ecInit isal k m = some ctx)
    (henc : ecEncode ctx data (calculateChunkSize data.length k) = some chunks) :
    EcCode isal k m (calculateChunkSize data.length k) data (allChunks k chunks) := by
  have hctx := ecInit_eq_some hinit
  have hpos := calculateChunkSize_pos data.length k
  have hint := calculateChunkSize_lt_int data.length k
  have hfits : ecCalcChunkSize data.length k ≤ calculateChunkSize data.length k := by
    by_contra hlt
    rw [ecEncode, if_neg (by omega), hctx.k_eq, if_pos (by omega)] at henc
    cases henc
  obtain ⟨chunks', henc', hdata, hcode⟩ := ecEncode_spec hctx (by omega) hfits hint
  obtain rfl := Option.some.inj (henc'.symm.trans henc)
  exact ⟨hctx.config, hint, hfits, hcode, fun i hi => by rw [allChunks_of_lt _ hi, hdata]⟩

/-- An inline put writes the first disk's `xl.meta`. -/
theorem putFiles_inline (hp : Placed prims.hashes node call.bucket call.object p)
    (hinline : shouldInlineObject call.data.length = true) (io : PutIo)
    (s : Disks prims.cjson.Text) :
    putFiles prims node io s call =
      (writeXlMeta prims s (io.xlMeta 0) (p.disk 0)
        (computeObjectPath prims.hashes call.bucket call.object) (inlineMeta call),
       (io.xlMeta 0).isOk) := by
  unfold putFiles
  rw [hp.compute, if_pos hinline, hp.firstDisk_eq]

/-- An object whose pieces fit in the largest chunk is encoded with chunks they fit in. -/
theorem ecCalcChunkSize_le_calculateChunkSize {size : ℕ} (hk : 0 < k)
    (hfits : ecCalcChunkSize size k ≤ maxChunkSize) :
    ecCalcChunkSize size k ≤ calculateChunkSize size k := by
  unfold calculateChunkSize
  rw [if_neg (by omega)]
  dsimp only
  split <;> split <;> omega

theorem ecEncode_isSome {ctx : EcCtx isal}
    (hinit : ecInit isal k m = some ctx) (hfits : ecCalcChunkSize data.length k ≤ maxChunkSize) :
    ∃ chunks, ecEncode ctx data (calculateChunkSize data.length k) = some chunks := by
  have hctx := ecInit_eq_some hinit
  obtain ⟨hk1, -, -, -⟩ := ecValidateConfig_iff.mp hctx.config
  have hpos := calculateChunkSize_pos data.length k
  have hint := calculateChunkSize_lt_int data.length k
  obtain ⟨chunks, henc, -, -⟩ := ecEncode_spec hctx (by omega)
    (ecCalcChunkSize_le_calculateChunkSize hk1 hfits) hint
  exact ⟨chunks, henc⟩

/-- Any other put either fails before it writes anything, the configuration being invalid or the
object too large, or makes the chunks of a codeword and writes them and the records to the disks
of the placement. -/
theorem putFiles_ec (hp : Placed prims.hashes node call.bucket call.object p)
    (hinline : shouldInlineObject call.data.length = false) (io : PutIo)
    (s : Disks prims.cjson.Text) :
    (putFiles prims node io s call = (s, false) ∧
      ¬ (ecValidateConfig node.defaultEcK node.defaultEcM = true ∧
        ecCalcChunkSize call.data.length node.defaultEcK ≤ maxChunkSize)) ∨
    ∃ C, EcCode prims.isal node.defaultEcK node.defaultEcM
        (calculateChunkSize call.data.length node.defaultEcK) call.data C ∧
      putFiles prims node io s call = ecWrite prims node p io s call C := by
  unfold putFiles
  rw [hp.compute, hinline]
  simp only [Bool.false_eq_true, if_false]
  cases hinit : ecInit prims.isal node.defaultEcK node.defaultEcM with
  | none =>
    refine Or.inl ⟨rfl, fun h => ?_⟩
    obtain ⟨ctx, hctx, -⟩ := ecInit_valid prims.isal h.1
    rw [hinit] at hctx
    cases hctx
  | some ctx =>
    dsimp only
    cases henc : ecEncode ctx call.data (calculateChunkSize call.data.length node.defaultEcK) with
    | none =>
      refine Or.inl ⟨rfl, fun h => ?_⟩
      obtain ⟨chunks, hchunks⟩ := ecEncode_isSome hinit h.2
      rw [henc] at hchunks
      cases hchunks
    | some chunks =>
      refine Or.inr ⟨_, ecCode_of_ecEncode hinit henc, ?_⟩
      have hdisks : putSetDisks node (some p) = p.diskPaths := if_pos hp.enough
      have henough := hp.enough
      simp only [putChunks, hdisks]
      exact if_neg (by omega)

/-- **A put keeps an object on the disks of its placement**, whatever happens to its writes. -/
theorem NowhereElse.putFiles
    (hp : Placed prims.hashes node call.bucket call.object p) {s : Disks prims.cjson.Text}
    (h : NowhereElse p (computeObjectPath prims.hashes call.bucket call.object) s) (io : PutIo) :
    NowhereElse p (computeObjectPath prims.hashes call.bucket call.object)
      (putFiles prims node io s call).1 := by
  cases hinline : shouldInlineObject call.data.length with
  | true =>
    rw [putFiles_inline prims hp hinline]
    unfold writeXlMeta
    dsimp only
    split
    · refine ⟨fun d hd => ?_, h.part⟩
      refine (if_neg fun heq => hd ?_).trans (h.xlMeta d hd)
      rw [heq.1]
      exact Placed.disk_mem hp.length_pos
    · exact h
  | false =>
    rcases putFiles_ec prims hp hinline io s with ⟨hput, -⟩ | ⟨C, -, hput⟩
    · rw [hput]
      exact h
    · rw [hput]
      have hchunks := h.parallelWriteChunks hp io.chunk C (node.defaultEcK + node.defaultEcM)
      unfold ecWrite putParallel
      dsimp only
      split
      · exact hchunks.parallelWriteMetadata prims hp io.xlMeta _ hp.enough
      · exact hchunks

end Writes

/-! ## 8. What a get reads -/

section Reads

variable {F : Type} [Field F] (prims : Prims F) {node : Node} {bucket object : CString}
  {p : Placement}

variable {s : Disks prims.cjson.Text} {xl : XlMeta} {k len m : ℕ}

theorem readXlMeta_of_print {disk path : CString}
    (hfile : s.xlMeta disk path = some (prims.cjson.print (xlMetaToJson xl)))
    (hxl : xl.Storable) : readXlMeta prims s disk path = some xl := by
  rw [readXlMeta, hfile, Option.bind_some, prims.cjson.parse_print, Option.map_some,
    xlMetaFromJson_xlMetaToJson hxl]

theorem readXlMeta_congr {s' : Disks prims.cjson.Text} {disk path : CString}
    (h : s'.xlMeta disk path = s.xlMeta disk path) :
    readXlMeta prims s' disk path = readXlMeta prims s disk path := by
  rw [readXlMeta, readXlMeta, h]

/-- Hit, miss or stale, the registry leaves a get with the disks of the key's placement. -/
theorem getDisks_of_compute (hcompute : placementCompute prims.hashes node bucket object = some p)
    (hne : p.diskPaths ≠ []) (location : Option ℕ) :
    getDisks prims node bucket object location = (some p, p.diskPaths) := by
  have hlen : p.diskPaths.length ≠ 0 := (List.length_pos_of_ne_nil hne).ne'
  unfold getDisks
  dsimp only
  generalize (if (decide (bucket = registryBucket) || decide (bucket = cstr ".buckets.sys")) =
    true then none else location) = loc
  rw [hcompute]
  cases loc with
  | none => simp [hlen]
  | some setIdx =>
    dsimp only
    by_cases hset : p.setIdx = setIdx
    · simp [hset, hlen]
    · simp [hset, hlen]

/-- **The registry does not matter.**  Hit, miss or stale, a get reads the disks of the key's
placement. -/
theorem getObject_placed (hp : Placed prims.hashes node bucket object p)
    (s : Disks prims.cjson.Text) (junk : Junk) (location : Option ℕ) :
    getObject prims node s junk location bucket object =
      readObject prims s junk (computeObjectPath prims.hashes bucket object) (some p)
        p.diskPaths := by
  unfold getObject
  rw [getDisks_of_compute prims hp.compute hp.nonempty]

/-- Without a placement a get reads set 0 of the multi-disk layer, and all parts from one disk. -/
theorem getObject_unplaced (hnone : placementCompute prims.hashes node bucket object = none)
    (hdisks : getSetDisks node.multidisk 0 64 ≠ []) (s : Disks prims.cjson.Text) (junk : Junk)
    (location : Option ℕ) :
    getObject prims node s junk location bucket object =
      readObject prims s junk (computeObjectPath prims.hashes bucket object) none
        (getSetDisks node.multidisk 0 64) := by
  have hpos : 0 < (getSetDisks node.multidisk 0 64).length := List.length_pos_of_ne_nil hdisks
  have hget : getDisks prims node bucket object location =
      (none, getSetDisks node.multidisk 0 64) := by
    unfold getDisks
    dsimp only
    generalize (if (decide (bucket = registryBucket) || decide (bucket = cstr ".buckets.sys")) =
      true then none else location) = loc
    rw [hnone]
    cases loc <;> simp [hpos]
  unfold getObject
  rw [hget]

/-- The first `xl.meta` read decides. -/
theorem findSome?_diskPaths (hne : p.diskPaths ≠ []) {path : CString}
    (h : readXlMeta prims s (p.disk 0) path = some xl) :
    (p.diskPaths.findSome? fun disk => readXlMeta prims s disk path) = some xl := by
  obtain ⟨disk, rest, hpaths⟩ := List.exists_cons_of_ne_nil hne
  rw [Placement.disk, hpaths] at h
  rw [hpaths, List.findSome?_cons]
  simp only [List.getD_cons_zero] at h
  rw [h]

theorem readObject_inline {path : CString} {data : Bytes}
    {paths : List CString} {placement : Option Placement}
    (hfirst : (paths.findSome? fun disk => readXlMeta prims s disk path) = some xl)
    (hinline : xl.inlineData = some (base64Encode data)) (junk : Junk) :
    readObject prims s junk path placement paths = some data := by
  rw [readObject, hfirst]
  dsimp only
  rw [hinline]
  dsimp only
  rw [base64Decode_base64Encode]

/-- The chunks the parallel read finds. -/
def foundChunks {Text : Type} (s : Disks Text) (p : Placement) (path : CString) (total i : ℕ) :
    Option Bytes :=
  if i < total then s.part (p.disk i) path (i + 1) else none

theorem parallelReadChunks_placed {hashes : Hashes} (hp : Placed hashes node bucket object p)
    {Text : Type} (s : Disks Text) (path : CString) {total : ℕ} (h32 : total ≤ 32)
    (hlen : total ≤ p.diskPaths.length) :
    parallelReadChunks s path p.diskPaths total = some (foundChunks s p path total) := by
  rw [parallelReadChunks, if_neg (by omega), if_neg (by omega)]
  congr 1
  funext i
  unfold foundChunks
  split
  · rw [hp.charArray_disk (by omega)]
  · rfl

/-- From the record and the chunks on, a get is a decoding. -/
theorem readChunksAndDecode_eq {path : CString}
    {size : ℕ} (hxl : EcRecord xl k m len size) {ctx : EcCtx prims.isal}
    (hinit : ecInit prims.isal k m = some ctx) {placement : Option Placement}
    {paths : List CString} {chunks : ℕ → Option Bytes}
    (hchunks : readChunks s path placement paths (k + m) = some chunks) (junk : Junk) :
    readChunksAndDecode prims s junk path placement paths xl =
      ecDecode ctx junk.oob chunks len ((List.range size).map junk.fresh) size := by
  have hctx := ecInit_eq_some hinit
  unfold readChunksAndDecode
  simp only [hxl.data, hxl.parity, hxl.blockSize, hxl.size, hchunks, hinit]
  split
  · rename_i hcount
    exact (ecDecode_of_present_lt (by rwa [hctx.n_eq, hctx.k_eq]) _ _ _ _).symm
  · rfl

theorem readObject_of_ecRecord {path : CString}
    {size : ℕ} {paths : List CString} {placement : Option Placement}
    (hfirst : (paths.findSome? fun disk => readXlMeta prims s disk path) = some xl)
    (hxl : EcRecord xl k m len size) (junk : Junk) :
    readObject prims s junk path placement paths =
      readChunksAndDecode prims s junk path placement paths xl := by
  rw [readObject, hfirst]
  dsimp only
  rw [hxl.inlineData]

/-- A get of an erasure-coded object is a decoding of the parts found. -/
theorem readObject_decode (hp : Placed prims.hashes node bucket object p)
    {path : CString} {size : ℕ}
    (hfirst : (p.diskPaths.findSome? fun disk => readXlMeta prims s disk path) = some xl)
    (hxl : EcRecord xl k m len size) {ctx : EcCtx prims.isal}
    (hinit : ecInit prims.isal k m = some ctx) (hlen : k + m ≤ p.diskPaths.length) (junk : Junk) :
    readObject prims s junk path (some p) p.diskPaths =
      ecDecode ctx junk.oob (foundChunks s p path (k + m)) len
        ((List.range size).map junk.fresh) size := by
  obtain ⟨-, hk, -, hm⟩ := ecValidateConfig_iff.mp (ecInit_eq_some hinit).config
  rw [readObject_of_ecRecord prims hfirst hxl]
  have hchunks : readChunks s path (some p) p.diskPaths (k + m) =
      some (foundChunks s p path (k + m)) := parallelReadChunks_placed hp s path (by omega) hlen
  exact readChunksAndDecode_eq prims hxl hinit hchunks junk

/-- **A get of an erasure-coded object of which any `k` parts are left.** -/
theorem readObject_ec (hp : Placed prims.hashes node bucket object p)
    {path : CString} {data : Bytes}
    {C : ℕ → Bytes}
    (hfirst : (p.diskPaths.findSome? fun disk => readXlMeta prims s disk path) = some xl)
    (hxl : EcRecord xl k m len data.length) (hcode : EcCode prims.isal k m len data C)
    (hlen : k + m ≤ p.diskPaths.length)
    (hparts : ∀ i < k + m, ∀ c, s.part (p.disk i) path (i + 1) = some c → c = C i)
    (hcount : k ≤ (present (k + m) (foundChunks s p path (k + m))).length) (junk : Junk) :
    readObject prims s junk path (some p) p.diskPaths = some data := by
  obtain ⟨ctx, hinit, hctx⟩ := ecInit_valid prims.isal hcode.config
  rw [readObject_decode prims hp hfirst hxl hinit hlen]
  refine ecDecode_surviving hctx hcode.int hcode.fits hcode.encodes hcode.data (fun i hi c hc => ?_)
    hcount junk.oob (by simp)
  rw [foundChunks, if_pos hi] at hc
  exact hparts i hi c hc

end Reads

end Buckets
