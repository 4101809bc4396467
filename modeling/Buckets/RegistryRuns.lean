/-
# What the registry records, and what it lists

Records are puts into the bucket `.buckets-registry`, and every put stores the names of its bucket
and object in `xl.meta`.  So the file of a record has the name of THAT bucket, and a list of another
bucket passes it over; what is listed are the `xl.meta` files of the objects themselves, as far as
they are on the one disk that is scanned.

`AllNamed` is the invariant of all runs behind this: every file has names, and is at the path of its
names.  `registryList_exact_iff` then says when the list is what was recorded.
-/
import Buckets.Registry
import Buckets.ObjectRuns

namespace Buckets

/-! ## 1. Recording -/

section Recording

variable {F : Type} [Field F] (prims : Prims F)

/-- The put of `buckets_registry_record`. -/
def recordCall (loc : ObjectLocation) (modTime : CString) (now : ℤ) : PutCall where
  bucket := registryBucket
  object :=
    charArray 1024 (joinPath (joinPath loc.bucket loc.object) (loc.versionId ++ cstr ".json"))
  data := prims.cjson.chars (prims.cjson.printUnformatted (locationToJson loc))
  contentType := some (cstr "application/json")
  modTime := modTime
  now := now

/-- A put of an object records a location too. -/
theorem registryCall_eq (node : Node) (call : PutCall) :
    registryCall prims node call = recordCall prims
      (locationOf call (placementCompute prims.hashes node call.bucket call.object)) call.modTime
      call.now := rfl

/-- What changes the registry: a put of an object, or a call of `buckets_registry_record`. -/
inductive RegistryOp where
  | put (call : PutCall) (io ioRegistry : PutIo)
  | record (loc : ObjectLocation) (modTime : CString) (now : ℤ) (io : PutIo)

/-- The disks, and the locations that are recorded, one for each bucket, object and version. -/
structure RegistryRun (Text : Type) where
  disks : Disks Text
  recorded : List ObjectLocation

namespace RegistryRun

/-- A location is recorded, in the place of one with the same key. -/
def add {Text : Type} (r : RegistryRun Text) (loc : ObjectLocation) : List ObjectLocation :=
  loc :: r.recorded.filter fun other => other.key ≠ loc.key

/-- One operation; a record that was not written is none. -/
def step (node : Node) (r : RegistryRun prims.cjson.Text) : RegistryOp →
    RegistryRun prims.cjson.Text
  | .put call io ioRegistry =>
    let result := putObject prims node io ioRegistry r.disks call
    let loc := locationOf call (placementCompute prims.hashes node call.bucket call.object)
    ⟨result.1, if result.2.2 then r.add loc else r.recorded⟩
  | .record loc modTime now io =>
    let result := putFiles prims node io r.disks (recordCall prims loc modTime now)
    ⟨result.1, if result.2 then r.add loc else r.recorded⟩

/-- The operations one after the other, on empty disks. -/
def run (node : Node) (ops : List RegistryOp) : RegistryRun prims.cjson.Text :=
  ops.foldl (step prims node) ⟨.empty, []⟩

/-- What every operation preserves holds after every run. -/
theorem run_induction {P : RegistryRun prims.cjson.Text → Prop} (node : Node)
    (hstart : P ⟨.empty, []⟩) (hstep : ∀ r op, P r → P (step prims node r op))
    (ops : List RegistryOp) : P (run prims node ops) :=
  List.foldlRecOn ops (step prims node) hstart fun r hr op _ => hstep r op hr

theorem nodup_add {Text : Type} {r : RegistryRun Text}
    (h : (r.recorded.map ObjectLocation.key).Nodup)
    (loc : ObjectLocation) : ((r.add loc).map ObjectLocation.key).Nodup := by
  rw [add, List.map_cons, List.nodup_cons]
  refine ⟨?_, h.sublist (List.filter_sublist.map _)⟩
  intro hmem
  obtain ⟨other, hother, hkey⟩ := List.mem_map.mp hmem
  exact of_decide_eq_true (List.mem_filter.mp hother).2 hkey

/-- One location for each key. -/
theorem nodup_run (node : Node) (ops : List RegistryOp) :
    ((run prims node ops).recorded.map ObjectLocation.key).Nodup := by
  refine run_induction prims (P := fun r => (r.recorded.map ObjectLocation.key).Nodup) node
    List.nodup_nil (fun r op hr => ?_) ops
  cases op with
  | put call io ioRegistry =>
    simp only [step]
    split
    · exact nodup_add hr _
    · exact hr
  | record loc modTime now io =>
    simp only [step]
    split
    · exact nodup_add hr _
    · exact hr

end RegistryRun

/-! ## 2. Every file has the names of its object -/

/-- The text is an `xl.meta` of an object, at the object's path. -/
def IsNamed (path : CString) (text : prims.cjson.Text) : Prop :=
  ∃ xl bucket object, text = prims.cjson.print (xlMetaToJson xl) ∧ xl.bucket = some bucket ∧
    xl.object = some object ∧ path = computeObjectPath prims.hashes bucket object

def AllNamed (s : Disks prims.cjson.Text) : Prop :=
  ∀ disk path text, s.xlMeta disk path = some text → IsNamed prims path text

namespace AllNamed

variable {prims} {s : Disks prims.cjson.Text}

theorem of_xlMeta_eq {s' : Disks prims.cjson.Text} (h : AllNamed prims s)
    (heq : ∀ disk path, s'.xlMeta disk path = s.xlMeta disk path) : AllNamed prims s' := by
  intro disk path text htext
  exact h disk path text (heq disk path ▸ htext)

variable {call : PutCall} {xl : XlMeta}

theorem writeXlMeta (h : AllNamed prims s) (r : AtomicWrite) (disk : CString)
    (hbucket : xl.bucket = some call.bucket) (hobject : xl.object = some call.object) :
    AllNamed prims (writeXlMeta prims s r disk (call.path prims.hashes) xl) := by
  unfold Buckets.writeXlMeta
  split
  · intro d path text htext
    rw [Disks.xlMeta_setXlMeta] at htext
    split at htext
    · rename_i hplace
      exact ⟨xl, call.bucket, call.object, (Option.some.inj htext).symm, hbucket, hobject, hplace.2⟩
    · exact h d path text htext
  · exact h

theorem parallelWriteMetadata (h : AllNamed prims s) (io : ℕ → AtomicWrite)
    (diskPaths : List CString) (hbucket : xl.bucket = some call.bucket)
    (hobject : xl.object = some call.object) (n : ℕ) :
    AllNamed prims
      (parallelWriteMetadata prims s io (call.path prims.hashes) diskPaths xl n).1 := by
  unfold Buckets.parallelWriteMetadata
  split
  · exact h
  · refine List.foldlRecOn _ _ h ?_
    intro s' hs' i _
    exact hs'.writeXlMeta _ _ hbucket hobject

theorem writeChunksSequential (h : AllNamed prims s) (io : ℕ → ChunkWrite) (disk path : CString)
    (chunks : ℕ → Bytes) (l : List ℕ) :
    AllNamed prims (writeChunksSequential io disk path chunks l s).1 := by
  induction l generalizing s with
  | nil => exact h
  | cons i rest ih =>
    have hchunk : AllNamed prims (writeChunk s (io i) disk path (i + 1) (chunks i)) :=
      h.of_xlMeta_eq fun _ _ => rfl
    unfold Buckets.writeChunksSequential
    dsimp only
    split
    · exact ih hchunk
    · exact hchunk

theorem putSingleDisk (h : AllNamed prims s) (io : PutIo) (disk : CString) (chunks : ℕ → Bytes)
    (hbucket : xl.bucket = some call.bucket) (hobject : xl.object = some call.object) (n : ℕ) :
    AllNamed prims (putSingleDisk prims io s (call.path prims.hashes) disk chunks xl n).1 := by
  have hchunks := h.writeChunksSequential io.chunk disk (call.path prims.hashes) chunks
    (List.range n)
  unfold Buckets.putSingleDisk
  dsimp only
  split
  · exact hchunks.writeXlMeta _ _ hbucket hobject
  · exact hchunks

theorem putParallel (h : AllNamed prims s) (io : PutIo) (chunkDisks metaDisks : List CString)
    (chunks : ℕ → Bytes) (hbucket : xl.bucket = some call.bucket)
    (hobject : xl.object = some call.object) (n : ℕ) :
    AllNamed prims
      (putParallel prims io s (call.path prims.hashes) chunkDisks metaDisks chunks xl n).1 := by
  have hchunks : AllNamed prims
      (parallelWriteChunks s io.chunk (call.path prims.hashes) chunkDisks chunks n).1 :=
    h.of_xlMeta_eq fun _ _ => xlMeta_parallelWriteChunks s io.chunk chunkDisks chunks n _ _
  unfold Buckets.putParallel
  dsimp only
  split
  · exact hchunks.parallelWriteMetadata _ _ hbucket hobject _
  · exact hchunks

/-- A put leaves files with names. -/
theorem putFiles (h : AllNamed prims s) (node : Node) (io : PutIo) (call : PutCall) :
    AllNamed prims (putFiles prims node io s call).1 := by
  unfold Buckets.putFiles
  dsimp only
  split
  · exact h.writeXlMeta _ _ rfl rfl
  · split
    · exact h
    · split
      · exact h
      · unfold putChunks
        dsimp only
        split
        · exact h.putSingleDisk _ _ _ rfl rfl _
        · split
          · exact h.putSingleDisk _ _ _ rfl rfl _
          · exact h.putParallel _ _ _ _ rfl rfl _

theorem putObject (h : AllNamed prims s) (node : Node) (io ioRegistry : PutIo) (call : PutCall) :
    AllNamed prims (putObject prims node io ioRegistry s call).1 := by
  unfold Buckets.putObject
  dsimp only
  split
  · exact (h.putFiles node io call).putFiles node ioRegistry _
  · exact h.putFiles node io call

end AllNamed

theorem allNamed_run (node : Node) (ops : List RegistryOp) :
    AllNamed prims (RegistryRun.run prims node ops).disks := by
  refine RegistryRun.run_induction prims (P := fun r => AllNamed prims r.disks) node ?_
    (fun r op hr => ?_) ops
  · intro disk path text htext
    cases htext
  cases op with
  | put call io ioRegistry => exact hr.putObject node io ioRegistry call
  | record loc modTime now io => exact hr.putFiles node io _

/-! ## 3. What is listed -/

variable {prims} (parser : JsonParser prims.cjson)

/-- The entry of a file with names. -/
theorem registryEntry_named {xl : XlMeta} {metaBucket metaObject : CString}
    (hbucket : xl.bucket = some metaBucket) (hobject : xl.object = some metaObject) (now : ℤ)
    (bucket : CString) (pre : Option CString) {e : RegistryLocation} :
    registryEntry parser now bucket pre (prims.cjson.print (xlMetaToJson xl)) = some e ↔
      readMetaJson prims.cjson (prims.cjson.print (xlMetaToJson xl)) = some (xlMetaToJson xl) ∧
      selects bucket pre metaBucket metaObject = true ∧
      e = listedLocation now metaBucket metaObject (xlMetaToJson xl) := by
  have hread : readMetaJson prims.cjson (prims.cjson.print (xlMetaToJson xl)) = none ∨
      readMetaJson prims.cjson (prims.cjson.print (xlMetaToJson xl)) = some (xlMetaToJson xl) := by
    unfold readMetaJson
    dsimp only
    split
    · exact Or.inl rfl
    · exact Or.inr (prims.cjson.parse_print _)
  rcases hread with hnone | hsome
  · simp [registryEntry, hnone]
  · simp only [registryEntry, hsome, Option.bind_some, stringItem_bucket,
      stringItem_object, hbucket, hobject]
    split
    · rename_i hselects
      simp [hselects, eq_comm]
    · rename_i hselects
      simp [hselects]

theorem selects_iff {bucket metaBucket metaObject : CString} {pre : Option CString} :
    selects bucket pre metaBucket metaObject = true ↔
      metaBucket = bucket ∧ isHidden bucket = false ∧ matchesPrefix pre metaObject = true := by
  simp only [selects, Bool.and_eq_true, decide_eq_true_eq, Bool.not_eq_true']
  constructor
  · rintro ⟨⟨rfl, hhidden⟩, hpre⟩
    exact ⟨rfl, hhidden, hpre⟩
  · rintro ⟨rfl, hhidden, hpre⟩
    exact ⟨⟨rfl, hhidden⟩, hpre⟩

/-- What the object's own `xl.meta` on a disk is listed as. -/
def listedAs (s : Disks prims.cjson.Text) (disk : CString) (now : ℤ) (bucket object : CString) :
    Option RegistryLocation :=
  ((s.xlMeta disk (computeObjectPath prims.hashes bucket object)).bind
    (registryEntry parser now bucket none)).filter fun e => e.object = some object

theorem listedAs_of_file {parser : JsonParser prims.cjson} {s : Disks prims.cjson.Text}
    {disk bucket object : CString} {now : ℤ} {text : prims.cjson.Text} {e : RegistryLocation}
    (hfile : s.xlMeta disk (computeObjectPath prims.hashes bucket object) = some text)
    (he : registryEntry parser now bucket none text = some e) (hobject : e.object = some object) :
    listedAs parser s disk now bucket object = some e := by
  rw [listedAs, hfile, Option.bind_some, he, Option.filter_some, if_pos (decide_eq_true hobject)]

/-- What the files of a directory are listed as, without a limit. -/
def listedFiles (dir : DataDir prims.cjson.Text) (now : ℤ) (bucket : CString)
    (pre : Option CString) : List RegistryLocation :=
  dir.files.filterMap fun file => registryEntry parser now bucket pre file.2

section Listed

variable {parser} {s : Disks prims.cjson.Text} {disk : CString} {now : ℤ} {bucket : CString}
  {pre : Option CString}

/-- An entry comes from the file at the path of its object. -/
theorem path_of_registryEntry (hnamed : AllNamed prims s) {path : CString} {text : prims.cjson.Text}
    (hfile : s.xlMeta disk path = some text) {e : RegistryLocation}
    (he : registryEntry parser now bucket pre text = some e) :
    ∃ object, e.object = some object ∧ e.versionId = some (cstr "latest") ∧ e.bucket = some bucket ∧
      path = computeObjectPath prims.hashes bucket object ∧ matchesPrefix pre object = true ∧
      listedAs parser s disk now bucket object = some e := by
  obtain ⟨xl, metaBucket, metaObject, rfl, hbucket, hobject, rfl⟩ := hnamed disk path text hfile
  obtain ⟨hread, hselects, rfl⟩ := (registryEntry_named parser hbucket hobject now bucket pre).mp he
  obtain ⟨rfl, hhidden, hpre⟩ := selects_iff.mp hselects
  have hall : registryEntry parser now metaBucket none (prims.cjson.print (xlMetaToJson xl)) =
      some (listedLocation now metaBucket metaObject (xlMetaToJson xl)) :=
    (registryEntry_named parser hbucket hobject now metaBucket none).mpr
      ⟨hread, selects_iff.mpr ⟨rfl, hhidden, rfl⟩, rfl⟩
  exact ⟨metaObject, rfl, rfl, rfl, rfl, hpre, listedAs_of_file hfile hall rfl⟩

/-- The entries of a directory that shows the disk. -/
theorem mem_listedFiles (hnamed : AllNamed prims s) {dir : DataDir prims.cjson.Text}
    (hdir : dir.Shows (s.xlMeta disk)) {e : RegistryLocation} :
    e ∈ listedFiles parser dir now bucket pre ↔
      ∃ object, matchesPrefix pre object = true ∧
        listedAs parser s disk now bucket object = some e := by
  rw [listedFiles, List.mem_filterMap]
  constructor
  · rintro ⟨⟨path, text⟩, hmem, he⟩
    obtain ⟨object, -, -, -, -, hpre, hlisted⟩ :=
      path_of_registryEntry hnamed ((hdir.mem_iff path text).mp hmem) he
    exact ⟨object, hpre, hlisted⟩
  · rintro ⟨object, hpre, hlisted⟩
    obtain ⟨hbind, hobject⟩ := Option.filter_eq_some_iff.mp hlisted
    obtain ⟨text, hfile, he⟩ := Option.bind_eq_some_iff.mp hbind
    refine ⟨(_, text), (hdir.mem_iff _ text).mpr hfile, ?_⟩
    -- the prefix is the only other test
    obtain ⟨xl, metaBucket, metaObject, rfl, hxlBucket, hxlObject, -⟩ := hnamed disk _ text hfile
    obtain ⟨hread, hselects, rfl⟩ :=
      (registryEntry_named parser hxlBucket hxlObject now bucket none).mp he
    obtain ⟨rfl, hhidden, -⟩ := selects_iff.mp hselects
    obtain rfl : metaObject = object := by simpa [listedLocation] using hobject
    exact (registryEntry_named parser hxlBucket hxlObject now metaBucket pre).mpr
      ⟨hread, selects_iff.mpr ⟨rfl, hhidden, hpre⟩, rfl⟩

theorem listedAs_fields (hnamed : AllNamed prims s) {object : CString} {e : RegistryLocation}
    (h : listedAs parser s disk now bucket object = some e) :
    e.key = (some bucket, some object, some (cstr "latest")) := by
  obtain ⟨hbind, hobject⟩ := Option.filter_eq_some_iff.mp h
  obtain ⟨text, hfile, he⟩ := Option.bind_eq_some_iff.mp hbind
  obtain ⟨object', -, hversion, hbucket, -⟩ := path_of_registryEntry hnamed hfile he
  rw [RegistryLocation.key, hbucket, of_decide_eq_true hobject, hversion]

variable {β : Type} {f : RegistryLocation → β}

/-- No object is listed twice. -/
theorem nodup_listedFiles (hf : ∀ e e', f e = f e' → e.key = e'.key) (hnamed : AllNamed prims s)
    {dir : DataDir prims.cjson.Text} (hdir : dir.Shows (s.xlMeta disk)) :
    ((listedFiles parser dir now bucket pre).map f).Nodup := by
  rw [List.Nodup, listedFiles, List.pairwise_map, List.pairwise_filterMap]
  have hpaths : dir.files.Pairwise fun file file' => file.1 ≠ file'.1 :=
    List.pairwise_map.mp hdir.nodup
  refine hpaths.imp_of_mem ?_
  intro file file' hfile hfile' hne e he e' he' heq
  obtain ⟨object, hobject, -, -, hpath, -⟩ :=
    path_of_registryEntry hnamed ((hdir.mem_iff file.1 file.2).mp hfile) he
  obtain ⟨object', hobject', -, -, hpath', -⟩ :=
    path_of_registryEntry hnamed ((hdir.mem_iff file'.1 file'.2).mp hfile') he'
  have hsame : e.object = e'.object := congrArg (fun k => k.2.1) (hf e e' heq)
  rw [hobject, hobject'] at hsame
  exact hne (by rw [hpath, hpath', Option.some.inj hsame])

end Listed

/-! ## 4. The list and the records -/

namespace RegistryRun

/-- The recorded locations a list is asked for. -/
def matching {Text : Type} (r : RegistryRun Text) (bucket : CString) (pre : Option CString) :
    List ObjectLocation :=
  r.recorded.filter fun loc => loc.bucket = bucket ∧ matchesPrefix pre loc.object

/-- The result has each of these locations exactly once and nothing else, as far as `f` tells
locations apart. -/
def Reports {Text β : Type} (r : RegistryRun Text) (f : RegistryLocation → β) (bucket : CString)
    (pre : Option CString) (result : Option (List RegistryLocation)) : Prop :=
  ∃ locations, result = some locations ∧
    (locations.map f).Perm ((r.matching bucket pre).map fun loc => f loc.toRegistry)

end RegistryRun

/-- The same directories can be opened. -/
def SameDirs {Text : Type} (view view' : DirView Text) : Prop :=
  ∀ disk, (view' disk).isSome = (view disk).isSome

theorem scannedDisk_congr {Text : Type} {view view' : DirView Text} (h : SameDirs view view')
    (base : CString) : scannedDisk view' base = scannedDisk view base := by
  rw [scannedDisk, scannedDisk, h]

theorem SameDirs.reversed {Text : Type} (view : DirView Text) : SameDirs view view.reversed := by
  intro disk
  rw [DirView.reversed, Option.isSome_map]

section Exact

variable {node : Node} {base : CString}

/-- The list of a node on its own, when all are asked for. -/
theorem registryList_local (hinit : node.registryInitialized = true)
    (hbase : node.dataDir = some base) (view : DirView prims.cjson.Text) (now : ℤ)
    (bucket : CString) (pre : Option CString) :
    registryList parser node [] view now bucket pre 0 =
      (view (scannedDisk view base)).map fun dir =>
        (listedFiles parser dir now bucket pre).take 1000 := by
  have hscan : ∀ dir : DataDir prims.cjson.Text,
      scanDataDir (registryEntry parser now bucket pre) 1000 dir [] =
        (listedFiles parser dir now bucket pre).take 1000 := by
    intro dir
    rw [scanDataDir_eq _ dir (Nat.zero_le 1000), List.nil_append, listedFiles]
  simp only [registryList, hinit, Bool.not_true, Bool.false_eq_true, if_false, if_true,
    distributedListObjects, List.foldl_nil, localList, hbase, Option.bind_some, hscan]

variable {r : RegistryRun prims.cjson.Text} {disk : CString} {now : ℤ} {bucket : CString}
  {pre : Option CString} {β : Type} {f : RegistryLocation → β}

theorem mem_matching {loc : ObjectLocation} : loc ∈ r.matching bucket pre ↔
    loc ∈ r.recorded ∧ loc.bucket = bucket ∧ matchesPrefix pre loc.object = true := by
  simp [RegistryRun.matching]

theorem key_toRegistry_eq_iff {loc : ObjectLocation} {bucket object versionId : CString} :
    loc.toRegistry.key = (some bucket, some object, some versionId) ↔
      loc.bucket = bucket ∧ loc.object = object ∧ loc.versionId = versionId := by
  simp [RegistryLocation.key, ObjectLocation.toRegistry]

theorem nodup_matching (hf : ∀ e e', f e = f e' → e.key = e'.key)
    (hrecorded : (r.recorded.map ObjectLocation.key).Nodup) :
    ((r.matching bucket pre).map fun loc => f loc.toRegistry).Nodup := by
  have hkeys : (r.matching bucket pre).Pairwise fun loc loc' => loc.key ≠ loc'.key :=
    (List.pairwise_map.mp hrecorded).sublist List.filter_sublist
  refine List.pairwise_map.mpr (hkeys.imp fun {loc loc'} hne heq => hne ?_)
  have hkey := key_toRegistry_eq_iff.mp (hf _ _ heq)
  simp only [ObjectLocation.key, Prod.mk.injEq]
  exact hkey

/-- Each recorded location is listed as it is on the disk, and each object listed is recorded. -/
def Visible (r : RegistryRun prims.cjson.Text) (f : RegistryLocation → β) (disk : CString) (now : ℤ)
    (bucket : CString) (pre : Option CString) : Prop :=
  (∀ loc ∈ r.matching bucket pre,
    ∃ e, listedAs parser r.disks disk now bucket loc.object = some e ∧ f e = f loc.toRegistry) ∧
  ∀ object, matchesPrefix pre object = true →
    (listedAs parser r.disks disk now bucket object).isSome = true →
    ∃ loc ∈ r.recorded, loc.bucket = bucket ∧ loc.object = object

theorem visible_key_iff (hnamed : AllNamed prims r.disks) :
    Visible parser r RegistryLocation.key disk now bucket pre ↔
      (∀ loc ∈ r.matching bucket pre, loc.versionId = cstr "latest" ∧
        (listedAs parser r.disks disk now bucket loc.object).isSome = true) ∧
      ∀ object, matchesPrefix pre object = true →
        (listedAs parser r.disks disk now bucket object).isSome = true →
        ∃ loc ∈ r.recorded, loc.bucket = bucket ∧ loc.object = object := by
  refine and_congr_left fun _ => forall₂_congr fun loc hloc => ?_
  obtain ⟨-, hbucket, -⟩ := mem_matching.mp hloc
  constructor
  · rintro ⟨e, he, hkey⟩
    obtain ⟨-, -, hversion⟩ :=
      key_toRegistry_eq_iff.mp (hkey.symm.trans (listedAs_fields hnamed he))
    exact ⟨hversion, by rw [he]; rfl⟩
  · rintro ⟨hversion, hlisted⟩
    obtain ⟨e, he⟩ := Option.isSome_iff_exists.mp hlisted
    refine ⟨e, he, ?_⟩
    rw [listedAs_fields hnamed he, key_toRegistry_eq_iff.mpr ⟨hbucket, rfl, hversion⟩]

theorem visible_id_iff : Visible parser r id disk now bucket pre ↔
    Visible parser r RegistryLocation.key disk now bucket pre ∧
      ∀ loc ∈ r.matching bucket pre,
        listedAs parser r.disks disk now bucket loc.object = some loc.toRegistry := by
  constructor
  · rintro ⟨hrecords, hobjects⟩
    have hsame : ∀ loc ∈ r.matching bucket pre,
        listedAs parser r.disks disk now bucket loc.object = some loc.toRegistry := by
      intro loc hloc
      obtain ⟨e, he, heq⟩ := hrecords loc hloc
      rw [he]
      exact congrArg some heq
    exact ⟨⟨fun loc hloc => ⟨_, hsame loc hloc, rfl⟩, hobjects⟩, hsame⟩
  · rintro ⟨⟨-, hobjects⟩, hsame⟩
    exact ⟨fun loc hloc => ⟨_, hsame loc hloc, rfl⟩, hobjects⟩

/-- Without the limit: the files of the disk are the recorded locations exactly if they are visible
there. -/
theorem perm_matching_iff (hf : ∀ e e', f e = f e' → e.key = e'.key)
    (hrecorded : (r.recorded.map ObjectLocation.key).Nodup) (hnamed : AllNamed prims r.disks)
    {dir : DataDir prims.cjson.Text} (hdir : dir.Shows (r.disks.xlMeta disk)) :
    ((listedFiles parser dir now bucket pre).map f).Perm
        ((r.matching bucket pre).map fun loc => f loc.toRegistry) ↔
      Visible parser r f disk now bucket pre := by
  rw [List.perm_ext_iff_of_nodup (nodup_listedFiles hf hnamed hdir) (nodup_matching hf hrecorded)]
  simp only [List.mem_map, mem_listedFiles hnamed hdir]
  constructor
  · intro hmem
    refine ⟨fun loc hloc => ?_, fun object hpre hlisted => ?_⟩
    · obtain ⟨e, ⟨object, -, he⟩, hfe⟩ := (hmem (f loc.toRegistry)).mpr ⟨loc, hloc, rfl⟩
      obtain ⟨-, rfl, -⟩ :=
        key_toRegistry_eq_iff.mp ((hf _ _ hfe).symm.trans (listedAs_fields hnamed he))
      exact ⟨e, he, hfe⟩
    · obtain ⟨e, he⟩ := Option.isSome_iff_exists.mp hlisted
      obtain ⟨loc, hloc, hfe⟩ := (hmem (f e)).mp ⟨e, ⟨object, hpre, he⟩, rfl⟩
      obtain ⟨hbucket, hobject, -⟩ :=
        key_toRegistry_eq_iff.mp ((hf _ _ hfe).trans (listedAs_fields hnamed he))
      exact ⟨loc, (mem_matching.mp hloc).1, hbucket, hobject⟩
  · rintro ⟨hrecords, hobjects⟩ x
    constructor
    · rintro ⟨e, ⟨object, hpre, he⟩, rfl⟩
      obtain ⟨loc, hloc, hbucket, rfl⟩ :=
        hobjects object hpre (Option.isSome_iff_exists.mpr ⟨e, he⟩)
      have hmatching : loc ∈ r.matching bucket pre := mem_matching.mpr ⟨hloc, hbucket, hpre⟩
      obtain ⟨e', he', hfe⟩ := hrecords loc hmatching
      obtain rfl := Option.some.inj (he.symm.trans he')
      exact ⟨loc, hmatching, hfe.symm⟩
    · rintro ⟨loc, hloc, rfl⟩
      obtain ⟨e, he, hfe⟩ := hrecords loc hloc
      exact ⟨e, ⟨loc.object, (mem_matching.mp hloc).2.2, he⟩, hfe⟩

/-- The list is right in whatever order the directories are read. -/
def ListedRight (node : Node) (r : RegistryRun prims.cjson.Text) (f : RegistryLocation → β)
    (view : DirView prims.cjson.Text) (now : ℤ) (bucket : CString) (pre : Option CString) : Prop :=
  ∀ view', SameDirs view view' → view'.Shows r.disks →
    r.Reports f bucket pre (registryList parser node [] view' now bucket pre 0)

/-- The list is right exactly if the disk can be opened, the recorded locations are visible on it,
and there are at most a thousand. -/
theorem listedRight_iff (hf : ∀ e e', f e = f e' → e.key = e'.key)
    (hinit : node.registryInitialized = true) (hbase : node.dataDir = some base)
    (hrecorded : (r.recorded.map ObjectLocation.key).Nodup) (hnamed : AllNamed prims r.disks)
    {view : DirView prims.cjson.Text} (hview : view.Shows r.disks) :
    ListedRight parser node r f view now bucket pre ↔
      (view (scannedDisk view base)).isSome = true ∧
      Visible parser r f (scannedDisk view base) now bucket pre ∧
      (r.matching bucket pre).length ≤ 1000 := by
  constructor
  · intro hall
    obtain ⟨locations, hlist, hperm⟩ := hall view (fun _ => rfl) hview
    obtain ⟨locations', hlist', hperm'⟩ := hall view.reversed (SameDirs.reversed view)
        hview.reversed
    rw [registryList_local parser hinit hbase] at hlist hlist'
    rw [scannedDisk_congr (SameDirs.reversed view)] at hlist'
    obtain ⟨dir, hdir, rfl⟩ := Option.map_eq_some_iff.mp hlist
    have hshows := hview (scannedDisk view base)
    rw [hdir] at hshows
    rw [DirView.reversed, hdir, Option.map_some, Option.map_some] at hlist'
    obtain rfl := Option.some.inj hlist'
    have hnodup : ((listedFiles parser dir now bucket pre).map f).Nodup :=
      nodup_listedFiles hf hnamed hshows
    rw [List.map_take] at hperm
    rw [listedFiles, DataDir.files_reversed, List.filterMap_reverse, List.map_take,
      List.map_reverse] at hperm'
    have hlength := LimitedScan.length_le_of_take_perm (by decide) hnodup hperm hperm'
    rw [List.take_of_length_le hlength] at hperm
    refine ⟨by rw [hdir]; rfl, (perm_matching_iff parser hf hrecorded hnamed hshows).mp hperm, ?_⟩
    have heq := hperm.length_eq
    rw [List.length_map] at hlength
    rw [List.length_map, List.length_map] at heq
    omega
  · rintro ⟨hopen, hvisible, hcount⟩ view' hsame hview'
    rw [RegistryRun.Reports, registryList_local parser hinit hbase, scannedDisk_congr hsame]
    obtain ⟨dir, hdir⟩ := Option.isSome_iff_exists.mp
      ((hsame (scannedDisk view base)).trans hopen)
    have hshows := hview' (scannedDisk view base)
    rw [hdir] at hshows
    have hperm := (perm_matching_iff parser hf hrecorded hnamed hshows).mpr hvisible
    have heq := hperm.length_eq
    rw [List.length_map, List.length_map] at heq
    refine ⟨_, by rw [hdir, Option.map_some], ?_⟩
    rwa [List.take_of_length_le (by omega)]

/-- In a cluster the list is right exactly if the recorded locations are of version `latest` and on
one of the listed disks, and what is on these is recorded. -/
theorem reports_cluster_iff (hinit : node.registryInitialized = true)
    (hrecorded : (r.recorded.map ObjectLocation.key).Nodup)
    {cluster : List (ClusterNode prims.cjson.Text)}
    (hsome : ∃ peer ∈ cluster, peer.entries bucket pre ≠ [])
    (hroom : (cluster.flatMap fun peer => peer.entries bucket pre).length ≤ 1000)
    (view : DirView prims.cjson.Text) :
    r.Reports RegistryLocation.key bucket pre
        (registryList parser node cluster view now bucket pre 0) ↔
      (∀ loc ∈ r.matching bucket pre, loc.versionId = cstr "latest" ∧
        ∃ peer ∈ cluster, ∃ obj ∈ peer.entries bucket pre, obj.object = loc.object) ∧
      ∀ peer ∈ cluster, ∀ obj ∈ peer.entries bucket pre,
        ∃ loc ∈ r.matching bucket pre, loc.object = obj.object := by
  obtain ⟨objects, hlist, hnodup, hbucket, hall⟩ :=
    registryList_merged hinit hsome hroom parser view now
  have hkeys : (objects.map (distributedLocation now)).map RegistryLocation.key =
      (objects.map ListedObject.object).map fun object =>
        (some bucket, some object, some (cstr "latest")) := by
    rw [List.map_map, List.map_map]
    refine List.map_congr_left fun obj hobj => ?_
    simp [RegistryLocation.key, distributedLocation, hbucket obj hobj]
  have hinj : Function.Injective fun object : CString =>
      (some bucket, some object, some (cstr "latest")) := by
    intro object object' h
    simpa using h
  rw [RegistryRun.Reports, hlist]
  simp only [Option.some.injEq, exists_eq_left', hkeys]
  rw [List.perm_ext_iff_of_nodup (hnodup.map hinj) (nodup_matching (fun _ _ h => h) hrecorded)]
  constructor
  · intro hmem
    refine ⟨fun loc hloc => ?_, fun peer hpeer obj hobj => ?_⟩
    · obtain ⟨object, hobject, hkey⟩ := List.mem_map.mp ((hmem _).mpr (List.mem_map_of_mem hloc))
      obtain ⟨-, rfl, hversion⟩ := key_toRegistry_eq_iff.mp hkey.symm
      exact ⟨hversion, (hall _).mp hobject⟩
    · obtain ⟨loc, hloc, hkey⟩ := List.mem_map.mp
        ((hmem _).mp (List.mem_map_of_mem ((hall _).mpr ⟨peer, hpeer, obj, hobj, rfl⟩)))
      exact ⟨loc, hloc, (key_toRegistry_eq_iff.mp hkey).2.1⟩
  · rintro ⟨hlisted, hothers⟩ key
    have hloc : ∀ loc ∈ r.matching bucket pre, loc.toRegistry.key =
        (some bucket, some loc.object, some (cstr "latest")) := by
      intro loc hloc
      exact key_toRegistry_eq_iff.mpr ⟨(mem_matching.mp hloc).2.1, rfl, (hlisted loc hloc).1⟩
    constructor
    · intro hkey
      obtain ⟨object, hobject, rfl⟩ := List.mem_map.mp hkey
      obtain ⟨peer, hpeer, obj, hobj, rfl⟩ := (hall object).mp hobject
      obtain ⟨loc, hmem, hname⟩ := hothers peer hpeer obj hobj
      exact List.mem_map.mpr ⟨loc, hmem, by rw [hloc loc hmem, hname]⟩
    · intro hkey
      obtain ⟨loc, hmem, rfl⟩ := List.mem_map.mp hkey
      rw [hloc loc hmem]
      exact List.mem_map_of_mem ((hall _).mpr (hlisted loc hmem).2)

end Exact

/-- **Listing and recording.**  On a node without a cluster, after any run of puts and records, the
list of a bucket is the recorded locations of the bucket with the prefix, in whatever order the
directories are read, EXACTLY IF the scanned disk can be opened, each of these locations is of
version `latest` and has its object's own `xl.meta` on that disk, each object of the bucket with the
prefix that has one there is recorded, and they are at most 1000.  The rest of a location is right
exactly if it is what is made up from the `xl.meta`.  In a cluster whose nodes have entries, and at
most a thousand, what counts is what these are. -/
theorem registryList_exact_iff {node : Node} {base : CString}
    (hinit : node.registryInitialized = true) (hbase : node.dataDir = some base)
    {ops : List RegistryOp} {r : RegistryRun prims.cjson.Text}
    (hrun : RegistryRun.run prims node ops = r) {view : DirView prims.cjson.Text}
    (hview : view.Shows r.disks) (now : ℤ) (bucket : CString) (pre : Option CString) :
    (ListedRight parser node r RegistryLocation.key view now bucket pre ↔
      (view (scannedDisk view base)).isSome = true ∧
      (∀ loc ∈ r.matching bucket pre, loc.versionId = cstr "latest" ∧
        (listedAs parser r.disks (scannedDisk view base) now bucket loc.object).isSome = true) ∧
      (∀ object, matchesPrefix pre object = true →
        (listedAs parser r.disks (scannedDisk view base) now bucket object).isSome = true →
        ∃ loc ∈ r.recorded, loc.bucket = bucket ∧ loc.object = object) ∧
      (r.matching bucket pre).length ≤ 1000) ∧
    (ListedRight parser node r id view now bucket pre ↔
      ListedRight parser node r RegistryLocation.key view now bucket pre ∧
      ∀ loc ∈ r.matching bucket pre,
        listedAs parser r.disks (scannedDisk view base) now bucket loc.object =
          some loc.toRegistry) ∧
    ∀ cluster : List (ClusterNode prims.cjson.Text),
      (∃ peer ∈ cluster, peer.entries bucket pre ≠ []) →
      (cluster.flatMap fun peer => peer.entries bucket pre).length ≤ 1000 →
      (r.Reports RegistryLocation.key bucket pre
          (registryList parser node cluster view now bucket pre 0) ↔
        (∀ loc ∈ r.matching bucket pre, loc.versionId = cstr "latest" ∧
          ∃ peer ∈ cluster, ∃ obj ∈ peer.entries bucket pre, obj.object = loc.object) ∧
        ∀ peer ∈ cluster, ∀ obj ∈ peer.entries bucket pre,
          ∃ loc ∈ r.matching bucket pre, loc.object = obj.object) := by
  subst hrun
  have hrecorded := RegistryRun.nodup_run prims node ops
  have hnamed := allNamed_run prims node ops
  have hkey : ListedRight parser node _ RegistryLocation.key view now bucket pre ↔ _ :=
    listedRight_iff (f := RegistryLocation.key) parser (fun e e' h => h) hinit hbase
      hrecorded hnamed hview
  have hall : ListedRight parser node _ id view now bucket pre ↔ _ :=
    listedRight_iff (f := id) parser (fun e e' h => congrArg RegistryLocation.key h) hinit hbase
      hrecorded hnamed hview
  refine ⟨?_, ?_, fun cluster hsome hroom =>
    reports_cluster_iff parser hinit hrecorded hsome hroom view⟩
  · rw [hkey, visible_key_iff parser hnamed, and_assoc]
  · rw [hkey, hall, visible_id_iff parser]
    constructor
    · rintro ⟨hopen, ⟨hvisible, hsame⟩, hcount⟩
      exact ⟨⟨hopen, hvisible, hcount⟩, hsame⟩
    · rintro ⟨⟨hopen, hvisible, hcount⟩, hsame⟩
      exact ⟨hopen, ⟨hvisible, hsame⟩, hcount⟩

end Recording

/-! ## 5. One disk -/

/-- Hashes that tell keys of different lengths apart. -/
def Hashes.byLength : Hashes :=
  ⟨fun _ data => UInt64.ofNat data.length, fun _ _ _ => UInt64.ofNat 0,
    fun _ => List.replicate 32 (UInt8.ofNat 0), fun _ => List.length_replicate⟩

noncomputable def Prims.byLength : Prims GF256 := ⟨IsaL.reference, CJson.reference, .byLength⟩

/-- A node with one data directory and no placement. -/
def singleDiskNode : Node where
  placementInitialized := false
  siphashK0 := 0
  siphashK1 := 0
  ring := []
  topology := none
  multidisk := none
  dataDir := some (cstr "/d")
  defaultEcK := 2
  defaultEcM := 1
  registryInitialized := true

theorem putFiles_singleDisk (s : Disks Prims.byLength.cjson.Text) {call : PutCall}
    (hinline : shouldInlineObject call.data.length = true) :
    putFiles Prims.byLength singleDiskNode .noFault s call =
      (s.setXlMeta (cstr "/d") (call.path .byLength)
        (some (Prims.byLength.cjson.print (xlMetaToJson (inlineMeta call)))), true) := by
  unfold putFiles
  rw [if_pos hinline]
  rfl

/-- The location of a small object, and the put that records it. -/
def smallLocation : ObjectLocation := locationOf smallPut none

noncomputable def smallRecord : PutCall :=
  recordCall Prims.byLength smallLocation smallPut.modTime smallPut.now

theorem smallRecord_inline : shouldInlineObject smallRecord.data.length = true := by
  decide +kernel

/-- The `xl.meta` of a call. -/
noncomputable def inlineText (call : PutCall) : Prims.byLength.cjson.Text :=
  Prims.byLength.cjson.print (xlMetaToJson (inlineMeta call))

/-- The data directory with these hash directories. -/
noncomputable def singleDiskView (files : HashDir Prims.byLength.cjson.Text) :
    DirView Prims.byLength.cjson.Text :=
  fun disk => if disk = cstr "/d" then some [(cstr "00", some files)] else none

/-- The names of the hash directories of the object and of its record. -/
def smallPutHash : CString := cstr "0000000000000003"

def smallRecordHash : CString := cstr "0000000000000021"

theorem path_smallPut :
    smallPut.path .byLength = joinPath (cstr "00") smallPutHash ++ cstr "/" := by
  decide +kernel

theorem path_smallRecord :
    smallRecord.path .byLength = joinPath (cstr "00") smallRecordHash ++ cstr "/" := by
  decide +kernel

/-- The run that only records a location. -/
theorem run_record :
    RegistryRun.run Prims.byLength singleDiskNode
        [.record smallLocation smallPut.modTime smallPut.now .noFault] =
      ⟨Disks.empty.setXlMeta (cstr "/d") (smallRecord.path .byLength)
        (some (inlineText smallRecord)), [smallLocation]⟩ := by
  simp only [RegistryRun.run, List.foldl_cons, List.foldl_nil, RegistryRun.step]
  rw [← smallRecord, putFiles_singleDisk .empty smallRecord_inline]
  rfl

/-- The run that puts the object. -/
theorem run_put :
    RegistryRun.run Prims.byLength singleDiskNode [.put smallPut .noFault .noFault] =
      ⟨(Disks.empty.setXlMeta (cstr "/d") (smallPut.path .byLength)
          (some (inlineText smallPut))).setXlMeta (cstr "/d") (smallRecord.path .byLength)
          (some (inlineText smallRecord)), [smallLocation]⟩ := by
  have hplacement : placementCompute Prims.byLength.hashes singleDiskNode smallPut.bucket
      smallPut.object = none := rfl
  have hinline : shouldInlineObject smallPut.data.length = true := by decide
  simp only [RegistryRun.run, List.foldl_cons, List.foldl_nil, RegistryRun.step, putObject,
    registryCall_eq, hplacement]
  rw [← smallLocation, ← smallRecord, putFiles_singleDisk .empty hinline,
    putFiles_singleDisk _ smallRecord_inline]
  rfl

theorem files_singleDiskView (files : HashDir Prims.byLength.cjson.Text) :
    DataDir.files [(cstr "00", some files)] = hashDirFiles (cstr "00") files := by
  have hprefix : isHashPrefix (cstr "00") = true := by decide
  simp [DataDir.files, hprefix]

/-- The directory shows the disks, if it does so for the one disk and the others are empty. -/
theorem shows_singleDiskView {files : HashDir Prims.byLength.cjson.Text}
    {s : Disks Prims.byLength.cjson.Text}
    (hnodup : ((hashDirFiles (cstr "00") files).map Prod.fst).Nodup)
    (hmem : ∀ path text, (path, text) ∈ hashDirFiles (cstr "00") files ↔
      s.xlMeta (cstr "/d") path = some text)
    (hothers : ∀ disk, disk ≠ cstr "/d" → ∀ path, s.xlMeta disk path = none) :
    (singleDiskView files).Shows s := by
  intro disk
  unfold singleDiskView
  split
  · rename_i hview
    split at hview
    · cases hview
    · rename_i hdisk
      exact hothers disk hdisk
  · rename_i dir hview
    split at hview
    · rename_i hdisk
      obtain rfl := Option.some.inj hview
      rw [← files_singleDiskView] at hnodup hmem
      exact hdisk ▸ ⟨hnodup, hmem⟩
    · cases hview

theorem hashDirFiles_cons {hash : CString} (h : isHidden hash = false)
    (text : Prims.byLength.cjson.Text) (rest : HashDir Prims.byLength.cjson.Text) :
    hashDirFiles (cstr "00") ((hash, some text) :: rest) =
      (joinPath (cstr "00") hash ++ cstr "/", text) :: hashDirFiles (cstr "00") rest := by
  simp [hashDirFiles, h]

theorem shows_record : (singleDiskView [(smallRecordHash, some (inlineText smallRecord))]).Shows
    (Disks.empty.setXlMeta (cstr "/d") (smallRecord.path .byLength)
      (some (inlineText smallRecord))) := by
  have hhidden : isHidden smallRecordHash = false := by decide
  refine shows_singleDiskView (List.nodup_singleton _) (fun path text => ?_)
    fun disk hdisk path => ?_
  · rw [path_smallRecord, Disks.xlMeta_setXlMeta, hashDirFiles_cons hhidden]
    by_cases hpath : path = joinPath (cstr "00") smallRecordHash ++ cstr "/"
    · simp [hashDirFiles, hpath, @eq_comm _ text]
    · simp [hashDirFiles, hpath, Disks.empty]
  · rw [Disks.xlMeta_setXlMeta, if_neg fun h => hdisk h.1]
    rfl

theorem shows_put : (singleDiskView [(smallPutHash, some (inlineText smallPut)),
      (smallRecordHash, some (inlineText smallRecord))]).Shows
    ((Disks.empty.setXlMeta (cstr "/d") (smallPut.path .byLength)
      (some (inlineText smallPut))).setXlMeta (cstr "/d") (smallRecord.path .byLength)
      (some (inlineText smallRecord))) := by
  have hne : joinPath (cstr "00") smallPutHash ++ cstr "/" ≠
      joinPath (cstr "00") smallRecordHash ++ cstr "/" := by decide
  have hfiles : hashDirFiles (cstr "00") [(smallPutHash, some (inlineText smallPut)),
      (smallRecordHash, some (inlineText smallRecord))] =
      [(joinPath (cstr "00") smallPutHash ++ cstr "/", inlineText smallPut),
        (joinPath (cstr "00") smallRecordHash ++ cstr "/", inlineText smallRecord)] := by
    rw [hashDirFiles_cons (by decide), hashDirFiles_cons (by decide)]
    rfl
  refine shows_singleDiskView ?_ (fun path text => ?_) fun disk hdisk path => ?_
  · rw [hfiles]
    simpa using hne
  · rw [hfiles, path_smallPut, path_smallRecord, Disks.xlMeta_setXlMeta, Disks.xlMeta_setXlMeta]
    by_cases hrecord : path = joinPath (cstr "00") smallRecordHash ++ cstr "/"
    · simp [hrecord, hne.symm, @eq_comm _ text]
    · by_cases hput : path = joinPath (cstr "00") smallPutHash ++ cstr "/"
      · simp [hput, hne, @eq_comm _ text]
      · simp [hrecord, hput, Disks.empty]
  · rw [Disks.xlMeta_setXlMeta, if_neg fun h => hdisk h.1, Disks.xlMeta_setXlMeta,
      if_neg fun h => hdisk h.1]
    rfl

/-- The record is no entry of the bucket, the object is one. -/
theorem registryEntry_smallRecord (parser : JsonParser Prims.byLength.cjson) :
    registryEntry parser 0 (cstr "b") none (inlineText smallRecord) = none := by
  refine Option.eq_none_iff_forall_ne_some.mpr fun e he => ?_
  have hnamed : selects (cstr "b") none registryBucket smallRecord.object = true :=
    ((registryEntry_named parser rfl rfl 0 (cstr "b") none).mp he).2.1
  have hbucket := (selects_iff.mp hnamed).1
  revert hbucket
  decide

theorem registryEntry_smallPut (parser : JsonParser Prims.byLength.cjson) :
    registryEntry parser 0 (cstr "b") none (inlineText smallPut) =
      some (listedLocation 0 (cstr "b") (cstr "o") (xlMetaToJson (inlineMeta smallPut))) := by
  have hsize : ¬ ((Prims.byLength.cjson.chars (inlineText smallPut)).length = 0 ∨
      (Prims.byLength.cjson.chars (inlineText smallPut)).length > 1024 * 1024) := by
    decide +kernel
  refine (registryEntry_named parser rfl rfl 0 (cstr "b") none).mpr ⟨?_, by decide, rfl⟩
  rw [readMetaJson, ← inlineText, if_neg hsize]
  rfl

/-- A small object that was put on a single disk is listed, once. -/
theorem registryList_exact_put :
    (RegistryRun.run Prims.byLength singleDiskNode [.put smallPut .noFault .noFault]).recorded =
        [smallLocation] ∧
      ListedRight (JsonParser.strict Prims.byLength.cjson) singleDiskNode
        (RegistryRun.run Prims.byLength singleDiskNode [.put smallPut .noFault .noFault])
        RegistryLocation.key
        (singleDiskView [(smallPutHash, some (inlineText smallPut)),
          (smallRecordHash, some (inlineText smallRecord))]) 0 (cstr "b") none := by
  have hne : smallPut.path .byLength ≠ smallRecord.path .byLength := by decide +kernel
  rw [run_put]
  refine ⟨rfl, (registryList_exact_iff (JsonParser.strict Prims.byLength.cjson) rfl rfl run_put
    shows_put 0 (cstr "b") none).1.mpr ⟨rfl, ?_, ?_, by decide⟩⟩
  · intro loc hloc
    obtain rfl : loc = smallLocation := List.mem_singleton.mp (mem_matching.mp hloc).1
    have hfile : (((Disks.empty.setXlMeta (cstr "/d") (smallPut.path .byLength)
        (some (inlineText smallPut))).setXlMeta (cstr "/d") (smallRecord.path .byLength)
        (some (inlineText smallRecord))).xlMeta (cstr "/d") (smallPut.path .byLength)) =
        some (inlineText smallPut) := by
      rw [Disks.xlMeta_setXlMeta, if_neg fun h => hne h.2, Disks.xlMeta_setXlMeta,
        if_pos ⟨rfl, rfl⟩]
    exact ⟨rfl, Option.isSome_iff_exists.mpr
      ⟨_, listedAs_of_file hfile (registryEntry_smallPut _) rfl⟩⟩
  · intro object _ hlisted
    refine ⟨smallLocation, List.mem_singleton.mpr rfl, rfl, ?_⟩
    obtain ⟨e, he⟩ := Option.isSome_iff_exists.mp hlisted
    obtain ⟨hbind, hobject⟩ := Option.filter_eq_some_iff.mp he
    obtain ⟨text, hfile, hentry⟩ := Option.bind_eq_some_iff.mp hbind
    rw [Disks.xlMeta_setXlMeta] at hfile
    split at hfile
    · obtain rfl := Option.some.inj hfile
      rw [registryEntry_smallRecord] at hentry
      cases hentry
    · rw [Disks.xlMeta_setXlMeta] at hfile
      split at hfile
      · obtain rfl := Option.some.inj hfile
        rw [registryEntry_smallPut] at hentry
        obtain rfl := Option.some.inj hentry
        exact Option.some.inj (of_decide_eq_true hobject)
      · cases hfile

/-- **A recorded location is not listed.**  One location of the bucket `b` is recorded on an empty
disk, and the list of `b` is empty. -/
theorem registryList_record_missing :
    (RegistryRun.run Prims.byLength singleDiskNode
        [.record smallLocation smallPut.modTime smallPut.now .noFault]).recorded = [smallLocation] ∧
      smallLocation.bucket = cstr "b" ∧
      (singleDiskView [(smallRecordHash, some (inlineText smallRecord))]).Shows
        (RegistryRun.run Prims.byLength singleDiskNode
          [.record smallLocation smallPut.modTime smallPut.now .noFault]).disks ∧
      registryList (JsonParser.strict Prims.byLength.cjson) singleDiskNode []
        (singleDiskView [(smallRecordHash, some (inlineText smallRecord))]) 0 (cstr "b") none 0 =
          some [] := by
  have hopen : singleDiskView [(smallRecordHash, some (inlineText smallRecord))] (cstr "/d") =
      some [(cstr "00", some [(smallRecordHash, some (inlineText smallRecord))])] := rfl
  have hdisk : scannedDisk (singleDiskView [(smallRecordHash, some (inlineText smallRecord))])
      (cstr "/d") = cstr "/d" := rfl
  rw [run_record]
  refine ⟨rfl, rfl, shows_record, ?_⟩
  rw [registryList_local _ rfl rfl, hdisk, hopen, Option.map_some, listedFiles,
    files_singleDiskView, hashDirFiles_cons (by decide), List.filterMap_cons]
  simp only [registryEntry_smallRecord]
  rfl

end Buckets
