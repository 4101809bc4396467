/-
# `buckets_distributed_delete_object`: deleting an object

The delete goes to every disk of the key's placement at once.  `chunk_delete_worker` unlinks one
part and the `xl.meta` of its disk and reports SUCCESS whatever `unlink` says, and
`buckets_parallel_delete_chunks` succeeds if one of its workers does.  A get needs ONE `xl.meta`
and `k` parts.  So the two sides count differently over the same disks, and between them an
acknowledged delete can leave an object that is still read -- and, after an inline put over an
erasure-coded one, the OLDER of the two.

As in the rest of the storage layer no disk has an endpoint here: every worker is local.

* `part_parallelDelete`, `xlMeta_parallelDelete` -- what a delete removes;
* `NoneBeyond.putSequence` -- no put leaves a record beyond the first `k + m` disks;
* `Traces.readObject_deleted` -- what a get finds afterwards, for every pattern of failures.
-/
import Buckets.ObjectFaults

namespace Buckets

/-! ## 1. The delete -/

/-- What happens during a delete, on the disk at each position: whether its thread is started, and
whether `unlink` removes its part and its `xl.meta`. -/
structure DeleteIo where
  started : ℕ → Bool
  part : ℕ → Bool
  xlMeta : ℕ → Bool

/-- No step fails. -/
def DeleteIo.noFault : DeleteIo := ⟨fun _ => true, fun _ => true, fun _ => true⟩

/-- `unlink` of the part of position `i`. -/
def unlinkPart {Text : Type} (io : DeleteIo) (path disk : CString) (s : Disks Text) (i : ℕ) :
    Disks Text :=
  if io.started i && io.part i then s.removePart disk path (i + 1) else s

/-- `unlink` of the `xl.meta` of position `i`. -/
def unlinkXlMeta {Text : Type} (io : DeleteIo) (path disk : CString) (s : Disks Text) (i : ℕ) :
    Disks Text :=
  if io.started i && io.xlMeta i then s.setXlMeta disk path none else s

/-- `chunk_delete_worker` on a local disk; its result is 0 whatever the two calls return. -/
def chunkDeleteWorker {Text : Type} (io : DeleteIo) (path disk : CString) (s : Disks Text) (i : ℕ) :
    Disks Text :=
  unlinkXlMeta io path disk (unlinkPart io path disk s i) i

/-- `buckets_parallel_delete_chunks`: one worker a disk, and one that ran is enough. -/
def parallelDeleteChunks {Text : Type} (io : DeleteIo) (path : CString) (diskPaths : List CString)
    (s : Disks Text) : Disks Text × Bool :=
  if diskPaths.length = 0 ∨ diskPaths.length > 32 then (s, false)
  else
    ((List.range diskPaths.length).foldl (fun s i =>
        chunkDeleteWorker io path (charArray 512 (diskPaths.getD i [])) s i) s,
      (List.range diskPaths.length).any io.started)

section Model

variable {F : Type} [Field F] (prims : Prims F)

/-- `buckets_delete_object`, the fallback without a placement: the files of the data directory. -/
def deleteObject (node : Node) (io : DeleteIo) (s : Disks prims.cjson.Text) (path : CString) :
    Disks prims.cjson.Text × Bool :=
  match node.dataDir with
  | none => (s, false)
  | some disk =>
    match readXlMeta prims s disk path with
    | none => (s, false)
    | some xl =>
      let total := if xl.inlineData.isSome then 0 else xl.erasure.data + xl.erasure.parity
      let s := (List.range total).foldl
        (fun s i => if io.part i then s.removePart disk path (i + 1) else s) s
      (if io.xlMeta 0 then s.setXlMeta disk path none else s, true)

/-- The files `buckets_distributed_delete_object` deletes, and what it returns. -/
def deleteFiles (node : Node) (io : DeleteIo) (s : Disks prims.cjson.Text)
    (bucket object : CString) : Disks prims.cjson.Text × Bool :=
  let path := computeObjectPath prims.hashes bucket object
  match placementCompute prims.hashes node bucket object with
  | none => deleteObject prims node io s path
  | some p => parallelDeleteChunks io path p.diskPaths s

/-- The key of an object's registry record. -/
def registryKey (bucket object : CString) : CString :=
  charArray 1024 (joinPath (joinPath bucket object) (cstr "latest.json"))

/-- `buckets_distributed_delete_object`: the object, then its registry record, whose failure is
only logged.  The fallback drops the record only if it succeeded.  (A registry record has no record
of its own, so its delete ends there.) -/
def distributedDeleteObject (node : Node) (io ioRegistry : DeleteIo) (s : Disks prims.cjson.Text)
    (bucket object : CString) : Disks prims.cjson.Text × Bool :=
  let deleted := deleteFiles prims node io s bucket object
  let placed := (placementCompute prims.hashes node bucket object).isSome
  if bucket ≠ registryBucket && node.registryInitialized && (placed || deleted.2) then
    ((deleteFiles prims node ioRegistry deleted.1 registryBucket (registryKey bucket object)).1,
      deleted.2)
  else deleted

/-! ## 2. What a delete removes -/

section Removed

variable {Text : Type} {hashes : Hashes} {node : Node} {bucket object path : CString}
  {p : Placement}

/-- The part at position `i` is removed. -/
def DeleteIo.removesPart (io : DeleteIo) (p : Placement) (i : ℕ) : Bool :=
  decide (p.diskPaths.length ≤ 32) && (io.started i && io.part i)

/-- The `xl.meta` at position `i` is removed. -/
def DeleteIo.removesMeta (io : DeleteIo) (p : Placement) (i : ℕ) : Bool :=
  decide (p.diskPaths.length ≤ 32) && (io.started i && io.xlMeta i)

@[simp] theorem xlMeta_unlinkPart (io : DeleteIo) (path disk : CString) (s : Disks Text) (i : ℕ)
    (d o : CString) : (unlinkPart io path disk s i).xlMeta d o = s.xlMeta d o := by
  unfold unlinkPart
  split <;> rfl

@[simp] theorem part_unlinkXlMeta (io : DeleteIo) (path disk : CString) (s : Disks Text) (i : ℕ)
    (d o : CString) (j : ℕ) : (unlinkXlMeta io path disk s i).part d o j = s.part d o j := by
  unfold unlinkXlMeta
  split <;> rfl

/-- Round `i` of the delete touches one part file of disk `i` ... -/
theorem chunkDeleteWorker_updates_part (io : DeleteIo) (path : CString) (diskPaths : List CString) :
    PointLoop.Updates (fun (s : Disks Text) (c : CString × CString × ℕ) => s.part c.1 c.2.1 c.2.2)
      (fun s i => chunkDeleteWorker io path (charArray 512 (diskPaths.getD i [])) s i)
      (fun i => (charArray 512 (diskPaths.getD i []), path, i + 1))
      (fun i old => if io.started i && io.part i then none else old) := by
  constructor
  · intro s i
    simp only [chunkDeleteWorker, part_unlinkXlMeta]
    unfold unlinkPart
    split
    · exact if_pos ⟨rfl, rfl, rfl⟩
    · rfl
  · rintro s i ⟨d, o, j⟩ hne
    simp only [chunkDeleteWorker, part_unlinkXlMeta]
    unfold unlinkPart
    split
    · refine if_neg ?_
      rintro ⟨rfl, rfl, rfl⟩
      exact hne rfl
    · rfl

/-- ... and the `xl.meta` of disk `i`. -/
theorem chunkDeleteWorker_updates_xlMeta (io : DeleteIo) (path : CString)
    (diskPaths : List CString) :
    PointLoop.Updates (fun (s : Disks Text) (c : CString × CString) => s.xlMeta c.1 c.2)
      (fun s i => chunkDeleteWorker io path (charArray 512 (diskPaths.getD i [])) s i)
      (fun i => (charArray 512 (diskPaths.getD i []), path))
      (fun i old => if io.started i && io.xlMeta i then none else old) := by
  constructor
  · intro s i
    simp only [chunkDeleteWorker]
    unfold unlinkXlMeta
    split
    · exact if_pos ⟨rfl, rfl⟩
    · exact xlMeta_unlinkPart ..
  · rintro s i ⟨d, o⟩ hne
    simp only [chunkDeleteWorker]
    unfold unlinkXlMeta
    split
    · refine (if_neg ?_).trans (xlMeta_unlinkPart ..)
      rintro ⟨rfl, rfl⟩
      exact hne rfl
    · exact xlMeta_unlinkPart ..

theorem parallelDeleteChunks_sameOutside (io : DeleteIo) (path : CString) (diskPaths : List CString)
    (s : Disks Text) : SameOutside path s (parallelDeleteChunks io path diskPaths s).1 := by
  unfold parallelDeleteChunks
  split
  · exact SameOutside.refl s
  · intro d o hne
    refine ⟨(chunkDeleteWorker_updates_xlMeta io path diskPaths).get_foldl_other
        (c := (d, o)) (fun i _ heq => hne (Prod.mk.inj heq).2) s,
      fun j => (chunkDeleteWorker_updates_part io path diskPaths).get_foldl_other
        (c := (d, o, j)) (fun i _ heq => hne (Prod.mk.inj (Prod.mk.inj heq).2).1) s⟩

theorem part_parallelDelete (hp : Placed hashes node bucket object p) (io : DeleteIo)
    (s : Disks Text) {i : ℕ} (hi : i < p.diskPaths.length) :
    (parallelDeleteChunks io path p.diskPaths s).1.part (p.disk i) path (i + 1) =
      if io.removesPart p i then none else s.part (p.disk i) path (i + 1) := by
  unfold parallelDeleteChunks DeleteIo.removesPart
  split
  case isTrue hlen => rw [decide_eq_false (by omega)]; rfl
  case isFalse hlen =>
    have hinj : Set.InjOn (fun i => (charArray 512 (p.diskPaths.getD i []), path, i + 1))
        (Set.Iio p.diskPaths.length) := by
      intro i _ j _ heq
      simpa using congrArg (fun c : CString × CString × ℕ => c.2.2) heq
    have hown := (chunkDeleteWorker_updates_part io path p.diskPaths).get_foldl_own hinj hi s
    rw [hp.charArray_disk hi] at hown
    rw [decide_eq_true (by omega), Bool.true_and]
    exact hown

theorem xlMeta_parallelDelete (hp : Placed hashes node bucket object p) (io : DeleteIo)
    (s : Disks Text) {i : ℕ} (hi : i < p.diskPaths.length) :
    (parallelDeleteChunks io path p.diskPaths s).1.xlMeta (p.disk i) path =
      if io.removesMeta p i then none else s.xlMeta (p.disk i) path := by
  unfold parallelDeleteChunks DeleteIo.removesMeta
  split
  case isTrue hlen => rw [decide_eq_false (by omega)]; rfl
  case isFalse hlen =>
    have hinj : Set.InjOn (fun i => (charArray 512 (p.diskPaths.getD i []), path))
        (Set.Iio p.diskPaths.length) := by
      intro i hi j hj heq
      have hdisk := congrArg Prod.fst heq
      simp only [hp.charArray_disk hi, hp.charArray_disk hj] at hdisk
      exact hp.disk_injOn hi hj hdisk
    have hown := (chunkDeleteWorker_updates_xlMeta io path p.diskPaths).get_foldl_own hinj hi s
    rw [hp.charArray_disk hi] at hown
    rw [decide_eq_true (by omega), Bool.true_and]
    exact hown

end Removed

variable {node : Node} {bucket object : CString} {p : Placement}

theorem deleteObject_sameOutside (node : Node) (io : DeleteIo) (s : Disks prims.cjson.Text)
    (path : CString) : SameOutside path s (deleteObject prims node io s path).1 := by
  have hpart : ∀ (s : Disks prims.cjson.Text) disk i, SameOutside path s
      (if io.part i then s.removePart disk path (i + 1) else s) := by
    intro s disk i
    split
    · exact fun d o hne => ⟨rfl, fun j => if_neg fun h => hne h.2.1⟩
    · exact SameOutside.refl s
  unfold deleteObject
  split
  case h_1 => exact SameOutside.refl s
  case h_2 disk _ =>
    split
    case h_1 => exact SameOutside.refl s
    case h_2 xl _ =>
      dsimp only
      have hparts := SameOutside.foldl (fun s i => hpart s disk i)
        (List.range (if xl.inlineData.isSome then 0 else xl.erasure.data + xl.erasure.parity)) s
      split
      · refine hparts.trans fun d o hne => ⟨if_neg fun h => hne h.2, fun j => rfl⟩
      · exact hparts

theorem deleteFiles_sameOutside (node : Node) (io : DeleteIo) (s : Disks prims.cjson.Text)
    (bucket object : CString) : SameOutside (computeObjectPath prims.hashes bucket object) s
      (deleteFiles prims node io s bucket object).1 := by
  unfold deleteFiles
  dsimp only
  split
  · exact deleteObject_sameOutside prims node io s _
  · exact parallelDeleteChunks_sameOutside io _ _ s

/-- What is left at an object's path after its delete: the registry's files are elsewhere. -/
theorem delete_placed (hp : Placed prims.hashes node bucket object p) (io ioRegistry : DeleteIo)
    (s : Disks prims.cjson.Text)
    (hregistry : bucket ≠ registryBucket → node.registryInitialized = true →
      computeObjectPath prims.hashes registryBucket (registryKey bucket object) ≠
        computeObjectPath prims.hashes bucket object) :
    (distributedDeleteObject prims node io ioRegistry s bucket object).2 =
      (parallelDeleteChunks io (computeObjectPath prims.hashes bucket object) p.diskPaths s).2 ∧
    ∀ d, (distributedDeleteObject prims node io ioRegistry s bucket object).1.xlMeta d
        (computeObjectPath prims.hashes bucket object) =
      (parallelDeleteChunks io (computeObjectPath prims.hashes bucket object)
        p.diskPaths s).1.xlMeta d (computeObjectPath prims.hashes bucket object) ∧
      ∀ i, (distributedDeleteObject prims node io ioRegistry s bucket object).1.part d
          (computeObjectPath prims.hashes bucket object) i =
        (parallelDeleteChunks io (computeObjectPath prims.hashes bucket object)
          p.diskPaths s).1.part d (computeObjectPath prims.hashes bucket object) i := by
  have hfiles : deleteFiles prims node io s bucket object =
      parallelDeleteChunks io (computeObjectPath prims.hashes bucket object) p.diskPaths s := by
    simp only [deleteFiles, hp.compute]
  unfold distributedDeleteObject
  dsimp only
  rw [hfiles]
  split
  case isFalse => exact ⟨rfl, fun d => ⟨rfl, fun i => rfl⟩⟩
  case isTrue hrecords =>
    simp only [Bool.and_eq_true, decide_eq_true_eq] at hrecords
    refine ⟨rfl, fun d => ?_⟩
    exact deleteFiles_sameOutside prims node ioRegistry _ registryBucket _ d _
      (hregistry hrecords.1.1 hrecords.1.2).symm

/-! ## 3. No record beyond the first `k + m` disks -/

/-- The disks at positions `k + m` and on, but for the first disk, have no record. -/
def NoneBeyond (node : Node) (p : Placement) (path : CString) (s : Disks prims.cjson.Text) : Prop :=
  ∀ i, 0 < i → node.defaultEcK + node.defaultEcM ≤ i → i < p.diskPaths.length →
    s.xlMeta (p.disk i) path = none

variable {call : PutCall} {earlier : List PutCall} {last : PutCall}

/-- **Step.**  A put writes records to the first disk or to the first `k + m`. -/
theorem NoneBeyond.putFiles
    (hp : Placed prims.hashes node call.bucket call.object p) {s : Disks prims.cjson.Text}
    (h : NoneBeyond prims node p (call.path prims.hashes) s) (io : PutIo) :
    NoneBeyond prims node p (call.path prims.hashes) (Buckets.putFiles prims node io s call).1 := by
  intro i hpos hbeyond hi
  have hold := h i hpos hbeyond hi
  have hother : ∀ j < p.diskPaths.length, j ≠ i → p.disk i ≠ p.disk j := fun j hj hne heq =>
    hne (hp.disk_injOn (Set.mem_Iio.mpr hj) (Set.mem_Iio.mpr hi) heq.symm)
  cases hinline : shouldInlineObject call.data.length with
  | true =>
    rw [putFiles_inline prims hp hinline]
    unfold writeXlMeta
    dsimp only
    split
    · exact (if_neg fun heq => hother 0 hp.length_pos (by omega) heq.1).trans hold
    · exact hold
  | false =>
    rcases putFiles_ec prims hp hinline io s with ⟨hput, -⟩ | ⟨C, -, hput⟩
    · rw [hput]
      exact hold
    · rw [hput]
      have hchunks : (parallelWriteChunks s io.chunk (call.path prims.hashes) p.diskPaths C
          (node.defaultEcK + node.defaultEcM)).1.xlMeta (p.disk i)
            (call.path prims.hashes) = none :=
        (xlMeta_parallelWriteChunks s io.chunk p.diskPaths C _ _ _).trans hold
      unfold ecWrite putParallel
      dsimp only
      split
      · unfold parallelWriteMetadata
        split
        · exact hchunks
        · refine ((writeXlMeta_updates prims _ p.diskPaths io.xlMeta _).get_foldl_other
            (c := (p.disk i, call.path prims.hashes)) (fun j hj heq => ?_) _).trans hchunks
          rw [hp.charArray_disk (hj.trans_le hp.enough)] at heq
          exact hother j (hj.trans_le hp.enough) (by omega) (Prod.mk.inj heq).1
      · exact hchunks

theorem NoneBeyond.of_sameOutside {s s' : Disks prims.cjson.Text} {path path' : CString}
    (h : NoneBeyond prims node p path s) (hsame : SameOutside path' s s') (hne : path ≠ path') :
    NoneBeyond prims node p path s' :=
  fun i hpos hbeyond hi => (hsame _ _ hne).1.trans (h i hpos hbeyond hi)

theorem NoneBeyond.putSequence (hp : Placed prims.hashes node bucket object p)
    {puts : List (PutCall × PutIo × PutIo)} (hkey : ∀ put ∈ puts, put.1.key = (bucket, object))
    (hregistry : ∀ put ∈ puts, recordsLocation node put.1 = true →
      (registryCall prims node put.1).path prims.hashes ≠
        computeObjectPath prims.hashes bucket object)
    {s s' : Disks prims.cjson.Text}
    (h : NoneBeyond prims node p (computeObjectPath prims.hashes bucket object) s)
    (hok : Buckets.putSequence prims node puts s = some s') :
    NoneBeyond prims node p (computeObjectPath prims.hashes bucket object) s' := by
  refine @putSequence_invariant _ _ prims node bucket object [] s
    (fun s _ => NoneBeyond prims node p (computeObjectPath prims.hashes bucket object) s)
    ?_ ?_ puts hkey hregistry s' h hok
  · intro s _ call io hcall _ h
    obtain ⟨rfl, rfl⟩ := Prod.mk.inj hcall
    exact h.putFiles prims hp io
  · intro s s' _ path' h hsame hne
    exact h.of_sameOutside prims hsame hne

/-! ## 4. A get after a delete -/

/-- Nothing of a key can be read after the delete: the record of an inline put is gone, and of the
last erasure-coded put all records or more parts than its parity makes up for. -/
def DeleteIo.Erases (io : DeleteIo) (node : Node) (p : Placement) (last : PutCall)
    (earlier : List PutCall) : Prop :=
  (shouldInlineObject last.data.length = false ∨ io.removesMeta p 0 = true) ∧
    ((∀ call ∈ last :: earlier, shouldInlineObject call.data.length = true) ∨
      (∀ i < node.defaultEcK + node.defaultEcM, io.removesMeta p i = true) ∨
      node.defaultEcM < ((Finset.range (node.defaultEcK + node.defaultEcM)).filter fun i =>
        io.removesPart p i = true).card)

/-- The files of an object's path after a delete, by position. -/
structure DeletedFrom (p : Placement) (path : CString) (io : DeleteIo)
    (s s' : Disks prims.cjson.Text) : Prop where
  part : ∀ i < p.diskPaths.length, s'.part (p.disk i) path (i + 1) =
    if io.removesPart p i then none else s.part (p.disk i) path (i + 1)
  xlMeta : ∀ i < p.diskPaths.length, s'.xlMeta (p.disk i) path =
    if io.removesMeta p i then none else s.xlMeta (p.disk i) path

theorem deletedFrom (hp : Placed prims.hashes node bucket object p) (io ioRegistry : DeleteIo)
    (s : Disks prims.cjson.Text)
    (hregistry : bucket ≠ registryBucket → node.registryInitialized = true →
      computeObjectPath prims.hashes registryBucket (registryKey bucket object) ≠
        computeObjectPath prims.hashes bucket object) :
    DeletedFrom prims p (computeObjectPath prims.hashes bucket object) io s
      (distributedDeleteObject prims node io ioRegistry s bucket object).1 := by
  obtain ⟨-, hfiles⟩ := delete_placed prims hp io ioRegistry s hregistry
  refine ⟨fun i hi => ?_, fun i hi => ?_⟩
  · rw [(hfiles _).2]
    exact part_parallelDelete hp io s hi
  · rw [(hfiles _).1]
    exact xlMeta_parallelDelete hp io s hi

variable {path : CString} {io : DeleteIo} {s s' : Disks prims.cjson.Text}

theorem readXlMeta_eq_none {disk : CString} (h : s.xlMeta disk path = none) :
    readXlMeta prims s disk path = none := by
  rw [readXlMeta, h]
  rfl

/-- No record left on the disks of the set: nothing is read. -/
theorem readObject_no_record (hnone : ∀ i < p.diskPaths.length, s.xlMeta (p.disk i) path = none)
    (junk : Junk) : readObject prims s junk path (some p) p.diskPaths = none := by
  have hfirst : (p.diskPaths.findSome? fun disk => readXlMeta prims s disk path) = none := by
    refine List.findSome?_eq_none_iff.mpr fun disk hdisk => ?_
    obtain ⟨i, hi, rfl⟩ := List.getElem_of_mem hdisk
    have hrecord := hnone i hi
    rw [Placement.disk, List.getD_eq_getElem _ _ hi] at hrecord
    exact readXlMeta_eq_none prims hrecord
  rw [readObject, hfirst]

/-- The first disk keeps an inline record: its bytes are read. -/
theorem Traces.readObject_kept_inline (hp : Placed prims.hashes node bucket object p)
    (h : Traces prims node p path s (last :: earlier))
    (hdeleted : DeletedFrom prims p path io s s')
    (hinline : shouldInlineObject last.data.length = true) (hkept : io.removesMeta p 0 = false)
    (junk : Junk) : readObject prims s' junk path (some p) p.diskPaths = some last.data := by
  have hrecord := hdeleted.xlMeta 0 hp.length_pos
  rw [hkept, h.inline last rfl hinline] at hrecord
  exact readObject_inline prims (findSome?_diskPaths prims hp.nonempty
    (readXlMeta_of_print prims hrecord (inlineMeta_storable_of_inline hinline)))
    (show (inlineMeta last).inlineData = _ from rfl) junk

/-- Only inline puts, and the first disk's record gone: nothing is read. -/
theorem Traces.readObject_inline_erased
    (h : Traces prims node p path s (last :: earlier)) (hdeleted : DeletedFrom prims p path io s s')
    (hinline : ∀ call ∈ last :: earlier, shouldInlineObject call.data.length = true)
    (hremoved : io.removesMeta p 0 = true) (junk : Junk) :
    readObject prims s' junk path (some p) p.diskPaths = none := by
  refine readObject_no_record prims (fun i hi => ?_) junk
  rw [hdeleted.xlMeta i hi]
  rcases Nat.eq_zero_or_pos i with rfl | hpos
  · rw [hremoved]
    rfl
  · rw [h.noEc (List.find?_eq_none.mpr fun call hcall => by simp [hinline call hcall]) i hpos hi]
    exact ite_self _

/-- What a delete leaves of the records of an erasure-coded put: on each disk of the set that put's
record or none. -/
structure EcLeft (node : Node) (p : Placement) (path : CString) (io : DeleteIo) (call : PutCall)
    (C : ℕ → Bytes) (s' : Disks prims.cjson.Text) : Prop where
  kept : ∀ i < node.defaultEcK + node.defaultEcM, io.removesMeta p i = false →
    readXlMeta prims s' (p.disk i) path = some (ecRecord prims.hashes call node.defaultEcK
      node.defaultEcM (calculateChunkSize call.data.length node.defaultEcK) C i)
  gone : ∀ i < p.diskPaths.length, (i < node.defaultEcK + node.defaultEcM →
    io.removesMeta p i = true) → s'.xlMeta (p.disk i) path = none

/-- If no inline record stays in front of them, what is left are the records of the last
erasure-coded put. -/
theorem Traces.ecLeft (hp : Placed prims.hashes node bucket object p)
    (hbeyond : NoneBeyond prims node p path s)
    (hdeleted : DeletedFrom prims p path io s s')
    (hfind : ((last :: earlier).find? fun call => !shouldInlineObject call.data.length) = some call)
    (hfront : shouldInlineObject last.data.length = false ∨ io.removesMeta p 0 = true)
    {C : ℕ → Bytes} (hcode : EcCode prims.isal node.defaultEcK node.defaultEcM
      (calculateChunkSize call.data.length node.defaultEcK) call.data C)
    (hmeta : ∀ i < node.defaultEcK + node.defaultEcM, i ≠ 0 ∨ call ∈ (last :: earlier).head? →
      s.xlMeta (p.disk i) path = some (prims.cjson.print (xlMetaToJson
        (ecRecord prims.hashes call node.defaultEcK node.defaultEcM
          (calculateChunkSize call.data.length node.defaultEcK) C i)))) :
    EcLeft prims node p path io call C s' := by
  obtain ⟨hk1, hk, hm1, hm⟩ := hcode.bounds
  have henough := hp.enough
  refine ⟨fun i hi hstays => ?_, fun i hi hgone => ?_⟩
  · refine readXlMeta_of_print prims ?_ (ecRecord_storable hcode.size_lt hk hm hcode.int (by omega))
    rw [hdeleted.xlMeta i (by omega), hstays]
    refine hmeta i hi ?_
    rcases Nat.eq_zero_or_pos i with rfl | hpos
    · refine Or.inr ?_
      have hec : shouldInlineObject last.data.length = false :=
        hfront.resolve_right (by simp [hstays])
      rw [List.find?_cons_of_pos (by simp [hec])] at hfind
      exact hfind
    · exact Or.inl hpos.ne'
  · rw [hdeleted.xlMeta i hi]
    by_cases hlt : i < node.defaultEcK + node.defaultEcM
    · rw [hgone hlt]
      rfl
    · rw [hbeyond i (by omega) (by omega) hi]
      exact ite_self _

/-- Whichever record the get finds first, it is one of that put's. -/
theorem EcLeft.first {C : ℕ → Bytes} (h : EcLeft prims node p path io call C s')
    (henough : node.defaultEcK + node.defaultEcM ≤ p.diskPaths.length)
    (hsome : ¬ ∀ i < node.defaultEcK + node.defaultEcM, io.removesMeta p i = true) :
    ∃ xl, (p.diskPaths.findSome? fun disk => readXlMeta prims s' disk path) = some xl ∧
      EcRecord xl node.defaultEcK node.defaultEcM
        (calculateChunkSize call.data.length node.defaultEcK) call.data.length := by
  obtain ⟨j, hj, hstays⟩ : ∃ j < node.defaultEcK + node.defaultEcM,
      io.removesMeta p j = false := by simpa using hsome
  obtain ⟨xl, hxl⟩ : ∃ xl, (p.diskPaths.findSome? fun disk => readXlMeta prims s' disk path) =
      some xl := by
    refine Option.isSome_iff_exists.mp (List.findSome?_isSome_iff.mpr
      ⟨p.disk j, Placed.disk_mem (by omega), ?_⟩)
    rw [h.kept j hj hstays]
    rfl
  refine ⟨xl, hxl, ?_⟩
  obtain ⟨disk, hdisk, hread⟩ := List.exists_of_findSome?_eq_some hxl
  obtain ⟨i, hi, rfl⟩ := List.getElem_of_mem hdisk
  have hdi : p.disk i = p.diskPaths[i] := List.getD_eq_getElem _ _ hi
  rw [← hdi] at hread
  by_cases hgone : i < node.defaultEcK + node.defaultEcM → io.removesMeta p i = true
  · rw [readXlMeta_eq_none prims (h.gone i hi hgone)] at hread
    cases hread
  · obtain ⟨hlt, hstays⟩ : i < node.defaultEcK + node.defaultEcM ∧
        io.removesMeta p i = false := by simpa using hgone
    rw [h.kept i hlt hstays] at hread
    obtain rfl := Option.some.inj hread
    exact ecRecord_isEcRecord prims.hashes call _ _ _ C i

/-- With an erasure-coded put, and no inline record in front of it: the get succeeds exactly if one
of the records and enough parts are left. -/
theorem Traces.readObject_ec_left (hp : Placed prims.hashes node bucket object p)
    (h : Traces prims node p path s (last :: earlier)) (hbeyond : NoneBeyond prims node p path s)
    (hdeleted : DeletedFrom prims p path io s s')
    (hfind : ((last :: earlier).find? fun call => !shouldInlineObject call.data.length) = some call)
    (hfront : shouldInlineObject last.data.length = false ∨ io.removesMeta p 0 = true)
    (junk : Junk) :
    readObject prims s' junk path (some p) p.diskPaths = none ↔
      (∀ i < node.defaultEcK + node.defaultEcM, io.removesMeta p i = true) ∨
      node.defaultEcM < ((Finset.range (node.defaultEcK + node.defaultEcM)).filter fun i =>
        io.removesPart p i = true).card := by
  obtain ⟨C, hcode, hpart, hmeta⟩ := h.ec call hfind
  have henough := hp.enough
  have hleft : EcLeft prims node p path io call C s' :=
    Traces.ecLeft prims hp hbeyond hdeleted hfind hfront hcode hmeta
  by_cases hall : ∀ i < node.defaultEcK + node.defaultEcM, io.removesMeta p i = true
  · exact iff_of_true (readObject_no_record prims (fun i hi => hleft.gone i hi (hall i)) junk)
      (Or.inl hall)
  · obtain ⟨xl, hxl, hrecord⟩ := hleft.first prims henough hall
    have hparts : ∀ i < node.defaultEcK + node.defaultEcM, s'.part (p.disk i) path (i + 1) =
        surviving ((Finset.range (node.defaultEcK + node.defaultEcM)).filter fun i =>
          io.removesPart p i = true) C i := by
      intro i hi
      rw [hdeleted.part i (by omega), hpart i hi, surviving]
      simp [hi]
    rw [readObject_removed_of_first prims hp _ hxl hrecord hcode henough (Finset.filter_subset _ _)
      hparts junk]
    constructor
    · intro hfails
      refine Or.inr ?_
      by_contra hle
      rw [if_pos (by omega)] at hfails
      cases hfails
    · intro hor
      have hmany := hor.resolve_left hall
      exact if_neg (by omega)

/-- What a get finds after a delete, for every pattern of failures. -/
theorem Traces.readObject_deleted (hp : Placed prims.hashes node bucket object p)
    (h : Traces prims node p path s (last :: earlier))
    (hbeyond : NoneBeyond prims node p path s) (hdeleted : DeletedFrom prims p path io s s')
    (junk : Junk) :
    readObject prims s' junk path (some p) p.diskPaths = none ↔
      io.Erases node p last earlier := by
  by_cases hfront : shouldInlineObject last.data.length = false ∨ io.removesMeta p 0 = true
  · by_cases hinline : ∀ call ∈ last :: earlier, shouldInlineObject call.data.length = true
    · have hlast := hinline last (List.mem_cons_self ..)
      have hremoved := hfront.resolve_left (by simp [hlast])
      exact iff_of_true (h.readObject_inline_erased prims hdeleted hinline hremoved junk)
        ⟨hfront, Or.inl hinline⟩
    · obtain ⟨call, hfind⟩ : ∃ call, ((last :: earlier).find? fun call =>
          !shouldInlineObject call.data.length) = some call := by
        push Not at hinline
        obtain ⟨call, hcall, hec⟩ := hinline
        exact Option.isSome_iff_exists.mp (List.find?_isSome.mpr ⟨call, hcall, by simpa using hec⟩)
      rw [h.readObject_ec_left prims hp hbeyond hdeleted hfind hfront junk]
      exact ⟨fun hor => ⟨hfront, Or.inr hor⟩, fun hor => hor.2.resolve_left hinline⟩
  · obtain ⟨hlast, hkept⟩ : shouldInlineObject last.data.length = true ∧
        io.removesMeta p 0 = false := by simpa using hfront
    refine iff_of_false ?_ fun herases => hfront herases.1
    rw [h.readObject_kept_inline prims hp hdeleted hlast hkept junk]
    exact Option.some_ne_none _

/-- **Gets after a delete.**  After any sequence of successful puts of a key and one delete with any
failures, every get fails EXACTLY IF the record of an inline put is gone and of the last
erasure-coded put all `k + m` records, or more than `m` parts, are.  The delete is reported as
successful as soon as one of its workers runs. -/
theorem getObject_deleted_iff (hp : Placed prims.hashes node bucket object p)
    (earlier : List (PutCall × PutIo × PutIo)) (last : PutCall × PutIo × PutIo)
    (hkey : ∀ put ∈ earlier ++ [last], put.1.key = (bucket, object))
    (hregistry : ∀ put ∈ earlier ++ [last], recordsLocation node put.1 = true →
      (registryCall prims node put.1).path prims.hashes ≠
        computeObjectPath prims.hashes bucket object)
    (s s' : Disks prims.cjson.Text)
    (hfresh : ∀ d ∈ p.diskPaths, s.xlMeta d (computeObjectPath prims.hashes bucket object) = none)
    (hok : putSequence prims node (earlier ++ [last]) s = some s') (io ioRegistry : DeleteIo) :
    ((distributedDeleteObject prims node io ioRegistry s' bucket object).2 = true ↔
      p.diskPaths.length ≤ 32 ∧ ∃ i < p.diskPaths.length, io.started i = true) ∧
    ((∀ junk location, getObject prims node
        (distributedDeleteObject prims node io ioRegistry s' bucket object).1 junk location bucket
        object = none) ↔
      io.Erases node p last.1 (earlier.map Prod.fst).reverse) := by
  have hlast : last ∈ earlier ++ [last] := List.mem_append_right _ (List.mem_singleton_self _)
  obtain ⟨hbucket, hobject⟩ := Prod.mk.inj (hkey last hlast)
  have helsewhere : bucket ≠ registryBucket → node.registryInitialized = true →
      computeObjectPath prims.hashes registryBucket (registryKey bucket object) ≠
        computeObjectPath prims.hashes bucket object := by
    intro hne hinit
    have hrecords : recordsLocation node last.1 = true := by
      simp [recordsLocation, hinit, hbucket, hne]
    have hpath := hregistry last hlast hrecords
    simp only [PutCall.path, registryCall, hbucket, hobject] at hpath
    exact hpath
  constructor
  · rw [(delete_placed prims hp io ioRegistry s' helsewhere).1]
    have hpos := hp.length_pos
    unfold parallelDeleteChunks
    split
    case isTrue hlen => exact iff_of_false (by simp) fun h => by omega
    case isFalse hlen =>
      simp only [List.any_eq_true, List.mem_range]
      exact ⟨fun h => ⟨by omega, h⟩, And.right⟩
  · have htraces := (Traces.start prims node _ s hfresh).putSequence prims hp hkey hregistry hok
    simp only [List.map_append, List.map_cons, List.map_nil, List.reverse_append, List.reverse_cons,
      List.reverse_nil, List.nil_append, List.cons_append, List.append_nil] at htraces
    have hstart : NoneBeyond prims node p (computeObjectPath prims.hashes bucket object) s :=
      fun i _ _ hi => hfresh _ (Placed.disk_mem hi)
    have hbeyond := hstart.putSequence prims hp hkey hregistry hok
    have hdeleted := deletedFrom prims hp io ioRegistry s' helsewhere
    simp only [getObject_placed prims hp, htraces.readObject_deleted prims hp hbeyond hdeleted]
    exact ⟨fun h => h ⟨fun _ _ => 0, fun _ => 0⟩ none, fun h _ _ => h⟩

end Model

/-- The first disk's `unlink` calls fail; every other step succeeds. -/
def firstDiskFails : DeleteIo := ⟨fun _ => true, fun i => i != 0, fun i => i != 0⟩

/-- The placement of a key on the three disks. -/
theorem threeDisks_placed_length {k m : ℕ} (hle : k + m ≤ 3) (hashes : Hashes)
    (bucket object : CString) :
    ∃ p, Placed hashes (threeDiskNode true k m) bucket object p ∧ p.diskPaths.length = 3 := by
  obtain ⟨vnode, set, p, -, -, hp, -, hpaths⟩ := threeDiskNode_keySet hle hashes bucket object
  refine ⟨p, hp, ?_⟩
  rw [hpaths]
  rfl

/-- A small object deleted without faults is gone. -/
theorem getObject_deleted_small :
    ∃ s', putSequence Prims.reference (threeDiskNode true 1 1)
        [(smallPut, .noFault, .noFault)] .empty = some s' ∧
      ∀ junk location, getObject Prims.reference (threeDiskNode true 1 1)
        (distributedDeleteObject Prims.reference (threeDiskNode true 1 1) .noFault .noFault s'
          (cstr "b") (cstr "o")).1 junk location (cstr "b") (cstr "o") = none := by
  obtain ⟨p, hp, hlength⟩ := threeDisks_placed_length (k := 1) (m := 1) (by decide) Hashes.zero
    (cstr "b") (cstr "o")
  refine ⟨_, rfl, ?_⟩
  refine (getObject_deleted_iff Prims.reference hp [] (smallPut, .noFault, .noFault)
    (fun put hput => ?_) (fun put hput hrecords => ?_) .empty _ (fun _ _ => rfl) rfl .noFault
    .noFault).2.mpr ⟨Or.inr ?_, Or.inl ?_⟩
  · rw [List.mem_singleton.mp hput]
    rfl
  · rw [List.mem_singleton.mp hput] at hrecords
    cases hrecords
  · simp [DeleteIo.removesMeta, DeleteIo.noFault, hlength]
  · intro call hcall
    rw [List.mem_singleton.mp hcall]
    rfl

/-- **A deleted object is read.**  A small put on three disks, and a delete in which only the first
disk's `unlink` calls fail: the delete succeeds, and a get returns the put's byte. -/
theorem getObject_deleted_not_gone :
    ∃ s', putSequence Prims.reference (threeDiskNode true 1 1)
        [(smallPut, .noFault, .noFault)] .empty = some s' ∧
      (distributedDeleteObject Prims.reference (threeDiskNode true 1 1) firstDiskFails .noFault s'
        (cstr "b") (cstr "o")).2 = true ∧
      ∀ junk location, getObject Prims.reference (threeDiskNode true 1 1)
        (distributedDeleteObject Prims.reference (threeDiskNode true 1 1) firstDiskFails .noFault s'
          (cstr "b") (cstr "o")).1 junk location (cstr "b") (cstr "o") = some [97] := by
  obtain ⟨p, hp, hlength⟩ := threeDisks_placed_length (k := 1) (m := 1) (by decide) Hashes.zero
    (cstr "b") (cstr "o")
  have hnoRegistry : cstr "b" ≠ registryBucket →
    (threeDiskNode true 1 1).registryInitialized = true →
      computeObjectPath Prims.reference.hashes registryBucket (registryKey (cstr "b") (cstr "o")) ≠
        computeObjectPath Prims.reference.hashes (cstr "b") (cstr "o") := by
    intro _ hinit
    cases hinit
  have hput : putSequence Prims.reference (threeDiskNode true 1 1)
      [(smallPut, .noFault, .noFault)] .empty = some _ := rfl
  refine ⟨_, hput, ?_, fun junk location => ?_⟩
  · rw [(delete_placed Prims.reference hp firstDiskFails .noFault _ hnoRegistry).1,
      parallelDeleteChunks, hlength]
    rfl
  · have htraces := (Traces.start Prims.reference (threeDiskNode true 1 1) (p := p)
      (computeObjectPath Hashes.zero (cstr "b") (cstr "o")) .empty
      (fun _ _ => rfl)).putSequence Prims.reference hp (fun put hput => ?_)
      (fun put hput hrecords => ?_) hput
    · rw [getObject_placed Prims.reference hp]
      refine Traces.readObject_kept_inline Prims.reference hp htraces
        (deletedFrom Prims.reference hp firstDiskFails .noFault _ hnoRegistry) rfl ?_ junk
      simp [DeleteIo.removesMeta, firstDiskFails]
    · rw [List.mem_singleton.mp hput]
      rfl
    · rw [List.mem_singleton.mp hput] at hrecords
      cases hrecords

end Buckets
