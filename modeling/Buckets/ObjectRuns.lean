/-
# Runs of puts: what a get returns afterwards

A RUN is a sequence of puts, each followed by the registry's own put of the object's location, and
of removals of part files.  No write fails.  The run keeps two things the program does not: the
bytes of the last successful put of every key, and the part files removed of an object since.

The invariant is one statement per key (`Stored`): its object path holds an inline record, or an
erasure-coded one with every part that was not removed.  A put establishes it for its key
(`stored_of_putFiles`), a removal keeps it, and a put of a key with another object path does not
touch it.

What the get then returns depends on the disks alone.

* `getObject_run` -- with every disk online: the bytes of the last put, with up to `m` parts gone;
* `getObject_after_unplaced_put` -- with one disk of a larger set offline, enough of them left for
  `k + m` chunks: the put goes to the data directory and the get looks elsewhere;
* `getObject_unreadable_disk_iff` -- with one disk unreadable, a get can return an EARLIER put's
  bytes exactly when the last put was inline and an earlier one was not.
-/
import Buckets.Object

namespace Buckets

/-! ## 1. A put without faults -/

section NoFault

variable {F : Type} [Field F] (prims : Prims F) {node : Node} {bucket object : CString}
  {p : Placement}

/-- All the files of an erasure-coded object: its parts and, with the index of its disk, its
record. -/
structure EcFiles (node : Node) (p : Placement) (s : Disks prims.cjson.Text) (call : PutCall)
    (C : ℕ → Bytes) : Prop where
  code : EcCode prims.isal node.defaultEcK node.defaultEcM
    (calculateChunkSize call.data.length node.defaultEcK) call.data C
  part : ∀ i < node.defaultEcK + node.defaultEcM,
    s.part (p.disk i) (call.path prims.hashes) (i + 1) = some (C i)
  xlMeta : ∀ i < node.defaultEcK + node.defaultEcM,
    s.xlMeta (p.disk i) (call.path prims.hashes) = some (prims.cjson.print (xlMetaToJson
      (ecRecord prims.hashes call node.defaultEcK node.defaultEcM
        (calculateChunkSize call.data.length node.defaultEcK) C i)))

variable {call : PutCall}

/-- **A put that succeeds**, whatever its writes could have done: an inline put that writes the
first disk's `xl.meta`, or an erasure-coded put that writes all its files. -/
theorem putFiles_ok_cases
    (hp : Placed prims.hashes node call.bucket call.object p) {io : PutIo}
    {s : Disks prims.cjson.Text} (hok : (putFiles prims node io s call).2 = true) :
    (shouldInlineObject call.data.length = true ∧ (putFiles prims node io s call).1 =
      s.setXlMeta (p.disk 0) (call.path prims.hashes)
        (some (prims.cjson.print (xlMetaToJson (inlineMeta call))))) ∨
    (shouldInlineObject call.data.length = false ∧
      ∃ C, EcFiles prims node p (putFiles prims node io s call).1 call C) := by
  cases hinline : shouldInlineObject call.data.length with
  | true =>
    refine Or.inl ⟨rfl, ?_⟩
    rw [putFiles_inline prims hp hinline] at hok ⊢
    exact if_pos (AtomicWrite.installs_of_isOk hok)
  | false =>
    refine Or.inr ⟨rfl, ?_⟩
    rcases putFiles_ec prims hp hinline io s with ⟨hfail, -⟩ | ⟨C, hcode, hput⟩
    · rw [hfail] at hok
      cases hok
    · obtain ⟨-, hk, -, hm⟩ := hcode.bounds
      have h32 : node.defaultEcK + node.defaultEcM ≤ 32 := by omega
      rw [hput] at hok ⊢
      have hchunks : ∀ i < node.defaultEcK + node.defaultEcM, (io.chunk i).isOk = true := by
        intro i hi
        by_contra hfailed
        obtain ⟨hfalse, -⟩ := ecWrite_of_chunk_failed prims hp h32 io hi
            (by simpa using hfailed) s C
        exact absurd (hok.symm.trans hfalse) (by decide)
      obtain ⟨hmetas, hfiles⟩ := ecWrite_of_chunks_ok prims hp h32 io hchunks s C
      refine ⟨C, hcode, fun i hi => (hfiles i hi).1, fun i hi => ?_⟩
      have hinstall := List.all_eq_true.mp (hmetas.symm.trans hok) i (List.mem_range.mpr hi)
      exact (hfiles i hi).2.trans (if_pos (AtomicWrite.installs_of_isOk hinstall))

/-- **A put without faults succeeds** if the configuration is valid and the object not too
large, and otherwise has not written anything. -/
theorem putFiles_noFault
    (hp : Placed prims.hashes node call.bucket call.object p) (s : Disks prims.cjson.Text) :
    (putFiles prims node .noFault s call).2 = true ∨
    (putFiles prims node .noFault s call = (s, false) ∧
      ¬ (ecValidateConfig node.defaultEcK node.defaultEcM = true ∧
        ecCalcChunkSize call.data.length node.defaultEcK ≤ maxChunkSize)) := by
  cases hinline : shouldInlineObject call.data.length with
  | true =>
    rw [putFiles_inline prims hp hinline]
    exact Or.inl rfl
  | false =>
    rcases putFiles_ec prims hp hinline PutIo.noFault s with hfail | ⟨C, hcode, hput⟩
    · exact Or.inr hfail
    · obtain ⟨-, hk, -, hm⟩ := hcode.bounds
      obtain ⟨hmetas, -⟩ := ecWrite_of_chunks_ok prims hp (by omega) PutIo.noFault
        (fun i _ => rfl) s C
      refine Or.inl ?_
      rw [hput]
      refine hmetas.trans ?_
      simp [PutIo.noFault, AtomicWrite.isOk]

theorem inlineMeta_storable_of_inline
    (hinline : shouldInlineObject call.data.length = true) : (inlineMeta call).Storable := by
  refine inlineMeta_storable ?_
  have hsize : call.data.length < inlineThreshold := of_decide_eq_true hinline
  unfold inlineThreshold at hsize
  omega

/-- The record on each disk is read back. -/
theorem EcFiles.readXlMeta {s : Disks prims.cjson.Text} {C : ℕ → Bytes}
    (h : EcFiles prims node p s call C) {i : ℕ} (hi : i < node.defaultEcK + node.defaultEcM) :
    Buckets.readXlMeta prims s (p.disk i) (call.path prims.hashes) =
      some (ecRecord prims.hashes call node.defaultEcK node.defaultEcM
        (calculateChunkSize call.data.length node.defaultEcK) C i) := by
  obtain ⟨-, hk, -, hm⟩ := h.code.bounds
  exact readXlMeta_of_print prims (h.xlMeta i hi)
    (ecRecord_storable h.code.size_lt hk hm h.code.int (by omega))

end NoFault

/-! ## 2. What is stored of a key -/

/-- Removal of the file `part.index` of an object on one disk. -/
def Disks.removePart {Text : Type} (s : Disks Text) (disk path : CString) (index : ℕ) :
    Disks Text := s.setPart disk path index none

section StoredObjects

variable {F : Type} [Field F] (prims : Prims F) (node : Node) {p : Placement} {path : CString}

/-- What the disks hold of an object whose last put stored `data`, the part files in `removed`
having been removed since: the record and, if it is not inline, the other parts. -/
inductive Stored (p : Placement) (path : CString) (s : Disks prims.cjson.Text)
    (removed : Finset (CString × ℕ)) (data : Bytes) : Prop
  | inline (xl : XlMeta) (hread : readXlMeta prims s (p.disk 0) path = some xl)
      (hinline : xl.inlineData = some (base64Encode data))
  | ec (xl : XlMeta) (len : ℕ) (C : ℕ → Bytes)
      (hread : readXlMeta prims s (p.disk 0) path = some xl)
      (hxl : EcRecord xl node.defaultEcK node.defaultEcM len data.length)
      (hcode : EcCode prims.isal node.defaultEcK node.defaultEcM len data C)
      (hparts : ∀ i < node.defaultEcK + node.defaultEcM, s.part (p.disk i) path (i + 1) =
        if (p.disk i, i + 1) ∈ removed then none else some (C i))

variable {node}

variable {removed : Finset (CString × ℕ)} {s : Disks prims.cjson.Text} {data : Bytes}

/-- At least `k` parts are found if at most `m` were removed. -/
theorem le_length_present_of_removed {k m : ℕ} {C : ℕ → Bytes}
    (hcard : removed.card ≤ m)
    (hparts : ∀ i < k + m, s.part (p.disk i) path (i + 1) =
      if (p.disk i, i + 1) ∈ removed then none else some (C i)) :
    k ≤ (present (k + m) (foundChunks s p path (k + m))).length := by
  have htotal := length_present_add_length_absent (k + m) (foundChunks s p path (k + m))
  have habsent : (absent (k + m) (foundChunks s p path (k + m))).length ≤ removed.card := by
    have hnodup : (absent (k + m) (foundChunks s p path (k + m))).Nodup :=
      List.nodup_range.filter _
    rw [← List.toFinset_card_of_nodup hnodup]
    refine Finset.card_le_card_of_injOn (fun i => (p.disk i, i + 1)) (fun i hi => ?_) ?_
    · obtain ⟨hlt, hnone⟩ := mem_absent.mp (List.mem_toFinset.mp hi)
      rw [foundChunks, if_pos hlt, hparts i hlt] at hnone
      by_contra hmem
      rw [if_neg (by simpa using hmem)] at hnone
      cases hnone
    · intro i _ j _ heq
      have := congrArg Prod.snd heq
      simpa using this
  omega

/-- **A stored object is read back**, with up to `m` of its parts removed. -/
theorem readObject_of_stored {bucket object : CString}
    (hp : Placed prims.hashes node bucket object p) (h : Stored prims node p path s removed data)
    (hcard : removed.card ≤ node.defaultEcM) (junk : Junk) :
    readObject prims s junk path (some p) p.diskPaths = some data := by
  cases h with
  | inline xl hread hinline =>
    exact readObject_inline prims (findSome?_diskPaths prims hp.nonempty hread) hinline junk
  | ec xl len C hread hxl hcode hparts =>
    refine readObject_ec prims hp (findSome?_diskPaths prims hp.nonempty hread) hxl hcode
      hp.enough (fun i hi c hc => ?_) (le_length_present_of_removed prims hcard hparts) junk
    rw [hparts i hi] at hc
    split at hc
    · cases hc
    · exact (Option.some.inj hc).symm

/-- What is stored of an object depends on the files of its path only. -/
theorem Stored.congr {s' : Disks prims.cjson.Text}
    (h : Stored prims node p path s removed data)
    (hmeta : s'.xlMeta (p.disk 0) path = s.xlMeta (p.disk 0) path)
    (hpart : ∀ i, s'.part (p.disk i) path (i + 1) = s.part (p.disk i) path (i + 1)) :
    Stored prims node p path s' removed data := by
  have hcongr := readXlMeta_congr prims hmeta
  cases h with
  | inline xl hread hinline => exact .inline xl (hcongr.trans hread) hinline
  | ec xl len C hread hxl hcode hparts =>
    exact .ec xl len C (hcongr.trans hread) hxl hcode fun i hi => (hpart i).trans (hparts i hi)

theorem Stored.of_sameOutside {s' : Disks prims.cjson.Text}
    {path' : CString} (h : Stored prims node p path s removed data)
    (hsame : SameOutside path' s s') (hne : path ≠ path') :
    Stored prims node p path s' removed data :=
  h.congr prims (hsame _ path hne).1 fun i => (hsame _ path hne).2 (i + 1)

/-- A removal takes one part away. -/
theorem Stored.removePart
    (h : Stored prims node p path s removed data) (disk : CString) (index : ℕ) :
    Stored prims node p path (s.removePart disk path index) (insert (disk, index) removed)
      data := by
  cases h with
  | inline xl hread hinline => exact .inline xl hread hinline
  | ec xl len C hread hxl hcode hparts =>
    refine .ec xl len C hread hxl hcode fun i hi => ?_
    rw [Disks.removePart, Disks.part_setPart, hparts i hi]
    by_cases hcell : p.disk i = disk ∧ i + 1 = index
    · rw [if_pos ⟨hcell.1, rfl, hcell.2⟩, if_pos (by simp [hcell.1, hcell.2])]
    · rw [if_neg fun h => hcell ⟨h.1, h.2.2⟩]
      simp only [Finset.mem_insert, Prod.mk.injEq, hcell, false_or]

/-- **A successful put stores its data.** -/
theorem stored_of_putFiles {call : PutCall}
    (hp : Placed prims.hashes node call.bucket call.object p) {io : PutIo}
    (hok : (putFiles prims node io s call).2 = true) :
    Stored prims node p (call.path prims.hashes) (putFiles prims node io s call).1 ∅ call.data := by
  rcases putFiles_ok_cases prims hp hok with ⟨hinline, hput⟩ | ⟨-, C, hfiles⟩
  · rw [hput]
    refine .inline (inlineMeta call) ?_ rfl
    exact readXlMeta_of_print prims (if_pos ⟨rfl, rfl⟩) (inlineMeta_storable_of_inline hinline)
  · obtain ⟨hk1, -, -, -⟩ := hfiles.code.bounds
    refine .ec _ _ C (hfiles.readXlMeta prims (i := 0) (by omega))
      (ecRecord_isEcRecord _ _ _ _ _ _ _) hfiles.code fun i hi => ?_
    rw [hfiles.part i hi]
    rfl

end StoredObjects

/-! ## 3. Runs -/

/-- The key of a call. -/
def PutCall.key (call : PutCall) : CString × CString := (call.bucket, call.object)

/-- What happens to the disks: a put, or the removal of a part file. -/
inductive Event where
  | put (call : PutCall)
  | removePart (disk path : CString) (index : ℕ)

/-- The files, and two records of the past: the data of the last successful put of each key, and
the part files removed of each object path since its last successful put. -/
structure Run (Text : Type) where
  disks : Disks Text
  last : CString × CString → Option Bytes
  removed : CString → Finset (CString × ℕ)

namespace Run

variable {Text : Type}

def start (s : Disks Text) : Run Text := ⟨s, fun _ => none, fun _ => ∅⟩

/-- The records after a successful put. -/
def completed (r : Run Text) (hashes : Hashes) (call : PutCall) : Run Text :=
  { r with
    last := Function.update r.last call.key (some call.data)
    removed := Function.update r.removed (call.path hashes) ∅ }

end Run

section Runs

variable {F : Type} [Field F] (prims : Prims F) (node : Node)

/-- One event.  A put is the program's, its registry record included. -/
def Run.step (r : Run prims.cjson.Text) : Event → Run prims.cjson.Text
  | .put call =>
    let written := putObject prims node .noFault .noFault r.disks call
    let r := if written.2.1 then r.completed prims.hashes call else r
    let r := if written.2.2 then r.completed prims.hashes (registryCall prims node call) else r
    { r with disks := written.1 }
  | .removePart disk path index =>
    { r with
      disks := r.disks.removePart disk path index
      removed := Function.update r.removed path (insert (disk, index) (r.removed path)) }

def Run.run (events : List Event) (s : Disks prims.cjson.Text) : Run prims.cjson.Text :=
  events.foldl (Run.step prims node) (Run.start s)

/-- The puts of an event: the caller's and the registry's. -/
def Event.calls : Event → List PutCall
  | .put call => if recordsLocation node call then [call, registryCall prims node call] else [call]
  | .removePart _ _ _ => []

/-- The keys put in a run, the registry's included. -/
def putKeys (events : List Event) : Set (CString × CString) :=
  { key | ∃ event ∈ events, ∃ call ∈ event.calls prims node, call.key = key }

/-- The object path of a key. -/
def keyPath (hashes : Hashes) (key : CString × CString) : CString :=
  computeObjectPath hashes key.1 key.2

/-- **The invariant**: every key with a last put is one of `keys`, and stored. -/
def Run.Holds (keys : Set (CString × CString)) (r : Run prims.cjson.Text) : Prop :=
  ∀ key data, r.last key = some data → key ∈ keys ∧
    ∀ p, Placed prims.hashes node key.1 key.2 p →
      Stored prims node p (keyPath prims.hashes key) r.disks
        (r.removed (keyPath prims.hashes key)) data

variable {node} {keys : Set (CString × CString)}

theorem Run.holds_start (s : Disks prims.cjson.Text) :
    (Run.start s).Holds prims node keys := by
  intro key data hlast
  cases hlast

/-- One of the two writes of a put. -/
theorem Run.holds_putFiles (hpaths : Set.InjOn (keyPath prims.hashes) keys)
    {r : Run prims.cjson.Text} (h : r.Holds prims node keys) {call : PutCall}
    (hkey : call.key ∈ keys) (hplaced : ∃ p, Placed prims.hashes node call.bucket call.object p) :
    let written := putFiles prims node .noFault r.disks call
    Run.Holds prims node keys
      { (if written.2 then r.completed prims.hashes call else r) with disks := written.1 } := by
  obtain ⟨p, hp⟩ := hplaced
  intro written
  cases hok : written.2 with
  | false =>
    have hsame : written.1 = r.disks := by
      rcases putFiles_noFault prims hp r.disks with htrue | ⟨hput, -⟩
      · exact absurd (htrue.symm.trans hok) (by decide)
      · exact congrArg Prod.fst hput
    simp only [Bool.false_eq_true, if_false, hsame]
    exact h
  | true =>
    simp only [if_true]
    intro key data hlast
    by_cases heq : key = call.key
    · -- the key itself: whatever was stored before, the put has replaced it
      subst heq
      simp only [Run.completed, Function.update_self, Option.some.injEq] at hlast
      subst hlast
      refine ⟨hkey, fun p' hp' => ?_⟩
      have hstored := stored_of_putFiles prims hp' hok
      simp only [Run.completed]
      rw [show keyPath prims.hashes call.key = call.path prims.hashes from rfl,
        Function.update_self]
      exact hstored
    · simp only [Run.completed, Function.update_of_ne heq] at hlast
      obtain ⟨hmem, hstored⟩ := h key data hlast
      have hne : keyPath prims.hashes key ≠ call.path prims.hashes :=
        fun hpath => heq (hpaths hmem hkey hpath)
      refine ⟨hmem, fun p' hp' => ?_⟩
      simp only [Run.completed, Function.update_of_ne hne]
      exact (hstored p' hp').of_sameOutside prims (putFiles_sameOutside prims node _ _ call) hne

/-- **Step.**  Every event keeps the invariant. -/
theorem Run.holds_step (hpaths : Set.InjOn (keyPath prims.hashes) keys)
    (hplaced : ∀ bucket object, ∃ p, Placed prims.hashes node bucket object p)
    {r : Run prims.cjson.Text} (h : r.Holds prims node keys) {event : Event}
    (hkeys : ∀ call ∈ event.calls prims node, call.key ∈ keys) :
    (r.step prims node event).Holds prims node keys := by
  cases event with
  | put call =>
    have hkey : call.key ∈ keys := hkeys call (by rw [Event.calls]; split <;> simp)
    have hfirst := Run.holds_putFiles prims hpaths h hkey (hplaced _ _)
    dsimp only at hfirst
    simp only [Run.step, putObject]
    cases hrecord : (putFiles prims node .noFault r.disks call).2 && recordsLocation node call with
    | false =>
      simp only [Bool.false_eq_true, if_false]
      exact hfirst
    | true =>
      obtain ⟨hok, hrecords⟩ := (Bool.and_eq_true _ _).mp hrecord
      have hkey' : (registryCall prims node call).key ∈ keys :=
        hkeys _ (by rw [Event.calls, if_pos hrecords]; simp)
      rw [hok] at hfirst
      have hsecond := Run.holds_putFiles prims hpaths hfirst hkey' (hplaced _ _)
      simp only [if_true, hok] at hsecond ⊢
      split at hsecond
      · rename_i hok'
        rw [if_pos hok']
        exact hsecond
      · rename_i hok'
        rw [if_neg hok']
        exact hsecond
  | removePart disk path index =>
    intro key data hlast
    obtain ⟨hmem, hstored⟩ := h key data hlast
    refine ⟨hmem, fun p hp => ?_⟩
    simp only [Run.step]
    by_cases hpath : keyPath prims.hashes key = path
    · subst hpath
      rw [Function.update_self]
      exact (hstored p hp).removePart prims disk index
    · rw [Function.update_of_ne hpath]
      refine (hstored p hp).congr prims rfl fun i => ?_
      exact if_neg fun hcell => hpath hcell.2.1

/-- **Run.** -/
theorem Run.holds_run (hplaced : ∀ bucket object, ∃ p, Placed prims.hashes node bucket object p)
    {events : List Event} (hpaths : Set.InjOn (keyPath prims.hashes) (putKeys prims node events))
    (s : Disks prims.cjson.Text) :
    (Run.run prims node events s).Holds prims node (putKeys prims node events) := by
  refine List.foldlRecOn events (Run.step prims node) (Run.holds_start prims s) ?_
  intro r hr event hevent
  exact Run.holds_step prims hpaths hplaced hr fun call hcall => ⟨event, hevent, call, hcall, rfl⟩

/-- **A get after any run of puts and removals.**  No disk offline: whatever the registry answers
and whatever the uninitialised bytes are, a key's get returns the bytes of its last successful
put, as long as at most `m` of the object's parts were removed since. -/
theorem getObject_run (hlocal : node.LocalMode)
    (hcount : node.OnlineAtLeast (node.defaultEcK + node.defaultEcM)) (honline : node.AllOnline)
    (events : List Event) (hpaths : Set.InjOn (keyPath prims.hashes) (putKeys prims node events))
    (s : Disks prims.cjson.Text) (bucket object : CString) (data : Bytes)
    (hlast : (Run.run prims node events s).last (bucket, object) = some data)
    (hremoved : ((Run.run prims node events s).removed
      (computeObjectPath prims.hashes bucket object)).card ≤ node.defaultEcM)
    (junk : Junk) (location : Option ℕ) :
    getObject prims node (Run.run prims node events s).disks junk location bucket object =
      some data := by
  have hplaced := placed_of_allOnline hlocal honline hcount prims.hashes
  obtain ⟨p, hp⟩ := hplaced bucket object
  obtain ⟨-, hstored⟩ := Run.holds_run prims hplaced hpaths s (bucket, object) data hlast
  rw [getObject_placed prims hp]
  exact readObject_of_stored prims hp (hstored p hp) hremoved junk

/-- **The put of a key without placement.**  An inline object goes to the data directory, and a
get looks on the disks of set 0: it is not found. -/
theorem getObject_after_unplaced_put {call : PutCall}
    (hnone : placementCompute prims.hashes node call.bucket call.object = none)
    (hinline : shouldInlineObject call.data.length = true)
    (hdisks : getSetDisks node.multidisk 0 64 ≠ [])
    (hother : node.fallbackDisk ∉ getSetDisks node.multidisk 0 64) {s : Disks prims.cjson.Text}
    (hfresh : ∀ d ∈ getSetDisks node.multidisk 0 64, s.xlMeta d (call.path prims.hashes) = none)
    (junk : Junk) (location : Option ℕ) :
    (putFiles prims node .noFault s call).2 = true ∧
    getObject prims node (putFiles prims node .noFault s call).1 junk location call.bucket
      call.object = none := by
  have hput : putFiles prims node .noFault s call =
      (s.setXlMeta node.fallbackDisk (call.path prims.hashes)
        (some (prims.cjson.print (xlMetaToJson (inlineMeta call)))), true) := by
    unfold putFiles
    rw [hnone, if_pos hinline]
    rfl
  rw [hput, getObject_unplaced prims hnone hdisks]
  refine ⟨rfl, ?_⟩
  have hunread : (getSetDisks node.multidisk 0 64).findSome? (fun disk => readXlMeta prims
      (s.setXlMeta node.fallbackDisk (call.path prims.hashes)
        (some (prims.cjson.print (xlMetaToJson (inlineMeta call))))) disk
      (computeObjectPath prims.hashes call.bucket call.object)) = none := by
    refine List.findSome?_eq_none_iff.mpr fun d hd => ?_
    have hne : d ≠ node.fallbackDisk := fun heq => hother (heq ▸ hd)
    have hfile : (s.setXlMeta node.fallbackDisk (call.path prims.hashes)
        (some (prims.cjson.print (xlMetaToJson (inlineMeta call))))).xlMeta d
        (computeObjectPath prims.hashes call.bucket call.object) = none :=
      (if_neg fun h => hne h.1).trans (hfresh d hd)
    rw [readXlMeta, hfile]
    rfl
  rw [readObject, hunread]

end Runs

/-! ## 4. A small node -/

/-- The libraries, as their reference instances. -/
noncomputable def Prims.reference : Prims GF256 := ⟨IsaL.reference, CJson.reference, Hashes.zero⟩

/-- The put of the byte `a` under the key `b/o`. -/
def smallPut : PutCall where
  bucket := cstr "b"
  object := cstr "o"
  data := [97]
  contentType := none
  modTime := cstr "2026-01-01T00:00:00Z"
  now := 0

/-- Empty disks. -/
def Disks.empty {Text : Type} : Disks Text := ⟨fun _ _ => none, fun _ _ _ => none⟩

/-- Three disks, of which the third may be offline. -/
def threeDisks (online : Bool) : List MultiDisk :=
  [⟨some (cstr "/d0"), true⟩, ⟨some (cstr "/d1"), true⟩, ⟨some (cstr "/d2"), online⟩]

def threeDiskNode (online : Bool) (k m : ℕ) : Node := singleSetNode (threeDisks online) k m

theorem threeDisks_localMode (online : Bool) (k m : ℕ) :
    (threeDiskNode online k m).LocalMode := by
  refine singleSetNode_localMode (List.cons_ne_nil _ _) (by cases online <;> decide) ?_ k m
  cases online <;> decide

theorem threeDisks_onlineAtLeast (online : Bool) (k m : ℕ) :
    (threeDiskNode online k m).OnlineAtLeast (if online then 3 else 2) :=
  singleSetNode_onlineAtLeast (by cases online <;> decide) k m _ (by cases online <;> decide)

theorem threeDisks_allOnline (k m : ℕ) : (threeDiskNode true k m).AllOnline := by
  refine singleSetNode_allOnline k m fun disk hdisk => ?_
  fin_cases hdisk <;> exact ⟨_, rfl, by decide, by decide⟩

/-- With the three disks online every key has a placement on them. -/
theorem threeDisks_placed {k m : ℕ} (hle : k + m ≤ 3) (hashes : Hashes) (bucket object : CString) :
    ∃ p, Placed hashes (threeDiskNode true k m) bucket object p :=
  placed_of_allOnline (threeDisks_localMode true k m) (threeDisks_allOnline k m)
    (fun vnode hvnode => hle.trans (threeDisks_onlineAtLeast true k m vnode hvnode)) hashes bucket
    object

/-- Distinct keys have distinct paths if there is only one key. -/
theorem keyPath_injOn_smallPut (online : Bool) (k m : ℕ) :
    Set.InjOn (keyPath Prims.reference.hashes)
      (putKeys Prims.reference (threeDiskNode online k m) [.put smallPut]) := by
  have hkey : ∀ key ∈ putKeys Prims.reference (threeDiskNode online k m) [.put smallPut],
      key = smallPut.key := by
    rintro key ⟨event, hevent, call, hcall, rfl⟩
    obtain rfl := List.mem_singleton.mp hevent
    obtain rfl : call = smallPut := List.mem_singleton.mp hcall
    rfl
  intro key hmem key' hmem' _
  rw [hkey key hmem, hkey key' hmem']

/-- The run of one small put on three disks. -/
noncomputable def smallRun (online : Bool) : Run Json :=
  Run.run Prims.reference (threeDiskNode online 1 1) [.put smallPut] .empty

theorem smallRun_removed (online : Bool) (path : CString) : (smallRun online).removed path = ∅ := by
  have hcompleted : (smallRun online).removed =
      Function.update (fun _ => ∅) (smallPut.path Prims.reference.hashes) ∅ := rfl
  rw [hcompleted, Function.update_apply, ite_self]

theorem getObject_run_three_disks :
    (threeDiskNode true 1 1).AllOnline ∧
    (smallRun true).last (cstr "b", cstr "o") = some [97] ∧
    ∀ junk location, getObject Prims.reference (threeDiskNode true 1 1)
      (smallRun true).disks junk location (cstr "b") (cstr "o") = some [97] := by
  refine ⟨threeDisks_allOnline 1 1, rfl, fun junk location => ?_⟩
  have hcount : (threeDiskNode true 1 1).OnlineAtLeast 2 := fun vnode hvnode =>
    (threeDisks_onlineAtLeast true 1 1 vnode hvnode).trans' (by decide)
  exact getObject_run Prims.reference (threeDisks_localMode true 1 1) hcount
    (threeDisks_allOnline 1 1) [.put smallPut] (keyPath_injOn_smallPut _ 1 1) .empty (cstr "b")
    (cstr "o") [97] rfl (by rw [← smallRun, smallRun_removed]; exact Nat.zero_le 1) junk location

/-- **Enough disks online, and not found.**  A set of three disks with room for `1 + 1` chunks, one
disk offline: the put of a key that never failed is not found by the get. -/
theorem getObject_run_not_found :
    (threeDiskNode false 1 1).LocalMode ∧
    (threeDiskNode false 1 1).OnlineAtLeast 2 ∧
    Set.InjOn (keyPath Prims.reference.hashes)
      (putKeys Prims.reference (threeDiskNode false 1 1) [.put smallPut]) ∧
    (smallRun false).last (cstr "b", cstr "o") = some [97] ∧
    (smallRun false).removed (computeObjectPath Prims.reference.hashes (cstr "b") (cstr "o")) = ∅ ∧
    ∀ junk location, getObject Prims.reference (threeDiskNode false 1 1)
      (smallRun false).disks junk location (cstr "b") (cstr "o") = none := by
  refine ⟨threeDisks_localMode false 1 1, threeDisks_onlineAtLeast false 1 1,
    keyPath_injOn_smallPut _ 1 1, rfl, smallRun_removed false _, fun junk location => ?_⟩
  have hnone := singleSetNode_placementCompute_eq_none (threeDisks_localMode false 1 1) (by decide)
    Prims.reference.hashes (cstr "b") (cstr "o")
  exact (getObject_after_unplaced_put Prims.reference (show placementCompute _ _ smallPut.bucket
    smallPut.object = none from hnone) rfl (by decide)
    (by decide) (s := .empty) (fun _ _ => rfl) junk location).2

/-! ## 5. One unreadable disk -/

/-- The files of one disk cannot be read. -/
def Disks.unreadable {Text : Type} (s : Disks Text) (disk : CString) : Disks Text where
  xlMeta := fun d o => if d = disk then none else s.xlMeta d o
  part := fun d o i => if d = disk then none else s.part d o i

section Unreadable

variable {F : Type} [Field F] (prims : Prims F) (node : Node)

/-- Puts one after the other, each with the outcomes of its writes and of its registry record's:
`none` if one of them fails. -/
def putSequence : List (PutCall × PutIo × PutIo) → Disks prims.cjson.Text →
    Option (Disks prims.cjson.Text)
  | [], s => some s
  | (call, io, ioRegistry) :: rest, s =>
    let written := putObject prims node io ioRegistry s call
    if written.2.1 then putSequence rest written.1 else none

/-- What the puts of one key, newest first, have left at its object path: the first disk has the
last put's record, and the others the last erasure-coded put's, whose parts are all there. -/
structure Traces (p : Placement) (path : CString) (s : Disks prims.cjson.Text)
    (calls : List PutCall) : Prop where
  inline : ∀ call ∈ calls.head?, shouldInlineObject call.data.length = true →
    s.xlMeta (p.disk 0) path = some (prims.cjson.print (xlMetaToJson (inlineMeta call)))
  ec : ∀ call ∈ calls.find? fun call => !shouldInlineObject call.data.length,
    ∃ C, EcCode prims.isal node.defaultEcK node.defaultEcM
        (calculateChunkSize call.data.length node.defaultEcK) call.data C ∧
      (∀ i < node.defaultEcK + node.defaultEcM, s.part (p.disk i) path (i + 1) = some (C i)) ∧
      ∀ i < node.defaultEcK + node.defaultEcM, i ≠ 0 ∨ call ∈ calls.head? →
        s.xlMeta (p.disk i) path = some (prims.cjson.print (xlMetaToJson
          (ecRecord prims.hashes call node.defaultEcK node.defaultEcM
            (calculateChunkSize call.data.length node.defaultEcK) C i)))
  noEc : (calls.find? fun call => !shouldInlineObject call.data.length) = none →
    ∀ i, 0 < i → i < p.diskPaths.length → s.xlMeta (p.disk i) path = none

variable {node} {p : Placement} {path bucket object : CString}

theorem Traces.start (node : Node) (path : CString) (s : Disks prims.cjson.Text)
    (hfresh : ∀ d ∈ p.diskPaths, s.xlMeta d path = none) : Traces prims node p path s [] where
  inline := fun call hcall => by cases hcall
  ec := fun call hcall => by cases hcall
  noEc := fun _ i _ hi => hfresh _ (Placed.disk_mem hi)

variable {calls : List PutCall} {s : Disks prims.cjson.Text} {call : PutCall}

theorem Traces.of_sameOutside {s' : Disks prims.cjson.Text}
    {path' : CString} (h : Traces prims node p path s calls) (hsame : SameOutside path' s s')
    (hne : path ≠ path') : Traces prims node p path s' calls where
  inline := fun call hcall hinline => (hsame _ _ hne).1.trans (h.inline call hcall hinline)
  ec := by
    intro call hcall
    obtain ⟨C, hcode, hpart, hmeta⟩ := h.ec call hcall
    exact ⟨C, hcode, fun i hi => ((hsame _ _ hne).2 _).trans (hpart i hi),
      fun i hi hor => (hsame _ _ hne).1.trans (hmeta i hi hor)⟩
  noEc := fun hnone i hpos hi => (hsame _ _ hne).1.trans (h.noEc hnone i hpos hi)

/-- **Step.**  A successful put of the key, whatever its size. -/
theorem Traces.putFiles (hp : Placed prims.hashes node call.bucket call.object p)
    {io : PutIo}
    (h : Traces prims node p (call.path prims.hashes) s calls)
    (hok : (Buckets.putFiles prims node io s call).2 = true) :
    Traces prims node p (call.path prims.hashes) (Buckets.putFiles prims node io s call).1
      (call :: calls) := by
  rcases putFiles_ok_cases prims hp hok with ⟨hinline, hput⟩ | ⟨hec, C, hfiles⟩
  · -- only the first disk's record is replaced
    have hfind : (call :: calls).find? (fun call => !shouldInlineObject call.data.length) =
        calls.find? fun call => !shouldInlineObject call.data.length :=
      List.find?_cons_of_neg (by simp [hinline])
    have hother : ∀ i, 0 < i → i < p.diskPaths.length →
        (s.setXlMeta (p.disk 0) (call.path prims.hashes) (some (prims.cjson.print
          (xlMetaToJson (inlineMeta call))))).xlMeta (p.disk i) (call.path prims.hashes) =
        s.xlMeta (p.disk i) (call.path prims.hashes) := by
      intro i hpos hi
      refine if_neg fun heq => ?_
      have := hp.disk_injOn (Set.mem_Iio.mpr hi) (Set.mem_Iio.mpr hp.length_pos) heq.1
      omega
    rw [hput]
    refine ⟨?_, ?_, ?_⟩
    · rintro call' hcall' -
      obtain rfl := Option.some.inj hcall'
      exact if_pos ⟨rfl, rfl⟩
    · intro call' hcall'
      rw [hfind] at hcall'
      obtain ⟨C, hcode, hpart, hmeta⟩ := h.ec call' hcall'
      refine ⟨C, hcode, hpart, fun i hi hor => ?_⟩
      have hi0 : i ≠ 0 := by
        rcases hor with hne | hhead
        · exact hne
        · obtain rfl := Option.some.inj hhead
          have := List.find?_some hcall'
          simp [hinline] at this
      rw [hother i (by omega) (hi.trans_le hp.enough)]
      exact hmeta i hi (Or.inl hi0)
    · intro hnone i hpos hi
      rw [hfind] at hnone
      rw [hother i hpos hi]
      exact h.noEc hnone i hpos hi
  · have hfind : (call :: calls).find? (fun call => !shouldInlineObject call.data.length) =
        some call := List.find?_cons_of_pos (by simp [hec])
    refine ⟨?_, ?_, ?_⟩
    · intro call' hcall' hinline
      obtain rfl := Option.some.inj hcall'
      exact absurd (hec.symm.trans hinline) (by decide)
    · intro call' hcall'
      rw [hfind] at hcall'
      obtain rfl := Option.some.inj hcall'
      exact ⟨C, hfiles.code, hfiles.part, fun i hi _ => hfiles.xlMeta i hi⟩
    · intro hnone
      rw [hfind] at hnone
      cases hnone

/-- **Run.**  What each put of a key keeps at its object path, and what only looks at that path,
holds after the puts: the registry's records go to other object paths. -/
theorem putSequence_invariant {Inv : Disks prims.cjson.Text → List PutCall → Prop}
    (hput : ∀ s calls call io, call.key = (bucket, object) →
      (putFiles prims node io s call).2 = true → Inv s calls →
        Inv (putFiles prims node io s call).1 (call :: calls))
    (hframe : ∀ s s' calls path', Inv s calls → SameOutside path' s s' →
      computeObjectPath prims.hashes bucket object ≠ path' → Inv s' calls)
    {puts : List (PutCall × PutIo × PutIo)} (hkey : ∀ put ∈ puts, put.1.key = (bucket, object))
    (hregistry : ∀ put ∈ puts, recordsLocation node put.1 = true →
      (registryCall prims node put.1).path prims.hashes ≠
        computeObjectPath prims.hashes bucket object)
    {s' : Disks prims.cjson.Text} (h : Inv s calls)
    (hok : putSequence prims node puts s = some s') :
    Inv s' ((puts.map Prod.fst).reverse ++ calls) := by
  induction puts generalizing s calls with
  | nil =>
    obtain rfl := Option.some.inj hok
    exact h
  | cons put rest ih =>
    obtain ⟨call, io, ioRegistry⟩ := put
    simp only [putSequence] at hok
    split at hok
    · rename_i hsucceeded
      have hstep : Inv (putObject prims node io ioRegistry s call).1 (call :: calls) := by
        obtain ⟨hfiles, heq | ⟨hrecords, heq⟩⟩ := putObject_ok_cases prims hsucceeded
        · rw [heq]
          exact hput s calls call io (hkey _ (List.mem_cons_self ..)) hfiles h
        · rw [heq]
          exact hframe _ _ _ _ (hput s calls call io (hkey _ (List.mem_cons_self ..)) hfiles h)
            (putFiles_sameOutside prims node _ _ (registryCall prims node call))
            (hregistry _ (List.mem_cons_self ..) hrecords).symm
      have hrest := ih (fun put hput => hkey put (List.mem_cons_of_mem _ hput))
        (fun put hput => hregistry put (List.mem_cons_of_mem _ hput)) hstep hok
      simpa using hrest
    · cases hok

theorem Traces.putSequence (hp : Placed prims.hashes node bucket object p)
    {puts : List (PutCall × PutIo × PutIo)} (hkey : ∀ put ∈ puts, put.1.key = (bucket, object))
    (hregistry : ∀ put ∈ puts, recordsLocation node put.1 = true →
      (registryCall prims node put.1).path prims.hashes ≠
        computeObjectPath prims.hashes bucket object)
    {s' : Disks prims.cjson.Text}
    (h : Traces prims node p (computeObjectPath prims.hashes bucket object) s calls)
    (hok : Buckets.putSequence prims node puts s = some s') :
    Traces prims node p (computeObjectPath prims.hashes bucket object) s'
      ((puts.map Prod.fst).reverse ++ calls) := by
  refine putSequence_invariant prims ?_ ?_ hkey hregistry h hok
  · intro s calls call io hcall hfiles h
    obtain ⟨rfl, rfl⟩ := Prod.mk.inj hcall
    exact h.putFiles prims hp hfiles
  · intro s s' calls path' h hsame hne
    exact h.of_sameOutside prims hsame hne

theorem readXlMeta_unreadable_self (s : Disks prims.cjson.Text) (d path : CString) :
    readXlMeta prims (s.unreadable d) d path = none := by
  have hfile : (s.unreadable d).xlMeta d path = none := if_pos rfl
  rw [readXlMeta, hfile]
  rfl

theorem readXlMeta_unreadable_of_ne (s : Disks prims.cjson.Text) {d disk : CString}
    (hne : disk ≠ d) (path : CString) :
    readXlMeta prims (s.unreadable d) disk path = readXlMeta prims s disk path :=
  readXlMeta_congr prims (if_neg hne)

/-- The second disk's record decides if the first disk's is not readable. -/
theorem findSome?_diskPaths_second (h2 : 2 ≤ p.diskPaths.length)
    {xl : XlMeta} (h0 : readXlMeta prims s (p.disk 0) path = none)
    (h1 : readXlMeta prims s (p.disk 1) path = some xl) :
    (p.diskPaths.findSome? fun disk => readXlMeta prims s disk path) = some xl := by
  unfold Placement.disk at h0 h1
  rcases hpaths : p.diskPaths with - | ⟨a, - | ⟨b, rest⟩⟩
  · simp [hpaths] at h2
  · simp [hpaths] at h2
  · simp only [hpaths, List.getD_cons_zero, List.getD_cons_succ] at h0 h1
    rw [List.findSome?_cons, h0, List.findSome?_cons, h1]

/-- The last erasure-coded put is read whenever one of its records is. -/
theorem readObject_unreadable_ec (hp : Placed prims.hashes node bucket object p)
    {k m len : ℕ} {data : Bytes} {C : ℕ → Bytes} {xl : XlMeta}
    {d : CString} (hd : d ∈ p.diskPaths) (hcode : EcCode prims.isal k m len data C)
    (hlen : k + m ≤ p.diskPaths.length)
    (hpart : ∀ i < k + m, s.part (p.disk i) path (i + 1) = some (C i))
    (hfirst : (p.diskPaths.findSome? fun disk => readXlMeta prims (s.unreadable d) disk path) =
      some xl) (hxl : EcRecord xl k m len data.length) (junk : Junk) :
    readObject prims (s.unreadable d) junk path (some p) p.diskPaths = some data := by
  obtain ⟨-, -, hm1, -⟩ := hcode.bounds
  obtain ⟨j, hj, hdj⟩ := List.getElem_of_mem hd
  have hdisk : p.disk j = d := by rw [Placement.disk, List.getD_eq_getElem _ _ hj, hdj]
  have hparts : ∀ i < k + m, (s.unreadable d).part (p.disk i) path (i + 1) =
      if (p.disk i, i + 1) ∈ ({(d, j + 1)} : Finset (CString × ℕ)) then none else some (C i) := by
    intro i hi
    have hiff : p.disk i = d ↔ (p.disk i, i + 1) ∈ ({(d, j + 1)} : Finset (CString × ℕ)) := by
      rw [Finset.mem_singleton, Prod.mk.injEq]
      refine ⟨fun heq => ⟨heq, ?_⟩, And.left⟩
      rw [hp.disk_injOn (Set.mem_Iio.mpr (hi.trans_le hlen)) (Set.mem_Iio.mpr hj)
        (heq.trans hdisk.symm)]
    show (if p.disk i = d then none else s.part (p.disk i) path (i + 1)) = _
    simp only [hpart i hi, hiff]
  refine readObject_ec prims hp hfirst hxl hcode hlen (fun i hi c hc => ?_)
    (le_length_present_of_removed prims (by simpa using hm1) hparts) junk
  rw [hparts i hi] at hc
  split at hc
  · cases hc
  · exact (Option.some.inj hc).symm

/-- With an erasure-coded put among the puts, the loss of the first disk brings the last such put
back. -/
theorem Traces.readObject_first_lost (hp : Placed prims.hashes node bucket object p)
    (h : Traces prims node p path s calls)
    (hfind : (calls.find? fun call => !shouldInlineObject call.data.length) = some call)
    (junk : Junk) :
    readObject prims (s.unreadable (p.disk 0)) junk path (some p) p.diskPaths = some call.data := by
  obtain ⟨C, hcode, hpart, hmeta⟩ := h.ec call hfind
  obtain ⟨hk1, hk, hm1, hm⟩ := hcode.bounds
  have henough := hp.enough
  have h01 : p.disk 1 ≠ p.disk 0 := by
    intro heq
    have := hp.disk_injOn (Set.mem_Iio.mpr (by omega)) (Set.mem_Iio.mpr (by omega)) heq
    omega
  refine readObject_unreadable_ec prims hp (Placed.disk_mem hp.length_pos) hcode henough hpart
    (findSome?_diskPaths_second prims (by omega) (readXlMeta_unreadable_self prims s _ path) ?_)
    (ecRecord_isEcRecord prims.hashes call _ _ _ C 1) junk
  rw [readXlMeta_unreadable_of_ne prims s h01]
  exact readXlMeta_of_print prims (hmeta 1 (by omega) (Or.inl one_ne_zero))
    (ecRecord_storable hcode.size_lt hk hm hcode.int (by omega))

/-- With an erasure-coded put last, every single unreadable disk is survived. -/
theorem Traces.readObject_ec_last (hp : Placed prims.hashes node bucket object p)
    (h : Traces prims node p path s (call :: calls))
    (hec : shouldInlineObject call.data.length = false) {d : CString} (hd : d ∈ p.diskPaths)
    (junk : Junk) :
    readObject prims (s.unreadable d) junk path (some p) p.diskPaths = some call.data := by
  have hfind : ((call :: calls).find? fun call => !shouldInlineObject call.data.length) =
      some call := List.find?_cons_of_pos (by simp [hec])
  by_cases hfirst : p.disk 0 = d
  · subst hfirst
    exact h.readObject_first_lost prims hp hfind junk
  · obtain ⟨C, hcode, hpart, hmeta⟩ := h.ec call hfind
    obtain ⟨hk1, hk, -, hm⟩ := hcode.bounds
    refine readObject_unreadable_ec prims hp hd hcode hp.enough hpart
      (findSome?_diskPaths prims hp.nonempty ?_)
      (ecRecord_isEcRecord prims.hashes call _ _ _ C 0) junk
    rw [readXlMeta_unreadable_of_ne prims s hfirst]
    exact readXlMeta_of_print prims (hmeta 0 (by omega) (Or.inr rfl))
      (ecRecord_storable hcode.size_lt hk hm hcode.int (by omega))

/-- With inline puts only, the first disk's loss is an error and the others' are not noticed. -/
theorem Traces.readObject_inline_only (hp : Placed prims.hashes node bucket object p)
    (h : Traces prims node p path s (call :: calls))
    (hinline : ∀ call' ∈ call :: calls, shouldInlineObject call'.data.length = true) (d : CString)
    (junk : Junk) :
    readObject prims (s.unreadable d) junk path (some p) p.diskPaths = some call.data ∨
    readObject prims (s.unreadable d) junk path (some p) p.diskPaths = none := by
  have hcall := hinline call (List.mem_cons_self ..)
  by_cases hfirst : p.disk 0 = d
  · refine Or.inr ?_
    have hunread : (p.diskPaths.findSome? fun disk =>
        readXlMeta prims (s.unreadable d) disk path) = none := by
      refine List.findSome?_eq_none_iff.mpr fun disk hdisk => ?_
      obtain ⟨i, hi, hdi⟩ := List.getElem_of_mem hdisk
      by_cases heq : disk = d
      · rw [heq]
        exact readXlMeta_unreadable_self prims s d path
      · have hidx : p.disk i = disk := by rw [Placement.disk, List.getD_eq_getElem _ _ hi, hdi]
        have hpos : 0 < i := by
          rcases Nat.eq_zero_or_pos i with rfl | hpos
          · exact absurd (hidx.symm.trans hfirst) heq
          · exact hpos
        have hnone := h.noEc (List.find?_eq_none.mpr fun c hc => by simp [hinline c hc]) i hpos hi
        rw [readXlMeta_unreadable_of_ne prims s heq, readXlMeta, ← hidx, hnone]
        rfl
    rw [readObject, hunread]
  · refine Or.inl (readObject_inline prims (findSome?_diskPaths prims hp.nonempty ?_)
      (show (inlineMeta call).inlineData = _ from rfl) junk)
    rw [readXlMeta_unreadable_of_ne prims s hfirst]
    exact readXlMeta_of_print prims (h.inline call rfl hcall) (inlineMeta_storable_of_inline hcall)

/-- **One unreadable disk.**  After any sequence of successful puts of a key, a get with any one
disk of its set unreadable returns the last put's bytes or an error, EXACTLY IF the last put was
erasure-coded or every put was inline. -/
theorem getObject_unreadable_disk_iff (hp : Placed prims.hashes node bucket object p)
    (earlier : List (PutCall × PutIo × PutIo)) (last : PutCall × PutIo × PutIo)
    (hkey : ∀ put ∈ earlier ++ [last], put.1.key = (bucket, object))
    (hregistry : ∀ put ∈ earlier ++ [last], recordsLocation node put.1 = true →
      (registryCall prims node put.1).path prims.hashes ≠
        computeObjectPath prims.hashes bucket object)
    (s s' : Disks prims.cjson.Text)
    (hfresh : ∀ d ∈ p.diskPaths, s.xlMeta d (computeObjectPath prims.hashes bucket object) = none)
    (hok : putSequence prims node (earlier ++ [last]) s = some s') :
    (∀ d ∈ p.diskPaths, ∀ junk location,
      getObject prims node (s'.unreadable d) junk location bucket object = some last.1.data ∨
      getObject prims node (s'.unreadable d) junk location bucket object = none) ↔
    shouldInlineObject last.1.data.length = false ∨
      ∀ put ∈ earlier, shouldInlineObject put.1.data.length = true := by
  have htraces := (Traces.start prims node _ s hfresh).putSequence prims hp hkey hregistry hok
  simp only [List.map_append, List.map_cons, List.map_nil, List.reverse_append, List.reverse_cons,
    List.reverse_nil, List.nil_append, List.cons_append, List.append_nil] at htraces
  simp only [getObject_placed prims hp]
  constructor
  · intro hall
    by_contra hnot
    push Not at hnot
    obtain ⟨hlast, put, hput, hec⟩ := hnot
    have hlast : shouldInlineObject last.1.data.length = true := by simpa using hlast
    obtain ⟨call, hcall⟩ : ∃ call, ((last.1 :: (earlier.map Prod.fst).reverse).find? fun call =>
        !shouldInlineObject call.data.length) = some call := by
      refine Option.isSome_iff_exists.mp (List.find?_isSome.mpr ⟨put.1, ?_, by simpa using hec⟩)
      exact List.mem_cons_of_mem _ (List.mem_reverse.mpr (List.mem_map_of_mem hput))
    have hdata : call.data ≠ last.1.data := by
      intro heq
      have := List.find?_some hcall
      simp [heq, hlast] at this
    have hstale := htraces.readObject_first_lost prims hp hcall ⟨fun _ _ => 0, fun _ => 0⟩
    rcases hall (p.disk 0) (Placed.disk_mem hp.length_pos) ⟨fun _ _ => 0, fun _ => 0⟩ none with
      hget | hget
    · exact hdata (Option.some.inj (hstale.symm.trans hget))
    · rw [hstale] at hget
      cases hget
  · intro hcases d hd junk _
    rcases hlast : shouldInlineObject last.1.data.length with _ | _
    · exact Or.inl (htraces.readObject_ec_last prims hp hlast hd junk)
    · have hearlier := hcases.resolve_left (by simp [hlast])
      refine htraces.readObject_inline_only prims hp (fun call hcall => ?_) d junk
      rcases List.mem_cons.mp hcall with rfl | hmem
      · exact hlast
      · obtain ⟨put, hput, rfl⟩ := List.mem_map.mp (List.mem_reverse.mp hmem)
        exact hearlier put hput

end Unreadable

/-- The smallest object that is not inline, of one byte repeated.  (Nothing should try to write it
out.) -/
@[irreducible] def largeData (byte : UInt8) : Bytes := List.replicate (512 * 1024) byte

theorem largeData_eq (byte : UInt8) : largeData byte = List.replicate (512 * 1024) byte := by
  unfold largeData
  rfl

theorem length_largeData (byte : UInt8) : (largeData byte).length = 512 * 1024 := by
  rw [largeData_eq, List.length_replicate]

/-- Its put under the key of `smallPut`. -/
def largePut (byte : UInt8) : PutCall where
  bucket := cstr "b"
  object := cstr "o"
  data := largeData byte
  contentType := none
  modTime := cstr "2026-01-01T00:00:00Z"
  now := 0

theorem largePut_not_inline (byte : UInt8) :
    shouldInlineObject (largePut byte).data.length = false := by
  rw [show (largePut byte).data = largeData byte from rfl, length_largeData]
  decide

/-- Without faults, puts of objects of up to 512 MiB succeed on the three disks. -/
theorem threeDisks_putObject_ok {k m : ℕ} (call : PutCall) (hconfig : ecValidateConfig k m = true)
    (hle : k + m ≤ 3) (hfits : ecCalcChunkSize call.data.length k ≤ maxChunkSize)
    (s : Disks Prims.reference.cjson.Text) :
    (putObject Prims.reference (threeDiskNode true k m) .noFault
      .noFault s call).2.1 = true := by
  obtain ⟨p, hp⟩ := threeDisks_placed hle Hashes.zero call.bucket call.object
  rw [putObject_succeeds]
  rcases putFiles_noFault Prims.reference hp s with hok | ⟨-, hnot⟩
  · exact hok
  · exact absurd ⟨hconfig, hfits⟩ hnot

theorem largePut_fits (byte : UInt8) {k : ℕ} (hk : 0 < k) :
    ecCalcChunkSize (largePut byte).data.length k ≤ maxChunkSize := by
  rw [show (largePut byte).data = largeData byte from rfl, length_largeData, ecCalcChunkSize,
    if_neg hk.ne', maxChunkSize]
  have hle : (512 * 1024 + k - 1) / k ≤ 512 * 1024 := by
    obtain ⟨j, rfl⟩ := Nat.exists_eq_succ_of_ne_zero hk.ne'
    exact Nat.div_le_of_le_mul (by omega)
  dsimp only
  omega

/-- The two puts one after the other, without faults, on three disks. -/
theorem putSequence_large_small : ∃ s', putSequence Prims.reference
    (threeDiskNode true 1 1)
    [(largePut 0, .noFault, .noFault), (smallPut, .noFault, .noFault)] .empty = some s' := by
  have hlarge := threeDisks_putObject_ok (k := 1) (m := 1) (largePut 0) rfl (by decide)
    (largePut_fits 0 Nat.one_pos)
  have hsmall := threeDisks_putObject_ok (k := 1) (m := 1) smallPut rfl (by decide)
    (by decide)
  exact ⟨_, by rw [putSequence, if_pos (hlarge _), putSequence, if_pos (hsmall _), putSequence]⟩

/-- The small put alone: every unreadable disk gives its byte or an error. -/
theorem getObject_unreadable_disk_small :
    ∃ p s', Placed Hashes.zero (threeDiskNode true 1 1) (cstr "b") (cstr "o") p ∧
      putSequence Prims.reference (threeDiskNode true 1 1)
        [(smallPut, .noFault, .noFault)] .empty = some s' ∧
      ∀ d ∈ p.diskPaths, ∀ junk location,
        getObject Prims.reference (threeDiskNode true 1 1) (s'.unreadable d) junk
          location (cstr "b") (cstr "o") = some [97] ∨
        getObject Prims.reference (threeDiskNode true 1 1) (s'.unreadable d) junk
          location (cstr "b") (cstr "o") = none := by
  obtain ⟨p, hp⟩ := threeDisks_placed (k := 1) (m := 1) (by decide) Hashes.zero (cstr "b")
      (cstr "o")
  refine ⟨p, _, hp, rfl, ?_⟩
  refine (getObject_unreadable_disk_iff Prims.reference hp [] (smallPut, .noFault, .noFault)
    (fun put hput => ?_) (fun put hput hrecords => ?_) .empty _ (fun _ _ => rfl) rfl).mpr
    (Or.inr fun put hput => absurd hput List.not_mem_nil)
  · rw [List.mem_singleton.mp hput]
    rfl
  · rw [List.mem_singleton.mp hput] at hrecords
    cases hrecords

/-- **An earlier put comes back.**  A large put, a small put of the same key, and the first disk
unreadable: the get returns the large put's bytes. -/
theorem getObject_unreadable_disk_stale :
    ∃ p s', Placed Hashes.zero (threeDiskNode true 1 1) (cstr "b") (cstr "o") p ∧
      putSequence Prims.reference (threeDiskNode true 1 1)
        [(largePut 0, .noFault, .noFault), (smallPut, .noFault, .noFault)] .empty = some s' ∧
      p.disk 0 ∈ p.diskPaths ∧ (largePut 0).data ≠ smallPut.data ∧
      ∀ junk location, getObject Prims.reference (threeDiskNode true 1 1)
        (s'.unreadable (p.disk 0)) junk location (cstr "b") (cstr "o") =
          some (largePut 0).data := by
  obtain ⟨p, hp⟩ := threeDisks_placed (k := 1) (m := 1) (by decide) Hashes.zero (cstr "b")
      (cstr "o")
  obtain ⟨s', hs'⟩ := putSequence_large_small
  have hne : (largePut 0).data ≠ smallPut.data := by
    intro heq
    have hlarge := largePut_not_inline 0
    rw [heq] at hlarge
    cases hlarge
  refine ⟨p, s', hp, hs', Placed.disk_mem hp.length_pos, hne, fun junk location => ?_⟩
  have htraces := (Traces.start Prims.reference (threeDiskNode true 1 1)
    (p := p) (computeObjectPath Hashes.zero (cstr "b") (cstr "o")) .empty
    (fun _ _ => rfl)).putSequence Prims.reference hp (fun put hput => ?_)
    (fun put hput hrecords => ?_) hs'
  · rw [getObject_placed Prims.reference hp]
    refine htraces.readObject_first_lost Prims.reference hp ?_ junk
    exact (List.find?_cons_of_neg (by decide)).trans
      (List.find?_cons_of_pos (by rw [largePut_not_inline 0]; rfl))
  · fin_cases hput <;> rfl
  · fin_cases hput <;> cases hrecords

end Buckets
