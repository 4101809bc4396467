/-
# Faults after a put

Two kinds of fault, and for each what a get returns:

* disks marked OFFLINE after an erasure-coded put (`getObject_offline_iff`): one is enough to take
  the placement away, and the get then reads set 0 and looks for all chunks on one disk;
* part files ALTERED (`getObject_altered_iff`): the checksums of the record are not looked at, so
  the bytes of the data parts are returned as they are.

`readObject_removed_of_first` is for parts that are GONE: how many of them decides alone.
-/
import Buckets.ObjectRuns

namespace Buckets

/-! ## 1. The files of a completed put -/

section Completed

variable {F : Type} [Field F] (prims : Prims F) {node : Node} {p : Placement}

variable {call : PutCall} {s : Disks prims.cjson.Text}

theorem EcFiles.of_sameOutside {s' : Disks prims.cjson.Text} {C : ℕ → Bytes}
    {path' : CString} (h : EcFiles prims node p s call C) (hsame : SameOutside path' s s')
    (hne : call.path prims.hashes ≠ path') : EcFiles prims node p s' call C where
  code := h.code
  part := fun i hi => ((hsame _ _ hne).2 _).trans (h.part i hi)
  xlMeta := fun i hi => (hsame _ _ hne).1.trans (h.xlMeta i hi)

/-- A successful put of a large object leaves all its files; the registry's record has another
object path. -/
theorem ecFiles_of_putObject
    (hp : Placed prims.hashes node call.bucket call.object p) {io ioRegistry : PutIo}
    (hok : (putObject prims node io ioRegistry s call).2.1 = true)
    (hec : shouldInlineObject call.data.length = false)
    (hregistry : recordsLocation node call = true →
      (registryCall prims node call).path prims.hashes ≠ call.path prims.hashes) :
    ∃ C, EcFiles prims node p (putObject prims node io ioRegistry s call).1 call C := by
  obtain ⟨hfiles, hstate⟩ := putObject_ok_cases prims hok
  obtain ⟨C, hC⟩ : ∃ C, EcFiles prims node p (putFiles prims node io s call).1 call C := by
    rcases putFiles_ok_cases prims hp hfiles with ⟨hinline, -⟩ | ⟨-, hC⟩
    · exact absurd (hec.symm.trans hinline) (by decide)
    · exact hC
  rcases hstate with hstate | ⟨hrecords, hstate⟩
  · exact ⟨C, hstate ▸ hC⟩
  · rw [hstate]
    exact ⟨C, hC.of_sameOutside prims
      (putFiles_sameOutside prims node _ _ (registryCall prims node call))
      (hregistry hrecords).symm⟩

/-- Any record of a completed put, read first, decides. -/
theorem EcFiles.findSome? {C : ℕ → Bytes}
    (h : EcFiles prims node p s call C) {i : ℕ} (hi : i < node.defaultEcK + node.defaultEcM)
    (rest : List CString) :
    ((p.disk i :: rest).findSome? fun disk =>
      Buckets.readXlMeta prims s disk (call.path prims.hashes)) =
      some (ecRecord prims.hashes call node.defaultEcK node.defaultEcM
        (calculateChunkSize call.data.length node.defaultEcK) C i) := by
  rw [List.findSome?_cons, h.readXlMeta prims hi]

theorem EcFiles.stored {C : ℕ → Bytes}
    (h : EcFiles prims node p s call C) :
    Stored prims node p (call.path prims.hashes) s ∅ call.data := by
  obtain ⟨hk1, -, -, -⟩ := h.code.bounds
  refine .ec _ _ C (h.readXlMeta prims (i := 0) (by omega))
    (ecRecord_isEcRecord _ _ _ _ _ _ _) h.code fun i hi => ?_
  rw [h.part i hi]
  rfl

theorem NowhereElse.putObject
    (hp : Placed prims.hashes node call.bucket call.object p)
    (h : NowhereElse p (call.path prims.hashes) s) (io ioRegistry : PutIo)
    (hregistry : recordsLocation node call = true →
      (registryCall prims node call).path prims.hashes ≠ call.path prims.hashes) :
    NowhereElse p (call.path prims.hashes)
      (Buckets.putObject prims node io ioRegistry s call).1 := by
  have hfiles := NowhereElse.putFiles prims hp h io
  unfold Buckets.putObject
  dsimp only
  split
  · rename_i hrecords
    have hsame := putFiles_sameOutside prims node ioRegistry
      (Buckets.putFiles prims node io s call).1 (registryCall prims node call)
    have hne := (hregistry ((Bool.and_eq_true _ _).mp hrecords).2).symm
    refine ⟨fun d hd => (hsame d _ hne).1.trans (hfiles.xlMeta d hd), fun d i hpart => ?_⟩
    rw [(hsame d _ hne).2] at hpart
    exact hfiles.part d i hpart
  · exact hfiles

end Completed

/-! ## 2. Disks marked offline -/

section Offline

variable {F : Type} [Field F] (prims : Prims F) {node : Node} {p : Placement} {path : CString}

/-- **All chunks from one disk.**  Without a placement the chunks are looked for on the first disk
alone, which has one of them: enough only if `k = 1`. -/
theorem readObject_one_disk {bucket object : CString}
    (hp : Placed prims.hashes node bucket object p) {s : Disks prims.cjson.Text}
    {call : PutCall} {C : ℕ → Bytes} (hfiles : EcFiles prims node p s call C)
    (helse : NowhereElse p (call.path prims.hashes) s) {j : ℕ}
    (hj : j < node.defaultEcK + node.defaultEcM) (rest : List CString) (junk : Junk) :
    readObject prims s junk (call.path prims.hashes) none (p.disk j :: rest) =
      if node.defaultEcK = 1 then some call.data else none := by
  have hcode := hfiles.code
  obtain ⟨hk1, -, -, -⟩ := hcode.bounds
  obtain ⟨ctx, hinit, hctx⟩ := ecInit_valid prims.isal hcode.config
  let chunks := sequentialReadChunks s (call.path prims.hashes) (p.disk j)
    (node.defaultEcK + node.defaultEcM)
  have hown : chunks j = some (C j) := (if_pos hj).trans (hfiles.part j hj)
  have honly : ∀ i < node.defaultEcK + node.defaultEcM, ∀ c, chunks i = some c → i = j := by
    intro i hi c hc
    have hc : s.part (p.disk j) (call.path prims.hashes) (i + 1) = some c :=
      (if_pos hi).symm.trans hc
    have hdisk := helse.part (p.disk j) i (by rw [hc]; exact Option.some_ne_none c)
    exact (hp.disk_injOn (Set.mem_Iio.mpr (hj.trans_le hp.enough))
      (Set.mem_Iio.mpr (hi.trans_le hp.enough)) hdisk).symm
  rw [readObject_of_ecRecord prims (hfiles.findSome? prims hj rest)
      (ecRecord_isEcRecord prims.hashes call _ _ _ C j),
    readChunksAndDecode_eq prims (ecRecord_isEcRecord prims.hashes call _ _ _ C j) hinit
      (show readChunks s (call.path prims.hashes) _ _ _ = some chunks from rfl) junk]
  split
  · rename_i hk
    refine ecDecode_surviving hctx hcode.int hcode.fits hcode.encodes hcode.data
      (fun i hi c hc => ?_) ?_ junk.oob (by simp)
    · obtain rfl := honly i hi c hc
      exact Option.some.inj (hc.symm.trans hown)
    · have hmem : j ∈ present (node.defaultEcK + node.defaultEcM) chunks :=
        mem_present.mpr ⟨hj, by rw [hown]; rfl⟩
      have := List.length_pos_of_mem hmem
      omega
  · rename_i hk
    refine ecDecode_of_present_lt ?_ _ _ _ _
    rw [hctx.n_eq, hctx.k_eq]
    have hsub : present (node.defaultEcK + node.defaultEcM) chunks ⊆ [j] := by
      intro i hi
      obtain ⟨hlt, hsome⟩ := mem_present.mp hi
      obtain ⟨c, hc⟩ := Option.isSome_iff_exists.mp hsome
      exact List.mem_singleton.mpr (honly i hlt c hc)
    have hle := (List.subperm_of_subset (nodup_present _ chunks) hsub).length_le
    rw [List.length_singleton] at hle
    omega

/-- The first position that is not in a list is at most as far as the list has members. -/
theorem exists_first_notMem (offline : List ℕ) :
    ∃ j, j ≤ offline.toFinset.card ∧ j ∉ offline ∧ ∀ i < j, i ∈ offline := by
  have hex : ∃ j, j ∉ offline := by
    obtain ⟨j, hj⟩ := Infinite.exists_notMem_finset offline.toFinset
    exact ⟨j, fun h => hj (List.mem_toFinset.mpr h)⟩
  refine ⟨Nat.find hex, ?_, Nat.find_spec hex, fun i hi => not_not.mp (Nat.find_min hex hi)⟩
  have hsub : Finset.range (Nat.find hex) ⊆ offline.toFinset := by
    intro i hi
    exact List.mem_toFinset.mpr (not_not.mp (Nat.find_min hex (Finset.mem_range.mp hi)))
  simpa using Finset.card_le_card hsub

variable {ctx ctx' : MultidiskCtx} {disks : List MultiDisk} {offline : List ℕ}

/-- With a disk of its set marked, a key has no placement. -/
theorem placementCompute_marked {hashes : Hashes} {bucket object : CString}
    {vnode : Vnode} {set : SetTopology}
    (hset : node.KeySet hashes bucket object ctx vnode set disks)
    (hmarked : markOfflineAll ctx vnode.setIdx offline = some ctx') (hne : offline ≠ []) :
    placementCompute hashes { node with multidisk := some ctx' } bucket object = none := by
  obtain ⟨i, rest, rfl⟩ := List.exists_cons_of_ne_nil hne
  have hi := (markOfflineAll_spec hmarked hset.getSet).2.2 i (List.mem_cons_self ..)
  have hi' : i < (disks.mapIdx (MultiDisk.marked (i :: rest))).length := by
    rwa [List.length_mapIdx]
  refine (hset.marked hmarked).placementCompute_eq.2 ⟨_, List.getElem_mem hi', ?_⟩
  rw [List.getElem_mapIdx, MultiDisk.onlinePath_marked, if_pos (List.mem_cons_self ..)]

/-- Set 0 itself has marked disks: its first online disk is the one that is read. -/
theorem getSetDisks_marked {hashes : Hashes} {bucket object : CString}
    {vnode : Vnode} {set : SetTopology}
    (hset : node.KeySet hashes bucket object ctx vnode set disks)
    (hmarked : markOfflineAll ctx vnode.setIdx offline = some ctx')
    (honline : ∀ disk ∈ disks, disk.onlinePath.isSome)
    (hpaths : p.diskPaths = disks.filterMap MultiDisk.onlinePath)
    (hcard : offline.toFinset.card < p.diskPaths.length) :
    ∃ j ≤ offline.toFinset.card, ∃ rest, getSetDisks (some ctx') vnode.setIdx 64 =
      p.disk j :: rest := by
  obtain ⟨j, hle, hj, hbefore⟩ := exists_first_notMem offline
  have hdisk : disks[j]?.bind MultiDisk.onlinePath = some (p.disk j) := by
    rw [← getElem?_filterMap_of_all j honline, ← hpaths, Placement.disk,
      List.getElem?_eq_getElem (hle.trans_lt hcard), List.getD_eq_getElem _ _ (hle.trans_lt hcard)]
  obtain ⟨rest, hrest⟩ := filterMap_onlinePath_marked hbefore hj hdisk
  exact ⟨j, hle, rest, (hset.marked hmarked).getSetDisks_eq.trans hrest⟩

/-- Another set has marked disks: set 0 is as it was. -/
theorem getSetDisks_marked_of_ne {setIdx : ℕ}
    (hset : ctx.sets[setIdx]? = some disks)
    (hmarked : markOfflineAll ctx setIdx offline = some ctx') (hne : setIdx ≠ 0) (n : ℕ) :
    getSetDisks (some ctx') 0 n = getSetDisks (some ctx) 0 n := by
  simp only [getSetDisks, (markOfflineAll_spec hmarked hset).2.1 0 hne.symm]

/-- **A get with disks of the object's set marked offline.** -/
theorem getObject_marked {call : PutCall} {vnode : Vnode}
    {set : SetTopology}
    (hset : node.KeySet prims.hashes call.bucket call.object ctx vnode set disks)
    (honline : ∀ disk ∈ disks, disk.onlinePath.isSome)
    (hp : Placed prims.hashes node call.bucket call.object p)
    (hpaths : p.diskPaths = disks.filterMap MultiDisk.onlinePath)
    {s : Disks prims.cjson.Text} {C : ℕ → Bytes} (hfiles : EcFiles prims node p s call C)
    (helse : NowhereElse p (call.path prims.hashes) s)
    (hzero : getSetDisks node.multidisk 0 64 ≠ [])
    (hdistinct : vnode.setIdx ≠ 0 → ∀ d ∈ getSetDisks node.multidisk 0 64, d ∉ p.diskPaths)
    (hmarked : markOfflineAll ctx vnode.setIdx offline = some ctx')
    (hne : offline ≠ []) (hcard : offline.toFinset.card ≤ node.defaultEcM) (junk : Junk)
    (location : Option ℕ) :
    getObject prims { node with multidisk := some ctx' } s junk location call.bucket call.object =
      if vnode.setIdx = 0 ∧ node.defaultEcK = 1 then some call.data else none := by
  obtain ⟨hk1, -, -, -⟩ := hfiles.code.bounds
  have henough := hp.enough
  have hnone := placementCompute_marked hset hmarked hne
  by_cases hset0 : vnode.setIdx = 0
  · obtain ⟨j, hj, rest, hdisks⟩ := getSetDisks_marked hset hmarked honline hpaths (by omega)
    rw [hset0] at hdisks
    rw [getObject_unplaced prims hnone (by rw [hdisks]; exact List.cons_ne_nil _ _), hdisks]
    simp only [hset0, true_and]
    exact readObject_one_disk prims hp hfiles helse (by omega) rest junk
  · have hdisks := getSetDisks_marked_of_ne hset.getSet hmarked hset0 64
    rw [← hset.multidisk] at hdisks
    have hunread : (getSetDisks node.multidisk 0 64).findSome? (fun disk =>
        readXlMeta prims s disk (computeObjectPath prims.hashes call.bucket call.object)) =
        none := by
      refine List.findSome?_eq_none_iff.mpr fun d hd => ?_
      have hfile : s.xlMeta d (computeObjectPath prims.hashes call.bucket call.object) = none :=
        helse.xlMeta d (hdistinct hset0 d hd)
      rw [readXlMeta, hfile]
      rfl
    rw [getObject_unplaced prims hnone (by rw [hdisks]; exact hzero), hdisks, readObject, hunread,
      if_neg fun h => hset0 h.1]

/-- **Disks marked offline.**  An object was stored erasure-coded with every disk of its set online,
as it had a placement; then up to `m` disks of the set are marked offline.  A get returns the stored
bytes EXACTLY IF none was marked, or the object is in set 0 and `k = 1`. -/
theorem getObject_offline_iff (hlocal : node.LocalMode)
    {call : PutCall} {io ioRegistry : PutIo} {s s' : Disks prims.cjson.Text}
    (hcompute : placementCompute prims.hashes node call.bucket call.object = some p)
    (hcount : node.defaultEcK + node.defaultEcM ≤ p.diskPaths.length)
    (hshort : ∀ path ∈ p.diskPaths, path ≠ [] ∧ path.length < 512)
    (hs' : s' = (putObject prims node io ioRegistry s call).1)
    (hok : (putObject prims node io ioRegistry s call).2.1 = true)
    (hec : shouldInlineObject call.data.length = false)
    (hregistry : recordsLocation node call = true →
      (registryCall prims node call).path prims.hashes ≠ call.path prims.hashes)
    (helse : NowhereElse p (call.path prims.hashes) s')
    (hzero : getSetDisks node.multidisk 0 64 ≠ [])
    (hdistinct : p.setIdx ≠ 0 → ∀ d ∈ getSetDisks node.multidisk 0 64, d ∉ p.diskPaths)
    {ctx ctx' : MultidiskCtx} (hctx : node.multidisk = some ctx) {offline : List ℕ}
    (hmarked : markOfflineAll ctx p.setIdx offline = some ctx')
    (hcard : offline.toFinset.card ≤ node.defaultEcM) (junk : Junk) (location : Option ℕ) :
    getObject prims { node with multidisk := some ctx' } s' junk location call.bucket call.object =
      some call.data ↔ offline = [] ∨ (p.setIdx = 0 ∧ node.defaultEcK = 1) := by
  obtain ⟨ctx₀, vnode, set, disks, hset⟩ := hlocal.keySet prims.hashes call.bucket call.object
  obtain rfl := Option.some.inj (hset.multidisk.symm.trans hctx)
  obtain ⟨honline, hp, hidx, hpaths⟩ := hset.placed_of_compute hcompute hcount hshort
  obtain ⟨C, hfiles⟩ := ecFiles_of_putObject prims hp hok hec hregistry
  rw [← hs'] at hfiles
  rw [hidx] at hmarked hdistinct ⊢
  by_cases hne : offline = []
  · subst hne
    obtain rfl := Option.some.inj hmarked
    have hnode : { node with multidisk := some ctx₀ } = node := by rw [← hctx]
    rw [hnode, getObject_placed prims hp]
    exact iff_of_true (readObject_of_stored prims hp (hfiles.stored prims) (Nat.zero_le _) junk)
      (Or.inl rfl)
  · rw [getObject_marked prims hset honline hp hpaths hfiles helse hzero hdistinct hmarked
      hne hcard]
    simp [hne]

end Offline

theorem threeDiskNode_keySet {k m : ℕ} (hle : k + m ≤ 3) (hashes : Hashes)
    (bucket object : CString) :
    ∃ vnode set p, (threeDiskNode true k m).KeySet hashes bucket object
        ⟨[threeDisks true]⟩ vnode set (threeDisks true) ∧ vnode.setIdx = 0 ∧
      Placed hashes (threeDiskNode true k m) bucket object p ∧
      p.setIdx = 0 ∧ p.diskPaths = (threeDisks true).filterMap MultiDisk.onlinePath := by
  obtain ⟨ctx, vnode, set, disks, hset⟩ :=
    (threeDisks_localMode true k m).keySet hashes bucket object
  obtain ⟨p, hp, hidx, hpaths⟩ := hset.placed (threeDisks_allOnline k m) fun vnode hvnode =>
    hle.trans (threeDisks_onlineAtLeast true k m vnode hvnode)
  obtain rfl := List.mem_singleton.mp hset.mem
  obtain rfl := Option.some.inj hset.multidisk
  obtain rfl := Option.some.inj hset.getSet
  exact ⟨_, set, p, hset, rfl, hp, hidx, hpaths⟩

theorem threeDiskNode_records (k m : ℕ) (call : PutCall) :
    recordsLocation (threeDiskNode true k m) call = false := Bool.and_false _

theorem largePut_registry (k m : ℕ) (byte : UInt8) :
    recordsLocation (threeDiskNode true k m) (largePut byte) = true →
      (registryCall Prims.reference (threeDiskNode true k m) (largePut byte)).path
        Prims.reference.hashes ≠ (largePut byte).path Prims.reference.hashes := by
  rw [threeDiskNode_records]
  exact fun h => absurd h (by decide)

theorem largePut_ok {k m : ℕ} (hconfig : ecValidateConfig k m = true) (hle : k + m ≤ 3)
    (byte : UInt8) : (putObject Prims.reference (threeDiskNode true k m) .noFault .noFault .empty
      (largePut byte)).2.1 = true := by
  obtain ⟨hk1, -, -, -⟩ := ecValidateConfig_iff.mp hconfig
  exact threeDisks_putObject_ok _ hconfig hle (largePut_fits byte hk1) .empty

/-- The files of the large put on the empty disks. -/
theorem largePut_files {k m : ℕ} (hconfig : ecValidateConfig k m = true) (hle : k + m ≤ 3)
    {byte : UInt8} {p : Placement} (hp : Placed Prims.reference.hashes (threeDiskNode true k m)
      (largePut byte).bucket (largePut byte).object p) {s : Disks Prims.reference.cjson.Text}
    (hs : s = (putObject Prims.reference (threeDiskNode true k m) .noFault .noFault .empty
      (largePut byte)).1) :
    (∃ C, EcFiles Prims.reference (threeDiskNode true k m) p s (largePut byte) C) ∧
    NowhereElse p ((largePut byte).path Prims.reference.hashes) s := by
  rw [hs]
  exact ⟨ecFiles_of_putObject Prims.reference hp (largePut_ok hconfig hle byte)
      (largePut_not_inline byte) (largePut_registry k m byte),
    NowhereElse.putObject Prims.reference hp ⟨fun _ _ => rfl, fun _ _ h => absurd rfl h⟩ _ _
      (largePut_registry k m byte)⟩

/-- One data chunk, set 0, and the first disk marked: the stored bytes. -/
theorem getObject_offline_one_data_chunk :
    ∃ s ctx', s = (putObject Prims.reference (threeDiskNode true 1 1) .noFault .noFault .empty
        (largePut 0)).1 ∧
      markOfflineAll ⟨[threeDisks true]⟩ 0 [0] = some ctx' ∧ ∀ junk location,
      getObject Prims.reference { threeDiskNode true 1 1 with multidisk := some ctx' } s junk
        location (largePut 0).bucket (largePut 0).object = some (largePut 0).data := by
  obtain ⟨vnode, set, p, hset, -, hp, hidx, -⟩ := threeDiskNode_keySet (k := 1) (m := 1) (by decide)
    Prims.reference.hashes (largePut 0).bucket (largePut 0).object
  refine ⟨_, _, rfl, rfl, fun junk location => ?_⟩
  exact (getObject_offline_iff Prims.reference (threeDisks_localMode true 1 1) hp.compute hp.enough
    hp.short rfl (largePut_ok rfl (by decide) 0) (largePut_not_inline 0) (largePut_registry 1 1 0)
    (largePut_files rfl (by decide) hp rfl).2 (by decide) (fun h => absurd hidx h) hset.multidisk
    (show markOfflineAll _ p.setIdx [0] = _ by rw [hidx]; rfl) (by decide) junk location).mpr
    (Or.inr ⟨hidx, rfl⟩)

/-- **One disk of three marked offline.**  Two data chunks and one parity chunk, of which any two
are enough: the object is not found. -/
theorem getObject_offline_not_found :
    (threeDiskNode true 2 1).LocalMode ∧ (threeDiskNode true 2 1).AllOnline ∧
    shouldInlineObject (largePut 0).data.length = false ∧
    (putObject Prims.reference (threeDiskNode true 2 1) .noFault .noFault .empty (largePut 0)).2.1 =
      true ∧
    ∃ s ctx', s = (putObject Prims.reference (threeDiskNode true 2 1) .noFault .noFault .empty
        (largePut 0)).1 ∧
      markOfflineAll ⟨[threeDisks true]⟩ 0 [2] = some ctx' ∧ ∀ junk location,
      getObject Prims.reference { threeDiskNode true 2 1 with multidisk := some ctx' } s junk
        location (largePut 0).bucket (largePut 0).object = none := by
  refine ⟨threeDisks_localMode true 2 1, threeDisks_allOnline 2 1, largePut_not_inline 0,
    largePut_ok rfl (by decide) 0, _, _, rfl, rfl, fun junk location => ?_⟩
  obtain ⟨vnode, set, p, hset, hidx, hp, -, hpaths⟩ := threeDiskNode_keySet (k := 2) (m := 1)
    (by decide) Prims.reference.hashes (largePut 0).bucket (largePut 0).object
  obtain ⟨⟨C, hfiles⟩, helse⟩ := largePut_files rfl (by decide) hp rfl
  rw [getObject_marked Prims.reference hset (by decide) hp hpaths hfiles helse (by decide)
    (fun h => absurd hidx h) (show markOfflineAll _ vnode.setIdx [2] = _ by rw [hidx]; rfl)
    (List.cons_ne_nil _ _) (by decide)]
  exact if_neg fun h => absurd h.2 (by decide)

/-! ## 3. Part files altered -/

section Alterations

variable {F : Type} [Field F] (prims : Prims F) {node : Node} {p : Placement} {path : CString}

/-- At most `m` of an object's `n` part files have other bytes, of the same number. -/
structure Altered {Text : Type} (p : Placement) (path : CString) (n m : ℕ) (s s' : Disks Text) :
    Prop where
  xlMeta : ∀ d, s'.xlMeta d path = s.xlMeta d path
  length : ∀ i < n, (s'.part (p.disk i) path (i + 1)).map List.length =
    (s.part (p.disk i) path (i + 1)).map List.length
  card : ((Finset.range n).filter fun i =>
    s'.part (p.disk i) path (i + 1) ≠ s.part (p.disk i) path (i + 1)).card ≤ m

/-- **Nothing is checked.**  With every part there, a get puts the data parts end to end. -/
theorem readObject_altered {bucket object : CString}
    (hp : Placed prims.hashes node bucket object p) {s s' : Disks prims.cjson.Text}
    {call : PutCall} {C : ℕ → Bytes} (C' : ℕ → Bytes) (hfiles : EcFiles prims node p s call C)
    (hmeta : ∀ d, s'.xlMeta d (call.path prims.hashes) = s.xlMeta d (call.path prims.hashes))
    (hparts : ∀ i < node.defaultEcK + node.defaultEcM,
      s'.part (p.disk i) (call.path prims.hashes) (i + 1) = some (C' i)) (junk : Junk) :
    readObject prims s' junk (call.path prims.hashes) (some p) p.diskPaths =
      some ((List.range node.defaultEcK).flatMap fun i => Split.readN (junk.oob i) (C' i)
        (pieceLen call.data.length node.defaultEcK i)) := by
  obtain ⟨ctx, hinit, hctx⟩ := ecInit_valid prims.isal hfiles.code.config
  obtain ⟨hk1, -, -, -⟩ := hfiles.code.bounds
  have hread : readXlMeta prims s' (p.disk 0) (call.path prims.hashes) = _ :=
    (readXlMeta_congr prims (hmeta _)).trans (hfiles.readXlMeta prims (i := 0) (by omega))
  rw [readObject_decode prims hp (findSome?_diskPaths prims hp.nonempty hread)
    (ecRecord_isEcRecord prims.hashes call _ _ _ C 0) hinit hp.enough]
  simp only [pieceLen, copySize_eq]
  refine ecDecode_of_complete hctx (fun i hi => ?_) junk.oob _ (by simp)
  rw [foundChunks, if_pos hi, hparts i hi]

/-- **Part files altered.**  Up to `m` part files of a stored erasure-coded object get other
bytes.  A get returns the stored bytes or an error EXACTLY IF the bytes of the object in the data
parts are unaltered. -/
theorem getObject_altered_iff {call : PutCall}
    (hp : Placed prims.hashes node call.bucket call.object p) {io ioRegistry : PutIo}
    {s₀ s s' : Disks prims.cjson.Text} (hs : s = (putObject prims node io ioRegistry s₀ call).1)
    (hok : (putObject prims node io ioRegistry s₀ call).2.1 = true)
    (hec : shouldInlineObject call.data.length = false)
    (hregistry : recordsLocation node call = true →
      (registryCall prims node call).path prims.hashes ≠ call.path prims.hashes)
    (haltered : Altered p (call.path prims.hashes) (node.defaultEcK + node.defaultEcM)
      node.defaultEcM s s') (junk : Junk) (location : Option ℕ) :
    (getObject prims node s' junk location call.bucket call.object = some call.data ∨
      getObject prims node s' junk location call.bucket call.object = none) ↔
    ∀ i < node.defaultEcK,
      (s'.part (p.disk i) (call.path prims.hashes) (i + 1)).map
        (List.take (pieceLen call.data.length node.defaultEcK i)) =
      (s.part (p.disk i) (call.path prims.hashes) (i + 1)).map
        (List.take (pieceLen call.data.length node.defaultEcK i)) := by
  obtain ⟨C, hfiles⟩ := ecFiles_of_putObject prims hp hok hec hregistry
  rw [← hs] at hfiles
  -- the part files there now, which are as long as the chunks were
  obtain ⟨C', hC'⟩ : ∃ C' : ℕ → Bytes, ∀ i < node.defaultEcK + node.defaultEcM,
      s'.part (p.disk i) (call.path prims.hashes) (i + 1) = some (C' i) ∧
      (C' i).length = (C i).length := by
    refine ⟨fun i => (s'.part (p.disk i) (call.path prims.hashes) (i + 1)).getD [], fun i hi => ?_⟩
    have hlen := haltered.length i hi
    rw [hfiles.part i hi] at hlen
    obtain ⟨c, hc, hclen⟩ := Option.map_eq_some_iff.mp hlen
    simp only [hc, Option.getD_some, true_and]
    exact hclen
  have hle : ∀ i < node.defaultEcK, pieceLen call.data.length node.defaultEcK i ≤ (C i).length :=
    fun i hi => hfiles.code.pieceLen_le hi
  have hget : getObject prims node s' junk location call.bucket call.object = _ :=
    (getObject_placed prims hp s' junk location).trans
      (readObject_altered prims hp _ hfiles haltered.xlMeta (fun i hi => (hC' i hi).1) junk)
  have hpieces := Split.flatMap_range_eq_iff node.defaultEcK
    (p := fun i => Split.readN (junk.oob i) (C' i) (pieceLen call.data.length node.defaultEcK i))
    (q := fun i => (C i).take (pieceLen call.data.length node.defaultEcK i)) fun i hi => by
      rw [Split.length_readN, List.length_take, Nat.min_eq_left (hle i hi)]
  rw [hfiles.code.flatMap_take] at hpieces
  rw [hget]
  simp only [reduceCtorEq, or_false, Option.some.injEq]
  refine hpieces.trans (forall₂_congr fun i hi => ?_)
  rw [Split.readN_eq_take ((hle i hi).trans_eq (hC' i (by omega)).2.symm), (hC' i (by omega)).1,
    hfiles.part i (by omega), Option.map_some, Option.map_some, Option.some.injEq]

end Alterations

theorem calculateChunkSize_largePut (byte : UInt8) :
    calculateChunkSize (largePut byte).data.length 1 = 512 * 1024 := by
  rw [show (largePut byte).data = largeData byte from rfl, length_largeData]
  decide

/-- One of the two parts of the large put overwritten with ones. -/
theorem altered_largePut {p : Placement} {s : Disks Prims.reference.cjson.Text}
    {C : ℕ → Bytes} (hfiles : EcFiles Prims.reference (threeDiskNode true 1 1) p s (largePut 0) C)
    {i : ℕ} (hi : i < 2) :
    Altered p ((largePut 0).path Prims.reference.hashes) 2 1 s
      (s.setPart (p.disk i) ((largePut 0).path Prims.reference.hashes) (i + 1)
        (some (largeData 1))) := by
  have hchunk : (C i).length = 512 * 1024 :=
    (hfiles.code.encodes.length i hi).trans (calculateChunkSize_largePut 0)
  have hother : ∀ j, j ≠ i → (s.setPart (p.disk i) ((largePut 0).path Prims.reference.hashes)
      (i + 1) (some (largeData 1))).part (p.disk j) ((largePut 0).path Prims.reference.hashes)
      (j + 1) = s.part (p.disk j) ((largePut 0).path Prims.reference.hashes) (j + 1) :=
    fun j hj => if_neg fun h => hj (Nat.succ_injective h.2.2)
  refine ⟨fun _ => rfl, fun j hj => ?_, ?_⟩
  · rcases eq_or_ne j i with rfl | hne
    · rw [Disks.part_setPart, if_pos ⟨rfl, rfl, rfl⟩, hfiles.part j hj, Option.map_some,
        Option.map_some, length_largeData, hchunk]
    · rw [hother j hne]
  · refine (Finset.card_le_card (t := {i}) fun j hj => ?_).trans_eq (Finset.card_singleton i)
    by_contra hne
    exact (Finset.mem_filter.mp hj).2 (hother j fun h => hne (Finset.mem_singleton.mpr h))

/-- The parity part altered: the stored bytes or an error. -/
theorem getObject_altered_parity :
    ∃ p s, s = (putObject Prims.reference (threeDiskNode true 1 1) .noFault .noFault .empty
        (largePut 0)).1 ∧
      Altered p ((largePut 0).path Prims.reference.hashes) 2 1 s
        (s.setPart (p.disk 1) ((largePut 0).path Prims.reference.hashes) 2 (some (largeData 1))) ∧
      ∀ junk location,
        (getObject Prims.reference (threeDiskNode true 1 1) (s.setPart (p.disk 1)
          ((largePut 0).path Prims.reference.hashes) 2 (some (largeData 1))) junk location
          (largePut 0).bucket (largePut 0).object = some (largePut 0).data ∨
        getObject Prims.reference (threeDiskNode true 1 1) (s.setPart (p.disk 1)
          ((largePut 0).path Prims.reference.hashes) 2 (some (largeData 1))) junk location
          (largePut 0).bucket (largePut 0).object = none) := by
  obtain ⟨p, hp⟩ := threeDisks_placed (k := 1) (m := 1) (by decide) Prims.reference.hashes
    (largePut 0).bucket (largePut 0).object
  obtain ⟨⟨C, hfiles⟩, -⟩ := largePut_files rfl (by decide) hp rfl
  have haltered := altered_largePut hfiles (i := 1) (by decide)
  refine ⟨p, _, rfl, haltered, fun junk location => ?_⟩
  refine (getObject_altered_iff Prims.reference hp rfl (largePut_ok rfl (by decide) 0)
    (largePut_not_inline 0) (largePut_registry 1 1 0) haltered junk location).mpr fun i hi => ?_
  rw [Disks.part_setPart, if_neg fun h => ?_]
  have hi : i < 1 := hi
  have := h.2.2
  omega

/-- **The data part altered**: the altered bytes are returned as the object. -/
theorem getObject_altered_data :
    ∃ p s, s = (putObject Prims.reference (threeDiskNode true 1 1) .noFault .noFault .empty
        (largePut 0)).1 ∧
      (putObject Prims.reference (threeDiskNode true 1 1) .noFault .noFault .empty
        (largePut 0)).2.1 = true ∧
      shouldInlineObject (largePut 0).data.length = false ∧
      Altered p ((largePut 0).path Prims.reference.hashes) 2 1 s
        (s.setPart (p.disk 0) ((largePut 0).path Prims.reference.hashes) 1 (some (largeData 1))) ∧
      largeData 1 ≠ (largePut 0).data ∧
      ∀ junk location, getObject Prims.reference (threeDiskNode true 1 1) (s.setPart (p.disk 0)
        ((largePut 0).path Prims.reference.hashes) 1 (some (largeData 1))) junk location
        (largePut 0).bucket (largePut 0).object = some (largeData 1) := by
  obtain ⟨p, hp⟩ := threeDisks_placed (k := 1) (m := 1) (by decide) Prims.reference.hashes
    (largePut 0).bucket (largePut 0).object
  obtain ⟨⟨C, hfiles⟩, -⟩ := largePut_files rfl (by decide) hp rfl
  have haltered := altered_largePut hfiles (i := 0) (by decide)
  have hne : largeData 1 ≠ (largePut 0).data := by
    rw [show (largePut 0).data = largeData 0 from rfl, largeData_eq, largeData_eq]
    exact fun h => absurd (List.replicate_right_injective (by decide) h) (by decide)
  refine ⟨p, _, rfl, largePut_ok rfl (by decide) 0, largePut_not_inline 0, haltered, hne,
    fun junk location => ?_⟩
  have hget := readObject_altered Prims.reference hp (fun i => if i = 0 then largeData 1 else C i)
    hfiles haltered.xlMeta (fun i hi => ?_) junk
  · rw [getObject_placed Prims.reference hp]
    refine hget.trans ?_
    have hlen : pieceLen (largePut 0).data.length 1 0 = 512 * 1024 := by
      rw [show (largePut 0).data = largeData 0 from rfl, length_largeData]
      decide
    show some (([0] : List ℕ).flatMap _) = _
    rw [List.flatMap_singleton]
    exact congrArg some (Split.readN_of_length_eq ((length_largeData 1).trans hlen.symm))
  · rw [Disks.part_setPart]
    rcases Nat.eq_zero_or_pos i with rfl | hpos
    · rw [if_pos ⟨rfl, rfl, rfl⟩, if_pos rfl]
    · rw [if_neg fun h => by have := h.2.2; omega, if_neg hpos.ne']
      exact hfiles.part i hi

/-! ## 4. Parts removed -/

section Removed

variable {F : Type} [Field F] (prims : Prims F) {node : Node} {p : Placement} {path : CString}
  {s : Disks prims.cjson.Text} {C : ℕ → Bytes} {xl : XlMeta}

/-- **Parts removed.**  What is left of an erasure-coded object decides alone. -/
theorem readObject_removed_of_first {bucket object : CString}
    (hp : Placed prims.hashes node bucket object p) {k m len : ℕ}
    {data : Bytes} (removed : Finset ℕ)
    (hfirst : (p.diskPaths.findSome? fun disk => readXlMeta prims s disk path) = some xl)
    (hxl : EcRecord xl k m len data.length)
    (hcode : EcCode prims.isal k m len data C) (hlen : k + m ≤ p.diskPaths.length)
    (hsub : removed ⊆ Finset.range (k + m))
    (hparts : ∀ i < k + m, s.part (p.disk i) path (i + 1) = surviving removed C i) (junk : Junk) :
    readObject prims s junk path (some p) p.diskPaths =
      if removed.card ≤ m then some data else none := by
  obtain ⟨ctx, hinit, hctx⟩ := ecInit_valid prims.isal hcode.config
  have hpresent : present (k + m) (foundChunks s p path (k + m)) =
      (List.range (k + m)).filter fun i => i ∉ removed := by
    rw [← present_surviving (k + m) removed C]
    refine List.filter_congr fun i hi => ?_
    rw [foundChunks, if_pos (List.mem_range.mp hi), hparts i (List.mem_range.mp hi)]
  have hcount : (present (k + m) (foundChunks s p path (k + m))).length + removed.card = k + m := by
    have hcard : ((List.range (k + m)).filter fun i => i ∉ removed).length =
        (Finset.range (k + m) \ removed).card := by
      rw [← List.toFinset_card_of_nodup (List.nodup_range.filter _)]
      congr 1
      ext i
      simp
    rw [hpresent, hcard, Finset.card_sdiff_add_card_eq_card hsub, Finset.card_range]
  split
  · rename_i hle
    refine readObject_ec prims hp hfirst hxl hcode hlen (fun i hi c hc => ?_) (by omega) junk
    rw [hparts i hi, surviving] at hc
    split at hc
    · cases hc
    · exact (Option.some.inj hc).symm
  · rename_i hlt
    rw [readObject_decode prims hp hfirst hxl hinit hlen]
    exact ecDecode_of_present_lt (by rw [hctx.n_eq, hctx.k_eq]; omega) _ _ _ _

end Removed

end Buckets
