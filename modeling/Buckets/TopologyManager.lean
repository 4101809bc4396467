/-
# `cluster/topology_manager.c`: changing and reloading the topology

The manager holds one cached topology.  A change works on a copy of it, saves the copy with a
quorum and puts it in the cache if the save succeeded; a reload puts what the disks elect in the
cache.  Here the cache is a VALUE; `TopologyHeap.lean` has the same functions on pointers and
proves that they do what these do.

A save that fails has still written some disks, so what a reload may find is not only what was
cached.  The invariant of a run (`Inv`) is that every reload would return the cached topology or
one change ahead of it.  It is kept by each save that reaches enough disks for its topology to be
the one elected, or that reaches none (`SafeSave`), and up to two disks every save is of that kind.

* `Inv.step`: one event keeps the invariant and moves the cache along `Follows`;
* `cached_generations`: so do all, along a run;
* `cached_generations_three_disks`: on three disks one missed write is enough to go back.
-/
import Mathlib.Data.List.Pairwise
import Buckets.Quorum

namespace Buckets

variable (cjson : CJson) (xxhash64 : UInt64 → Bytes → UInt64)

/-! ## 1. The manager -/

/-- What `buckets_topology_manager_add_set` refuses before it looks at the topology. -/
def TopologyOp.refusedEarly : TopologyOp → Bool
  | .addSet _ disks diskCount => decide (disks = none ∨ diskCount ≤ 0)
  | _ => false

/-- The operation itself would refuse it too. -/
theorem TopologyOp.apply_of_refusedEarly {op : TopologyOp} (h : op.refusedEarly = true)
    (t : ClusterTopology) : op.apply t = (t, .errInvalidArg) := by
  cases op with
  | addPool => exact absurd h Bool.false_ne_true
  | markSetDraining poolIdx setIdx => exact absurd h Bool.false_ne_true
  | markSetRemoved poolIdx setIdx => exact absurd h Bool.false_ne_true
  | addSet poolIdx disks diskCount =>
    have hbad : disks = none ∨ diskCount ≤ 0 := of_decide_eq_true h
    cases disks with
    | none => rfl
    | some disks =>
      have hcount : diskCount ≤ 0 := by simpa using hbad
      simp [TopologyOp.apply, topologyAddSet, hcount]

/-- `g_topology_manager`, the topology cache and the disks' files. -/
structure Manager where
  initialized : Bool
  cacheInitialized : Bool
  diskCount : ℕ
  cache : Option ClusterTopology
  files : TopologyFiles cjson

namespace Manager

variable {cjson}

/-- `buckets_topology_cache_get`. -/
def cacheGet (m : Manager cjson) : Option ClusterTopology :=
  if m.cacheInitialized then m.cache else none

/-- `buckets_topology_cache_set`. -/
def cacheSet (m : Manager cjson) (t : ClusterTopology) : Manager cjson × Ret :=
  if m.cacheInitialized then ({ m with cache := some t }, .ok) else (m, .errInvalidArg)

/-- `persist_and_notify`. -/
def persistAndNotify (m : Manager cjson) (io : ℕ → AtomicWrite) (t : ClusterTopology) :
    Manager cjson × Ret :=
  let saved := saveQuorum cjson m.diskCount t io m.files
  let m := { m with files := saved.1 }
  if saved.2 = .ok then m.cacheSet t else (m, saved.2)

/-- The common course of the operations: change a copy of the cached topology and persist it. -/
def change (m : Manager cjson) (io : ℕ → AtomicWrite) (op : TopologyOp) : Manager cjson × Ret :=
  if !m.initialized then (m, .errInvalidArg)
  else
    match m.cacheGet with
    | none => (m, .errInvalidArg)
    | some cached =>
      let r := op.apply cached
      if r.2 = .ok then m.persistAndNotify io r.1 else (m, r.2)

/-- `buckets_topology_manager_add_pool`. -/
def addPool (m : Manager cjson) (io : ℕ → AtomicWrite) : Manager cjson × Ret := m.change io .addPool

/-- `buckets_topology_manager_add_set`, which looks at `disks` first. -/
def addSet (m : Manager cjson) (io : ℕ → AtomicWrite) (poolIdx : ℤ)
    (disks : Option (List DiskInfo)) (diskCount : ℤ) : Manager cjson × Ret :=
  if !m.initialized then (m, .errInvalidArg)
  else if disks = none ∨ diskCount ≤ 0 then (m, .errInvalidArg)
  else m.change io (.addSet poolIdx disks diskCount)

/-- `buckets_topology_manager_mark_set_draining`. -/
def markSetDraining (m : Manager cjson) (io : ℕ → AtomicWrite) (poolIdx setIdx : ℤ) :
    Manager cjson × Ret :=
  m.change io (.markSetDraining poolIdx setIdx)

/-- `buckets_topology_manager_mark_set_removed`. -/
def markSetRemoved (m : Manager cjson) (io : ℕ → AtomicWrite) (poolIdx setIdx : ℤ) :
    Manager cjson × Ret :=
  m.change io (.markSetRemoved poolIdx setIdx)

/-- The manager's function for a change. -/
def call (m : Manager cjson) (io : ℕ → AtomicWrite) : TopologyOp → Manager cjson × Ret
  | .addPool => m.addPool io
  | .addSet poolIdx disks diskCount => m.addSet io poolIdx disks diskCount
  | .markSetDraining poolIdx setIdx => m.markSetDraining io poolIdx setIdx
  | .markSetRemoved poolIdx setIdx => m.markSetRemoved io poolIdx setIdx

/-- `buckets_topology_manager_load`. -/
def load (m : Manager cjson) : Manager cjson × Ret :=
  if !m.initialized then (m, .errInvalidArg)
  else
    match loadQuorum cjson xxhash64 m.diskCount m.files with
    | none => (m, .errQuorum)
    | some t => m.cacheSet t

/-! ## 2. What a call does -/

theorem call_eq (m : Manager cjson) (io : ℕ → AtomicWrite) (op : TopologyOp) : m.call io op =
    if m.initialized && op.refusedEarly then (m, .errInvalidArg) else m.change io op := by
  cases op with
  | addPool => simp [call, addPool, TopologyOp.refusedEarly]
  | markSetDraining poolIdx setIdx => simp [call, markSetDraining, TopologyOp.refusedEarly]
  | markSetRemoved poolIdx setIdx => simp [call, markSetRemoved, TopologyOp.refusedEarly]
  | addSet poolIdx disks diskCount =>
    by_cases hinit : m.initialized = true <;>
      simp [call, addSet, change, hinit, TopologyOp.refusedEarly]

/-- A manager that is up: it and the cache are initialized. -/
structure Ready (m : Manager cjson) : Prop where
  initialized : m.initialized = true
  cacheInitialized : m.cacheInitialized = true

variable {m : Manager cjson}

theorem Ready.cacheGet (h : m.Ready) : m.cacheGet = m.cache :=
  if_pos h.cacheInitialized

/-- **A change that the operation refuses** leaves everything. -/
theorem call_of_apply_error (hm : m.Ready) {cached : ClusterTopology}
    (hcached : m.cache = some cached) (io : ℕ → AtomicWrite) {op : TopologyOp}
    (hop : (op.apply cached).2 ≠ .ok) : m.call io op = (m, (op.apply cached).2) := by
  have hget : m.cacheGet = some cached := by rw [hm.cacheGet, hcached]
  rw [call_eq]
  by_cases hearly : op.refusedEarly = true
  · simp [hm.initialized, hearly, TopologyOp.apply_of_refusedEarly hearly]
  · simp [hearly, change, hm.initialized, hget, hop]

/-- **A change that the operation makes** is saved, and cached if the save succeeded.  The files
that were written stay in either case. -/
theorem call_of_apply_ok (hm : m.Ready) {cached t : ClusterTopology}
    (hcached : m.cache = some cached) (io : ℕ → AtomicWrite) {op : TopologyOp}
    (hop : op.apply cached = (t, .ok)) {saved : TopologyFiles cjson × Ret}
    (hsaved : saveQuorum cjson m.diskCount t io m.files = saved) :
    m.call io op =
      ({ m with files := saved.1, cache := if saved.2 = .ok then some t else some cached },
        saved.2) := by
  have hget : m.cacheGet = some cached := by rw [hm.cacheGet, hcached]
  have hearly : op.refusedEarly = false := by
    by_contra hearly
    rw [TopologyOp.apply_of_refusedEarly (Bool.eq_true_of_not_eq_false hearly)] at hop
    exact absurd (congrArg Prod.snd hop) (show Ret.errInvalidArg ≠ .ok by decide)
  rw [call_eq, hearly, Bool.and_false, if_neg Bool.false_ne_true]
  by_cases hok : saved.2 = .ok
  · simp [change, hm.initialized, hget, hop, persistAndNotify, hsaved, hok, cacheSet,
      hm.cacheInitialized]
  · simp [change, hm.initialized, hget, hop, persistAndNotify, hsaved, hok, hcached]

theorem load_eq (hm : m.Ready) {t : ClusterTopology}
    (h : loadQuorum cjson xxhash64 m.diskCount m.files = some t) :
    m.load xxhash64 = ({ m with cache := some t }, .ok) := by
  simp [load, hm.initialized, h, cacheSet, hm.cacheInitialized]

end Manager

/-! ## 3. Runs -/

/-- What happens to a manager: a change, with the outcome of each disk's write, or a reload. -/
inductive ManagerEvent where
  | change (op : TopologyOp) (io : ℕ → AtomicWrite)
  | reload

variable {cjson}

namespace Manager

def step (m : Manager cjson) : ManagerEvent → Manager cjson
  | .change op io => (m.call io op).1
  | .reload => (m.load xxhash64).1

/-- The topologies cached along a run, from the start on. -/
def caches (m : Manager cjson) : List ManagerEvent → List ClusterTopology
  | [] => m.cache.toList
  | e :: events => m.cache.toList ++ caches (m.step xxhash64 e) events

end Manager

/-- **The order of the cache**: the generation does not go back, and stays only with the
topology. -/
def Follows (t t' : ClusterTopology) : Prop :=
  t.generation ≤ t'.generation ∧ (t.generation = t'.generation → t = t')

theorem Follows.refl (t : ClusterTopology) : Follows t t := ⟨le_rfl, fun _ => rfl⟩

theorem Follows.trans {a b c : ClusterTopology} (hab : Follows a b) (hbc : Follows b c) :
    Follows a c := by
  refine ⟨hab.1.trans hbc.1, fun h => ?_⟩
  have hab' : a = b := hab.2 (le_antisymm hab.1 (h ▸ hbc.1))
  subst hab'
  exact hbc.2 h

variable {t : ClusterTopology} {n : ℕ}

theorem Successor.follows {t' : ClusterTopology} (h : Successor t t') : Follows t t' := by
  rcases h with rfl | ⟨hgen, -⟩
  · exact Follows.refl t'
  · exact ⟨by omega, fun h => by omega⟩

/-- A topology that `topology.json` keeps. -/
structure Fits (t : ClusterTopology) : Prop where
  wellTyped : t.WellTyped
  generation : IsInt t.generation

theorem Fits.onDisk (h : Fits t) : onDisk t = t := onDisk_of_isInt h.generation

/-- **A save that decides what a reload returns.**  With a read quorum of one the first disk
answers, and it must not miss a save that succeeds.  With a larger one the save reaches no disk, or
misses less than a read quorum. -/
def SafeSave (n : ℕ) (io : ℕ → AtomicWrite) : Prop :=
  if readQuorum n = 1 then
    n / 2 + 1 ≤ ((List.range n).countP fun i => (io i).isOk) → (io 0).installs = true
  else
    (∀ i < n, (io i).installs = false) ∨
      ((List.range n).countP fun i => !(io i).installs) < readQuorum n

/-- Up to two disks a save that succeeds has reached all of them. -/
theorem safeSave_of_le_two (hpos : 0 < n) (hn : n ≤ 2) (io : ℕ → AtomicWrite) :
    SafeSave n io := by
  have hq : readQuorum n = 1 := by
    unfold readQuorum
    split <;> omega
  rw [SafeSave, if_pos hq]
  intro hcount
  have hall : ((List.range n).countP fun i => (io i).isOk) = (List.range n).length := by
    refine le_antisymm List.countP_le_length ?_
    rw [List.length_range]
    omega
  exact AtomicWrite.installs_of_isOk (List.countP_eq_length.mp hall 0 (List.mem_range.mpr hpos))

/-- The files decide that a reload returns `d`. -/
def Elects (cjson : CJson) (n : ℕ) (files : TopologyFiles cjson) (d : ClusterTopology) : Prop :=
  if readQuorum n = 1 then topologyLoad cjson (files 0) = some d
  else missing cjson n files d < readQuorum n

variable {xxhash64}

theorem Elects.loadQuorum (hn : 0 < n) {files : TopologyFiles cjson} {d : ClusterTopology}
    (h : Elects cjson n files d) (hcoll : NoCollision cjson xxhash64 n files) :
    loadQuorum cjson xxhash64 n files = some d := by
  unfold Elects at h
  split at h
  · rename_i hq
    refine loadQuorum_of_stale_front hn fun i hi => ?_
    obtain rfl : i = 0 := by omega
    exact h
  · exact loadQuorum_of_installed hn hcoll h

theorem missing_congr {files files' : TopologyFiles cjson}
    (h : ∀ i < n, files' i = files i) (d : ClusterTopology) :
    missing cjson n files' d = missing cjson n files d :=
  List.countP_congr fun i hi => by rw [h i (List.mem_range.mp hi)]

/-- After a safe save a reload returns the topology that was saved, or what it returned before; the
latter only if the save failed. -/
theorem Elects.saveQuorum (hn : 0 < n) {files : TopologyFiles cjson}
    {d : ClusterTopology} (h : Elects cjson n files d) (ht : Fits t) {io : ℕ → AtomicWrite}
    (hsafe : SafeSave n io) :
    Elects cjson n (Buckets.saveQuorum cjson n t io files).1 t ∨
      (Buckets.saveQuorum cjson n t io files).2 ≠ .ok ∧
        Elects cjson n (Buckets.saveQuorum cjson n t io files).1 d := by
  have hprint : topologyLoad cjson (some (cjson.print (topologyToJson t))) = some t := by
    rw [topologyLoad_print ht.wellTyped, ht.onDisk]
  unfold SafeSave at hsafe
  unfold Elects at h ⊢
  rw [Ne, saveQuorum_ok_iff]
  by_cases hq : readQuorum n = 1
  · rw [if_pos hq] at hsafe h
    rw [if_pos hq, if_pos hq, saveQuorum_file t io files hn]
    by_cases hinstalls : (io 0).installs = true
    · exact Or.inl (by rw [if_pos hinstalls, hprint])
    · exact Or.inr ⟨fun hcount => hinstalls (hsafe hcount), by rw [if_neg hinstalls, h]⟩
  · rw [if_neg hq] at hsafe h
    rw [if_neg hq, if_neg hq]
    rcases hsafe with hnone | hmiss
    · refine Or.inr ⟨fun hcount => ?_, ?_⟩
      · rw [List.countP_eq_zero.mpr] at hcount
        · omega
        · intro i hi hok
          exact absurd (AtomicWrite.installs_of_isOk hok)
            (by rw [hnone i (List.mem_range.mp hi)]; exact Bool.false_ne_true)
      · rw [missing_congr fun i hi => ?_]
        · exact h
        · rw [saveQuorum_file t io files hi, hnone i hi]
          exact if_neg Bool.false_ne_true
    · have hle := missing_saveQuorum_le ht.wellTyped io files n
      rw [ht.onDisk] at hle
      exact Or.inl (hle.trans_lt hmiss)

/-- What an event needs: a change leads to a topology that the file keeps, and its save decides
what a reload returns; a reload meets no two topologies with one hash. -/
def Manager.Safe (xxhash64 : UInt64 → Bytes → UInt64) (m : Manager cjson) : ManagerEvent → Prop
  | .change op io => (∀ cached ∈ m.cache, Fits (op.apply cached).1) ∧ SafeSave m.diskCount io
  | .reload => NoCollision cjson xxhash64 m.diskCount m.files

/-- Each event of a run is safe where it happens. -/
def Manager.SafeRun (xxhash64 : UInt64 → Bytes → UInt64) :
    Manager cjson → List ManagerEvent → Prop
  | _, [] => True
  | m, e :: events => m.Safe xxhash64 e ∧ SafeRun xxhash64 (m.step xxhash64 e) events

/-- **The invariant of a run**: a reload would return the cached topology or the next one. -/
structure Inv (m : Manager cjson) (cached ahead : ClusterTopology) : Prop where
  ready : m.Ready
  diskCount : 0 < m.diskCount
  cache : m.cache = some cached
  fits : Fits ahead
  elects : Elects cjson m.diskCount m.files ahead
  successor : Successor cached ahead

theorem Inv.change {m : Manager cjson} {cached ahead : ClusterTopology} (h : Inv m cached ahead)
    {op : TopologyOp} {io : ℕ → AtomicWrite} (hfits : Fits (op.apply cached).1)
    (hsafe : SafeSave m.diskCount io) :
    ∃ cached' ahead', Inv (m.call io op).1 cached' ahead' ∧ Follows cached cached' := by
  obtain ⟨-, hsucc⟩ := op.apply_cases cached
  by_cases hop : (op.apply cached).2 = .ok
  · have hcall := Manager.call_of_apply_ok h.ready h.cache io (Prod.ext rfl hop) rfl
    have hready : (m.call io op).1.Ready := hcall ▸ ⟨h.ready.1, h.ready.2⟩
    have hcount : 0 < (m.call io op).1.diskCount := hcall ▸ h.diskCount
    rcases h.elects.saveQuorum h.diskCount hfits hsafe with hnew | ⟨hfail, hold⟩
    · -- a reload now finds the new topology, whether it was cached or not
      by_cases hok : (saveQuorum cjson m.diskCount (op.apply cached).1 io m.files).2 = .ok
      · refine ⟨_, _, ⟨hready, hcount, ?_, hfits, ?_, Or.inl rfl⟩, hsucc.follows⟩
        · rw [hcall, if_pos hok]
        · rw [hcall]
          exact hnew
      · refine ⟨cached, _, ⟨hready, hcount, ?_, hfits, ?_, hsucc⟩, Follows.refl cached⟩
        · rw [hcall, if_neg hok]
        · rw [hcall]
          exact hnew
    · refine ⟨cached, ahead, ⟨hready, hcount, ?_, h.fits, ?_, h.successor⟩, Follows.refl cached⟩
      · rw [hcall, if_neg hfail]
      · rw [hcall]
        exact hold
  · rw [Manager.call_of_apply_error h.ready h.cache io hop]
    exact ⟨cached, ahead, h, Follows.refl cached⟩

/-- **One event** keeps the invariant and moves the cache forward or not at all. -/
theorem Inv.step {m : Manager cjson} {cached ahead : ClusterTopology} (h : Inv m cached ahead)
    {e : ManagerEvent} (hsafe : m.Safe xxhash64 e) :
    ∃ cached' ahead', Inv (m.step xxhash64 e) cached' ahead' ∧ Follows cached cached' := by
  cases e with
  | change op io => exact h.change (hsafe.1 cached h.cache) hsafe.2
  | reload =>
    have hload := h.elects.loadQuorum h.diskCount hsafe
    rw [Manager.step, Manager.load_eq xxhash64 h.ready hload]
    exact ⟨ahead, ahead, ⟨⟨h.ready.1, h.ready.2⟩, h.diskCount, rfl, h.fits, h.elects, Or.inl rfl⟩,
      h.successor.follows⟩

/-- **Along a run** all topologies that were cached are ordered. -/
theorem Inv.caches : ∀ {events : List ManagerEvent} {m : Manager cjson}
    {cached ahead : ClusterTopology}, Inv m cached ahead → m.SafeRun xxhash64 events →
    (m.caches xxhash64 events).Pairwise Follows ∧
      ∀ t ∈ m.caches xxhash64 events, Follows cached t
  | [], m, cached, ahead, h, _ => by
    simp [Manager.caches, h.cache, Follows.refl]
  | e :: events, m, cached, ahead, h, hsafe => by
    obtain ⟨cached', ahead', h', hfollows⟩ := h.step hsafe.1
    obtain ⟨hpairwise, hafter⟩ := h'.caches hsafe.2
    have hall : ∀ t ∈ (m.step xxhash64 e).caches xxhash64 events, Follows cached t :=
      fun t ht => hfollows.trans (hafter t ht)
    rw [Manager.caches, h.cache]
    refine ⟨List.pairwise_cons.mpr ⟨hall, hpairwise⟩, ?_⟩
    intro t ht
    rcases List.mem_cons.mp ht with rfl | ht
    · exact Follows.refl t
    · exact hall t ht

theorem inv_of_all_hold {m : Manager cjson} (hm : m.Ready) (hn : 0 < m.diskCount)
    (hcache : m.cache = some t) (hfits : Fits t)
    (hfiles : ∀ i < m.diskCount, topologyLoad cjson (m.files i) = some t) : Inv m t t where
  ready := hm
  diskCount := hn
  cache := hcache
  fits := hfits
  successor := Or.inl rfl
  elects := by
    unfold Elects
    split
    · exact hfiles 0 hn
    · rw [missing, List.countP_eq_zero.mpr]
      · unfold readQuorum
        split <;> omega
      · intro i hi
        simp [hfiles i (List.mem_range.mp hi)]

/-- **The cached topologies of a run**, from a manager whose disks all hold the cached one and
with saves that decide what a reload returns: the generation never decreases, and two topologies
cached with the same generation are equal. -/
theorem cached_generations {m : Manager cjson} (hm : m.Ready) (hn : 0 < m.diskCount)
    {t : ClusterTopology} (hcache : m.cache = some t) (hfits : Fits t)
    (hfiles : ∀ i < m.diskCount, topologyLoad cjson (m.files i) = some t)
    {events : List ManagerEvent} (hsafe : m.SafeRun xxhash64 events) :
    (m.caches xxhash64 events).Pairwise (fun a b => a.generation ≤ b.generation) ∧
      ∀ a ∈ m.caches xxhash64 events, ∀ b ∈ m.caches xxhash64 events,
        a.deploymentId = b.deploymentId → a.generation = b.generation → a = b := by
  obtain ⟨hpairwise, -⟩ := (inv_of_all_hold hm hn hcache hfits hfiles).caches hsafe
  have hsame : (m.caches xxhash64 events).Pairwise
      fun a b => a.generation = b.generation → a = b := hpairwise.imp fun h => h.2
  have : Std.Symm fun a b : ClusterTopology => a.generation = b.generation → a = b :=
    ⟨fun a b h heq => (h heq.symm).symm⟩
  exact ⟨hpairwise.imp fun h => h.1, fun a ha b hb _ hgen =>
    hsame.forall_of_forall (fun _ _ _ => rfl) ha hb hgen⟩

/-- A manager that has cached the topology all its disks hold. -/
def freshManager (cjson : CJson) (n : ℕ) (t : ClusterTopology) : Manager cjson where
  initialized := true
  cacheInitialized := true
  diskCount := n
  cache := some t
  files := fun _ => some (cjson.print (topologyToJson t))

theorem freshManager_ready (n : ℕ) (t : ClusterTopology) : (freshManager cjson n t).Ready :=
  ⟨rfl, rfl⟩

theorem freshManager_files (h : Fits t) (i : ℕ) :
    topologyLoad cjson ((freshManager cjson n t).files i) = some t := by
  rw [freshManager, topologyLoad_print h.wellTyped, h.onDisk]

theorem emptyTopology_fits {generation : ℤ} (h : IsInt generation) :
    Fits (emptyTopology generation) :=
  ⟨emptyTopology_wellTyped generation, h⟩

/-- The generation after `emptyTopology`'s first pool. -/
def onePool (generation : ℤ) : ClusterTopology :=
  { emptyTopology (generation + 1) with pools := [⟨0, []⟩] }

theorem onePool_fits {generation : ℤ} (h : IsInt (generation + 1)) : Fits (onePool generation) where
  generation := h
  wellTyped := {
    emptyTopology_wellTyped generation with
    pools := by
      intro pool hpool
      obtain rfl := List.mem_singleton.mp hpool
      exact ⟨show IsInt 0 by decide, by simp⟩ }

/-- A save on two disks that fails, but has written the first of them. -/
def secondFails (i : ℕ) : AtomicWrite := if i = 0 then .ok else .failed false

theorem loaded_secondFails {old : ClusterTopology} (ht : Fits t) (hold : Fits old) :
    ∀ a ∈ loadedTopologies cjson 2
      (saveQuorum cjson 2 t secondFails (freshManager cjson 2 old).files).1, a = old ∨ a = t := by
  intro a ha
  obtain ⟨i, hi, hload⟩ := List.mem_filterMap.mp ha
  rw [saveQuorum_file t _ _ (List.mem_range.mp hi)] at hload
  split at hload
  · rw [topologyLoad_print ht.wellTyped, ht.onDisk] at hload
    exact Or.inr (Option.some.inj hload).symm
  · rw [freshManager_files hold] at hload
    exact Or.inl (Option.some.inj hload).symm

theorem freshManager_addPool (cjson : CJson) (n : ℕ) (io : ℕ → AtomicWrite) (generation : ℤ) :
    ∃ saved, saved = saveQuorum cjson n (onePool generation) io
        (freshManager cjson n (emptyTopology generation)).files ∧
      (freshManager cjson n (emptyTopology generation)).call io .addPool =
        ({ freshManager cjson n (emptyTopology generation) with
            files := saved.1
            cache := if saved.2 = .ok then some (onePool generation)
              else some (emptyTopology generation) }, saved.2) :=
  ⟨_, rfl, Manager.call_of_apply_ok (freshManager_ready n (emptyTopology generation)) rfl
    io rfl rfl⟩

/-- Adding a pool fails on two disks, and a reload then finds it on the first. -/
theorem cached_generations_two_disks :
    ∃ (xxhash64 : UInt64 → Bytes → UInt64) (events : List ManagerEvent),
      events = [.change .addPool secondFails, .reload] ∧
      (freshManager CJson.reference 2 (emptyTopology 1)).SafeRun xxhash64 events ∧
      ((freshManager CJson.reference 2 (emptyTopology 1)).caches xxhash64 events).Pairwise
        (fun a b => a.generation ≤ b.generation) := by
  have h1 : Fits (emptyTopology 1) := emptyTopology_fits (by decide)
  have h2 : Fits (onePool 1) := onePool_fits (by decide)
  have hsafe : (freshManager CJson.reference 2 (emptyTopology 1)).SafeRun
      (separating CJson.reference (emptyTopology 1))
      [.change .addPool secondFails, .reload] := by
    refine ⟨⟨?_, safeSave_of_le_two (by decide) (by decide) _⟩, ?_, trivial⟩
    · intro cached hcached
      obtain rfl : emptyTopology 1 = cached := Option.some.inj hcached
      exact h2
    · obtain ⟨saved, rfl, hcall⟩ := freshManager_addPool CJson.reference 2 secondFails 1
      rw [Manager.step, hcall]
      exact noCollision_separating h1.wellTyped h2.wellTyped h1.onDisk h2.onDisk (by decide)
        (loaded_secondFails h2 h1)
  exact ⟨_, _, rfl, hsafe,
    (cached_generations (freshManager_ready 2 _) (show 0 < 2 by decide) rfl h1
    (fun i _ => freshManager_files h1 i) hsafe).1⟩

/-- Three disks hold generation 1.  A pool is added, the first disk misses the save, and the save
succeeds on the other two: generation 2 is cached.  A reload then caches generation 1 again. -/
theorem cached_generations_three_disks :
    ∃ (xxhash64 : UInt64 → Bytes → UInt64) (io : ℕ → AtomicWrite) (cached : ClusterTopology),
      ((freshManager CJson.reference 3 (emptyTopology 1)).call io .addPool).2 = .ok ∧
      NoCollision CJson.reference xxhash64 3
        ((freshManager CJson.reference 3 (emptyTopology 1)).call io .addPool).1.files ∧
      (freshManager CJson.reference 3 (emptyTopology 1)).caches xxhash64
        [.change .addPool io, .reload] = [emptyTopology 1, cached, emptyTopology 1] ∧
      (emptyTopology 1).generation < cached.generation := by
  have h1 : Fits (emptyTopology 1) := emptyTopology_fits (by decide)
  have h2 : Fits (onePool 1) := onePool_fits (by decide)
  obtain ⟨hok, hcoll, hload⟩ := loadQuorum_saveQuorum_odd (n := 3) rfl le_rfl h2.wellTyped
    h1.wellTyped h1.onDisk (by decide)
    (show (freshManager CJson.reference 3 (emptyTopology 1)).files = _ from rfl)
  obtain ⟨saved, hsaved, hcall⟩ := freshManager_addPool CJson.reference 3
    (failingFront 3) 1
  rw [← hsaved] at hok hcoll hload
  refine ⟨separating CJson.reference (emptyTopology 1), failingFront 3, onePool 1, ?_, ?_, ?_,
    by decide⟩
  · rw [hcall, hok]
  · rw [hcall]
    exact hcoll
  · rw [Manager.caches, Manager.caches, Manager.caches, Manager.step, Manager.step, hcall,
      if_pos hok, Manager.load_eq _ ⟨rfl, rfl⟩ (hload _)]
    rfl

end Buckets
