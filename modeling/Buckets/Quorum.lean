/-
# Saving and loading the topology with a quorum

`buckets_topology_save_quorum` writes `topology.json` to every disk and asks for `N/2 + 1` writes
that succeed.  `buckets_topology_load_quorum` reads the disks in order, counts the contents by
their hash and returns the first content with `N/2` votes.

The two quorums together are `N + 1` for an even `N` but only `N` for an odd one, so for an odd
`N ≥ 3` the disks that missed a successful save are enough to elect the topology they still hold,
and they win if they come first.

* `saveQuorum_file`, `saveQuorum_ok_iff`: what a save leaves on the disks and what it returns;
* `loadQuorum_of_installed`: a topology that fewer than a read quorum of disks have missed is the
  one that is loaded, in any order of the disks;
* `loadQuorum_of_stale_front`: a read quorum of disks in front that hold another one.
-/
import Mathlib.Data.List.Count
import Buckets.Lib.PointLoop
import Buckets.Lib.Votes
import Buckets.Topology

namespace Buckets

variable (cjson : CJson)

/-! ## 1. Save and load -/

/-- The `topology.json` files, by position in `disk_paths`. -/
abbrev TopologyFiles := ℕ → Option cjson.Text

/-- The file after `buckets_topology_save`. -/
def topologySave (r : AtomicWrite) (old : Option cjson.Text) (t : ClusterTopology) :
    Option cjson.Text :=
  jsonSave cjson r old (topologyToJson t)

/-- `buckets_topology_load`. -/
def topologyLoad (file : Option cjson.Text) : Option ClusterTopology :=
  (jsonLoad cjson file).bind topologyFromJson

/-- One round of the loop of `buckets_topology_save_quorum`: the files and the successes. -/
def saveStep (t : ClusterTopology) (io : ℕ → AtomicWrite) (s : TopologyFiles cjson × ℕ) (i : ℕ) :
    TopologyFiles cjson × ℕ :=
  (Function.update s.1 i (topologySave cjson (io i) (s.1 i) t),
    if (io i).isOk then s.2 + 1 else s.2)

/-- `buckets_topology_save_quorum` on `diskCount` disks. -/
def saveQuorum (diskCount : ℕ) (t : ClusterTopology) (io : ℕ → AtomicWrite)
    (files : TopologyFiles cjson) : TopologyFiles cjson × Ret :=
  if diskCount = 0 then (files, .errInvalidArg)
  else
    let requiredQuorum := diskCount / 2 + 1
    let s := (List.range diskCount).foldl (saveStep cjson t io) (files, 0)
    (s.1, if requiredQuorum ≤ s.2 then .ok else .errQuorum)

/-- The read quorum: half the disks, but one disk at least. -/
def readQuorum (diskCount : ℕ) : ℕ := if diskCount > 1 then diskCount / 2 else 1

variable (xxhash64 : UInt64 → Bytes → UInt64)

/-- The hash a loaded topology is counted under. -/
def contentHash (t : ClusterTopology) : UInt64 :=
  xxhash64 0 (cjson.chars (cjson.printUnformatted (topologyToJson t)))

/-- The topologies of the readable files, in the order of the disks. -/
def loadedTopologies (diskCount : ℕ) (files : TopologyFiles cjson) : List ClusterTopology :=
  (List.range diskCount).filterMap fun i => topologyLoad cjson (files i)

/-- `buckets_topology_load_quorum`. -/
def loadQuorum (diskCount : ℕ) (files : TopologyFiles cjson) : Option ClusterTopology :=
  if diskCount = 0 then none
  else
    Votes.elect (contentHash cjson xxhash64) (readQuorum diskCount)
      (loadedTopologies cjson diskCount files)

/-- No two topologies that the disks hold have the same hash. -/
def NoCollision (diskCount : ℕ) (files : TopologyFiles cjson) : Prop :=
  ∀ a ∈ loadedTopologies cjson diskCount files, ∀ b ∈ loadedTopologies cjson diskCount files,
    contentHash cjson xxhash64 a = contentHash cjson xxhash64 b → a = b

variable {cjson} {xxhash64}

/-! ## 2. What a save does -/

/-- A topology as `topology.json` keeps it. -/
def onDisk (t : ClusterTopology) : ClusterTopology := { t with generation := toInt t.generation }

variable {t : ClusterTopology} {n : ℕ} {files : TopologyFiles cjson}

theorem onDisk_of_isInt (h : IsInt t.generation) : onDisk t = t := by
  rw [onDisk, toInt_of_isInt h]

theorem onDisk_eq_iff : onDisk t = t ↔ IsInt t.generation := by
  refine ⟨fun h => ?_, onDisk_of_isInt⟩
  rw [← h]
  exact isInt_toInt _

theorem onDisk_onDisk (t : ClusterTopology) : onDisk (onDisk t) = onDisk t :=
  onDisk_of_isInt (isInt_toInt t.generation)

theorem ClusterTopology.WellTyped.onDisk (h : t.WellTyped) :
    (onDisk t).WellTyped :=
  ⟨h.version, h.vnodeFactor, h.deploymentId, h.pools⟩

theorem topologyLoad_print (h : t.WellTyped) :
    topologyLoad cjson (some (cjson.print (topologyToJson t))) = some (onDisk t) := by
  simp [topologyLoad, jsonLoad, cjson.parse_print, topologyFromJson_toJson h, onDisk]

theorem saveStep_updates (t : ClusterTopology) (io : ℕ → AtomicWrite) :
    PointLoop.Updates (fun s : TopologyFiles cjson × ℕ => s.1) (saveStep cjson t io) id
      (fun i old => topologySave cjson (io i) old t) where
  own _ _ := Function.update_self ..
  other _ _ _ hc := Function.update_of_ne hc ..

theorem foldl_saveStep_snd (t : ClusterTopology) (io : ℕ → AtomicWrite)
    (files : TopologyFiles cjson) (n : ℕ) :
    ((List.range n).foldl (saveStep cjson t io) (files, 0)).2 =
      (List.range n).countP fun i => (io i).isOk := by
  induction n with
  | zero => rfl
  | succ n ih =>
    rw [List.range_succ, List.foldl_append, List.countP_append, ← ih]
    by_cases h : (io n).isOk = true <;> simp [saveStep, h]

/-- **The file of each disk after a save.** -/
theorem saveQuorum_file (t : ClusterTopology) (io : ℕ → AtomicWrite) (files : TopologyFiles cjson)
    {i : ℕ} (hi : i < n) : (saveQuorum cjson n t io files).1 i =
      if (io i).installs then some (cjson.print (topologyToJson t)) else files i := by
  rw [saveQuorum, if_neg (by omega)]
  exact (saveStep_updates t io).get_foldl_own Function.injective_id.injOn hi (files, 0)

/-- **A save is OK if more than half of the writes are.** -/
theorem saveQuorum_ok_iff (t : ClusterTopology) (io : ℕ → AtomicWrite)
    (files : TopologyFiles cjson) (n : ℕ) : (saveQuorum cjson n t io files).2 = .ok ↔
      n / 2 + 1 ≤ (List.range n).countP fun i => (io i).isOk := by
  unfold saveQuorum
  split
  · rename_i hn
    simp [hn]
  · dsimp only
    rw [foldl_saveStep_snd]
    split <;> simp_all

/-! ## 3. What a load returns -/

/-- The number of disks that do not hold `t`. -/
def missing (cjson : CJson) (n : ℕ) (files : TopologyFiles cjson) (t : ClusterTopology) : ℕ :=
  (List.range n).countP fun i => !decide (topologyLoad cjson (files i) = some t)

theorem length_loadedTopologies_le (n : ℕ) (files : TopologyFiles cjson) :
    (loadedTopologies cjson n files).length ≤ n := by
  have := List.length_filterMap_le (fun i => topologyLoad cjson (files i)) (List.range n)
  rwa [List.length_range] at this

theorem mem_loadedTopologies {i : ℕ}
    (hi : i < n) (h : topologyLoad cjson (files i) = some t) :
    t ∈ loadedTopologies cjson n files :=
  List.mem_filterMap.mpr ⟨i, List.mem_range.mpr hi, h⟩

/-- The votes for `t` are those of the disks that hold it, and more only by a collision. -/
theorem le_count_add_missing (n : ℕ) (files : TopologyFiles cjson) (t : ClusterTopology) :
    n ≤ Votes.count (contentHash cjson xxhash64) (contentHash cjson xxhash64 t)
      (loadedTopologies cjson n files) + missing cjson n files t := by
  unfold loadedTopologies missing
  induction n with
  | zero => simp
  | succ n ih =>
    rw [List.range_succ, List.filterMap_append, List.countP_append, Votes.count,
      List.countP_append, ← Votes.count]
    by_cases h : topologyLoad cjson (files n) = some t
    · have hlast : [n].filterMap (fun i => topologyLoad cjson (files i)) = [t] := by simp [h]
      simp only [h, hlast, List.countP_singleton, decide_true, Bool.not_true, Bool.false_eq_true,
        if_true, if_false]
      omega
    · simp only [h, List.countP_singleton, decide_false, Bool.not_false, if_true]
      omega

/-- **Fewer than a read quorum of disks miss `t`: it is loaded**, in any order of the disks. -/
theorem loadQuorum_of_installed
    (hn : 0 < n) (hcoll : NoCollision cjson xxhash64 n files)
    (hmissing : missing cjson n files t < readQuorum n) :
    loadQuorum cjson xxhash64 n files = some t := by
  have hq : 2 * readQuorum n ≤ n + 1 := by
    unfold readQuorum
    split <;> omega
  have hcount : n ≤ Votes.count (contentHash cjson xxhash64) (contentHash cjson xxhash64 t)
      (loadedTopologies cjson n files) + missing cjson n files t := le_count_add_missing n files t
  have hlen := length_loadedTopologies_le n files
  -- a disk that holds `t` exists, since not all of them miss it
  obtain ⟨i, hi, hload⟩ : ∃ i < n, topologyLoad cjson (files i) = some t := by
    by_contra hnone
    push Not at hnone
    have hall : missing cjson n files t = n := by
      rw [missing, List.countP_eq_length.mpr, List.length_range]
      intro i hi
      simpa using hnone i (List.mem_range.mp hi)
    unfold readQuorum at hmissing
    split at hmissing <;> omega
  have hmem := mem_loadedTopologies hi hload
  rw [loadQuorum, if_neg (by omega)]
  refine Votes.elect_eq (fun b hb hkey => hcoll b hb t hmem hkey) hmem ?_ ?_
  · omega
  · omega

/-- **A read quorum of disks in front that hold `old`: that one is loaded.** -/
theorem loadQuorum_of_stale_front {old : ClusterTopology}
    (hn : 0 < n) (hstale : ∀ i < readQuorum n, topologyLoad cjson (files i) = some old) :
    loadQuorum cjson xxhash64 n files = some old := by
  have hq : 0 < readQuorum n ∧ readQuorum n ≤ n := by
    unfold readQuorum
    split <;> omega
  have hfront : ((List.range (readQuorum n)).filterMap fun i => topologyLoad cjson (files i)) =
      List.replicate (readQuorum n) old := by
    rw [List.filterMap_congr fun i hi => hstale i (List.mem_range.mp hi)]
    simp
  have hsplit : List.range n = List.range (readQuorum n) ++
      (List.range (n - readQuorum n)).map (readQuorum n + ·) := by
    rw [← List.range_add, Nat.add_sub_cancel' hq.2]
  rw [loadQuorum, if_neg (by omega), loadedTopologies, hsplit, List.filterMap_append, hfront]
  exact Votes.elect_replicate_append hq.1 old _

/-! ## 4. A load after a save -/

theorem countP_range_le {p q : ℕ → Bool} (h : ∀ i < n, p i = true → q i = true) :
    (List.range n).countP p ≤ (List.range n).countP q :=
  List.countP_mono_left fun i hi => h i (List.mem_range.mp hi)

/-- A disk misses the saved topology only if its write did not install it. -/
theorem missing_saveQuorum_le (ht : t.WellTyped) (io : ℕ → AtomicWrite)
    (files : TopologyFiles cjson) (n : ℕ) :
    missing cjson n (saveQuorum cjson n t io files).1 (onDisk t) ≤
      (List.range n).countP fun i => !(io i).installs := by
  refine countP_range_le fun i hi hmiss => ?_
  rw [saveQuorum_file t io files hi] at hmiss
  by_contra hinstalls
  rw [Bool.not_eq_true, Bool.not_eq_false'] at hinstalls
  rw [if_pos hinstalls, topologyLoad_print ht] at hmiss
  simp at hmiss

theorem countP_not_installs_le (io : ℕ → AtomicWrite) (n : ℕ) :
    ((List.range n).countP fun i => !(io i).installs) +
      ((List.range n).countP fun i => (io i).isOk) ≤ n := by
  have hmono : ((List.range n).countP fun i => !(io i).installs) ≤
      (List.range n).countP fun i => !(io i).isOk := by
    refine countP_range_le fun i _ hi => ?_
    by_contra hok
    rw [Bool.not_eq_true, Bool.not_eq_false'] at hok
    simp [AtomicWrite.installs_of_isOk hok] at hi
  have hlen := List.length_eq_countP_add_countP (fun i => (io i).isOk) (l := List.range n)
  simp only [List.length_range, Bool.not_eq_true, Bool.decide_eq_false] at hlen
  omega

/-- For an even number of disks a successful save leaves less than a read quorum without it. -/
theorem loadQuorum_saveQuorum (hn : n = 1 ∨ n % 2 = 0)
    (ht : t.WellTyped) {io : ℕ → AtomicWrite}
    (hok : (saveQuorum cjson n t io files).2 = .ok)
    (hcoll : NoCollision cjson xxhash64 n (saveQuorum cjson n t io files).1) :
    loadQuorum cjson xxhash64 n (saveQuorum cjson n t io files).1 = some (onDisk t) := by
  have hcount := (saveQuorum_ok_iff t io files n).mp hok
  have hle := countP_not_installs_le io n
  have hmiss := missing_saveQuorum_le ht io files n
  refine loadQuorum_of_installed (by omega) hcoll ?_
  unfold readQuorum
  split <;> omega

/-- A topology with another generation, that the file keeps. -/
def otherGeneration (t : ClusterTopology) : ClusterTopology :=
  { t with generation := if toInt t.generation = 0 then 1 else 0 }

theorem otherGeneration_spec (ht : t.WellTyped) :
    (otherGeneration t).WellTyped ∧ onDisk (otherGeneration t) = otherGeneration t ∧
      otherGeneration t ≠ onDisk t ∧ otherGeneration t ≠ t := by
  have hint : IsInt (otherGeneration t).generation := by
    simp only [otherGeneration, IsInt]
    split <;> omega
  refine ⟨⟨ht.version, ht.vnodeFactor, ht.deploymentId, ht.pools⟩, onDisk_of_isInt hint, ?_, ?_⟩
  · intro h
    have := congrArg ClusterTopology.generation h
    simp only [otherGeneration, onDisk] at this
    split at this <;> omega
  · intro h
    have hgen := congrArg ClusterTopology.generation h
    rw [h] at hint
    have := toInt_of_isInt hint
    simp only [otherGeneration] at hgen
    split at hgen <;> omega

/-- A hash under which no topology collides with `a`. -/
def separating (cjson : CJson) (a : ClusterTopology) (_ : UInt64) (bytes : Bytes) : UInt64 :=
  if bytes = cjson.chars (cjson.printUnformatted (topologyToJson a)) then 1 else 0

theorem separating_spec {a b : ClusterTopology} (ha : a.WellTyped) (hb : b.WellTyped)
    (ha' : onDisk a = a) (hb' : onDisk b = b) (hne : a ≠ b) :
    contentHash cjson (separating cjson a) a = 1 ∧
      contentHash cjson (separating cjson a) b = 0 := by
  refine ⟨if_pos rfl, if_neg fun h => hne ?_⟩
  have hload : some (onDisk b) = some (onDisk a) := by
    rw [onDisk, onDisk, ← topologyFromJson_toJson hb, ← topologyFromJson_toJson ha,
      cjson.chars_printUnformatted_injective h]
  rw [ha', hb'] at hload
  exact (Option.some.inj hload).symm

theorem noCollision_separating {old new : ClusterTopology} (hold : old.WellTyped)
    (hnew : new.WellTyped) (hold' : onDisk old = old) (hnew' : onDisk new = new) (hne : old ≠ new)
    (hmem : ∀ a ∈ loadedTopologies cjson n files, a = old ∨ a = new) :
    NoCollision cjson (separating cjson old) n files := by
  obtain ⟨h1, h0⟩ : contentHash cjson (separating cjson old) old = 1 ∧
      contentHash cjson (separating cjson old) new = 0 :=
    separating_spec hold hnew hold' hnew' hne
  intro a ha b hb heq
  rcases hmem a ha with rfl | rfl <;> rcases hmem b hb with rfl | rfl
  · rfl
  · rw [h1, h0] at heq
    exact absurd heq (by decide)
  · rw [h1, h0] at heq
    exact absurd heq (by decide)
  · rfl

/-- The writes to the first half of the disks fail. -/
def failingFront (n : ℕ) (i : ℕ) : AtomicWrite := if i < n / 2 then .failed false else .ok

theorem countP_failingFront (n : ℕ) :
    ((List.range n).countP fun i => (failingFront n i).isOk) = n - n / 2 := by
  have hsplit : List.range n = List.range (n / 2) ++ (List.range (n - n / 2)).map (n / 2 + ·) := by
    rw [← List.range_add]
    congr 1
    omega
  rw [hsplit, List.countP_append, List.countP_eq_zero.mpr, List.countP_map,
    List.countP_eq_length.mpr, List.length_range, zero_add]
  · intro i _
    simp [failingFront, AtomicWrite.isOk]
  · intro i hi
    simp [failingFront, List.mem_range.mp hi, AtomicWrite.isOk]

/-- **For an odd number of disks above one, a successful save can leave a read quorum in front that
holds the topology of before.** -/
theorem loadQuorum_saveQuorum_odd (hodd : n % 2 = 1) (h3 : 3 ≤ n)
    {old : ClusterTopology} (ht : t.WellTyped) (hold : old.WellTyped) (hdisk : onDisk old = old)
    (hne : old ≠ onDisk t)
    (hfiles : files = fun _ => some (cjson.print (topologyToJson old))) :
    (saveQuorum cjson n t (failingFront n) files).2 = .ok ∧
      NoCollision cjson (separating cjson old) n
        (saveQuorum cjson n t (failingFront n) files).1 ∧
      ∀ xxhash64 : UInt64 → Bytes → UInt64,
        loadQuorum cjson xxhash64 n (saveQuorum cjson n t (failingFront n) files).1 =
          some old := by
  have hload : ∀ i < n, topologyLoad cjson ((saveQuorum cjson n t (failingFront n) files).1 i) =
      some (if i < n / 2 then old else onDisk t) := by
    intro i hi
    rw [saveQuorum_file t _ files hi]
    by_cases hfront : i < n / 2
    · simp [failingFront, hfront, AtomicWrite.installs, hfiles, topologyLoad_print hold, hdisk]
    · simp [failingFront, hfront, AtomicWrite.installs, topologyLoad_print ht]
  have hmem : ∀ a ∈ loadedTopologies cjson n (saveQuorum cjson n t (failingFront n) files).1,
      a = old ∨ a = onDisk t := by
    intro a ha
    obtain ⟨i, hi, hai⟩ := List.mem_filterMap.mp ha
    rw [hload i (List.mem_range.mp hi)] at hai
    obtain rfl := Option.some.inj hai
    split
    · exact Or.inl rfl
    · exact Or.inr rfl
  refine ⟨?_, noCollision_separating hold ht.onDisk hdisk (onDisk_onDisk t) hne hmem,
    fun xxhash64 => ?_⟩
  · rw [saveQuorum_ok_iff, countP_failingFront]
    omega
  · refine loadQuorum_of_stale_front (by omega) fun i hi => ?_
    have hq : readQuorum n = n / 2 := if_pos (by omega)
    rw [hq] at hi
    rw [hload i (by omega), if_pos hi]

/-- A save whose writes all succeed: every disk holds the topology, and nothing can collide. -/
theorem saveQuorum_all_ok (hn : 0 < n) (ht : t.WellTyped)
    (xxhash64 : UInt64 → Bytes → UInt64) (files : TopologyFiles cjson) :
    (saveQuorum cjson n t (fun _ => .ok) files).2 = .ok ∧
      NoCollision cjson xxhash64 n (saveQuorum cjson n t (fun _ => .ok) files).1 := by
  have hmem : ∀ a ∈ loadedTopologies cjson n (saveQuorum cjson n t (fun _ => .ok) files).1,
      a = onDisk t := by
    intro a ha
    obtain ⟨i, hi, hai⟩ := List.mem_filterMap.mp ha
    rw [saveQuorum_file t _ files (List.mem_range.mp hi)] at hai
    exact (Option.some.inj (hai.symm.trans (topologyLoad_print ht)))
  refine ⟨?_, fun a ha b hb _ => (hmem a ha).trans (hmem b hb).symm⟩
  have hcount : ((List.range n).countP fun _ => AtomicWrite.ok.isOk) = n := by
    rw [List.countP_eq_length.mpr fun _ _ => show AtomicWrite.ok.isOk = true from rfl,
      List.length_range]
  rw [saveQuorum_ok_iff, hcount]
  omega

/-- **When a load after a successful save returns what was saved**, whatever the disks held before,
whichever writes failed and in any order of the disks: for one disk and for an even number of them,
and if the generation fits an `int`.  (On no disk at all no save succeeds.) -/
theorem loadQuorum_saveQuorum_iff (cjson : CJson) (n : ℕ) {t : ClusterTopology}
    (ht : t.WellTyped) :
    (∀ (xxhash64 : UInt64 → Bytes → UInt64) (files : TopologyFiles cjson) (io : ℕ → AtomicWrite),
      (saveQuorum cjson n t io files).2 = .ok →
      NoCollision cjson xxhash64 n (saveQuorum cjson n t io files).1 →
      loadQuorum cjson xxhash64 n (saveQuorum cjson n t io files).1 = some t) ↔
    n = 0 ∨ ((n = 1 ∨ n % 2 = 0) ∧ IsInt t.generation) := by
  obtain ⟨hother, hdisk, hne, hnet⟩ := otherGeneration_spec ht
  constructor
  · intro hall
    rcases Nat.eq_zero_or_pos n with h0 | hpos
    · exact Or.inl h0
    by_cases hn : n = 1 ∨ n % 2 = 0
    · refine Or.inr ⟨hn, onDisk_eq_iff.mp ?_⟩
      obtain ⟨hok, hcoll⟩ := saveQuorum_all_ok hpos ht (fun _ _ => 0)
        (fun _ => (none : Option cjson.Text))
      have hload := hall _ _ _ hok hcoll
      rw [loadQuorum_saveQuorum hn ht hok hcoll] at hload
      exact Option.some.inj hload
    · obtain ⟨hok, hcoll, hstale⟩ := loadQuorum_saveQuorum_odd (n := n) (by omega) (by omega) ht
        hother hdisk hne (Eq.refl fun _ => some (cjson.print (topologyToJson (otherGeneration t))))
      have hload := hall _ _ _ hok hcoll
      rw [hstale] at hload
      exact absurd (Option.some.inj hload) hnet
  · rintro (rfl | ⟨hn, hint⟩) xxhash64 files io hok hcoll
    · simp [saveQuorum] at hok
    · rw [loadQuorum_saveQuorum hn ht hok hcoll, onDisk_of_isInt hint]

/-- A topology without pools. -/
def emptyTopology (generation : ℤ) : ClusterTopology :=
  ⟨topologyVersion, generation, cstr "d", defaultVnodeFactor, []⟩

theorem emptyTopology_wellTyped (generation : ℤ) : (emptyTopology generation).WellTyped where
  version := show IsInt topologyVersion by decide
  vnodeFactor := show IsInt defaultVnodeFactor by decide
  deploymentId := show (cstr "d").length < 37 by decide
  pools := by simp [emptyTopology]

theorem loadQuorum_saveQuorum_four_disks : (emptyTopology 2).WellTyped ∧
    ∀ (xxhash64 : UInt64 → Bytes → UInt64) (files : TopologyFiles CJson.reference)
      (io : ℕ → AtomicWrite),
      (saveQuorum CJson.reference 4 (emptyTopology 2) io files).2 = .ok →
      NoCollision CJson.reference xxhash64 4
        (saveQuorum CJson.reference 4 (emptyTopology 2) io files).1 →
      loadQuorum CJson.reference xxhash64 4
        (saveQuorum CJson.reference 4 (emptyTopology 2) io files).1 = some (emptyTopology 2) :=
  ⟨emptyTopology_wellTyped 2,
    (loadQuorum_saveQuorum_iff CJson.reference 4 (emptyTopology_wellTyped 2)).mpr
      (Or.inr ⟨Or.inr rfl, show IsInt 2 by decide⟩)⟩

/-- Three disks, all with generation 1.  Generation 2 is written to two of them, the save is OK,
and the load returns generation 1 from the disk that was missed. -/
theorem loadQuorum_saveQuorum_stale_disk :
    ∃ (xxhash64 : UInt64 → Bytes → UInt64) (files : TopologyFiles CJson.reference)
      (io : ℕ → AtomicWrite),
      (saveQuorum CJson.reference 3 (emptyTopology 2) io files).2 = .ok ∧
      NoCollision CJson.reference xxhash64 3
        (saveQuorum CJson.reference 3 (emptyTopology 2) io files).1 ∧
      loadQuorum CJson.reference xxhash64 3
        (saveQuorum CJson.reference 3 (emptyTopology 2) io files).1 = some (emptyTopology 1) := by
  obtain ⟨hok, hcoll, hload⟩ := loadQuorum_saveQuorum_odd (n := 3) rfl le_rfl
    (emptyTopology_wellTyped 2) (emptyTopology_wellTyped 1)
    (onDisk_of_isInt (show IsInt 1 by decide)) (by decide)
    (Eq.refl fun _ => some (CJson.reference.print (topologyToJson (emptyTopology 1))))
  exact ⟨_, _, _, hok, hcoll, hload _⟩

end Buckets
