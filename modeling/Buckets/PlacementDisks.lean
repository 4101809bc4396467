/-
# Which disk a placement names

With empty endpoints a placement is put together from TWO tables.  The UUIDs come from the topology,
where a set has a pool and a number; the paths come from the multi-disk layer, whose sets have a
number only and whose list of disks leaves out those that are offline.  Entry `i` of the result
pairs the `i`-th UUID of the one with the `i`-th path of the other.

Which disk is at a path is written on it: `format.json` holds the disk's UUID, and that is how
`buckets_multidisk_init` found the path in the first place (`pathOf`, `multidiskInit_located`).

* `placementCompute_served`, `Node.Served.compute`: the placements of a node are the sets it serves;
* `placement_disks_iff`: the two tables agree exactly when the topology lists, for each set that is
  served, the online disks of that NUMBER, and lists no disk for two sets;
* `placement_two_pools`: with a second pool they cannot.
-/
import Buckets.PlacementRing

namespace Buckets

open HashRing

/-! ## 1. The disks of the multi-disk layer -/

/-- `buckets_format_t` of a disk, as far as the multi-disk layer reads it: the UUID of the disk
itself and those of the disks of each set. -/
structure DiskFormat where
  thisDisk : CString
  sets : List (List CString)

/-- A disk of `disk_set_t` with its UUID. -/
structure NamedDisk where
  uuid : CString
  disk : MultiDisk
deriving DecidableEq

/-- The path of a disk that is online. -/
def NamedDisk.onlineAt (named : NamedDisk) : CString := named.disk.onlinePath.getD []

section Init

-- `buckets_format_load`: what `format.json` under a path says
variable (formatLoad : CString → Option DiskFormat) (diskPaths : List CString)

/-- The UUID of the disk at a path. -/
def diskAt (path : CString) : Option CString := (formatLoad path).map DiskFormat.thisDisk

/-- The first path whose disk has this UUID. -/
def pathOf (uuid : CString) : Option CString :=
  diskPaths.find? fun path => decide (diskAt formatLoad path = some uuid)

/-- `buckets_multidisk_init`: the sets of the first format found, each disk with its path. -/
def multidiskInit : Option (List (List NamedDisk)) :=
  if diskPaths = [] then none
  else
    (diskPaths.findSome? formatLoad).map fun format => format.sets.map fun uuids =>
      uuids.map fun uuid =>
        ⟨uuid, pathOf formatLoad diskPaths uuid, (pathOf formatLoad diskPaths uuid).isSome⟩

variable {formatLoad diskPaths}

theorem diskAt_pathOf {uuid path : CString} (h : pathOf formatLoad diskPaths uuid = some path) :
    diskAt formatLoad path = some uuid := by
  have hfound := List.find?_some h
  exact of_decide_eq_true hfound

end Init

/-- A multi-disk configuration: every disk that has a path has the one of its UUID.  Nothing is
said of which disks are online. -/
structure MultidiskConfig (formatLoad : CString → Option DiskFormat) (diskPaths : List CString)
    where
  sets : List (List NamedDisk)
  located : ∀ set ∈ sets, ∀ named ∈ set, named.disk.path = pathOf formatLoad diskPaths named.uuid

section Config

variable {formatLoad : CString → Option DiskFormat} {diskPaths : List CString}

/-- **The multi-disk layer starts** with a configuration. -/
theorem multidiskInit_located {sets : List (List NamedDisk)}
    (h : multidiskInit formatLoad diskPaths = some sets) :
    ∀ set ∈ sets, ∀ named ∈ set, named.disk.path = pathOf formatLoad diskPaths named.uuid := by
  unfold multidiskInit at h
  split at h
  · cases h
  · obtain ⟨format, -, rfl⟩ := Option.map_eq_some_iff.mp h
    intro set hset named hnamed
    obtain ⟨uuids, -, rfl⟩ := List.mem_map.mp hset
    obtain ⟨uuid, -, rfl⟩ := List.mem_map.mp hnamed
    rfl

namespace MultidiskConfig

variable (config : MultidiskConfig formatLoad diskPaths)

/-- The context that `buckets_multidisk_get_set_disks` reads. -/
def ctx : MultidiskCtx := ⟨config.sets.map fun set => set.map NamedDisk.disk⟩

/-- The online disks of a set, 64 at most. -/
def onlineDisks (setIndex : ℕ) : List NamedDisk :=
  ((config.sets.getD setIndex []).filter fun named => named.disk.onlinePath.isSome).take 64

variable {config}

/-- An online disk is at the path of its UUID. -/
theorem pathOf_online {setIndex : ℕ} {named : NamedDisk} (h : named ∈ config.onlineDisks setIndex) :
    pathOf formatLoad diskPaths named.uuid = some named.onlineAt := by
  obtain ⟨hmem, honline⟩ := List.mem_filter.mp (List.mem_of_mem_take h)
  have hset : named.disk.path = pathOf formatLoad diskPaths named.uuid := by
    rw [List.getD_eq_getElem?_getD] at hmem
    cases hset : config.sets[setIndex]? with
    | none =>
      rw [hset] at hmem
      exact absurd hmem List.not_mem_nil
    | some set =>
      rw [hset] at hmem
      exact config.located set (List.mem_of_getElem? hset) named hmem
  obtain ⟨path, hpath⟩ := Option.isSome_iff_exists.mp honline
  have hdisk : named.disk.path = some path := by
    unfold MultiDisk.onlinePath at hpath
    split at hpath
    · exact hpath
    · cases hpath
  rw [NamedDisk.onlineAt, hpath, Option.getD_some, ← hset, hdisk]

/-- **The paths of a set** are those of its online disks. -/
theorem getSetDisks_eq (setIndex : ℕ) :
    getSetDisks (some config.ctx) setIndex 64 =
      (config.onlineDisks setIndex).map NamedDisk.onlineAt := by
  have hpaths : ∀ set : List NamedDisk,
      (set.map NamedDisk.disk).filterMap MultiDisk.onlinePath =
        (set.filter fun named => named.disk.onlinePath.isSome).map NamedDisk.onlineAt := by
    intro set
    induction set with
    | nil => rfl
    | cons named set ih =>
      cases hpath : named.disk.onlinePath with
      | none => simp [hpath, ih]
      | some path => simp [hpath, ih, NamedDisk.onlineAt]
  rw [getSetDisks, onlineDisks, List.map_take]
  simp only [ctx, List.getElem?_map, List.getD_eq_getElem?_getD]
  cases config.sets[setIndex]? with
  | none => rfl
  | some set => simp only [Option.map_some, Option.getD_some, hpaths]

end MultidiskConfig

end Config

/-! ## 2. The sets a node serves -/

section Served

variable {formatLoad : CString → Option DiskFormat} {diskPaths : List CString} (hashes : Hashes)

/-- The vnode of some object stands for this set, and the multi-disk set of its number has as many
disks online. -/
structure Node.Served (node : Node) (config : MultidiskConfig formatLoad diskPaths) (vnode : Vnode)
    (set : SetTopology) : Prop where
  initialized : node.placementInitialized = true
  hashed : ∃ bucket object, node.vnodeOf hashes bucket object = some vnode
  setOf : node.setOf vnode = some set
  enough : set.disks.length ≤ (config.onlineDisks vnode.setIdx).length

/-- No disk of the topology has an endpoint, and the paths come from this configuration. -/
structure Node.Local (node : Node) (config : MultidiskConfig formatLoad diskPaths) : Prop where
  endpoints : ∀ vnode set, node.setOf vnode = some set → ∀ disk ∈ set.disks, disk.endpoint = []
  multidisk : node.multidisk = some config.ctx

/-- The placement of a set: the UUIDs from the topology, the paths from the multi-disk layer. -/
structure Placement.Of (p : Placement) (config : MultidiskConfig formatLoad diskPaths)
    (vnode : Vnode) (set : SetTopology) : Prop where
  owner : (p.poolIdx, p.setIdx) = vnode.owner
  diskUuids : p.diskUuids = set.disks.map DiskInfo.uuid
  diskPaths : p.diskPaths =
    ((config.onlineDisks vnode.setIdx).take set.disks.length).map NamedDisk.onlineAt

variable {hashes} {node : Node} {config : MultidiskConfig formatLoad diskPaths}

/-- The computation, from the vnode on. -/
theorem placementCompute_local (hlocal : node.Local config) {bucket object : CString}
    {vnode : Vnode} {set : SetTopology} (hinit : node.placementInitialized = true)
    (hvnode : node.vnodeOf hashes bucket object = some vnode) (hset : node.setOf vnode = some set) :
    (set.disks.length ≤ (config.onlineDisks vnode.setIdx).length →
      ∃ p, placementCompute hashes node bucket object = some p ∧ p.Of config vnode set) ∧
    (¬ set.disks.length ≤ (config.onlineDisks vnode.setIdx).length →
      placementCompute hashes node bucket object = none) := by
  obtain ⟨topology, htopology, -⟩ := Option.bind_eq_some_iff.mp hset
  have hcount : (getSetDisks node.multidisk vnode.setIdx 64).length =
      (config.onlineDisks vnode.setIdx).length := by
    rw [hlocal.multidisk, MultidiskConfig.getSetDisks_eq, List.length_map]
  rw [placementCompute, hinit, htopology, hvnode]
  simp only [Bool.not_true, Bool.false_eq_true, if_false, hset, ge_iff_le, hcount]
  cases hdisks : set.disks with
  | nil =>
    refine ⟨fun _ => ⟨_, rfl, rfl, by rw [hdisks], by rw [hdisks]; rfl⟩, fun hfew => ?_⟩
    exact absurd (Nat.zero_le _) hfew
  | cons first rest =>
    have hfirst : first.endpoint = [] :=
      hlocal.endpoints vnode set hset first (by rw [hdisks]; exact List.mem_cons_self)
    dsimp only
    rw [if_pos hfirst]
    constructor
    · intro henough
      rw [if_pos henough]
      refine ⟨_, rfl, rfl, by rw [hdisks], ?_⟩
      rw [hdisks, List.map_take, ← MultidiskConfig.getSetDisks_eq, ← hlocal.multidisk]
    · intro hfew
      rw [if_neg hfew]

/-- **A placement** is that of a set the node serves. -/
theorem placementCompute_served (hlocal : node.Local config) {bucket object : CString}
    {p : Placement} (h : placementCompute hashes node bucket object = some p) :
    ∃ vnode set, node.Served hashes config vnode set ∧ p.Of config vnode set := by
  obtain ⟨vnode, set, -, hvnode, -, hset, -⟩ := placementCompute_owner hashes h
  have hinit : node.placementInitialized = true := by
    by_contra hdown
    rw [placementCompute, Bool.eq_false_of_not_eq_true hdown] at h
    cases h
  obtain ⟨hsome, hnone⟩ := placementCompute_local hlocal hinit hvnode hset
  by_cases henough : set.disks.length ≤ (config.onlineDisks vnode.setIdx).length
  · obtain ⟨p', hp', hof⟩ := hsome henough
    obtain rfl := Option.some.inj (h.symm.trans hp')
    exact ⟨vnode, set, ⟨hinit, ⟨bucket, object, hvnode⟩, hset, henough⟩, hof⟩
  · rw [hnone henough] at h
    cases h

/-- **A set that is served** has a placement. -/
theorem Node.Served.compute {vnode : Vnode} {set : SetTopology} (hlocal : node.Local config)
    (h : node.Served hashes config vnode set) :
    ∃ bucket object p, placementCompute hashes node bucket object = some p ∧
      p.Of config vnode set := by
  obtain ⟨bucket, object, hvnode⟩ := h.hashed
  obtain ⟨p, hp, hof⟩ := (placementCompute_local hlocal h.initialized hvnode h.setOf).1 h.enough
  exact ⟨bucket, object, p, hp, hof⟩

/-! ## 3. The two tables -/

/-- Entry by entry, the disk at the path has the UUID. -/
def Placement.Paired (formatLoad : CString → Option DiskFormat) (p : Placement) : Prop :=
  ∀ (i : ℕ) (path uuid : CString), p.diskPaths[i]? = some path → p.diskUuids[i]? = some uuid →
    diskAt formatLoad path = some uuid

/-- The UUIDs of the topology's set are those of the first online disks of its number. -/
def MultidiskConfig.Lists (config : MultidiskConfig formatLoad diskPaths) (vnode : Vnode)
    (set : SetTopology) : Prop :=
  set.disks.map DiskInfo.uuid <+: (config.onlineDisks vnode.setIdx).map NamedDisk.uuid

theorem MultidiskConfig.lists_iff {vnode : Vnode} {set : SetTopology} :
    config.Lists vnode set ↔ set.disks.map DiskInfo.uuid =
      ((config.onlineDisks vnode.setIdx).take set.disks.length).map NamedDisk.uuid := by
  rw [MultidiskConfig.Lists, List.prefix_iff_eq_take, List.length_map, List.map_take]

theorem MultidiskConfig.diskAt_online {setIndex n : ℕ} {named : NamedDisk}
    (h : named ∈ (config.onlineDisks setIndex).take n) :
    diskAt formatLoad named.onlineAt = some named.uuid :=
  diskAt_pathOf (MultidiskConfig.pathOf_online (List.mem_of_mem_take h))

variable {vnode vnode' : Vnode} {set set' : SetTopology} {p p' : Placement}

/-- **The entries are paired** exactly if the topology lists the online disks. -/
theorem Placement.Of.paired_iff (hof : p.Of config vnode set)
    (henough : set.disks.length ≤ (config.onlineDisks vnode.setIdx).length) :
    p.Paired formatLoad ↔ config.Lists vnode set := by
  rw [MultidiskConfig.lists_iff, ← hof.diskUuids]
  constructor
  · intro hpaired
    have hlength : p.diskUuids.length = ((config.onlineDisks vnode.setIdx).take
        set.disks.length).length := by
      rw [hof.diskUuids, List.length_map, List.length_take, Nat.min_eq_left henough]
    refine List.ext_getElem? fun i => ?_
    rw [List.getElem?_map]
    cases hnamed : ((config.onlineDisks vnode.setIdx).take set.disks.length)[i]? with
    | none =>
      rw [Option.map_none, List.getElem?_eq_none_iff, hlength]
      exact List.getElem?_eq_none_iff.mp hnamed
    | some named =>
      have hi : i < p.diskUuids.length := by
        rw [hlength]
        exact (List.getElem?_eq_some_iff.mp hnamed).1
      have hpath : p.diskPaths[i]? = some named.onlineAt := by
        rw [hof.diskPaths, List.getElem?_map, hnamed, Option.map_some]
      have huuid := hpaired i _ _ hpath (List.getElem?_eq_getElem hi)
      rw [MultidiskConfig.diskAt_online (List.mem_of_getElem? hnamed)] at huuid
      rw [List.getElem?_eq_getElem hi, Option.map_some, ← huuid]
  · intro huuids i path uuid hpath huuid
    rw [hof.diskPaths, List.getElem?_map] at hpath
    rw [huuids, List.getElem?_map] at huuid
    obtain ⟨named, hnamed, rfl⟩ := Option.map_eq_some_iff.mp hpath
    rw [hnamed] at huuid
    obtain rfl := Option.some.inj huuid
    exact MultidiskConfig.diskAt_online (List.mem_of_getElem? hnamed)

/-- Where the topology lists the online disks, two placements share a path exactly if their sets
share a UUID. -/
theorem Placement.Of.disjoint_iff (hof : p.Of config vnode set) (hof' : p'.Of config vnode' set')
    (hlists : config.Lists vnode set) (hlists' : config.Lists vnode' set') :
    (∀ path ∈ p.diskPaths, path ∉ p'.diskPaths) ↔
      ∀ uuid ∈ set.disks.map DiskInfo.uuid, uuid ∉ set'.disks.map DiskInfo.uuid := by
  rw [MultidiskConfig.lists_iff.mp hlists, MultidiskConfig.lists_iff.mp hlists', hof.diskPaths,
    hof'.diskPaths]
  constructor
  · intro hdisjoint uuid huuid huuid'
    obtain ⟨named, hnamed, rfl⟩ := List.mem_map.mp huuid
    obtain ⟨named', hnamed', hsame⟩ := List.mem_map.mp huuid'
    have hpath := MultidiskConfig.pathOf_online (List.mem_of_mem_take hnamed)
    have hpath' := MultidiskConfig.pathOf_online (List.mem_of_mem_take hnamed')
    rw [hsame, hpath] at hpath'
    refine hdisjoint _ (List.mem_map_of_mem hnamed) ?_
    rw [Option.some.inj hpath']
    exact List.mem_map_of_mem hnamed'
  · intro hdisjoint path hpath hpath'
    obtain ⟨named, hnamed, rfl⟩ := List.mem_map.mp hpath
    obtain ⟨named', hnamed', hsame⟩ := List.mem_map.mp hpath'
    have hat := MultidiskConfig.diskAt_online hnamed
    have hat' := MultidiskConfig.diskAt_online hnamed'
    rw [hsame, hat] at hat'
    refine hdisjoint _ (List.mem_map_of_mem hnamed) ?_
    rw [Option.some.inj hat']
    exact List.mem_map_of_mem hnamed'

/-- **Paths and UUIDs.**  On a node without endpoints, every entry of every placement pairs a path
with the UUID of the disk there, and placements in different sets share no path, exactly when the
topology lists, for each set that is served, the first online disks of the multi-disk set of that
number, and lists no disk for two such sets. -/
theorem placement_disks_iff (formatLoad : CString → Option DiskFormat) (diskPaths : List CString)
    (config : MultidiskConfig formatLoad diskPaths) (hashes : Hashes) (node : Node)
    (hlocal : node.Local config) :
    ((∀ bucket object p, placementCompute hashes node bucket object = some p →
        p.Paired formatLoad) ∧
      ∀ bucket object p bucket' object' p', placementCompute hashes node bucket object = some p →
        placementCompute hashes node bucket' object' = some p' →
        (p.poolIdx, p.setIdx) ≠ (p'.poolIdx, p'.setIdx) →
        ∀ path ∈ p.diskPaths, path ∉ p'.diskPaths) ↔
    (∀ vnode set, node.Served hashes config vnode set → config.Lists vnode set) ∧
      ∀ vnode set vnode' set', node.Served hashes config vnode set →
        node.Served hashes config vnode' set' → vnode.owner ≠ vnode'.owner →
        ∀ uuid ∈ set.disks.map DiskInfo.uuid, uuid ∉ set'.disks.map DiskInfo.uuid := by
  constructor
  · rintro ⟨hpaired, hdisjoint⟩
    have hlists : ∀ vnode set, node.Served hashes config vnode set → config.Lists vnode set := by
      intro vnode set hserved
      obtain ⟨bucket, object, p, hp, hof⟩ := hserved.compute hlocal
      exact (hof.paired_iff hserved.enough).mp (hpaired bucket object p hp)
    refine ⟨hlists, fun vnode set vnode' set' hserved hserved' hne => ?_⟩
    obtain ⟨bucket, object, p, hp, hof⟩ := hserved.compute hlocal
    obtain ⟨bucket', object', p', hp', hof'⟩ := hserved'.compute hlocal
    refine (hof.disjoint_iff hof' (hlists _ _ hserved) (hlists _ _ hserved')).mp ?_
    refine hdisjoint bucket object p bucket' object' p' hp hp' ?_
    rwa [hof.owner, hof'.owner]
  · rintro ⟨hlists, hdisjoint⟩
    constructor
    · intro bucket object p hp
      obtain ⟨vnode, set, hserved, hof⟩ := placementCompute_served hlocal hp
      exact (hof.paired_iff hserved.enough).mpr (hlists vnode set hserved)
    · intro bucket object p bucket' object' p' hp hp' hne
      obtain ⟨vnode, set, hserved, hof⟩ := placementCompute_served hlocal hp
      obtain ⟨vnode', set', hserved', hof'⟩ := placementCompute_served hlocal hp'
      rw [hof.owner, hof'.owner] at hne
      exact (hof.disjoint_iff hof' (hlists _ _ hserved) (hlists _ _ hserved')).mpr
        (hdisjoint vnode set vnode' set' hserved hserved' hne)

end Served

/-! ## 4. One pool, two pools -/

/-- A pool of one set of one disk, without endpoint. -/
def localPool (idx : ℤ) (uuid : CString) : PoolTopology := ⟨idx, [⟨0, .active, [⟨[], uuid, 0⟩]⟩]⟩

/-- A topology of one such pool. -/
def localOnePool : ClusterTopology where
  version := 1
  generation := 1
  deploymentId := []
  vnodeFactor := 150
  pools := [localPool 0 (cstr "u0")]

/-- A second pool was added. -/
def localTwoPools : ClusterTopology :=
  { localOnePool with pools := [localPool 0 (cstr "u0"), localPool 1 (cstr "u1")], generation := 3 }

/-- The one disk of the machine, at `/d0`, has the UUID `u0`. -/
def oneDiskFormat (path : CString) : Option DiskFormat :=
  if path = cstr "/d0" then some ⟨cstr "u0", [[cstr "u0"]]⟩ else none

/-- What the multi-disk layer makes of it. -/
def oneDiskConfig : MultidiskConfig oneDiskFormat [cstr "/d0"] where
  sets := [[⟨cstr "u0", some (cstr "/d0"), true⟩]]
  located := @multidiskInit_located oneDiskFormat [cstr "/d0"] _ (by decide +kernel)

/-- A node with that disk; the hash of a vnode is the digit of its pool. -/
def oneDiskNode (t : ClusterTopology) : Node :=
  { startedNode Hashes.firstByte t with multidisk := some oneDiskConfig.ctx }

theorem oneDiskNode_built {t : ClusterTopology} (hactive : ∃ p s, t.Active p s) :
    (oneDiskNode t).Built Hashes.firstByte (Sorter.insertion _) t :=
  ⟨rfl, (startedNode_built Hashes.firstByte hactive).ring⟩

theorem oneDiskNode_local {t : ClusterTopology} (hpools : ∀ pool ∈ t.pools, ∃ idx uuid,
    pool = localPool idx uuid) : (oneDiskNode t).Local oneDiskConfig := by
  refine ⟨fun vnode set hset disk hdisk => ?_, rfl⟩
  obtain ⟨t', ht', hset⟩ := Option.bind_eq_some_iff.mp hset
  obtain rfl := Option.some.inj ht'
  obtain ⟨pool, hpool, hset⟩ := Option.bind_eq_some_iff.mp hset
  obtain ⟨idx, uuid, rfl⟩ := hpools pool (List.mem_of_getElem? hpool)
  obtain rfl := List.mem_singleton.mp (List.mem_of_getElem? hset)
  obtain rfl := List.mem_singleton.mp hdisk
  rfl

theorem localOnePool_active {p s : ℕ} (h : localOnePool.Active p s) : p = 0 ∧ s = 0 := by
  rcases p with _ | p
  · rcases s with _ | s
    · exact ⟨rfl, rfl⟩
    · cases h
  · cases h

theorem localTwoPools_active {p s : ℕ} (h : localTwoPools.Active p s) : p < 2 ∧ s = 0 := by
  rcases p with _ | _ | p
  · rcases s with _ | s
    · exact ⟨by decide, rfl⟩
    · cases h
  · rcases s with _ | s
    · exact ⟨by decide, rfl⟩
    · cases h
  · cases h

theorem placement_disks_one_pool :
    (oneDiskNode localOnePool).Local oneDiskConfig ∧
    (∀ bucket object p, placementCompute Hashes.firstByte (oneDiskNode localOnePool) bucket object =
      some p → p.Paired oneDiskFormat) := by
  have hlocal : (oneDiskNode localOnePool).Local oneDiskConfig := by
    refine oneDiskNode_local fun pool hpool => ?_
    exact ⟨0, cstr "u0", List.mem_singleton.mp hpool⟩
  have hbuilt : (oneDiskNode localOnePool).Built Hashes.firstByte (Sorter.insertion _)
      localOnePool :=
    oneDiskNode_built ⟨0, 0, rfl⟩
  have hzero : ∀ vnode set, (oneDiskNode localOnePool).Served Hashes.firstByte oneDiskConfig
      vnode set → vnode.poolIdx = 0 ∧ vnode.setIdx = 0 := by
    intro vnode set hserved
    obtain ⟨bucket, object, hvnode⟩ := hserved.hashed
    exact localOnePool_active ((mem_buildHashRing hbuilt.ring).mp (List.mem_of_getElem? hvnode)).1
  refine ⟨hlocal, ((placement_disks_iff oneDiskFormat _ oneDiskConfig Hashes.firstByte
    (oneDiskNode localOnePool) hlocal).mpr ⟨fun vnode set hserved => ?_, ?_⟩).1⟩
  · obtain ⟨hp, hs⟩ := hzero vnode set hserved
    have hset := hserved.setOf
    rw [Node.setOf, hp, hs] at hset
    obtain rfl := Option.some.inj hset
    rw [MultidiskConfig.Lists, hs]
    decide +kernel
  · intro vnode set vnode' set' hserved hserved' hne
    obtain ⟨hp, hs⟩ := hzero vnode set hserved
    obtain ⟨hp', hs'⟩ := hzero vnode' set' hserved'
    exact absurd (by rw [Vnode.owner, Vnode.owner, hp, hs, hp', hs']) hne

theorem hash_setVnodes_firstByte {p : ℕ} (hp : p < 2) {vnode : Vnode}
    (h : vnode ∈ setVnodes Hashes.firstByte 0 0 p 0) : vnode.hash = UInt64.ofNat (48 + p) := by
  obtain ⟨v, -, rfl⟩ := List.mem_map.mp h
  interval_cases p <;> rfl

theorem localTwoPools_local : (oneDiskNode localTwoPools).Local oneDiskConfig := by
  refine oneDiskNode_local fun pool hpool => ?_
  rcases List.mem_cons.mp hpool with rfl | hpool
  · exact ⟨0, cstr "u0", rfl⟩
  · exact ⟨1, cstr "u1", List.mem_singleton.mp hpool⟩

theorem oneDiskConfig_onlineDisks :
    oneDiskConfig.onlineDisks 0 = [⟨cstr "u0", some (cstr "/d0"), true⟩] := by decide +kernel

/-- An object whose hash is the digit of a pool is placed in that pool, and on the one disk. -/
theorem localTwoPools_compute {bucket object : CString} {i : ℕ} (hi : i < 2)
    (hhash : Hashes.firstByte.siphash 0 0 (joinPath bucket object) = UInt64.ofNat (48 + i)) :
    ∃ p, placementCompute Hashes.firstByte (oneDiskNode localTwoPools) bucket object = some p ∧
      (p.poolIdx, p.setIdx) = (i, 0) ∧ p.diskPaths = [cstr "/d0"] ∧
      p.diskUuids = [if i = 0 then cstr "u0" else cstr "u1"] := by
  have hactive : ∃ p s, localTwoPools.Active p s := ⟨0, 0, rfl⟩
  have hbuilt := oneDiskNode_built hactive
  have hmem : (⟨UInt64.ofNat (48 + i), i, 0⟩ : Vnode) ∈ (oneDiskNode localTwoPools).ring := by
    refine (mem_buildHashRing hbuilt.ring).mpr
      ⟨?_, List.mem_map.mpr ⟨0, List.mem_range.mpr (by decide), ?_⟩⟩
    · interval_cases i <;> rfl
    · interval_cases i <;> rfl
  obtain ⟨vnode, hring, hvnode, hplace⟩ := Node.vnodeOf_at _ hbuilt.sorted hmem hhash
  obtain ⟨hset, hown⟩ := (mem_buildHashRing hbuilt.ring).mp hring
  obtain ⟨hp, hs⟩ := localTwoPools_active hset
  rw [hs] at hown
  have hpool : vnode.poolIdx = i := by
    have hnat := congrArg UInt64.toNat ((hash_setVnodes_firstByte hp hown).symm.trans hplace)
    rw [UInt64.toNat_ofNat', UInt64.toNat_ofNat'] at hnat
    omega
  have hsetOf : (oneDiskNode localTwoPools).setOf vnode =
      some ⟨0, .active, [⟨[], if i = 0 then cstr "u0" else cstr "u1", 0⟩]⟩ := by
    rw [Node.setOf, hpool, hs]
    interval_cases i <;> rfl
  obtain ⟨p, hcompute, howner, huuids, hpaths⟩ :=
    (placementCompute_local localTwoPools_local rfl hvnode hsetOf).1
      (by rw [hs, oneDiskConfig_onlineDisks]; exact Nat.le_refl 1)
  refine ⟨p, hcompute, by rw [howner, Vnode.owner, hpool, hs], ?_, huuids⟩
  rw [hpaths, hs, oneDiskConfig_onlineDisks]
  rfl

/-- **Counterexample.**  With a second pool in the topology an object of the second pool is placed
on the disk of the first: the entry pairs the path of disk `u0` with the UUID `u1`, and an object of
the first pool has the same path. -/
theorem placement_two_pools :
    (oneDiskNode localTwoPools).Built Hashes.firstByte (Sorter.insertion _) localTwoPools ∧
    (oneDiskNode localTwoPools).Local oneDiskConfig ∧
    ∃ p p', placementCompute Hashes.firstByte (oneDiskNode localTwoPools) (cstr "0ab") (cstr "x") =
        some p ∧
      placementCompute Hashes.firstByte (oneDiskNode localTwoPools) (cstr "1ab")
        (cstr "x") = some p' ∧
      (p.poolIdx, p.setIdx) ≠ (p'.poolIdx, p'.setIdx) ∧
      p.diskPaths = [cstr "/d0"] ∧ p'.diskPaths = [cstr "/d0"] ∧ ¬ p'.Paired oneDiskFormat := by
  obtain ⟨p, hp, hset, hpaths, -⟩ := @localTwoPools_compute (cstr "0ab") (cstr "x") 0
      (by decide) rfl
  obtain ⟨p', hp', hset', hpaths', huuids'⟩ :=
    @localTwoPools_compute (cstr "1ab") (cstr "x") 1 (by decide) rfl
  have hactive : ∃ p s, localTwoPools.Active p s := ⟨0, 0, rfl⟩
  refine ⟨oneDiskNode_built hactive, localTwoPools_local, p, p', hp, hp', ?_, hpaths, hpaths', ?_⟩
  · rw [hset, hset']
    decide
  · intro hpaired
    have hat := hpaired 0 (cstr "/d0") (cstr "u1") (by rw [hpaths']; rfl) (by rw [huuids']; rfl)
    exact absurd hat (by decide +kernel)

end Buckets
