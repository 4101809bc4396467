/-
# Where an object goes: `layout.c`, `multidisk.c` and `placement.c`

An object has a PATH, the same on every disk, made of a hash of `bucket/object`, and a SET of
disks, found on a hash ring.  The disks of the set are not named by the ring: in local mode
`buckets_placement_compute` asks the multi-disk layer for the paths of the set's ONLINE disks,
and gives up if there are fewer of them than the topology says the set has.  That comparison
decides what happens when a disk goes offline.

* `Node.KeySet.placementCompute_eq` -- the placement of a key, from the disks of its set;
* `markOfflineAll_spec` -- the disks of a set after some of them were marked offline;
* `Node.KeySet.getSetDisks_eq` -- the paths of a set are those of its online disks.
-/
import Buckets.Lib.CStr
import Buckets.Topology

namespace Buckets

/-! ## 1. Hash functions -/

/-- The hash functions of the program, all from its own sources and none of them inspected
here. -/
structure Hashes where
  /-- `buckets_xxhash64(seed, data, size)`. -/
  xxhash64 : UInt64 → Bytes → UInt64
  /-- `buckets_siphash(k0, k1, data, size)`. -/
  siphash : UInt64 → UInt64 → Bytes → UInt64
  /-- `buckets_blake2b(out, 32, data, size, NULL, 0)`. -/
  blake2b256 : Bytes → Bytes
  length_blake2b256 : ∀ data, (blake2b256 data).length = 32

/-! ## 2. Object paths and chunk sizes -/

/-- `"%016lx"`. -/
def hex64 (h : UInt64) : CString :=
  (List.range 16).map fun i => hexDigit (h.toNat / 16 ^ (15 - i) % 16)

/-- `"%s/%s"`. -/
def joinPath (a b : CString) : CString := a ++ cstr "/" ++ b

/-- `buckets_compute_object_path`: the key is cut to 1023 bytes before it is hashed. -/
def computeObjectPath (hashes : Hashes) (bucket object : CString) : CString :=
  let objectKey := charArray 1024 (joinPath bucket object)
  let objectHash := hex64 (hashes.xxhash64 0x0123456789ABCDEF objectKey)
  objectHash.take 2 ++ cstr "/" ++ objectHash ++ cstr "/"

/-- `BUCKETS_INLINE_THRESHOLD`. -/
def inlineThreshold : ℕ := 512 * 1024

/-- `buckets_should_inline_object`. -/
def shouldInlineObject (size : ℕ) : Bool := size < inlineThreshold

/-- `BUCKETS_MIN_CHUNK_SIZE` and `BUCKETS_MAX_CHUNK_SIZE`. -/
def minChunkSize : ℕ := 64 * 1024

def maxChunkSize : ℕ := 512 * 1024 * 1024

/-- `buckets_calculate_chunk_size`. -/
def calculateChunkSize (objectSize k : ℕ) : ℕ :=
  if k = 0 then minChunkSize
  else
    let chunkSize := ecCalcChunkSize objectSize k
    let chunkSize := if chunkSize < minChunkSize then minChunkSize else chunkSize
    if chunkSize > maxChunkSize then maxChunkSize else chunkSize

theorem calculateChunkSize_pos (objectSize k : ℕ) : 0 < calculateChunkSize objectSize k := by
  unfold calculateChunkSize minChunkSize maxChunkSize
  split
  · omega
  · dsimp only
    split <;> split <;> omega

theorem calculateChunkSize_le (objectSize k : ℕ) :
    calculateChunkSize objectSize k ≤ maxChunkSize := by
  unfold calculateChunkSize minChunkSize maxChunkSize
  split
  · omega
  · dsimp only
    split <;> split <;> omega

/-! ## 3. The multi-disk layer -/

/-- A disk of `disk_set_t`: its path, if one was found for its UUID, and whether it is online. -/
structure MultiDisk where
  path : Option CString
  online : Bool
deriving DecidableEq

/-- `multidisk_ctx_t`: the disk sets. -/
structure MultidiskCtx where
  sets : List (List MultiDisk)

/-- The path of a disk that is online. -/
def MultiDisk.onlinePath (disk : MultiDisk) : Option CString :=
  if disk.online then disk.path else none

/-- `buckets_multidisk_get_set_disks`: the online disks, moved together. -/
def getSetDisks (ctx : Option MultidiskCtx) (setIndex maxDisks : ℕ) : List CString :=
  match ctx with
  | none => []
  | some ctx =>
    match ctx.sets[setIndex]? with
    | none => []
    | some set => (set.filterMap MultiDisk.onlinePath).take maxDisks

/-- `buckets_multidisk_mark_offline`: `none` is its error return. -/
def markOffline (ctx : MultidiskCtx) (setIndex diskIndex : ℕ) : Option MultidiskCtx :=
  match ctx.sets[setIndex]? with
  | none => none
  | some set =>
    if diskIndex ≥ set.length then none
    else some
      ⟨ctx.sets.set setIndex (set.modify diskIndex fun disk => { disk with online := false })⟩

/-! ## 4. The hash ring -/

/-- `buckets_placement_vnode_t`. -/
structure Vnode where
  hash : UInt64
  poolIdx : ℕ
  setIdx : ℕ
deriving Inhabited

/-- The binary search of `find_vnode`. -/
def findVnodeLoop (ring : List Vnode) (targetHash : UInt64) (left right : ℕ) : ℕ :=
  if left < right then
    let mid := left + (right - left) / 2
    if (ring.getD mid default).hash < targetHash then findVnodeLoop ring targetHash (mid + 1) right
    else findVnodeLoop ring targetHash left mid
  else left
termination_by right - left

/-- `find_vnode`: past the last vnode it wraps around. -/
def findVnode (ring : List Vnode) (targetHash : UInt64) : ℕ :=
  let left := findVnodeLoop ring targetHash 0 ring.length
  if left ≥ ring.length then 0 else left

theorem findVnode_lt {ring : List Vnode} (h : ring ≠ []) (targetHash : UInt64) :
    findVnode ring targetHash < ring.length := by
  have hpos := List.length_pos_of_ne_nil h
  unfold findVnode
  dsimp only
  split <;> omega

/-! ## 5. Placement -/

/-- `buckets_placement_result_t`; `disk_count` is the length of the lists. -/
structure Placement where
  poolIdx : ℕ
  setIdx : ℕ
  diskPaths : List CString
  diskUuids : List CString
  diskEndpoints : List CString
  generation : ℤ
  state : SetState
  objectHash : UInt64
  vnodeIndex : ℕ

/-- The part of a string from the last `c` on (`strrchr`). -/
def strrchr (s : CString) (c : UInt8) : Option CString :=
  if c ∈ s then some (c :: (s.reverse.takeWhile (· ≠ c)).reverse) else none

/-- The path in a disk's endpoint: what follows `scheme://host:port`. -/
def endpointPath (endpoint : CString) : CString :=
  match strrchr endpoint 47 with
  | none => endpoint
  | some tail =>
    match CStr.after (cstr "://") endpoint with
    | none => tail
    | some rest => (CStr.strchr rest 47).getD tail

/-- What a node knows when it serves a request. -/
structure Node where
  /-- `g_placement_initialized`, the SipHash keys and the ring. -/
  placementInitialized : Bool
  siphashK0 : UInt64
  siphashK1 : UInt64
  ring : List Vnode
  /-- The topology manager's cached topology. -/
  topology : Option ClusterTopology
  multidisk : Option MultidiskCtx
  /-- `g_storage_config`. -/
  dataDir : Option CString
  defaultEcK : ℕ
  defaultEcM : ℕ
  /-- `g_registry.initialized`. -/
  registryInitialized : Bool

/-- The set a vnode stands for. -/
def Node.setOf (node : Node) (vnode : Vnode) : Option SetTopology :=
  node.topology.bind fun topology =>
    (topology.pools[vnode.poolIdx]?).bind fun pool => pool.sets[vnode.setIdx]?

/-- The vnode of an object. -/
def Node.vnodeOf (node : Node) (hashes : Hashes) (bucket object : CString) : Option Vnode :=
  let objectHash := hashes.siphash node.siphashK0 node.siphashK1 (joinPath bucket object)
  node.ring[findVnode node.ring objectHash]?

/-- `buckets_placement_compute`. -/
def placementCompute (hashes : Hashes) (node : Node) (bucket object : CString) :
    Option Placement :=
  if !node.placementInitialized then none
  else
    match node.topology, node.vnodeOf hashes bucket object with
    | some topology, some vnode =>
      match node.setOf vnode with
      | none => none
      | some set =>
        let objectHash := hashes.siphash node.siphashK0 node.siphashK1 (joinPath bucket object)
        let placement : Placement :=
          { poolIdx := vnode.poolIdx, setIdx := vnode.setIdx, diskPaths := [],
            diskUuids := set.disks.map DiskInfo.uuid, diskEndpoints := [],
            generation := topology.generation, state := set.state, objectHash := objectHash,
            vnodeIndex := findVnode node.ring objectHash }
        match set.disks with
        | [] => some placement
        | first :: _ =>
          if first.endpoint = [] then
            -- local mode: the paths come from the multi-disk layer, and there must be enough
            let multidiskPaths := getSetDisks node.multidisk vnode.setIdx 64
            if multidiskPaths.length ≥ set.disks.length then
              some { placement with
                diskPaths := multidiskPaths.take set.disks.length
                diskEndpoints := set.disks.map fun _ => [] }
            else none
          else
            some { placement with
              diskPaths := set.disks.map fun disk => endpointPath disk.endpoint
              diskEndpoints := set.disks.map DiskInfo.endpoint }
    | _, _ => none

/-! ## 6. Local mode -/

/-- **Local multi-disk mode.**  Placement is up, no disk of the topology has an endpoint, and each
set of the ring is a set of the multi-disk layer, with as many disks, at different paths. -/
structure Node.LocalMode (node : Node) : Prop where
  initialized : node.placementInitialized = true
  topology : node.topology.isSome
  ring : node.ring ≠ []
  sets : ∀ vnode ∈ node.ring, ∃ ctx set disks, node.multidisk = some ctx ∧
    node.setOf vnode = some set ∧ ctx.sets[vnode.setIdx]? = some disks ∧
    disks.length = set.disks.length ∧ set.disks ≠ [] ∧ set.disks.length ≤ 64 ∧
    (∀ disk ∈ set.disks, disk.endpoint = []) ∧ (disks.filterMap MultiDisk.path).Nodup

/-- Every set of the ring has at least `n` disks online. -/
def Node.OnlineAtLeast (node : Node) (n : ℕ) : Prop :=
  ∀ vnode ∈ node.ring, n ≤ (getSetDisks node.multidisk vnode.setIdx 64).length

/-- Every disk of every set of the ring is online, at a path the 512-byte buffers of the chunk
tasks hold. -/
def Node.AllOnline (node : Node) : Prop :=
  ∀ vnode ∈ node.ring, ∀ ctx disks, node.multidisk = some ctx →
    ctx.sets[vnode.setIdx]? = some disks →
    ∀ disk ∈ disks, ∃ path, disk.onlinePath = some path ∧ path ≠ [] ∧ path.length < 512

theorem getElem?_filterMap_of_all {α β : Type} {f : α → Option β} :
    ∀ {l : List α} (i : ℕ), (∀ a ∈ l, (f a).isSome) → (l.filterMap f)[i]? = l[i]?.bind f
  | [], _, _ => rfl
  | a :: t, i, h => by
    obtain ⟨b, hb⟩ := Option.isSome_iff_exists.mp (h a (by simp))
    rw [List.filterMap_cons_some hb]
    cases i with
    | zero => exact hb.symm
    | succ i => exact getElem?_filterMap_of_all i fun x hx => h x (List.mem_cons_of_mem a hx)

/-- The online paths are among the paths, in the same order. -/
theorem onlinePaths_sublist : ∀ disks : List MultiDisk,
    (disks.filterMap MultiDisk.onlinePath).Sublist (disks.filterMap MultiDisk.path)
  | [] => List.Sublist.refl _
  | disk :: rest => by
    have ih := onlinePaths_sublist rest
    obtain ⟨path, online⟩ := disk
    cases path <;> cases online <;> simp only [List.filterMap_cons, MultiDisk.onlinePath] <;>
      simp [ih, ih.cons]

theorem Node.vnodeOf_mem {node : Node} (h : node.ring ≠ []) (hashes : Hashes)
    (bucket object : CString) :
    ∃ vnode ∈ node.ring, node.vnodeOf hashes bucket object = some vnode := by
  have hlt := findVnode_lt h
    (hashes.siphash node.siphashK0 node.siphashK1 (joinPath bucket object))
  exact ⟨_, List.getElem_mem hlt, List.getElem?_eq_getElem hlt⟩

/-- The set of a key: its vnode, its place in the topology, and its disks in the multi-disk
layer. -/
structure Node.KeySet (node : Node) (hashes : Hashes) (bucket object : CString)
    (ctx : MultidiskCtx) (vnode : Vnode) (set : SetTopology) (disks : List MultiDisk) : Prop where
  initialized : node.placementInitialized = true
  topology : node.topology.isSome
  mem : vnode ∈ node.ring
  vnodeOf : node.vnodeOf hashes bucket object = some vnode
  multidisk : node.multidisk = some ctx
  setOf : node.setOf vnode = some set
  getSet : ctx.sets[vnode.setIdx]? = some disks
  length : disks.length = set.disks.length
  nonempty : set.disks ≠ []
  length_le : set.disks.length ≤ 64
  endpoint : ∀ disk ∈ set.disks, disk.endpoint = []
  nodup : (disks.filterMap MultiDisk.path).Nodup

theorem Node.LocalMode.keySet {node : Node} (h : node.LocalMode) (hashes : Hashes)
    (bucket object : CString) :
    ∃ ctx vnode set disks, node.KeySet hashes bucket object ctx vnode set disks := by
  obtain ⟨vnode, hmem, hvnode⟩ := Node.vnodeOf_mem h.ring hashes bucket object
  obtain ⟨ctx, set, disks, hctx, hset, hdisks, hlen, hne, h64, hendpoint, hnodup⟩ :=
    h.sets vnode hmem
  exact ⟨ctx, vnode, set, disks, h.initialized, h.topology, hmem, hvnode, hctx, hset, hdisks, hlen,
    hne, h64, hendpoint, hnodup⟩

namespace Node.KeySet

variable {node : Node} {hashes : Hashes} {bucket object : CString} {ctx : MultidiskCtx}
  {vnode : Vnode} {set : SetTopology} {disks : List MultiDisk}

theorem getSetDisks_eq (h : node.KeySet hashes bucket object ctx vnode set disks) :
    getSetDisks node.multidisk vnode.setIdx 64 = disks.filterMap MultiDisk.onlinePath := by
  have hle := h.length_le
  have hlen := h.length
  simp only [getSetDisks, h.multidisk, h.getSet]
  exact List.take_of_length_le ((List.length_filterMap_le _ _).trans (by omega))

/-- **The placement of a key in local mode**: the paths of the online disks of its set if they
are all online, and none otherwise. -/
theorem placementCompute_eq (h : node.KeySet hashes bucket object ctx vnode set disks) :
    ((∀ disk ∈ disks, disk.onlinePath.isSome) →
      ∃ p, placementCompute hashes node bucket object = some p ∧ p.setIdx = vnode.setIdx ∧
        p.diskPaths = disks.filterMap MultiDisk.onlinePath ∧
        ∀ endpoint ∈ p.diskEndpoints, endpoint = []) ∧
    ((∃ disk ∈ disks, disk.onlinePath = none) →
      placementCompute hashes node bucket object = none) := by
  obtain ⟨topology, htopology⟩ := Option.isSome_iff_exists.mp h.topology
  obtain ⟨first, rest, hdisks⟩ := List.exists_cons_of_ne_nil h.nonempty
  have hfirst : first.endpoint = [] := h.endpoint first (by rw [hdisks]; simp)
  have hlen := h.length
  unfold placementCompute
  rw [h.initialized, htopology, h.vnodeOf]
  simp only [Bool.not_true, Bool.false_eq_true, if_false, h.setOf, hdisks, hfirst, if_true,
    ge_iff_le, h.getSetDisks_eq]
  rw [← hdisks]
  constructor
  · intro hall
    have honline := List.filterMap_length_eq_length.mpr hall
    rw [if_pos (by omega)]
    refine ⟨_, rfl, rfl, List.take_of_length_le (by omega), fun endpoint hmem => ?_⟩
    obtain ⟨-, -, rfl⟩ := List.mem_map.mp hmem
    rfl
  · rintro ⟨disk, hdisk, hoffline⟩
    have hlt := List.length_filterMap_lt_length_iff_exists.mpr ⟨disk, hdisk, hoffline⟩
    exact if_neg (by omega)

end Node.KeySet

/-- What the code needs of a key's placement to store and find its object there, in local mode: no
disk has an endpoint. -/
structure Placed (hashes : Hashes) (node : Node) (bucket object : CString) (p : Placement) :
    Prop where
  compute : placementCompute hashes node bucket object = some p
  nonempty : p.diskPaths ≠ []
  enough : node.defaultEcK + node.defaultEcM ≤ p.diskPaths.length
  short : ∀ path ∈ p.diskPaths, path ≠ [] ∧ path.length < 512
  nodup : p.diskPaths.Nodup
  noEndpoint : ∀ endpoint ∈ p.diskEndpoints, endpoint = []

section KeySet

variable {node : Node} {hashes : Hashes} {bucket object : CString} {ctx : MultidiskCtx}
  {vnode : Vnode} {set : SetTopology} {disks : List MultiDisk}

/-- A key that has a placement has it on all the disks of its set, which are online. -/
theorem Node.KeySet.placed_of_compute {p : Placement}
    (h : node.KeySet hashes bucket object ctx vnode set disks)
    (hp : placementCompute hashes node bucket object = some p)
    (henough : node.defaultEcK + node.defaultEcM ≤ p.diskPaths.length)
    (hshort : ∀ path ∈ p.diskPaths, path ≠ [] ∧ path.length < 512) :
    (∀ disk ∈ disks, disk.onlinePath.isSome) ∧ Placed hashes node bucket object p ∧
      p.setIdx = vnode.setIdx ∧ p.diskPaths = disks.filterMap MultiDisk.onlinePath := by
  have hsome : ∀ disk ∈ disks, disk.onlinePath.isSome := by
    intro disk hdisk
    by_contra hoffline
    rw [h.placementCompute_eq.2 ⟨disk, hdisk, Option.not_isSome_iff_eq_none.mp hoffline⟩] at hp
    cases hp
  obtain ⟨p', hp', hidx, hpaths, hendpoint⟩ := h.placementCompute_eq.1 hsome
  obtain rfl := Option.some.inj (hp'.symm.trans hp)
  refine ⟨hsome, ⟨hp, ?_, henough, hshort, ?_, hendpoint⟩, hidx, hpaths⟩
  · rw [hpaths, ← List.length_pos_iff_ne_nil, List.filterMap_length_eq_length.mpr hsome, h.length]
    exact List.length_pos_iff_ne_nil.mpr h.nonempty
  · rw [hpaths]
    exact h.nodup.sublist (onlinePaths_sublist disks)

/-- With no disk offline a key has a placement. -/
theorem Node.KeySet.placed (h : node.KeySet hashes bucket object ctx vnode set disks)
    (honline : node.AllOnline)
    (hcount : node.OnlineAtLeast (node.defaultEcK + node.defaultEcM)) :
    ∃ p, Placed hashes node bucket object p ∧ p.setIdx = vnode.setIdx ∧
      p.diskPaths = disks.filterMap MultiDisk.onlinePath := by
  have hpath := honline vnode h.mem ctx disks h.multidisk h.getSet
  have hsome : ∀ disk ∈ disks, disk.onlinePath.isSome := by
    intro disk hdisk
    obtain ⟨path, hpath, -⟩ := hpath disk hdisk
    exact Option.isSome_iff_exists.mpr ⟨path, hpath⟩
  obtain ⟨p, hp, -, hpaths, -⟩ := h.placementCompute_eq.1 hsome
  have hk := hcount vnode h.mem
  rw [h.getSetDisks_eq, ← hpaths] at hk
  refine ⟨p, (h.placed_of_compute hp hk ?_).2⟩
  rw [hpaths]
  intro path hmem
  obtain ⟨disk, hdisk, hsome⟩ := List.mem_filterMap.mp hmem
  obtain ⟨path', hsome', hshort⟩ := hpath disk hdisk
  exact Option.some.inj (hsome'.symm.trans hsome) ▸ hshort

end KeySet

/-- With no disk offline every key has a placement. -/
theorem placed_of_allOnline {node : Node} (hlocal : node.LocalMode) (honline : node.AllOnline)
    (hcount : node.OnlineAtLeast (node.defaultEcK + node.defaultEcM)) (hashes : Hashes)
    (bucket object : CString) : ∃ p, Placed hashes node bucket object p := by
  obtain ⟨ctx, vnode, set, disks, hset⟩ := hlocal.keySet hashes bucket object
  obtain ⟨p, hp, -⟩ := hset.placed honline hcount
  exact ⟨p, hp⟩

/-! ## 7. Disks marked offline -/

/-- Disks of one set marked offline one after the other. -/
def markOfflineAll (ctx : MultidiskCtx) (setIndex : ℕ) : List ℕ → Option MultidiskCtx
  | [] => some ctx
  | i :: rest => (markOffline ctx setIndex i).bind fun ctx => markOfflineAll ctx setIndex rest

/-- A disk, offline if its position is in the list. -/
def MultiDisk.marked (offline : List ℕ) (i : ℕ) (disk : MultiDisk) : MultiDisk :=
  if i ∈ offline then { disk with online := false } else disk

theorem MultiDisk.marked_cons (i j : ℕ) (offline : List ℕ) (disk : MultiDisk) :
    MultiDisk.marked offline j (if i = j then { disk with online := false } else disk) =
      MultiDisk.marked (i :: offline) j disk := by
  unfold MultiDisk.marked
  by_cases hij : i = j
  · subst hij
    by_cases hmem : i ∈ offline <;> simp [hmem]
  · simp [hij, Ne.symm hij]

/-- **Marking disks offline** changes the marked disks of the set and nothing else. -/
theorem markOfflineAll_spec {setIndex : ℕ} : ∀ {offline : List ℕ} {ctx ctx' : MultidiskCtx}
    {disks : List MultiDisk}, markOfflineAll ctx setIndex offline = some ctx' →
    ctx.sets[setIndex]? = some disks →
    ctx'.sets[setIndex]? = some (disks.mapIdx (MultiDisk.marked offline)) ∧
    (∀ j, j ≠ setIndex → ctx'.sets[j]? = ctx.sets[j]?) ∧ ∀ i ∈ offline, i < disks.length
  | [], ctx, ctx', disks, h, hset => by
    obtain rfl := Option.some.inj h
    refine ⟨?_, fun j _ => rfl, fun i hi => absurd hi List.not_mem_nil⟩
    rw [hset]
    congr 1
    refine (List.ext_getElem? fun i => ?_).symm
    rw [List.getElem?_mapIdx]
    cases disks[i]? <;> rfl
  | i :: rest, ctx, ctx', disks, h, hset => by
    simp only [markOfflineAll, markOffline, hset] at h
    by_cases hi : i ≥ disks.length
    · rw [if_pos hi] at h
      cases h
    · rw [if_neg hi, Option.bind_some] at h
      have hlt : setIndex < ctx.sets.length := (List.getElem?_eq_some_iff.mp hset).1
      obtain ⟨hself, hother, hrest⟩ := markOfflineAll_spec h
        (List.getElem?_set_self (by simpa using hlt))
      refine ⟨?_, fun j hj => ?_, fun j hj => ?_⟩
      · rw [hself]
        congr 1
        refine List.ext_getElem? fun j => ?_
        rw [List.getElem?_mapIdx, List.getElem?_mapIdx, List.getElem?_modify,
          Option.map_eq_map, Option.map_map]
        refine congrArg (fun f => Option.map f disks[j]?) (funext fun disk => ?_)
        exact MultiDisk.marked_cons i j rest disk
      · rw [hother j hj]
        exact List.getElem?_set_ne (Ne.symm hj)
      · rcases List.mem_cons.mp hj with rfl | hj
        · omega
        · simpa using hrest j hj

theorem MultiDisk.path_marked (offline : List ℕ) (i : ℕ) (disk : MultiDisk) :
    (MultiDisk.marked offline i disk).path = disk.path := by
  unfold MultiDisk.marked
  split <;> rfl

theorem MultiDisk.onlinePath_marked (offline : List ℕ) (i : ℕ) (disk : MultiDisk) :
    (MultiDisk.marked offline i disk).onlinePath =
      if i ∈ offline then none else disk.onlinePath := by
  unfold MultiDisk.marked
  split <;> rfl

theorem filterMap_mapIdx_of_eq {α β : Type} {f : α → Option β} : ∀ {g : ℕ → α → α},
    (∀ i a, f (g i a) = f a) → ∀ l : List α, (l.mapIdx g).filterMap f = l.filterMap f
  | _, _, [] => rfl
  | g, h, a :: t => by
    rw [List.mapIdx_cons, List.filterMap_cons, List.filterMap_cons, h 0 a,
      filterMap_mapIdx_of_eq (fun i b => h (i + 1) b) t]

/-- The key's set after its disks were marked. -/
theorem Node.KeySet.marked {node : Node} {hashes : Hashes} {bucket object : CString}
    {ctx ctx' : MultidiskCtx} {vnode : Vnode} {set : SetTopology} {disks : List MultiDisk}
    (h : node.KeySet hashes bucket object ctx vnode set disks) {offline : List ℕ}
    (hmarked : markOfflineAll ctx vnode.setIdx offline = some ctx') :
    Node.KeySet { node with multidisk := some ctx' } hashes bucket object ctx' vnode set
      (disks.mapIdx (MultiDisk.marked offline)) where
  initialized := h.initialized
  topology := h.topology
  mem := h.mem
  vnodeOf := h.vnodeOf
  multidisk := rfl
  setOf := h.setOf
  getSet := (markOfflineAll_spec hmarked h.getSet).1
  length := by rw [List.length_mapIdx, h.length]
  nonempty := h.nonempty
  length_le := h.length_le
  endpoint := h.endpoint
  nodup := by
    have hpaths : (disks.mapIdx (MultiDisk.marked offline)).filterMap MultiDisk.path =
        disks.filterMap MultiDisk.path := by
      exact filterMap_mapIdx_of_eq (MultiDisk.path_marked offline) disks
    rw [hpaths]
    exact h.nodup

/-- The first disk that was not marked heads the list of the online ones. -/
theorem filterMap_onlinePath_marked {disks : List MultiDisk} {offline : List ℕ} {j : ℕ}
    {path : CString} (hbefore : ∀ i < j, i ∈ offline) (hj : j ∉ offline)
    (hpath : disks[j]?.bind MultiDisk.onlinePath = some path) :
    ∃ rest, (disks.mapIdx (MultiDisk.marked offline)).filterMap MultiDisk.onlinePath =
      path :: rest := by
  obtain ⟨disk, hdisk, hpath⟩ := Option.bind_eq_some_iff.mp hpath
  obtain ⟨hlt, hget⟩ := List.getElem?_eq_some_iff.mp hdisk
  refine ⟨_, List.filterMap_eq_cons_iff.mpr
    ⟨(disks.mapIdx (MultiDisk.marked offline)).take j, MultiDisk.marked offline j disk,
      (disks.mapIdx (MultiDisk.marked offline)).drop (j + 1), ?_, fun d hd => ?_, ?_, rfl⟩⟩
  · have hlt' : j < (disks.mapIdx (MultiDisk.marked offline)).length := by
      rwa [List.length_mapIdx]
    have hget' : (disks.mapIdx (MultiDisk.marked offline))[j] =
        MultiDisk.marked offline j disk := by
      rw [List.getElem_mapIdx, hget]
    rw [← hget', List.getElem_cons_drop, List.take_append_drop]
  · obtain ⟨i, hi, rfl⟩ := List.getElem_of_mem hd
    rw [List.length_take] at hi
    rw [List.getElem_take, List.getElem_mapIdx, MultiDisk.onlinePath_marked,
      if_pos (hbefore i (by omega))]
  · rw [MultiDisk.onlinePath_marked, if_neg hj, hpath]

/-! ## 8. A node with one set -/

/-- All hashes are 0. -/
def Hashes.zero : Hashes where
  xxhash64 := fun _ _ => 0
  siphash := fun _ _ _ => 0
  blake2b256 := fun _ => List.replicate 32 0
  length_blake2b256 := fun _ => List.length_replicate

/-- The hash of a key is its first byte. -/
def Hashes.firstByte : Hashes where
  xxhash64 := fun _ data => UInt64.ofNat (data.headD 0).toNat
  siphash := fun _ _ data => UInt64.ofNat (data.headD 0).toNat
  blake2b256 := Hashes.zero.blake2b256
  length_blake2b256 := Hashes.zero.length_blake2b256

/-- One pool of one set, with these disks; no registry. -/
def singleSetNode (disks : List MultiDisk) (k m : ℕ) : Node where
  placementInitialized := true
  siphashK0 := 0
  siphashK1 := 0
  ring := [⟨0, 0, 0⟩]
  topology := some
    { version := 1, generation := 1, deploymentId := [], vnodeFactor := 1
      pools := [⟨0, [⟨0, .active, disks.map fun _ => ⟨[], [], 0⟩⟩]⟩] }
  multidisk := some ⟨[disks]⟩
  dataDir := some (cstr "/data")
  defaultEcK := k
  defaultEcM := m
  registryInitialized := false

theorem singleSetNode_localMode {disks : List MultiDisk} (hne : disks ≠ [])
    (h64 : disks.length ≤ 64) (hnodup : (disks.filterMap MultiDisk.path).Nodup) (k m : ℕ) :
    (singleSetNode disks k m).LocalMode where
  initialized := rfl
  topology := rfl
  ring := List.cons_ne_nil _ _
  sets := by
    intro vnode hvnode
    obtain rfl := List.mem_singleton.mp hvnode
    refine ⟨⟨[disks]⟩, _, disks, rfl, rfl, rfl, ?_, ?_, ?_, ?_, hnodup⟩
    · simp
    · simpa using hne
    · simpa using h64
    · intro disk hdisk
      obtain ⟨-, -, rfl⟩ := List.mem_map.mp hdisk
      rfl

theorem singleSetNode_onlineAtLeast {disks : List MultiDisk} (h64 : disks.length ≤ 64)
    (k m n : ℕ) (hn : n ≤ (disks.filterMap MultiDisk.onlinePath).length) :
    (singleSetNode disks k m).OnlineAtLeast n := by
  intro vnode hvnode
  obtain rfl := List.mem_singleton.mp hvnode
  show n ≤ ((disks.filterMap MultiDisk.onlinePath).take 64).length
  rw [List.take_of_length_le ((List.length_filterMap_le _ _).trans h64)]
  exact hn

theorem singleSetNode_allOnline {disks : List MultiDisk} (k m : ℕ)
    (h : ∀ disk ∈ disks, ∃ path, disk.onlinePath = some path ∧ path ≠ [] ∧ path.length < 512) :
    (singleSetNode disks k m).AllOnline := by
  intro vnode hvnode ctx disks' hctx hdisks disk hdisk
  obtain rfl := List.mem_singleton.mp hvnode
  obtain rfl := Option.some.inj hctx
  obtain rfl := Option.some.inj hdisks
  exact h disk hdisk

/-- With a disk offline no key has a placement. -/
theorem singleSetNode_placementCompute_eq_none {disks : List MultiDisk} {k m : ℕ}
    (hlocal : (singleSetNode disks k m).LocalMode)
    (hoffline : ∃ disk ∈ disks, disk.onlinePath = none)
    (hashes : Hashes) (bucket object : CString) :
    placementCompute hashes (singleSetNode disks k m) bucket object = none := by
  obtain ⟨ctx, vnode, set, disks', hset⟩ := hlocal.keySet hashes bucket object
  obtain rfl := List.mem_singleton.mp hset.mem
  obtain rfl := Option.some.inj hset.multidisk
  obtain rfl := Option.some.inj hset.getSet
  exact hset.placementCompute_eq.2 hoffline

end Buckets
