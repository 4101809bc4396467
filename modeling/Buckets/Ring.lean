/-
# `hash/ring.c`: the consistent hash ring

A ring holds `vnodes_per_node` vnodes for each of its nodes, at the hashes of `"name:0"`,
`"name:1"` and so on, in an array sorted by hash.  An object belongs to the node of the first vnode
at or after the object's hash.

Adding a node appends its vnodes and sorts; removing one filters the array and does NOT sort, which
is enough because a part of a sorted array is sorted.

* `ringRun_holds`: what holds of a ring in every run -- for the abstract view of it, a SET of
  members, see `membersRun`;
* `ringLookup_eq`: the binary search is the clockwise scan;
* `ring_consistent`: adding and removing a node move no object between two other nodes.

Nothing is assumed of the hash function in the first two: equal hashes, of one node or of two, only
make the order of the array depend on `qsort`.
-/
import Mathlib.Data.Finset.Card
import Buckets.Lib.HashRing
import Buckets.Placement

namespace Buckets

open HashRing Strtoull

/-! ## 1. The ring -/

/-- `buckets_vnode_t`. -/
structure RingVnode where
  hash : UInt64
  nodeId : ℤ
  nodeName : CString
deriving DecidableEq, Inhabited

/-- `buckets_ring_t`; `vnode_count` is the length of the array. -/
structure Ring where
  vnodes : List RingVnode
  nodeCount : ℕ
  vnodesPerNode : ℕ
  seed : UInt64

/-- What the operations return. -/
inductive RingRet where
  | ok
  | errInvalidArg
  | errNotFound
  | errExists
deriving DecidableEq

/-- The place of a vnode. -/
def RingVnode.place (vnode : RingVnode) : ℕ := vnode.hash.toNat

/-- `BUCKETS_DEFAULT_VNODES`. -/
def defaultVnodes : ℕ := 150

/-- `buckets_ring_create`: `none` is `NULL`. -/
def ringCreate (vnodesPerNode : ℤ) (seed : UInt64) : Option Ring :=
  if vnodesPerNode < 0 then none
  else some
    { vnodes := []
      nodeCount := 0
      vnodesPerNode := if vnodesPerNode = 0 then defaultVnodes else vnodesPerNode.toNat
      seed := seed }

variable (hashes : Hashes) (qsort : Sorter RingVnode.place)

/-- The key of a vnode: `"%s:%d"` in a buffer of 256 bytes. -/
def vnodeKey (nodeName : CString) (i : ℕ) : CString :=
  charArray 256 (nodeName ++ cstr ":" ++ printDec i)

/-- The vnodes of a node. -/
def Ring.vnodesOf (ring : Ring) (nodeId : ℤ) (nodeName : CString) : List RingVnode :=
  (List.range ring.vnodesPerNode).map fun i =>
    ⟨hashes.xxhash64 ring.seed (vnodeKey nodeName i), nodeId, nodeName⟩

/-- `buckets_ring_add_node`. -/
def ringAddNode (ring : Option Ring) (nodeId : ℤ) (nodeName : Option CString) :
    RingRet × Option Ring :=
  match ring, nodeName with
  | some ring, some nodeName =>
    if ring.vnodes.any fun vnode => vnode.nodeId = nodeId then (.errExists, some ring)
    else
      (.ok, some { ring with
        vnodes := qsort.sort (ring.vnodes ++ ring.vnodesOf hashes nodeId nodeName)
        nodeCount := ring.nodeCount + 1 })
  | _, _ => (.errInvalidArg, ring)

/-- `buckets_ring_remove_node`. -/
def ringRemoveNode (ring : Option Ring) (nodeId : ℤ) : RingRet × Option Ring :=
  match ring with
  | none => (.errInvalidArg, none)
  | some ring =>
    if (ring.vnodes.countP fun vnode => vnode.nodeId = nodeId) = 0 then (.errNotFound, some ring)
    else
      (.ok, some { ring with
        vnodes := ring.vnodes.filter fun vnode => vnode.nodeId ≠ nodeId
        nodeCount := ring.nodeCount - 1 })

/-- `buckets_ring_lookup`. -/
def ringLookup (ring : Option Ring) (objectName : Option CString) : ℤ :=
  match ring, objectName with
  | some ring, some objectName =>
    if ring.vnodes.length = 0 then -1
    else
      let hash := hashes.xxhash64 ring.seed objectName
      let left := lowerBound (fun mid => (ring.vnodes.getD mid default).hash < hash) 0
        ring.vnodes.length
      -- wrap around past the end
      let left := if ring.vnodes.length ≤ left then 0 else left
      (ring.vnodes.getD left default).nodeId
  | _, _ => -1

variable {nodeId : ℤ} {ring : Ring}

/-- A rejected addition leaves the ring. -/
theorem ringAddNode_rejected {ring : Option Ring} {nodeName : Option CString}
    (h : (ringAddNode hashes qsort ring nodeId nodeName).1 ≠ .ok) :
    (ringAddNode hashes qsort ring nodeId nodeName).2 = ring := by
  cases ring with
  | none => rfl
  | some ring =>
    cases nodeName with
    | none => rfl
    | some nodeName =>
      rw [ringAddNode] at h ⊢
      split at h
      · rename_i hexists
        rw [if_pos hexists]
      · exact absurd rfl h

/-- A rejected removal leaves the ring. -/
theorem ringRemoveNode_rejected {ring : Option Ring}
    (h : (ringRemoveNode ring nodeId).1 ≠ .ok) : (ringRemoveNode ring nodeId).2 = ring := by
  cases ring with
  | none => rfl
  | some ring =>
    rw [ringRemoveNode] at h ⊢
    split at h
    · rename_i hzero
      rw [if_pos hzero]
    · exact absurd rfl h

/-! ## 2. The set of members -/

/-- What a ring is for: it holds these members. -/
structure Ring.Holds (ring : Ring) (members : Finset ℤ) : Prop where
  sorted : ring.vnodes.Pairwise fun v w => v.place ≤ w.place
  owns : ∀ nodeId, (ring.vnodes.countP fun vnode => vnode.nodeId = nodeId) =
    if nodeId ∈ members then ring.vnodesPerNode else 0
  count : ring.nodeCount = members.card
  pos : 0 < ring.vnodesPerNode

theorem ringCreate_holds {vnodesPerNode : ℤ} {seed : UInt64}
    (h : ringCreate vnodesPerNode seed = some ring) : ring.Holds ∅ := by
  unfold ringCreate at h
  split at h
  · cases h
  · obtain rfl := Option.some.inj h
    refine ⟨List.Pairwise.nil, fun nodeId => by simp, rfl, ?_⟩
    by_cases hzero : vnodesPerNode = 0
    · simp [hzero, defaultVnodes]
    · simp only [hzero, if_false]
      omega

namespace Ring.Holds

variable {hashes qsort} {ring : Ring} {members : Finset ℤ} {nodeId : ℤ}

theorem any_iff (h : ring.Holds members) (nodeId : ℤ) :
    (ring.vnodes.any fun vnode => vnode.nodeId = nodeId) = true ↔ nodeId ∈ members := by
  have hpos := h.pos
  have hcount := h.owns nodeId
  rw [List.any_eq_true, ← List.countP_pos_iff, hcount]
  by_cases hmem : nodeId ∈ members
  · simp [hmem, hpos]
  · simp [hmem]

/-- Every vnode is a member's. -/
theorem nodeId_mem (h : ring.Holds members) {vnode : RingVnode} (hv : vnode ∈ ring.vnodes) :
    vnode.nodeId ∈ members :=
  (h.any_iff vnode.nodeId).mp (List.any_eq_true.mpr ⟨vnode, hv, by simp⟩)

theorem countP_vnodesOf (hashes : Hashes) (ring : Ring) (nodeId other : ℤ) (nodeName : CString) :
    ((ring.vnodesOf hashes nodeId nodeName).countP fun vnode => vnode.nodeId = other) =
      if nodeId = other then ring.vnodesPerNode else 0 := by
  unfold Ring.vnodesOf
  rw [List.countP_map]
  by_cases heq : nodeId = other
  · simp [heq, Function.comp_def]
  · simp [heq, Function.comp_def]

/-- **Adding a node** that is not a member. -/
theorem addNode (h : ring.Holds members) (hnew : nodeId ∉ members) (nodeName : CString) :
    ∃ ring', ringAddNode hashes qsort (some ring) nodeId (some nodeName) = (.ok, some ring') ∧
      ring'.Holds (insert nodeId members) ∧ ring'.seed = ring.seed ∧
      ring'.vnodes.Perm (ring.vnodes ++ ring.vnodesOf hashes nodeId nodeName) := by
  have habsent : ¬ (ring.vnodes.any fun vnode => vnode.nodeId = nodeId) = true :=
    fun hany => hnew ((h.any_iff nodeId).mp hany)
  refine ⟨_, if_neg habsent, ⟨qsort.sorted _, fun other => ?_, ?_, h.pos⟩, rfl,
    qsort.perm _⟩
  · dsimp only
    rw [(qsort.perm _).countP_eq, List.countP_append, h.owns, countP_vnodesOf]
    by_cases heq : nodeId = other
    · subst heq
      simp [hnew]
    · simp [heq, Finset.mem_insert, Ne.symm heq]
  · rw [Finset.card_insert_of_notMem hnew]
    exact congrArg (· + 1) h.count

/-- **Removing a member.** -/
theorem removeNode (h : ring.Holds members) (hmem : nodeId ∈ members) :
    ∃ ring', ringRemoveNode (some ring) nodeId = (.ok, some ring') ∧
      ring'.Holds (members.erase nodeId) ∧ ring'.seed = ring.seed ∧
      ring'.vnodes = ring.vnodes.filter fun vnode => vnode.nodeId ≠ nodeId := by
  have hcount : ¬ (ring.vnodes.countP fun vnode => vnode.nodeId = nodeId) = 0 := by
    have hpos := h.pos
    rw [h.owns, if_pos hmem]
    omega
  refine ⟨_, if_neg hcount, ⟨h.sorted.filter _, fun other => ?_, ?_, h.pos⟩,
    rfl, rfl⟩
  · dsimp only
    rw [List.countP_filter]
    by_cases heq : other = nodeId
    · subst heq
      simp
    · have hsame : ∀ vnode ∈ ring.vnodes,
          (decide (vnode.nodeId = other) && decide (vnode.nodeId ≠ nodeId)) = true ↔
            decide (vnode.nodeId = other) = true := by
        intro vnode _
        simp only [Bool.and_eq_true, decide_eq_true_eq, and_iff_left_iff_imp]
        rintro rfl
        exact heq
      rw [List.countP_congr hsame, h.owns]
      simp [heq]
  · have hcard := Finset.card_erase_of_mem hmem
    rw [hcard]
    exact congrArg (· - 1) h.count

end Ring.Holds

/-! ## 3. Lookup -/

theorem hash_lt_iff (v : RingVnode) (hash : UInt64) : v.hash < hash ↔ v.place < hash.toNat :=
  UInt64.lt_iff_toNat_lt

/-- **The lookup** returns the owner of the first vnode at or after the hash of the name, wrapping
to the first of all. -/
theorem ringLookup_eq (hsorted : ring.vnodes.Pairwise fun v w => v.place ≤ w.place)
    (objectName : CString) :
    ringLookup hashes (some ring) (some objectName) =
      ((clockwise RingVnode.place ring.vnodes
        (hashes.xxhash64 ring.seed objectName).toNat).map RingVnode.nodeId).getD (-1) := by
  rw [ringLookup]
  by_cases hempty : ring.vnodes.length = 0
  · rw [if_pos hempty, List.length_eq_zero_iff.mp hempty]
    rfl
  · have hget : ∀ i vnode, ring.vnodes[i]? = some vnode →
        ((ring.vnodes.getD i default).hash < hashes.xxhash64 ring.seed objectName ↔
          vnode.place < (hashes.xxhash64 ring.seed objectName).toNat) := by
      intro i vnode hi
      rw [List.getD_eq_getElem?_getD, hi, Option.getD_some, hash_lt_iff]
    have hfind := getElem?_lowerBound hsorted hget
    obtain ⟨vnode, hvnode⟩ := exists_clockwise
      (List.ne_nil_of_length_pos (Nat.pos_of_ne_zero hempty)) RingVnode.place
      (hashes.xxhash64 ring.seed objectName).toNat
    rw [if_neg hempty, hvnode, Option.map_some, Option.getD_some]
    rw [hvnode] at hfind
    dsimp only
    rw [List.getD_eq_getElem?_getD, hfind, Option.getD_some]

/-! ## 4. Runs -/

/-- A call that changes a ring. -/
inductive RingOp where
  | create (vnodesPerNode : ℤ) (seed : UInt64)
  | addNode (nodeId : ℤ) (nodeName : Option CString)
  | removeNode (nodeId : ℤ)

/-- The ring after a call; a creation replaces it. -/
def RingOp.apply (ring : Option Ring) : RingOp → Option Ring
  | .create vnodesPerNode seed => ringCreate vnodesPerNode seed
  | .addNode nodeId nodeName => (ringAddNode hashes qsort ring nodeId nodeName).2
  | .removeNode nodeId => (ringRemoveNode ring nodeId).2

/-- The ring after a sequence of calls, with no ring before it. -/
def ringRun (ops : List RingOp) : Option Ring := ops.foldl (RingOp.apply hashes qsort) none

/-- The members after a call. -/
def RingOp.members (members : Option (Finset ℤ)) : RingOp → Option (Finset ℤ)
  | .create vnodesPerNode _ => if vnodesPerNode < 0 then none else some ∅
  | .addNode nodeId nodeName => if nodeName = none then members else members.map (insert nodeId)
  | .removeNode nodeId => members.map fun members => members.erase nodeId

/-- The members after a sequence of calls: those added and not removed since. -/
def membersRun (ops : List RingOp) : Option (Finset ℤ) := ops.foldl RingOp.members none

/-- The ring and the set of members belong together. -/
def RingFor : Option Ring → Option (Finset ℤ) → Prop
  | none, none => True
  | some ring, some members => ring.Holds members
  | _, _ => False

theorem RingFor.apply {ring : Option Ring} {members : Option (Finset ℤ)} (h : RingFor ring members)
    (op : RingOp) : RingFor (op.apply hashes qsort ring) (op.members members) := by
  cases op with
  | create vnodesPerNode seed =>
    rw [RingOp.apply, RingOp.members]
    cases hcreate : ringCreate vnodesPerNode seed with
    | none =>
      have hneg : vnodesPerNode < 0 := by
        by_contra hneg
        simp [ringCreate, hneg] at hcreate
      rw [if_pos hneg]
      trivial
    | some ring =>
      have hneg : ¬ vnodesPerNode < 0 := by
        intro hneg
        simp [ringCreate, hneg] at hcreate
      rw [if_neg hneg]
      exact ringCreate_holds hcreate
  | addNode nodeId nodeName =>
    match ring, members, h with
    | none, none, _ => cases nodeName <;> trivial
    | some ring, some members, h =>
      cases nodeName with
      | none => exact h
      | some nodeName =>
        by_cases hmem : nodeId ∈ members
        · have hany := (h.any_iff nodeId).mpr hmem
          have hadd : ringAddNode hashes qsort (some ring) nodeId (some nodeName) =
              (.errExists, some ring) := by rw [ringAddNode, if_pos hany]
          simp only [RingOp.apply, RingOp.members, hadd, reduceCtorEq, if_false, Option.map_some,
            Finset.insert_eq_self.mpr hmem]
          exact h
        · obtain ⟨ring', hadd, hholds, -⟩ := @Ring.Holds.addNode hashes qsort _ _ _ h hmem nodeName
          simp only [RingOp.apply, RingOp.members, hadd, reduceCtorEq, if_false]
          exact hholds
  | removeNode nodeId =>
    match ring, members, h with
    | none, none, _ => trivial
    | some ring, some members, h =>
      by_cases hmem : nodeId ∈ members
      · obtain ⟨ring', hremove, hholds, -⟩ := h.removeNode hmem
        simp only [RingOp.apply, RingOp.members, hremove]
        exact hholds
      · have hzero : (ring.vnodes.countP fun vnode => vnode.nodeId = nodeId) = 0 := by
          rw [h.owns, if_neg hmem]
        have hremove : ringRemoveNode (some ring) nodeId = (.errNotFound, some ring) := by
          rw [ringRemoveNode, if_pos hzero]
        simp only [RingOp.apply, RingOp.members, hremove, Option.map_some,
          Finset.erase_eq_of_notMem hmem]
        exact h

/-- **A run of calls** builds a ring that holds the members. -/
theorem ringFor_run (ops : List RingOp) : RingFor (ringRun hashes qsort ops) (membersRun ops) := by
  have hrun : ∀ (ops : List RingOp) (ring : Option Ring) (members : Option (Finset ℤ)),
      RingFor ring members →
      RingFor (ops.foldl (RingOp.apply hashes qsort) ring) (ops.foldl RingOp.members members) := by
    intro ops
    induction ops with
    | nil => exact fun _ _ h => h
    | cons op ops ih => exact fun ring members h => ih _ _ (h.apply hashes qsort op)
  exact hrun ops none none trivial

theorem ringRun_eq_some {ops : List RingOp}
    (h : ringRun hashes qsort ops = some ring) :
    ∃ members, membersRun ops = some members ∧ ring.Holds members := by
  have hfor := ringFor_run hashes qsort ops
  rw [h] at hfor
  cases hmembers : membersRun ops with
  | none =>
    rw [hmembers] at hfor
    exact hfor.elim
  | some members =>
    rw [hmembers] at hfor
    exact ⟨members, rfl, hfor⟩

theorem ringRun_of_membersRun {ops : List RingOp} {members : Finset ℤ}
    (h : membersRun ops = some members) :
    ∃ ring, ringRun hashes qsort ops = some ring ∧ ring.Holds members := by
  have hfor := ringFor_run hashes qsort ops
  rw [h] at hfor
  cases hring : ringRun hashes qsort ops with
  | none =>
    rw [hring] at hfor
    exact hfor.elim
  | some ring =>
    rw [hring] at hfor
    exact ⟨ring, rfl, hfor⟩

/-- **Every run**: the array is sorted, each member and nobody else owns `vnodes_per_node` vnodes,
`node_count` counts the members, a lookup is the clockwise scan, and a call that is rejected leaves
the ring. -/
theorem ringRun_holds (ops : List RingOp) :
    (∀ ring, ringRun hashes qsort ops = some ring → ∃ members, membersRun ops = some members ∧
      (ring.vnodes.Pairwise fun v w => v.hash ≤ w.hash) ∧
      (∀ nodeId, (ring.vnodes.countP fun vnode => vnode.nodeId = nodeId) =
        if nodeId ∈ members then ring.vnodesPerNode else 0) ∧
      0 < ring.vnodesPerNode ∧ ring.nodeCount = members.card ∧
      ∀ objectName, ringLookup hashes (some ring) (some objectName) =
        (((ring.vnodes.find? fun vnode => hashes.xxhash64 ring.seed objectName ≤ vnode.hash).or
          ring.vnodes.head?).map RingVnode.nodeId).getD (-1)) ∧
    (∀ nodeId nodeName,
      (ringAddNode hashes qsort (ringRun hashes qsort ops) nodeId nodeName).1 ≠ .ok →
      (ringAddNode hashes qsort (ringRun hashes qsort ops) nodeId nodeName).2 =
        ringRun hashes qsort ops) ∧
    (∀ nodeId, (ringRemoveNode (ringRun hashes qsort ops) nodeId).1 ≠ .ok →
      (ringRemoveNode (ringRun hashes qsort ops) nodeId).2 = ringRun hashes qsort ops) := by
  refine ⟨fun ring hring => ?_, fun nodeId nodeName => ringAddNode_rejected hashes qsort,
    fun nodeId => ringRemoveNode_rejected⟩
  obtain ⟨members, hmembers, hholds⟩ := ringRun_eq_some hashes qsort hring
  refine ⟨members, hmembers, ?_, hholds.owns, hholds.pos, hholds.count, fun objectName => ?_⟩
  · exact hholds.sorted.imp fun hle => UInt64.le_iff_toNat_le.mpr hle
  · have hscan : (fun vnode : RingVnode =>
        decide (hashes.xxhash64 ring.seed objectName ≤ vnode.hash)) =
        fun vnode => decide ((hashes.xxhash64 ring.seed objectName).toNat ≤ vnode.place) :=
      funext fun vnode => decide_eq_decide.mpr UInt64.le_iff_toNat_le
    rw [ringLookup_eq hashes hholds.sorted, clockwise, hscan]

/-! ## 5. Adding and removing a node -/

/-- Vnodes of different nodes have different hashes. -/
def Ring.DistinctHashes (ring : Ring) : Prop :=
  ∀ v ∈ ring.vnodes, ∀ w ∈ ring.vnodes, v.hash = w.hash → v.nodeId = w.nodeId

theorem Ring.DistinctHashes.distinct (h : ring.DistinctHashes) :
    Distinct RingVnode.place RingVnode.nodeId ring.vnodes :=
  fun v hv w hw hplace => h v hv w hw (UInt64.toNat_inj.mp hplace)

/-- The vnodes of the members that were there before are those a removal of the new node leaves. -/
theorem perm_filter_vnodes {ring' : Ring} {nodeName : CString}
    (hnew : ∀ vnode ∈ ring.vnodes, vnode.nodeId ≠ nodeId)
    (hperm : ring'.vnodes.Perm (ring.vnodes ++ ring.vnodesOf hashes nodeId nodeName)) :
    (ring'.vnodes.filter fun vnode => vnode.nodeId ≠ nodeId).Perm ring.vnodes := by
  have hold : (ring.vnodes.filter fun vnode => vnode.nodeId ≠ nodeId) = ring.vnodes :=
    List.filter_eq_self.mpr fun vnode hv => decide_eq_true (hnew vnode hv)
  have hown : ((ring.vnodesOf hashes nodeId nodeName).filter fun vnode => vnode.nodeId ≠ nodeId) =
      [] := by
    refine List.filter_eq_nil_iff.mpr fun vnode hv => ?_
    obtain ⟨i, -, rfl⟩ := List.mem_map.mp hv
    simp
  have hfilter := hperm.filter fun vnode => decide (vnode.nodeId ≠ nodeId)
  rwa [List.filter_append, hold, hown, List.append_nil] at hfilter

/-- Two rings with the same seed, the second with more vnodes: a name whose vnode in the second is
one of the first has the same node in both. -/
theorem ringLookup_of_subset {ring' : Ring} (hseed : ring'.seed = ring.seed)
    (hsub : ring.vnodes ⊆ ring'.vnodes) (hdistinct : ring'.DistinctHashes)
    (hsorted : ring.vnodes.Pairwise fun v w => v.place ≤ w.place)
    (hsorted' : ring'.vnodes.Pairwise fun v w => v.place ≤ w.place)
    (hothers : ∀ vnode ∈ ring'.vnodes, vnode.nodeId ≠ nodeId → vnode ∈ ring.vnodes)
    (objectName : CString) :
    ringLookup hashes (some ring') (some objectName) = nodeId ∨
      ringLookup hashes (some ring') (some objectName) =
        ringLookup hashes (some ring) (some objectName) := by
  rw [ringLookup_eq hashes hsorted, ringLookup_eq hashes hsorted', hseed]
  cases hfound : clockwise RingVnode.place ring'.vnodes
      (hashes.xxhash64 ring.seed objectName).toNat with
  | none =>
    right
    have hnil : ring'.vnodes = [] := by
      by_contra hne
      obtain ⟨vnode, hvnode⟩ := exists_clockwise hne RingVnode.place
        (hashes.xxhash64 ring.seed objectName).toNat
      rw [hfound] at hvnode
      cases hvnode
    rw [hnil] at hsub
    rw [List.subset_nil.mp hsub]
    rfl
  | some vnode =>
    by_cases hid : vnode.nodeId = nodeId
    · exact .inl hid
    · have hmem := hothers vnode (clockwise_mem hfound) hid
      right
      rw [owner_clockwise hsub hdistinct.distinct hsorted hsorted' hfound hmem]
      rfl

section Consistent

variable {ring ring' : Ring} {members members' : Finset ℤ} {nodeId : ℤ} {nodeName : CString}

/-- An added node takes objects, and nobody else does. -/
theorem ringLookup_added (h : ring.Holds members) (h' : ring'.Holds members')
    (hseed : ring'.seed = ring.seed) (hdistinct : ring'.DistinctHashes)
    (hperm : ring'.vnodes.Perm (ring.vnodes ++ ring.vnodesOf hashes nodeId nodeName))
    (objectName : Option CString) :
    ringLookup hashes (some ring') objectName = nodeId ∨
      ringLookup hashes (some ring') objectName = ringLookup hashes (some ring) objectName := by
  cases objectName with
  | none => exact .inr rfl
  | some objectName =>
    refine ringLookup_of_subset hashes hseed ?_ hdistinct h.sorted h'.sorted ?_ objectName
    · intro vnode hv
      exact hperm.mem_iff.mpr (List.mem_append_left _ hv)
    · intro vnode hv hid
      rcases List.mem_append.mp (hperm.mem_iff.mp hv) with hv | hv
      · exact hv
      · obtain ⟨i, -, rfl⟩ := List.mem_map.mp hv
        exact absurd rfl hid

/-- A node that was added and removed again leaves every lookup. -/
theorem ringLookup_restored (h : ring.Holds members) (h' : ring'.Holds members')
    (hseed : ring'.seed = ring.seed) (hdistinct : ring.DistinctHashes)
    (hperm : ring'.vnodes.Perm ring.vnodes) (objectName : Option CString) :
    ringLookup hashes (some ring') objectName = ringLookup hashes (some ring) objectName := by
  cases objectName with
  | none => rfl
  | some objectName =>
    rw [ringLookup_eq hashes h.sorted, ringLookup_eq hashes h'.sorted, hseed,
      owner_clockwise_perm hperm hdistinct.distinct h'.sorted h.sorted]

/-- A removed node gives its objects away, and nobody else does. -/
theorem ringLookup_removed (h : ring.Holds members) (h' : ring'.Holds members')
    (hseed : ring'.seed = ring.seed) (hdistinct : ring.DistinctHashes)
    (hfilter : ring'.vnodes = ring.vnodes.filter fun vnode => vnode.nodeId ≠ nodeId)
    (objectName : Option CString) (hother : ringLookup hashes (some ring) objectName ≠ nodeId) :
    ringLookup hashes (some ring') objectName = ringLookup hashes (some ring) objectName := by
  cases objectName with
  | none => rfl
  | some objectName =>
    have hsub : ring'.vnodes ⊆ ring.vnodes := by
      rw [hfilter]
      exact fun vnode hv => List.mem_of_mem_filter hv
    have hothers : ∀ vnode ∈ ring.vnodes, vnode.nodeId ≠ nodeId → vnode ∈ ring'.vnodes := by
      intro vnode hv hid
      rw [hfilter]
      exact List.mem_filter.mpr ⟨hv, decide_eq_true hid⟩
    rcases ringLookup_of_subset hashes hseed.symm hsub hdistinct h'.sorted h.sorted hothers
      objectName with hmoved | hsame
    · exact absurd hmoved hother
    · exact hsame.symm

end Consistent

/-- **Consistent hashing.**  In a ring that was built by calls, a node that is not a member can be
added, and moves objects only to itself; a member can be removed, and only its own objects move;
and a node added and removed again moves nothing. -/
theorem ring_consistent (ops : List RingOp) (ring : Ring)
    (hring : ringRun hashes qsort ops = some ring) :
    (∀ nodeId nodeName, (∀ vnode ∈ ring.vnodes, vnode.nodeId ≠ nodeId) →
      ∃ ring', ringAddNode hashes qsort (some ring) nodeId (some nodeName) = (.ok, some ring') ∧
        (ring'.DistinctHashes →
          (∀ objectName, ringLookup hashes (some ring') objectName = nodeId ∨
            ringLookup hashes (some ring') objectName =
              ringLookup hashes (some ring) objectName) ∧
          ∃ ring'', ringRemoveNode (some ring') nodeId = (.ok, some ring'') ∧
            ∀ objectName, ringLookup hashes (some ring'') objectName =
              ringLookup hashes (some ring) objectName)) ∧
    (∀ nodeId, (∃ vnode ∈ ring.vnodes, vnode.nodeId = nodeId) →
      ∃ ring', ringRemoveNode (some ring) nodeId = (.ok, some ring') ∧
        (ring.DistinctHashes → ∀ objectName,
          ringLookup hashes (some ring) objectName ≠ nodeId →
          ringLookup hashes (some ring') objectName =
            ringLookup hashes (some ring) objectName)) := by
  obtain ⟨members, -, hholds⟩ := ringRun_eq_some hashes qsort hring
  constructor
  · intro nodeId nodeName hnew
    have hmem : nodeId ∉ members := by
      intro hmem
      obtain ⟨vnode, hv, hid⟩ := List.any_eq_true.mp ((hholds.any_iff nodeId).mpr hmem)
      exact hnew vnode hv (of_decide_eq_true hid)
    obtain ⟨ring', hadd, hholds', hseed, hperm⟩ :=
      @Ring.Holds.addNode hashes qsort _ _ _ hholds hmem nodeName
    refine ⟨ring', hadd, fun hdistinct => ⟨fun objectName => ?_, ?_⟩⟩
    · exact ringLookup_added hashes hholds hholds' hseed hdistinct hperm objectName
    · obtain ⟨ring'', hremove, hholds'', hseed', hfilter⟩ :=
        hholds'.removeNode (Finset.mem_insert_self nodeId members)
      have hback : ring''.vnodes.Perm ring.vnodes := by
        rw [hfilter]
        exact perm_filter_vnodes hashes hnew hperm
      have hold : ring.DistinctHashes := fun v hv w hw =>
        hdistinct v (hperm.mem_iff.mpr (List.mem_append_left _ hv)) w
          (hperm.mem_iff.mpr (List.mem_append_left _ hw))
      exact ⟨ring'', hremove, fun objectName =>
        ringLookup_restored hashes hholds hholds'' (hseed'.trans hseed) hold hback objectName⟩
  · rintro nodeId ⟨vnode, hv, rfl⟩
    obtain ⟨ring', hremove, hholds', hseed, hfilter⟩ := hholds.removeNode (hholds.nodeId_mem hv)
    exact ⟨ring', hremove, fun hdistinct objectName hother =>
      ringLookup_removed hashes hholds hholds' hseed hdistinct hfilter objectName hother⟩

theorem ring_consistent_two_nodes :
    ∃ ring ring', ringRun Hashes.firstByte (Sorter.insertion _)
        [.create 2 0, .addNode 1 (some (cstr "a"))] = some ring ∧
      ringAddNode Hashes.firstByte (Sorter.insertion _) (some ring) 2 (some (cstr "b")) =
        (.ok, some ring') ∧
      ring'.DistinctHashes ∧
      (∀ objectName, ringLookup Hashes.firstByte (some ring') objectName = 2 ∨
        ringLookup Hashes.firstByte (some ring') objectName =
          ringLookup Hashes.firstByte (some ring) objectName) ∧
      ∃ ring'', ringRemoveNode (some ring') 2 = (.ok, some ring'') ∧
        ∀ objectName, ringLookup Hashes.firstByte (some ring'') objectName =
          ringLookup Hashes.firstByte (some ring) objectName := by
  obtain ⟨hadd, -⟩ := ring_consistent Hashes.firstByte (Sorter.insertion _)
    [.create 2 0, .addNode 1 (some (cstr "a"))] _ rfl
  obtain ⟨ring', hring', hmoves⟩ := hadd 2 (cstr "b") (by decide +kernel)
  have hdistinct : ring'.DistinctHashes := by
    obtain rfl := Option.some.inj (congrArg Prod.snd hring')
    unfold Ring.DistinctHashes
    decide +kernel
  exact ⟨_, ring', rfl, hring', hdistinct, (hmoves hdistinct).1, (hmoves hdistinct).2⟩

end Buckets
