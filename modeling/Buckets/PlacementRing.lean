/-
# `placement.c`: the ring of the erasure sets

`build_hash_ring` gives every ACTIVE set of the topology 150 vnodes, at the hashes of
`"pool:set:0"` to `"pool:set:149"`, and sorts them; `find_vnode` bisects.  The hashes depend on the
numbers of the set alone, so two topologies with the same active sets have the same vnodes.

* `mem_buildHashRing`: the vnodes of the ring are those of the active sets;
* `Node.vnodeOf_eq`: an object is in the set of the vnode that follows its hash clockwise;
* `buildHashRing_consistent`: a set that becomes active takes objects, and nobody else does.
-/
import Mathlib.Data.Nat.Digits.Defs
import Mathlib.Tactic.IntervalCases
import Buckets.Lib.HashRing
import Buckets.Placement

namespace Buckets

open HashRing Strtoull

/-! ## 1. The active sets -/

/-- The state of a set, if there is such a set. -/
def ClusterTopology.stateOf (t : ClusterTopology) (p s : ℕ) : Option SetState :=
  (t.pools[p]?).bind fun pool => (pool.sets[s]?).map SetTopology.state

/-- There is such a set and it is active. -/
def ClusterTopology.Active (t : ClusterTopology) (p s : ℕ) : Prop := t.stateOf p s = some .active

instance (t : ClusterTopology) (p s : ℕ) : Decidable (t.Active p s) :=
  inferInstanceAs (Decidable (_ = _))

/-- The active sets, in the order of the loops of `build_hash_ring`. -/
def ClusterTopology.activeSets (t : ClusterTopology) : List (ℕ × ℕ) :=
  t.pools.zipIdx.flatMap fun pool => pool.1.sets.zipIdx.filterMap fun set =>
    if set.1.state = .active then some (pool.2, set.2) else none

theorem ClusterTopology.mem_activeSets {t : ClusterTopology} {p s : ℕ} :
    (p, s) ∈ t.activeSets ↔ t.Active p s := by
  unfold ClusterTopology.activeSets ClusterTopology.Active ClusterTopology.stateOf
  rw [List.mem_flatMap]
  constructor
  · rintro ⟨⟨pool, p'⟩, hpool, hsets⟩
    obtain ⟨⟨set, s'⟩, hset, hactive⟩ := List.mem_filterMap.mp hsets
    rw [List.mem_zipIdx_iff_getElem?] at hpool hset
    by_cases hstate : set.state = .active
    · rw [if_pos hstate] at hactive
      obtain ⟨rfl, rfl⟩ := Prod.mk.inj (Option.some.inj hactive)
      rw [show t.pools[p']? = some pool from hpool, Option.bind_some,
        show pool.sets[s']? = some set from hset, Option.map_some, hstate]
    · rw [if_neg hstate] at hactive
      cases hactive
  · intro h
    obtain ⟨pool, hpool, hset⟩ := Option.bind_eq_some_iff.mp h
    obtain ⟨set, hset, hstate⟩ := Option.map_eq_some_iff.mp hset
    refine ⟨(pool, p), List.mem_zipIdx_iff_getElem?.mpr hpool, List.mem_filterMap.mpr
      ⟨(set, s), List.mem_zipIdx_iff_getElem?.mpr hset, if_pos hstate⟩⟩

/-! ## 2. Building the ring -/

/-- `VNODES_PER_SET`. -/
def vnodesPerSet : ℕ := 150

/-- The place of a vnode. -/
def Vnode.place (vnode : Vnode) : ℕ := vnode.hash.toNat

/-- The set of a vnode. -/
def Vnode.owner (vnode : Vnode) : ℕ × ℕ := (vnode.poolIdx, vnode.setIdx)

variable (hashes : Hashes) (qsort : Sorter Vnode.place)

/-- The vnodes of a set: the keys are `"%d:%d:%d"` in a buffer of 256 bytes. -/
def setVnodes (k0 k1 : UInt64) (p s : ℕ) : List Vnode :=
  (List.range vnodesPerSet).map fun v =>
    let vnodeKey := charArray 256 (printDec p ++ cstr ":" ++ printDec s ++ cstr ":" ++ printDec v)
    ⟨hashes.siphash k0 k1 vnodeKey, p, s⟩

/-- `build_hash_ring`: `none` is its error return, which leaves the ring. -/
def buildHashRing (k0 k1 : UInt64) (topology : Option ClusterTopology) : Option (List Vnode) :=
  match topology with
  | none => none
  | some topology =>
    if topology.activeSets.length = 0 then none
    else some
      (qsort.sort (topology.activeSets.flatMap fun set => setVnodes hashes k0 k1 set.1 set.2))

/-- Eight bytes copied into a `u64`, lowest first. -/
def u64OfBytes (bytes : Bytes) : UInt64 := UInt64.ofNat (Nat.ofDigits 256 (bytes.map UInt8.toNat))

/-- `buckets_placement_init`: the keys are the two halves of the deployment's UUID. -/
def placementInit (uuidParse : CString → Option Bytes) (node : Node) : Node × Bool :=
  if node.placementInitialized then (node, true)
  else
    match node.topology with
    | none => (node, false)
    | some topology =>
      match uuidParse topology.deploymentId with
      | none => (node, false)
      | some uuid =>
        let node := { node with
          siphashK0 := u64OfBytes (uuid.take 8), siphashK1 := u64OfBytes ((uuid.drop 8).take 8) }
        match buildHashRing hashes qsort node.siphashK0 node.siphashK1 node.topology with
        | none => (node, false)
        | some ring => ({ node with ring := ring, placementInitialized := true }, true)

section Build

variable {hashes qsort} {k0 k1 : UInt64} {t : ClusterTopology} {ring : List Vnode}

theorem buildHashRing_some (hactive : ∃ p s, t.Active p s) :
    ∃ ring, buildHashRing hashes qsort k0 k1 (some t) = some ring := by
  obtain ⟨p, s, hactive⟩ := hactive
  have hne := List.length_pos_of_mem (ClusterTopology.mem_activeSets.mpr hactive)
  exact ⟨_, if_neg (by omega)⟩

theorem buildHashRing_eq_some (h : buildHashRing hashes qsort k0 k1 (some t) = some ring) :
    t.activeSets ≠ [] ∧
      ring = qsort.sort (t.activeSets.flatMap fun set => setVnodes hashes k0 k1 set.1 set.2) := by
  rw [buildHashRing] at h
  split at h
  · cases h
  · rename_i hne
    exact ⟨fun hnil => hne (by rw [hnil]; rfl), (Option.some.inj h).symm⟩

theorem sorted_buildHashRing (h : buildHashRing hashes qsort k0 k1 (some t) = some ring) :
    ring.Pairwise fun v w => v.place ≤ w.place := by
  obtain ⟨-, rfl⟩ := buildHashRing_eq_some h
  exact qsort.sorted _

theorem owner_of_mem_setVnodes {p s : ℕ} {vnode : Vnode}
    (h : vnode ∈ setVnodes hashes k0 k1 p s) : vnode.owner = (p, s) := by
  obtain ⟨v, -, rfl⟩ := List.mem_map.mp h
  rfl

/-- **The ring** is the vnodes of the active sets. -/
theorem mem_buildHashRing (h : buildHashRing hashes qsort k0 k1 (some t) = some ring)
    {vnode : Vnode} :
    vnode ∈ ring ↔ t.Active vnode.poolIdx vnode.setIdx ∧
      vnode ∈ setVnodes hashes k0 k1 vnode.poolIdx vnode.setIdx := by
  obtain ⟨-, rfl⟩ := buildHashRing_eq_some h
  rw [(qsort.perm _).mem_iff, List.mem_flatMap]
  constructor
  · rintro ⟨⟨p, s⟩, hset, hvnode⟩
    obtain ⟨rfl, rfl⟩ := Prod.mk.inj (owner_of_mem_setVnodes hvnode)
    exact ⟨ClusterTopology.mem_activeSets.mp hset, hvnode⟩
  · rintro ⟨hactive, hvnode⟩
    exact ⟨(vnode.poolIdx, vnode.setIdx), ClusterTopology.mem_activeSets.mpr hactive, hvnode⟩

theorem buildHashRing_ne_nil (h : buildHashRing hashes qsort k0 k1 (some t) = some ring) :
    ring ≠ [] := by
  obtain ⟨hne, hring⟩ := buildHashRing_eq_some h
  obtain ⟨⟨p, s⟩, rest, hactive⟩ := List.exists_cons_of_ne_nil hne
  have hset : t.Active p s := ClusterTopology.mem_activeSets.mp (by rw [hactive]; simp)
  have hfirst : (⟨_, p, s⟩ : Vnode) ∈ setVnodes hashes k0 k1 p s :=
    List.mem_map.mpr ⟨0, List.mem_range.mpr (by decide), rfl⟩
  exact List.ne_nil_of_mem ((mem_buildHashRing h).mpr ⟨hset, hfirst⟩)

end Build

/-! ## 3. The vnode of an object -/

theorem findVnodeLoop_eq (ring : List Vnode) (targetHash : UInt64) (left right : ℕ) :
    findVnodeLoop ring targetHash left right =
      lowerBound (fun mid => (ring.getD mid default).hash < targetHash) left right := by
  induction left, right using findVnodeLoop.induct ring targetHash with
  | case1 left right hlt mid hlow ih => rw [findVnodeLoop, lowerBound, if_pos hlt, if_pos hlt,
      if_pos hlow, if_pos hlow, ih]
  | case2 left right hlt mid hlow ih => rw [findVnodeLoop, lowerBound, if_pos hlt, if_pos hlt,
      if_neg hlow, if_neg hlow, ih]
  | case3 left right hlt => rw [findVnodeLoop, lowerBound, if_neg hlt, if_neg hlt]

/-- `find_vnode` is the clockwise scan. -/
theorem getElem?_findVnode {ring : List Vnode}
    (hsorted : ring.Pairwise fun v w => v.place ≤ w.place) (targetHash : UInt64) :
    ring[findVnode ring targetHash]? = clockwise Vnode.place ring targetHash.toNat := by
  have hget : ∀ i vnode, ring[i]? = some vnode →
      ((ring.getD i default).hash < targetHash ↔ vnode.place < targetHash.toNat) := by
    intro i vnode hi
    rw [List.getD_eq_getElem?_getD, hi, Option.getD_some]
    exact UInt64.lt_iff_toNat_lt
  rw [← getElem?_lowerBound hsorted hget, findVnode, findVnodeLoop_eq]

variable {node : Node} {bucket object : CString} {vnode : Vnode}

theorem Node.vnodeOf_eq (hsorted : node.ring.Pairwise fun v w => v.place ≤ w.place)
    (bucket object : CString) :
    node.vnodeOf hashes bucket object = clockwise Vnode.place node.ring
      (hashes.siphash node.siphashK0 node.siphashK1 (joinPath bucket object)).toNat :=
  getElem?_findVnode hsorted _

/-- An object whose hash is the place of a vnode is at a vnode of that place. -/
theorem Node.vnodeOf_at (hsorted : node.ring.Pairwise fun v w => v.place ≤ w.place)
    (hmem : vnode ∈ node.ring)
    (hhash : hashes.siphash node.siphashK0 node.siphashK1 (joinPath bucket object) = vnode.hash) :
    ∃ found ∈ node.ring, node.vnodeOf hashes bucket object = some found ∧
      found.hash = vnode.hash := by
  obtain ⟨found, hfound, hvnode⟩ :=
    Node.vnodeOf_mem (List.ne_nil_of_mem hmem) hashes bucket object
  refine ⟨found, hfound, hvnode, UInt64.toNat_inj.mp ?_⟩
  rw [Node.vnodeOf_eq hashes hsorted, hhash] at hvnode
  rcases clockwise_ahead hsorted hvnode hmem with ⟨hle, hge⟩ | ⟨-, hlt, -⟩
  · exact le_antisymm (hge le_rfl) hle
  · exact absurd hlt (lt_irrefl _)

/-- **A placement** is in the set of the object's vnode. -/
theorem placementCompute_owner {p : Placement}
    (h : placementCompute hashes node bucket object = some p) :
    ∃ vnode set topology, node.vnodeOf hashes bucket object = some vnode ∧
      node.topology = some topology ∧ node.setOf vnode = some set ∧
      (p.poolIdx, p.setIdx) = vnode.owner ∧ p.generation = topology.generation ∧
      p.state = set.state ∧ p.diskUuids = set.disks.map DiskInfo.uuid := by
  unfold placementCompute at h
  split at h
  · cases h
  · split at h
    · rename_i topology vnode htopology hvnode
      split at h
      · cases h
      · rename_i set hset
        refine ⟨vnode, set, topology, hvnode, htopology, hset, ?_⟩
        dsimp only at h
        split at h
        · obtain rfl := Option.some.inj h
          exact ⟨rfl, rfl, rfl, rfl⟩
        · split at h
          · split at h
            · obtain rfl := Option.some.inj h
              exact ⟨rfl, rfl, rfl, rfl⟩
            · cases h
          · obtain rfl := Option.some.inj h
            exact ⟨rfl, rfl, rfl, rfl⟩
    · cases h

/-- With endpoints in the topology a placement needs nothing else. -/
theorem placementCompute_of_endpoint
    {set : SetTopology} {first : DiskInfo} {rest : List DiskInfo}
    (hinit : node.placementInitialized = true)
    (hvnode : node.vnodeOf hashes bucket object = some vnode) (hset : node.setOf vnode = some set)
    (hdisks : set.disks = first :: rest) (hendpoint : first.endpoint ≠ []) :
    ∃ p, placementCompute hashes node bucket object = some p := by
  obtain ⟨topology, htopology, -⟩ := Option.bind_eq_some_iff.mp hset
  rw [placementCompute, hinit, htopology, hvnode]
  simp only [Bool.not_true, Bool.false_eq_true, if_false, hset, hdisks, hendpoint]
  exact ⟨_, rfl⟩

/-! ## 4. A set that becomes active -/

/-- Vnodes of different sets have different hashes. -/
def DistinctVnodeHashes (ring : List Vnode) : Prop :=
  ∀ v ∈ ring, ∀ w ∈ ring, v.hash = w.hash → v.owner = w.owner

theorem DistinctVnodeHashes.distinct {ring : List Vnode} (h : DistinctVnodeHashes ring) :
    Distinct Vnode.place Vnode.owner ring :=
  fun v hv w hw hplace => h v hv w hw (UInt64.toNat_inj.mp hplace)

/-- A node that serves with a ring built from its topology. -/
structure Node.Built (node : Node) (t : ClusterTopology) : Prop where
  topology : node.topology = some t
  ring : buildHashRing hashes qsort node.siphashK0 node.siphashK1 (some t) = some node.ring

/-- The set chosen for an object, which is the one a placement names. -/
def Node.Chooses (node : Node) (bucket object : CString) (set : ℕ × ℕ) : Prop :=
  (node.vnodeOf hashes bucket object).map Vnode.owner = some set ∧
    ∀ p, placementCompute hashes node bucket object = some p → (p.poolIdx, p.setIdx) = set

variable {hashes qsort}

theorem Node.chooses_of_vnodeOf
    (h : node.vnodeOf hashes bucket object = some vnode) :
    node.Chooses hashes bucket object vnode.owner := by
  refine ⟨by rw [h, Option.map_some], fun p hp => ?_⟩
  obtain ⟨vnode', -, -, hvnode', -, -, howner, -⟩ := placementCompute_owner hashes hp
  rw [howner, Option.some.inj (hvnode'.symm.trans h)]

namespace Node.Built

variable {node : Node} {t : ClusterTopology}

theorem sorted (h : node.Built hashes qsort t) :
    node.ring.Pairwise fun v w => v.place ≤ w.place := sorted_buildHashRing h.ring

/-- **The set of an object** is active in the topology the ring was built from. -/
theorem exists_vnode (h : node.Built hashes qsort t) (bucket object : CString) :
    ∃ vnode ∈ node.ring, node.vnodeOf hashes bucket object = some vnode ∧
      t.Active vnode.poolIdx vnode.setIdx := by
  obtain ⟨vnode, hmem, hvnode⟩ :=
    Node.vnodeOf_mem (buildHashRing_ne_nil h.ring) hashes bucket object
  exact ⟨vnode, hmem, hvnode, ((mem_buildHashRing h.ring).mp hmem).1⟩

end Node.Built

variable (hashes qsort)

/-- **Consistent placement.**  Two nodes with the same keys, with rings built for two topologies
that differ in one set, active in the second and not in the first: every object is in the same set
on both or in the new one on the second, and on each in an active set. -/
theorem buildHashRing_consistent (node node' : Node) (t t' : ClusterTopology) (newPool newSet : ℕ)
    (hnode : node.Built hashes qsort t) (hnode' : node'.Built hashes qsort t')
    (hk0 : node'.siphashK0 = node.siphashK0) (hk1 : node'.siphashK1 = node.siphashK1)
    (hothers : ∀ p s, (p, s) ≠ (newPool, newSet) → (t'.Active p s ↔ t.Active p s))
    (hold : ¬ t.Active newPool newSet) (hdistinct : DistinctVnodeHashes node'.ring)
    (bucket object : CString) :
    ∃ set set', node.Chooses hashes bucket object set ∧ node'.Chooses hashes bucket object set' ∧
      (set' = set ∨ set' = (newPool, newSet)) ∧ t.Active set.1 set.2 ∧ t'.Active set'.1 set'.2 := by
  obtain ⟨vnode, hmem, hvnode, hactive⟩ := hnode.exists_vnode bucket object
  obtain ⟨vnode', hmem', hvnode', hactive'⟩ := hnode'.exists_vnode bucket object
  refine ⟨vnode.owner, vnode'.owner, Node.chooses_of_vnodeOf hvnode,
    Node.chooses_of_vnodeOf hvnode', ?_, hactive, hactive'⟩
  have hring' := @mem_buildHashRing _ _ _ _ _ _ hnode'.ring
  rw [hk0, hk1] at hring'
  have hring := @mem_buildHashRing _ _ _ _ _ _ hnode.ring
  -- the first ring is part of the second
  have hsub : node.ring ⊆ node'.ring := by
    intro v hv
    obtain ⟨hset, hown⟩ := hring.mp hv
    refine hring'.mpr ⟨(hothers _ _ ?_).mpr hset, hown⟩
    intro hsame
    obtain ⟨hp, hs⟩ := Prod.mk.inj hsame
    exact hold (hp ▸ hs ▸ hset)
  by_cases hnew : vnode'.owner = (newPool, newSet)
  · exact .inr hnew
  · have hold' : vnode' ∈ node.ring := by
      obtain ⟨hset, hown⟩ := hring'.mp hmem'
      exact hring.mpr ⟨(hothers _ _ hnew).mp hset, hown⟩
    left
    rw [Node.vnodeOf_eq hashes hnode.sorted] at hvnode
    rw [Node.vnodeOf_eq hashes hnode'.sorted, hk0, hk1] at hvnode'
    have howner := owner_clockwise hsub hdistinct.distinct hnode.sorted hnode'.sorted hvnode' hold'
    rw [hvnode, Option.map_some] at howner
    exact (Option.some.inj howner).symm

/-! ## 5. One pool of two sets -/

/-- The hash of a key is its third byte; in the key of a vnode that is the digit of the set. -/
def Hashes.thirdByte : Hashes :=
  { Hashes.zero with siphash := fun _ _ data => UInt64.ofNat (data.getD 2 0).toNat }

/-- One pool of two sets, of one disk each. -/
def twoSets (first second : SetState) : ClusterTopology where
  version := 1
  generation := 1
  deploymentId := []
  vnodeFactor := 150
  pools := [⟨0, [⟨0, first, [⟨cstr "http://n:9000/d0", cstr "u0", 0⟩]⟩,
    ⟨1, second, [⟨cstr "http://n:9000/d1", cstr "u1", 0⟩]⟩]⟩]

/-- A node that was started with a topology. -/
def startedNode (hashes : Hashes) (t : ClusterTopology) : Node :=
  { singleSetNode [] 1 0 with
    topology := some t
    ring := (buildHashRing hashes (Sorter.insertion _) 0 0 (some t)).getD [] }

theorem startedNode_built {t : ClusterTopology} (hactive : ∃ p s, t.Active p s) :
    (startedNode hashes t).Built hashes (Sorter.insertion _) t := by
  obtain ⟨ring, hring⟩ := @buildHashRing_some hashes (Sorter.insertion _) 0 0 t hactive
  refine ⟨rfl, ?_⟩
  change buildHashRing _ _ 0 0 (some t) = some (Option.getD _ [])
  rw [hring, Option.getD_some]

theorem hash_setVnodes_thirdByte {s : ℕ} (hs : s < 2)
    (h : vnode ∈ setVnodes Hashes.thirdByte 0 0 0 s) : vnode.hash = UInt64.ofNat (48 + s) := by
  obtain ⟨v, -, rfl⟩ := List.mem_map.mp h
  interval_cases s <;> rfl

theorem twoSets_active {first second : SetState} {p s : ℕ}
    (h : (twoSets first second).Active p s) : p = 0 ∧ s < 2 := by
  rcases p with _ | p
  · rcases s with _ | _ | s
    · exact ⟨rfl, by decide⟩
    · exact ⟨rfl, by decide⟩
    · cases h
  · cases h

/-- The vnodes of a set are all at one place, and those of the other at another. -/
theorem startedNode_vnode {first second : SetState}
    (hactive : ∃ p s, (twoSets first second).Active p s)
    (h : vnode ∈ (startedNode Hashes.thirdByte (twoSets first second)).ring) :
    vnode.poolIdx = 0 ∧ vnode.setIdx < 2 ∧ vnode.hash = UInt64.ofNat (48 + vnode.setIdx) := by
  obtain ⟨hset, hown⟩ := (mem_buildHashRing (startedNode_built Hashes.thirdByte hactive).ring).mp h
  obtain ⟨hp, hs⟩ := twoSets_active hset
  rw [hp] at hown
  exact ⟨hp, hs, hash_setVnodes_thirdByte hs hown⟩

theorem startedNode_distinct {first second : SetState}
    (hactive : ∃ p s, (twoSets first second).Active p s) :
    DistinctVnodeHashes (startedNode Hashes.thirdByte (twoSets first second)).ring := by
  intro v hv w hw hhash
  obtain ⟨hp, hs, hv⟩ := startedNode_vnode hactive hv
  obtain ⟨hp', hs', hw⟩ := startedNode_vnode hactive hw
  rw [hv, hw] at hhash
  have hset : v.setIdx = w.setIdx := by
    have hnat := congrArg UInt64.toNat hhash
    rw [UInt64.toNat_ofNat', UInt64.toNat_ofNat'] at hnat
    omega
  rw [Vnode.owner, Vnode.owner, hp, hp', hset]

theorem buildHashRing_consistent_two_sets :
    DistinctVnodeHashes (startedNode Hashes.thirdByte (twoSets .active .active)).ring ∧
    ∃ set set',
      (startedNode Hashes.thirdByte (twoSets .active .draining)).Chooses Hashes.thirdByte
        (cstr "b") (cstr "1") set ∧
      (startedNode Hashes.thirdByte (twoSets .active .active)).Chooses Hashes.thirdByte
        (cstr "b") (cstr "1") set' ∧
      (set' = set ∨ set' = (0, 1)) ∧ (twoSets .active .draining).Active set.1 set.2 ∧
      (twoSets .active .active).Active set'.1 set'.2 := by
  have hfirst : ∃ p s, (twoSets .active .draining).Active p s := ⟨0, 0, rfl⟩
  have hsecond : ∃ p s, (twoSets .active .active).Active p s := ⟨0, 0, rfl⟩
  have hdistinct := startedNode_distinct hsecond
  refine ⟨hdistinct, buildHashRing_consistent Hashes.thirdByte (Sorter.insertion _) _ _ _ _ 0 1
    (startedNode_built _ hfirst) (startedNode_built _ hsecond) rfl rfl ?_ (by decide) hdistinct
    (cstr "b") (cstr "1")⟩
  intro p s hother
  rcases p with _ | p
  · rcases s with _ | _ | s
    · exact Iff.rfl
    · exact absurd rfl hother
    · exact Iff.rfl
  · exact Iff.rfl

end Buckets
