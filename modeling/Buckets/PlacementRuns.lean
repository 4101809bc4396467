/-
# Placement while the topology changes

The placement ring and the topology cache are two pieces of global state.  The ring is built when
placement is initialised; `buckets_placement_rebuild_ring` is "called when topology changes", says
its header, but NOTHING calls it: `persist_and_notify` saves and caches the new topology and runs a
callback that the server never registers.  So in a run the ring stays what it was, and
`buckets_placement_compute` looks its sets up in a topology that has moved on.

* `TopologyOp.apply_active`: a change leaves a set active unless it marks that set;
* `placementServer_run`: the sets of the ring stay active in every run that marks none of them, and
  an object has one set for the whole run;
* `placementServer_drained`: one set marked, and its objects still go there.
-/
import Buckets.PlacementRing
import Buckets.TopologyManager

namespace Buckets

open HashRing

/-! ## 1. What a change leaves active -/

/-- The set an operation takes out of service. -/
def TopologyOp.Marks (op : TopologyOp) (p s : ℕ) : Prop :=
  op = .markSetDraining p s ∨ op = .markSetRemoved p s

/-- A set keeps its state when a pool changes, if the pool's change leaves the set's. -/
theorem stateOf_modify {t : ClusterTopology} {n p s : ℕ} {generation : ℤ} {state : SetState}
    {f : PoolTopology → PoolTopology} (h : t.stateOf p s = some state)
    (hf : n = p → ∀ pool : PoolTopology, (pool.sets[s]?).map SetTopology.state = some state →
      ((f pool).sets[s]?).map SetTopology.state = some state) :
    ClusterTopology.stateOf { t with pools := t.pools.modify n f, generation := generation } p s =
      some state := by
  obtain ⟨pool, hpool, hset⟩ := Option.bind_eq_some_iff.mp h
  unfold ClusterTopology.stateOf
  dsimp only
  rcases eq_or_ne n p with rfl | hn
  · rw [List.getElem?_modify_eq, hpool]
    exact hf rfl pool hset
  · rw [List.getElem?_modify_ne _ _ hn, hpool]
    exact hset

theorem topologySetState_active {t : ClusterTopology} {poolIdx setIdx : ℤ} {newState : SetState}
    {p s : ℕ} (h : t.Active p s) (hother : (poolIdx, setIdx) ≠ ((p : ℤ), (s : ℤ))) :
    (topologySetState t poolIdx setIdx newState).1.Active p s := by
  unfold topologySetState
  split
  · exact h
  · rename_i hpool
    split
    · exact h
    · split
      · exact h
      · rename_i hset
        split
        · exact h
        · split
          · exact h
          · refine stateOf_modify h fun hp pool hactive => ?_
            -- the pool is the set's pool, so the set changed is another
            have hs : setIdx.toNat ≠ s := by
              rintro rfl
              exact hother (Prod.ext (by omega) (by omega))
            dsimp only
            rwa [List.getElem?_modify_ne _ _ hs]

/-- **A change leaves a set active unless it marks that set.** -/
theorem TopologyOp.apply_active {t : ClusterTopology} {op : TopologyOp} {p s : ℕ}
    (h : t.Active p s) (hop : ¬ op.Marks p s) : (op.apply t).1.Active p s := by
  cases op with
  | addPool =>
    obtain ⟨pool, hpool, hset⟩ := Option.bind_eq_some_iff.mp h
    have hlt := (List.getElem?_eq_some_iff.mp hpool).1
    refine Option.bind_eq_some_iff.mpr ⟨pool, ?_, hset⟩
    exact (List.getElem?_append_left hlt).trans hpool
  | addSet poolIdx disks diskCount =>
    cases disks with
    | none => exact h
    | some disks =>
      rw [TopologyOp.apply, topologyAddSet]
      split
      · exact h
      · refine stateOf_modify h fun _ pool hactive => ?_
        obtain ⟨set, hset, hstate⟩ := Option.map_eq_some_iff.mp hactive
        have hlt := (List.getElem?_eq_some_iff.mp hset).1
        dsimp only
        rw [List.getElem?_append_left hlt, hset, Option.map_some, hstate]
  | markSetDraining poolIdx setIdx =>
    refine topologySetState_active h fun heq => hop (.inl ?_)
    rw [(Prod.mk.inj heq).1, (Prod.mk.inj heq).2]
  | markSetRemoved poolIdx setIdx =>
    refine topologySetState_active h fun heq => hop (.inr ?_)
    rw [(Prod.mk.inj heq).1, (Prod.mk.inj heq).2]

/-! ## 2. The server -/

variable {cjson : CJson}

/-- `buckets_topology_manager_get`. -/
def Manager.get (m : Manager cjson) : Option ClusterTopology :=
  if !m.initialized then none else m.cacheGet

/-- **What a call can do to the topology** that the manager hands out: nothing, or what the
operation does. -/
theorem Manager.get_call (m : Manager cjson) (io : ℕ → AtomicWrite) (op : TopologyOp) :
    (m.call io op).1.get = m.get ∨
      ∃ cached, m.get = some cached ∧ (m.call io op).1.get = some (op.apply cached).1 := by
  rw [Manager.call_eq]
  split
  · exact .inl rfl
  · unfold Manager.change
    split
    · exact .inl rfl
    · rename_i hinit
      split
      · exact .inl rfl
      · rename_i cached hcached
        have hget : m.get = some cached := by rw [Manager.get, if_neg hinit, hcached]
        dsimp only
        split
        · unfold Manager.persistAndNotify Manager.cacheSet
          dsimp only
          split
          · split
            · rename_i hcache
              right
              refine ⟨cached, hget, ?_⟩
              simp [Manager.get, Manager.cacheGet, hinit, hcache]
            · exact .inl rfl
          · exact .inl rfl
        · exact .inl rfl

variable (cjson) in
/-- The topology manager and the state of placement; the node's own topology is not used. -/
structure PlacementServer where
  manager : Manager cjson
  node : Node

namespace PlacementServer

/-- The node as a computation sees it. -/
def now (server : PlacementServer cjson) : Node :=
  { server.node with topology := server.manager.get }

/-- A call of the topology manager, with the outcome of each disk's write, or a computation. -/
inductive Event where
  | change (op : TopologyOp) (io : ℕ → AtomicWrite)
  | compute (bucket object : CString)

def step (server : PlacementServer cjson) : Event → PlacementServer cjson
  | .change op io => { server with manager := (server.manager.call io op).1 }
  | .compute _ _ => server

/-- A successful computation: the object, the topology that was cached, and the result. -/
structure Computed where
  bucket : CString
  object : CString
  topology : Option ClusterTopology
  placement : Placement

variable (hashes : Hashes)

def computed (server : PlacementServer cjson) : Event → Option Computed
  | .change _ _ => none
  | .compute bucket object =>
    (placementCompute hashes server.now bucket object).map fun placement =>
      ⟨bucket, object, server.manager.get, placement⟩

/-- The successful computations of a run. -/
def log (server : PlacementServer cjson) : List Event → List Computed
  | [] => []
  | event :: events => (server.computed hashes event).toList ++ log (server.step event) events

/-- The event marks no set that has a vnode on the ring. -/
def Spares (server : PlacementServer cjson) : Event → Prop
  | .change op _ => ∀ vnode ∈ server.node.ring, ¬ op.Marks vnode.poolIdx vnode.setIdx
  | .compute _ _ => True

/-- Every event of the run, in the state it meets. -/
def SparesAll (server : PlacementServer cjson) : List Event → Prop
  | [] => True
  | event :: events => server.Spares event ∧ (server.step event).SparesAll events

/-! ## 3. Runs -/

/-- The sets of the ring are active. -/
def RingActive (server : PlacementServer cjson) : Prop :=
  ∃ t, server.manager.get = some t ∧
    ∀ vnode ∈ server.node.ring, t.Active vnode.poolIdx vnode.setIdx

theorem RingActive.step {server : PlacementServer cjson} (h : server.RingActive) {event : Event}
    (hspares : server.Spares event) : (server.step event).RingActive := by
  cases event with
  | compute bucket object => exact h
  | change op io =>
    obtain ⟨t, ht, hactive⟩ := h
    rcases server.manager.get_call io op with hsame | ⟨cached, hcached, hchanged⟩
    · exact ⟨t, hsame.trans ht, hactive⟩
    · obtain rfl := Option.some.inj (ht.symm.trans hcached)
      refine ⟨_, hchanged, fun vnode hv => ?_⟩
      exact TopologyOp.apply_active (hactive vnode hv) (hspares vnode hv)

variable {hashes}

/-- A computation that succeeds names the set of a vnode of the ring. -/
theorem computed_vnode {server : PlacementServer cjson} {event : Event} {c : Computed}
    (h : server.computed hashes event = some c) :
    c.topology = server.manager.get ∧
      ∃ vnode ∈ server.node.ring, server.node.vnodeOf hashes c.bucket c.object = some vnode ∧
        (c.placement.poolIdx, c.placement.setIdx) = vnode.owner := by
  cases event with
  | change op io => cases h
  | compute bucket object =>
    obtain ⟨placement, hplacement, rfl⟩ := Option.map_eq_some_iff.mp h
    obtain ⟨vnode, -, -, hvnode, -, -, howner, -⟩ := placementCompute_owner hashes hplacement
    exact ⟨rfl, vnode, List.mem_of_getElem? hvnode, hvnode, howner⟩

/-- **In a run that spares the ring** every computation names an active set. -/
theorem log_active {events : List Event} : ∀ {server : PlacementServer cjson},
    server.RingActive → server.SparesAll events → ∀ c ∈ server.log hashes events,
    ∃ t, c.topology = some t ∧ t.Active c.placement.poolIdx c.placement.setIdx := by
  induction events with
  | nil => exact fun _ _ c hc => absurd hc List.not_mem_nil
  | cons event events ih =>
    intro server hactive hspares c hc
    rcases List.mem_append.mp hc with hc | hc
    · obtain ⟨htopology, vnode, hmem, -, howner⟩ := computed_vnode (Option.mem_toList.mp hc)
      obtain ⟨t, ht, hring⟩ := hactive
      obtain ⟨hp, hs⟩ := Prod.mk.inj howner
      rw [hp, hs]
      exact ⟨t, htopology.trans ht, hring vnode hmem⟩
    · exact ih (hactive.step hspares.1) hspares.2 c hc

/-- **In every run** the set of an object is that of its vnode on the ring of the start. -/
theorem log_vnode {events : List Event} : ∀ {server : PlacementServer cjson},
    ∀ c ∈ server.log hashes events,
    ∃ vnode, server.node.vnodeOf hashes c.bucket c.object = some vnode ∧
      (c.placement.poolIdx, c.placement.setIdx) = vnode.owner := by
  induction events with
  | nil => exact fun c hc => absurd hc List.not_mem_nil
  | cons event events ih =>
    intro server c hc
    rcases List.mem_append.mp hc with hc | hc
    · obtain ⟨-, vnode, -, hvnode, howner⟩ := computed_vnode (Option.mem_toList.mp hc)
      exact ⟨vnode, hvnode, howner⟩
    · have hnode : (server.step event).node = server.node := by cases event <;> rfl
      obtain ⟨vnode, hvnode, howner⟩ := ih c hc
      exact ⟨vnode, hnode ▸ hvnode, howner⟩

end PlacementServer

/-- Placement that starts has built its ring from the topology. -/
theorem placementInit_built {hashes : Hashes} {qsort : Sorter Vnode.place}
    {uuidParse : CString → Option Bytes} {node started : Node}
    (hfresh : node.placementInitialized = false)
    (h : placementInit hashes qsort uuidParse node = (started, true)) :
    ∃ t, node.topology = some t ∧ started.Built hashes qsort t := by
  unfold placementInit at h
  rw [hfresh, if_neg Bool.false_ne_true] at h
  split at h
  · cases h
  · rename_i t ht
    split at h
    · cases h
    · dsimp only at h
      split at h
      · cases h
      · rename_i ring hring
        obtain ⟨rfl, -⟩ := Prod.mk.inj h
        rw [ht] at hring
        exact ⟨t, ht, ht, hring⟩

/-- **Placement over a run** of manager calls and computations, from the moment placement was
initialised: if no call marks a set of the ring, every computation names a set that is active in
the cached topology; and always, two computations of one object name one set. -/
theorem placementServer_run (hashes : Hashes) (qsort : Sorter Vnode.place)
    (uuidParse : CString → Option Bytes) (manager : Manager cjson) (node started : Node)
    (hfresh : node.placementInitialized = false)
    (hinit : placementInit hashes qsort uuidParse { node with topology := manager.get } =
      (started, true)) (events : List PlacementServer.Event) :
    (PlacementServer.SparesAll ⟨manager, started⟩ events →
      ∀ c ∈ PlacementServer.log hashes ⟨manager, started⟩ events,
        ∃ t, c.topology = some t ∧ t.Active c.placement.poolIdx c.placement.setIdx) ∧
    ∀ c ∈ PlacementServer.log hashes ⟨manager, started⟩ events,
      ∀ c' ∈ PlacementServer.log hashes ⟨manager, started⟩ events,
      c.bucket = c'.bucket → c.object = c'.object →
      c.placement.generation = c'.placement.generation →
      (c.placement.poolIdx, c.placement.setIdx) = (c'.placement.poolIdx, c'.placement.setIdx) := by
  obtain ⟨t, ht, hbuilt⟩ :=
    @placementInit_built _ _ _ { node with topology := manager.get } _ hfresh hinit
  constructor
  · intro hspares
    refine PlacementServer.log_active ⟨t, ht, fun vnode hv => ?_⟩ hspares
    exact ((mem_buildHashRing hbuilt.ring).mp hv).1
  · intro c hc c' hc' hbucket hobject _
    obtain ⟨vnode, hvnode, howner⟩ := PlacementServer.log_vnode c hc
    obtain ⟨vnode', hvnode', howner'⟩ := PlacementServer.log_vnode c' hc'
    rw [hbucket, hobject] at hvnode
    rw [howner, howner', Option.some.inj (hvnode.symm.trans hvnode')]

/-! ## 4. A set is drained -/

/-- A manager that cached a topology and saves on one disk. -/
def oneDiskManager (t : ClusterTopology) : Manager CJson.reference where
  initialized := true
  cacheInitialized := true
  diskCount := 1
  cache := some t
  files := fun _ => none

/-- Every deployment has the UUID of zeros. -/
def zeroUuid (_ : CString) : Option Bytes := some (List.replicate 16 0)

/-- A node before placement is initialised. -/
def freshNode : Node := { singleSetNode [] 1 0 with placementInitialized := false, ring := [] }

theorem placementInit_freshNode {t : ClusterTopology} (hactive : ∃ p s, t.Active p s) :
    placementInit Hashes.thirdByte (Sorter.insertion _) zeroUuid
      { freshNode with topology := (oneDiskManager t).get } =
      (startedNode Hashes.thirdByte t, true) := by
  obtain ⟨ring, hring⟩ := @buildHashRing_some Hashes.thirdByte (Sorter.insertion _) 0 0 t hactive
  have hk0 : u64OfBytes (List.take 8 (List.replicate 16 0)) = 0 := by decide +kernel
  have hk1 : u64OfBytes (List.take 8 (List.drop 8 (List.replicate 16 0))) = 0 := by decide +kernel
  have hget : (oneDiskManager t).get = some t := rfl
  rw [hget]
  simp only [placementInit, zeroUuid, hk0, hk1, hring, startedNode, Option.getD_some, freshNode]
  rfl

/-- The server that was started with two active sets. -/
def twoSetsServer : PlacementServer CJson.reference :=
  ⟨oneDiskManager (twoSets .active .active),
    startedNode Hashes.thirdByte (twoSets .active .active)⟩

theorem placementServer_run_add_pool :
    twoSetsServer.SparesAll
      [.change .addPool fun _ => .ok, .compute (cstr "b") (cstr "0")] ∧
    ∀ c ∈ twoSetsServer.log Hashes.thirdByte
        [.change .addPool fun _ => .ok, .compute (cstr "b") (cstr "0")],
      ∃ t, c.topology = some t ∧ t.Active c.placement.poolIdx c.placement.setIdx := by
  have hspares : twoSetsServer.SparesAll
      [.change .addPool fun _ => .ok, .compute (cstr "b") (cstr "0")] := by
    refine ⟨?_, trivial, trivial⟩
    rintro vnode - (hmarks | hmarks)
    · cases hmarks
    · cases hmarks
  have hactive : ∃ p s, (twoSets .active .active).Active p s := ⟨0, 0, rfl⟩
  exact ⟨hspares, (placementServer_run Hashes.thirdByte (Sorter.insertion _) zeroUuid
    (oneDiskManager (twoSets .active .active)) freshNode _ rfl (placementInit_freshNode hactive)
    _).1 hspares⟩

/-- An object whose hash is the place of the first set's vnodes is in that set. -/
theorem startedNode_vnodeOf {bucket object : CString}
    (hhash : Hashes.thirdByte.siphash 0 0 (joinPath bucket object) = UInt64.ofNat 48) :
    ∃ vnode, (startedNode Hashes.thirdByte (twoSets .active .active)).vnodeOf
      Hashes.thirdByte bucket object = some vnode ∧ vnode.owner = (0, 0) := by
  have hactive : ∃ p s, (twoSets .active .active).Active p s := ⟨0, 0, rfl⟩
  have hbuilt := startedNode_built Hashes.thirdByte hactive
  have hfirst : (⟨UInt64.ofNat 48, 0, 0⟩ : Vnode) ∈
      (startedNode Hashes.thirdByte (twoSets .active .active)).ring :=
    (mem_buildHashRing hbuilt.ring).mpr
      ⟨rfl, List.mem_map.mpr ⟨0, List.mem_range.mpr (by decide), rfl⟩⟩
  obtain ⟨vnode, hmem, hvnode, hplace⟩ := Node.vnodeOf_at _ hbuilt.sorted hfirst hhash
  obtain ⟨hp, hs, hdigit⟩ := startedNode_vnode hactive hmem
  have hnat := congrArg UInt64.toNat (hdigit.symm.trans hplace)
  rw [UInt64.toNat_ofNat', UInt64.toNat_ofNat'] at hnat
  exact ⟨vnode, hvnode, Prod.ext hp (by rw [Vnode.owner]; omega)⟩

/-- The topology after the first set was marked. -/
def firstDrained : ClusterTopology := { twoSets .draining .active with generation := 2 }

/-- **Counterexample.**  Placement was initialised with two active sets.  The first is marked
draining, and an object whose hash is at a vnode of the first is still placed there, although the
second is active. -/
theorem placementServer_drained :
    placementInit Hashes.thirdByte (Sorter.insertion _) zeroUuid
      { freshNode with topology := twoSetsServer.manager.get } = (twoSetsServer.node, true) ∧
    ∃ c ∈ twoSetsServer.log Hashes.thirdByte
        [.change (.markSetDraining 0 0) fun _ => .ok, .compute (cstr "b") (cstr "0")],
      ∃ t, c.topology = some t ∧ t.Active 0 1 ∧
        ¬ t.Active c.placement.poolIdx c.placement.setIdx := by
  refine ⟨placementInit_freshNode ⟨0, 0, rfl⟩, ?_⟩
  obtain ⟨vnode, hvnode, howner⟩ := @startedNode_vnodeOf (cstr "b") (cstr "0") rfl
  obtain ⟨hp, hs⟩ := Prod.mk.inj howner
  rw [twoSetsServer]
  have hup : (startedNode Hashes.thirdByte (twoSets .active .active)).placementInitialized =
    true := rfl
  -- of the node only these two facts are used, never its ring of three hundred vnodes
  generalize startedNode Hashes.thirdByte (twoSets .active .active) = node at hvnode hup ⊢
  have hget : ((oneDiskManager (twoSets .active .active)).call (fun _ => .ok)
      (.markSetDraining 0 0)).1.get = some firstDrained := rfl
  have hset : Node.setOf { node with topology := some firstDrained } vnode =
      some ⟨0, .draining, [⟨cstr "http://n:9000/d0", cstr "u0", 0⟩]⟩ := by
    rw [Node.setOf, hp, hs]
    rfl
  obtain ⟨placement, hplacement⟩ := @placementCompute_of_endpoint Hashes.thirdByte
    { node with topology := some firstDrained } _ _ _ _ _ _ hup hvnode hset rfl (by decide)
  obtain ⟨vnode', -, -, hvnode', -, -, howner', -⟩ := placementCompute_owner _ hplacement
  obtain rfl := Option.some.inj (hvnode'.symm.trans hvnode)
  obtain ⟨hp', hs'⟩ := Prod.mk.inj (howner'.trans howner)
  refine ⟨⟨cstr "b", cstr "0", _, placement⟩, ?_, _, hget, rfl, ?_⟩
  · refine List.mem_append_right _ (List.mem_append_left _ (Option.mem_toList.mpr ?_))
    rw [PlacementServer.computed, PlacementServer.now, PlacementServer.step, hget, hplacement]
    rfl
  · rw [hp', hs']
    decide

end Buckets
