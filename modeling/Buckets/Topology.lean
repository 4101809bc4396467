/-
# `cluster/topology.c`: the cluster topology

The topology lists the pools, their erasure sets and the disks of each set.  It is changed by
three operations (add a pool, add a set, change the state of a set) and kept in `topology.json`.

* A change that is made raises the generation by one, and a call that makes none leaves every field
  (`TopologyOp.apply_cases`).
* `topologyFromJson_toJson`: the file is read back as the topology it was made from, EXCEPT for the
  generation, which is 64 bits wide in the record and goes through an `int` on its way to the file.
-/
import Mathlib.Data.List.Zip
import Buckets.Lib.Strtoull
import Buckets.Json

namespace Buckets

open Strtoull

/-! ## 1. The record -/

/-- `buckets_disk_info_t`. -/
structure DiskInfo where
  endpoint : CString
  uuid : CString
  capacity : ℕ
deriving DecidableEq

/-- `buckets_set_state_t`. -/
inductive SetState where
  | active
  | draining
  | removed
deriving DecidableEq

/-- `buckets_set_topology_t`. -/
structure SetTopology where
  idx : ℤ
  state : SetState
  disks : List DiskInfo
deriving DecidableEq

/-- `buckets_pool_topology_t`. -/
structure PoolTopology where
  idx : ℤ
  sets : List SetTopology
deriving DecidableEq

/-- `buckets_cluster_topology_t`. -/
structure ClusterTopology where
  version : ℤ
  generation : ℤ
  deploymentId : CString
  vnodeFactor : ℤ
  pools : List PoolTopology
deriving DecidableEq

/-! The ranges of the record's C types. -/

/-- The values of an `int`. -/
def IsInt (n : ℤ) : Prop := -2 ^ 31 ≤ n ∧ n < 2 ^ 31

instance (n : ℤ) : Decidable (IsInt n) := inferInstanceAs (Decidable (_ ∧ _))

structure DiskInfo.WellTyped (d : DiskInfo) : Prop where
  endpoint : d.endpoint.length < 256
  uuid : d.uuid.length < 37
  capacity : d.capacity < 2 ^ 64

structure SetTopology.WellTyped (set : SetTopology) : Prop where
  idx : IsInt set.idx
  disks : ∀ d ∈ set.disks, d.WellTyped

structure PoolTopology.WellTyped (pool : PoolTopology) : Prop where
  idx : IsInt pool.idx
  sets : ∀ set ∈ pool.sets, set.WellTyped

structure ClusterTopology.WellTyped (t : ClusterTopology) : Prop where
  version : IsInt t.version
  vnodeFactor : IsInt t.vnodeFactor
  deploymentId : t.deploymentId.length < 37
  pools : ∀ pool ∈ t.pools, pool.WellTyped

/-! ## 2. The operations -/

/-- The return codes. -/
inductive Ret where
  | ok
  | errInvalidArg
  | errQuorum
deriving DecidableEq

/-- `buckets_topology_add_pool`. -/
def topologyAddPool (t : ClusterTopology) : ClusterTopology × Ret :=
  ({ t with pools := t.pools ++ [⟨t.pools.length, []⟩], generation := t.generation + 1 }, .ok)

/-- `buckets_topology_add_set`: `disks` is the caller's array, `none` for `NULL`. -/
def topologyAddSet (t : ClusterTopology) (poolIdx : ℤ) (disks : Option (List DiskInfo))
    (diskCount : ℤ) : ClusterTopology × Ret :=
  match disks with
  | none => (t, .errInvalidArg)
  | some disks =>
    if poolIdx < 0 ∨ t.pools.length ≤ poolIdx ∨ diskCount ≤ 0 then (t, .errInvalidArg)
    else
      ({ t with
          pools := t.pools.modify poolIdx.toNat fun pool =>
            { pool with
                sets := pool.sets ++ [⟨pool.sets.length, .active, disks.take diskCount.toNat⟩] }
          generation := t.generation + 1 }, .ok)

/-- `buckets_topology_set_state`. -/
def topologySetState (t : ClusterTopology) (poolIdx setIdx : ℤ) (newState : SetState) :
    ClusterTopology × Ret :=
  if poolIdx < 0 then (t, .errInvalidArg)
  else
    match t.pools[poolIdx.toNat]? with
    | none => (t, .errInvalidArg)
    | some pool =>
      if setIdx < 0 then (t, .errInvalidArg)
      else
        match pool.sets[setIdx.toNat]? with
        | none => (t, .errInvalidArg)
        | some set =>
          if set.state = newState then (t, .ok)
          else
            ({ t with
                pools := t.pools.modify poolIdx.toNat fun pool =>
                  { pool with
                      sets := pool.sets.modify setIdx.toNat fun set =>
                        { set with state := newState } }
                generation := t.generation + 1 }, .ok)

/-- `buckets_topology_mark_set_draining`. -/
def topologyMarkSetDraining (t : ClusterTopology) (poolIdx setIdx : ℤ) : ClusterTopology × Ret :=
  topologySetState t poolIdx setIdx .draining

/-- `buckets_topology_mark_set_removed`. -/
def topologyMarkSetRemoved (t : ClusterTopology) (poolIdx setIdx : ℤ) : ClusterTopology × Ret :=
  topologySetState t poolIdx setIdx .removed

/-- A change to the topology, with its arguments. -/
inductive TopologyOp where
  | addPool
  | addSet (poolIdx : ℤ) (disks : Option (List DiskInfo)) (diskCount : ℤ)
  | markSetDraining (poolIdx setIdx : ℤ)
  | markSetRemoved (poolIdx setIdx : ℤ)

namespace TopologyOp

def apply (t : ClusterTopology) : TopologyOp → ClusterTopology × Ret
  | addPool => topologyAddPool t
  | addSet poolIdx disks diskCount => topologyAddSet t poolIdx disks diskCount
  | markSetDraining poolIdx setIdx => topologyMarkSetDraining t poolIdx setIdx
  | markSetRemoved poolIdx setIdx => topologyMarkSetRemoved t poolIdx setIdx

end TopologyOp

/-- The two ways an operation ends: nothing changed, or a new generation of the same deployment. -/
def Successor (t t' : ClusterTopology) : Prop :=
  t' = t ∨ t'.generation = t.generation + 1 ∧ t'.deploymentId = t.deploymentId

theorem topologySetState_cases (t : ClusterTopology) (poolIdx setIdx : ℤ) (newState : SetState) :
    ((topologySetState t poolIdx setIdx newState).2 ≠ .ok →
      (topologySetState t poolIdx setIdx newState).1 = t) ∧
    Successor t (topologySetState t poolIdx setIdx newState).1 := by
  unfold topologySetState
  repeat' split
  all_goals simp [Successor]

/-- **A call that returns an error changes nothing; one that changes something makes the next
generation.** -/
theorem TopologyOp.apply_cases (t : ClusterTopology) (op : TopologyOp) :
    ((op.apply t).2 ≠ .ok → (op.apply t).1 = t) ∧ Successor t (op.apply t).1 := by
  cases op with
  | addPool => simp [TopologyOp.apply, topologyAddPool, Successor]
  | addSet poolIdx disks diskCount =>
    simp only [TopologyOp.apply, topologyAddSet]
    repeat' split
    all_goals simp [Successor]
  | markSetDraining poolIdx setIdx => exact topologySetState_cases t poolIdx setIdx .draining
  | markSetRemoved poolIdx setIdx => exact topologySetState_cases t poolIdx setIdx .removed

/-! ## 3. `topology.json` -/

/-- `(int)n` for a 64-bit `n`: the value of the low 32 bits. -/
def toInt (n : ℤ) : ℤ := (n + 2 ^ 31) % 2 ^ 32 - 2 ^ 31

theorem isInt_toInt (n : ℤ) : IsInt (toInt n) := by
  unfold IsInt toInt
  omega

theorem toInt_of_isInt {n : ℤ} (h : IsInt n) : toInt n = n := by
  unfold IsInt at h
  unfold toInt
  omega

/-- `set_state_to_string`. -/
def setStateToString : SetState → CString
  | .active => cstr "active"
  | .draining => cstr "draining"
  | .removed => cstr "removed"

/-- `set_state_from_string`. -/
def setStateFromString (s : Option CString) : SetState :=
  if s = some (cstr "active") then .active
  else if s = some (cstr "draining") then .draining
  else if s = some (cstr "removed") then .removed
  else .active

theorem setStateFromString_toString (state : SetState) :
    setStateFromString (some (setStateToString state)) = state := by
  cases state <;> decide

def diskToJson (d : DiskInfo) : Json := .object
  [(cstr "uuid", .string d.uuid),
   (cstr "endpoint", .string d.endpoint),
   (cstr "capacity", .string (charArray 32 (printDec d.capacity)))]

def setToJson (set : SetTopology) : Json := .object
  [(cstr "idx", .int set.idx),
   (cstr "state", .string (setStateToString set.state)),
   (cstr "disks", .array (set.disks.map diskToJson))]

def poolToJson (pool : PoolTopology) : Json := .object
  [(cstr "idx", .int pool.idx),
   (cstr "sets", .array (pool.sets.map setToJson))]

/-- `topology_to_json`. -/
def topologyToJson (t : ClusterTopology) : Json := .object
  [(cstr "version", .int t.version),
   (cstr "generation", .int (toInt t.generation)),
   (cstr "deploymentId", .string t.deploymentId),
   (cstr "vnodeFactor", .int t.vnodeFactor),
   (cstr "pools", .array (t.pools.map poolToJson))]

/-- `BUCKETS_TOPOLOGY_VERSION`. -/
def topologyVersion : ℤ := 1

/-- `BUCKETS_VNODE_FACTOR`. -/
def defaultVnodeFactor : ℤ := 150

def diskFromJson (j : Json) : DiskInfo where
  uuid := charArray 37 ((j.getString (cstr "uuid") (some [])).getD [])
  endpoint := charArray 256 ((j.getString (cstr "endpoint") (some [])).getD [])
  capacity := strtoull 10 ((j.getString (cstr "capacity") (some (cstr "0"))).getD [])

/-- The set at position `setIdx` of its array. -/
def setFromJson (j : Json) (setIdx : ℕ) : Option SetTopology := do
  let idx := j.getInt (cstr "idx") setIdx
  let state := setStateFromString (j.getString (cstr "state") (some (cstr "active")))
  let disks ← j.getArray (cstr "disks")
  some ⟨idx, state, disks.map diskFromJson⟩

/-- The pool at position `poolIdx` of its array. -/
def poolFromJson (j : Json) (poolIdx : ℕ) : Option PoolTopology := do
  let idx := j.getInt (cstr "idx") poolIdx
  let sets ← j.getArray (cstr "sets")
  let sets ← sets.zipIdx.mapM fun item => setFromJson item.1 item.2
  some ⟨idx, sets⟩

/-- `topology_from_json`. -/
def topologyFromJson (j : Json) : Option ClusterTopology := do
  let version := j.getInt (cstr "version") topologyVersion
  let generation := j.getInt (cstr "generation") 1
  let vnodeFactor := j.getInt (cstr "vnodeFactor") defaultVnodeFactor
  let deploymentId ← j.getString (cstr "deploymentId") none
  let pools ← j.getArray (cstr "pools")
  let pools ← pools.zipIdx.mapM fun item => poolFromJson item.1 item.2
  some ⟨version, generation, charArray 37 deploymentId, vnodeFactor, pools⟩

/-! ## 4. The file is read back -/

theorem length_printDec_lt {n : ℕ} (h : n < 2 ^ 64) : (printDec n).length < 32 := by
  unfold printDec
  split
  · simp
  · have hlen : (Nat.digits 10 n).length ≤ 20 :=
      (Nat.digits_length_le_iff (by omega) n).mpr (h.trans_le (by norm_num))
    rw [List.length_map, List.length_reverse]
    omega

theorem diskFromJson_toJson {d : DiskInfo} (h : d.WellTyped) : diskFromJson (diskToJson d) = d := by
  have hnodup : ([cstr "uuid", cstr "endpoint", cstr "capacity"] : List CString).Nodup := by decide
  have huuid : (diskToJson d).getString (cstr "uuid") (some []) = some d.uuid :=
    Json.getString_eq (Json.getObjectItemCaseSensitive_object hnodup (by simp))
  have hendpoint : (diskToJson d).getString (cstr "endpoint") (some []) = some d.endpoint :=
    Json.getString_eq (Json.getObjectItemCaseSensitive_object hnodup (by simp))
  have hcapacity : (diskToJson d).getString (cstr "capacity") (some (cstr "0")) =
      some (charArray 32 (printDec d.capacity)) :=
    Json.getString_eq (Json.getObjectItemCaseSensitive_object hnodup (by simp))
  simp only [diskFromJson, huuid, hendpoint, hcapacity, Option.getD_some,
    charArray_of_lt h.uuid, charArray_of_lt h.endpoint,
    charArray_of_lt (length_printDec_lt h.capacity), strtoull_printDec h.capacity]

/-- Reading back an array, item by item. -/
theorem mapM_zipIdx_map {α β : Type} {f : α → β} {g : β → ℕ → Option α} :
    ∀ {l : List α} (i : ℕ), (∀ x ∈ l, ∀ i, g (f x) i = some x) →
      ((l.map f).zipIdx i).mapM (fun item => g item.1 item.2) = some l
  | [], _, _ => rfl
  | x :: l, i, h => by
    have ih := mapM_zipIdx_map (i + 1) fun y hy => h y (List.mem_cons_of_mem x hy)
    simp [List.zipIdx_cons, List.mapM_cons, h x List.mem_cons_self i, ih]

theorem setFromJson_toJson {set : SetTopology} (h : set.WellTyped) (i : ℕ) :
    setFromJson (setToJson set) i = some set := by
  have hnodup : ([cstr "idx", cstr "state", cstr "disks"] : List CString).Nodup := by decide
  have hidx : (setToJson set).getInt (cstr "idx") i = set.idx :=
    Json.getInt_eq (Json.getObjectItemCaseSensitive_object hnodup (by simp)) h.idx.1 h.idx.2
  have hstate : (setToJson set).getString (cstr "state") (some (cstr "active")) =
      some (setStateToString set.state) :=
    Json.getString_eq (Json.getObjectItemCaseSensitive_object hnodup (by simp))
  have hdisks : (setToJson set).getArray (cstr "disks") = some (set.disks.map diskToJson) :=
    Json.getArray_eq (Json.getObjectItemCaseSensitive_object hnodup (by simp))
  have hmap : (set.disks.map diskToJson).map diskFromJson = set.disks := by
    rw [List.map_map]
    exact (List.map_congr_left fun d hd => diskFromJson_toJson (h.disks d hd)).trans
      (List.map_id _)
  simp [setFromJson, hidx, hstate, hdisks, setStateFromString_toString, hmap]

theorem poolFromJson_toJson {pool : PoolTopology} (h : pool.WellTyped) (i : ℕ) :
    poolFromJson (poolToJson pool) i = some pool := by
  have hnodup : ([cstr "idx", cstr "sets"] : List CString).Nodup := by decide
  have hidx : (poolToJson pool).getInt (cstr "idx") i = pool.idx :=
    Json.getInt_eq (Json.getObjectItemCaseSensitive_object hnodup (by simp)) h.idx.1 h.idx.2
  have hsets : (poolToJson pool).getArray (cstr "sets") = some (pool.sets.map setToJson) :=
    Json.getArray_eq (Json.getObjectItemCaseSensitive_object hnodup (by simp))
  have hmap := mapM_zipIdx_map 0 fun set hset i => setFromJson_toJson (h.sets set hset) i
  simp [poolFromJson, hidx, hsets, hmap]

/-- **The file is read back, with the generation cut to an `int`.** -/
theorem topologyFromJson_toJson {t : ClusterTopology} (h : t.WellTyped) :
    topologyFromJson (topologyToJson t) = some { t with generation := toInt t.generation } := by
  have hnodup : ([cstr "version", cstr "generation", cstr "deploymentId", cstr "vnodeFactor",
      cstr "pools"] : List CString).Nodup := by decide
  have hversion : (topologyToJson t).getInt (cstr "version") topologyVersion = t.version :=
    Json.getInt_eq (Json.getObjectItemCaseSensitive_object hnodup (by simp)) h.version.1 h.version.2
  have hgeneration : (topologyToJson t).getInt (cstr "generation") 1 = toInt t.generation :=
    Json.getInt_eq (Json.getObjectItemCaseSensitive_object hnodup (by simp))
      (isInt_toInt _).1 (isInt_toInt _).2
  have hvnode : (topologyToJson t).getInt (cstr "vnodeFactor") defaultVnodeFactor = t.vnodeFactor :=
    Json.getInt_eq (Json.getObjectItemCaseSensitive_object hnodup (by simp)) h.vnodeFactor.1
      h.vnodeFactor.2
  have hdeployment : (topologyToJson t).getString (cstr "deploymentId") none =
      some t.deploymentId :=
    Json.getString_eq (Json.getObjectItemCaseSensitive_object hnodup (by simp))
  have hpools : (topologyToJson t).getArray (cstr "pools") = some (t.pools.map poolToJson) :=
    Json.getArray_eq (Json.getObjectItemCaseSensitive_object hnodup (by simp))
  have hmap := mapM_zipIdx_map 0 fun pool hpool i => poolFromJson_toJson (h.pools pool hpool) i
  simp [topologyFromJson, hversion, hgeneration, hvnode, hdeployment, hpools, hmap,
    charArray_of_lt h.deploymentId]

end Buckets
