/-
# `cluster/topology.c`: calls one after the other

The topology starts empty (`topologyNew`) and is built by calls that add a pool, add a set and set
the state of a set, with ANY indices: a call may address what is not there.  What holds in every
topology that such calls reach, and of every call made in one:

* `TopologyCall.run_eq_iff`: a call leaves the WHOLE topology exactly if it errs or asks for the
  state that is there, and otherwise makes the next generation (`TopologyCall.generation_run`);
* `Indexed.run`: pools and sets have their positions as their indices;
* `TopologyCall.frame_run`: the pools and the sets that are not addressed, and the disks of every
  set that was there, stay.

Allocation failures do not return: `buckets_malloc` and `buckets_realloc` abort.
-/
import Buckets.Topology

namespace Buckets

/-! ## 1. The calls -/

/-- `buckets_topology_new`. -/
def topologyNew : ClusterTopology := ⟨topologyVersion, 0, [], defaultVnodeFactor, []⟩

/-- A call, with its arguments. -/
inductive TopologyCall where
  | addPool
  | addSet (poolIdx : ℤ) (disks : Option (List DiskInfo)) (diskCount : ℤ)
  | setState (poolIdx setIdx : ℤ) (newState : SetState)

namespace TopologyCall

def run (t : ClusterTopology) : TopologyCall → ClusterTopology × Ret
  | addPool => topologyAddPool t
  | addSet poolIdx disks diskCount => topologyAddSet t poolIdx disks diskCount
  | setState poolIdx setIdx newState => topologySetState t poolIdx setIdx newState

/-- The topology after the calls. -/
def runAll (t : ClusterTopology) (calls : List TopologyCall) : ClusterTopology :=
  calls.foldl (fun t call => (call.run t).1) t

/-- The call asks for the state that the set has. -/
def RequestsCurrent (t : ClusterTopology) : TopologyCall → Prop
  | setState poolIdx setIdx newState => 0 ≤ poolIdx ∧ 0 ≤ setIdx ∧
      ∃ pool set, t.pools[poolIdx.toNat]? = some pool ∧ pool.sets[setIdx.toNat]? = some set ∧
        set.state = newState
  | _ => False

/-- The position of the pool the call is about, which may be a new one. -/
def pool (t : ClusterTopology) : TopologyCall → ℕ
  | addPool => t.pools.length
  | addSet poolIdx _ _ => poolIdx.toNat
  | setState poolIdx _ _ => poolIdx.toNat

/-- The position, in that pool, of the set the call is about. -/
def set (pool : PoolTopology) : TopologyCall → ℕ
  | setState _ setIdx _ => setIdx.toNat
  | _ => pool.sets.length

end TopologyCall

/-- Pools and sets have their positions as their indices. -/
def Indexed (t : ClusterTopology) : Prop :=
  ∀ (i : ℕ) pool, t.pools[i]? = some pool →
    pool.idx = i ∧ ∀ (j : ℕ) set, pool.sets[j]? = some set → set.idx = j

/-- What a pool keeps: its index, the sets but for one, and the index and the disks of that one. -/
structure PoolTopology.Keeps (pool pool' : PoolTopology) (addressed : ℕ) : Prop where
  idx : pool'.idx = pool.idx
  sets : ∀ j : ℕ, j ≠ addressed → pool'.sets[j]? = pool.sets[j]?
  disks : ∀ (j : ℕ) set, pool.sets[j]? = some set →
    ∃ set', pool'.sets[j]? = some set' ∧ set'.idx = set.idx ∧ set'.disks = set.disks

/-- What a call does not address. -/
structure TopologyCall.Frame (call : TopologyCall) (t t' : ClusterTopology) : Prop where
  header : t'.version = t.version ∧ t'.deploymentId = t.deploymentId ∧
    t'.vnodeFactor = t.vnodeFactor
  pools : ∀ i : ℕ, i ≠ call.pool t → t'.pools[i]? = t.pools[i]?
  sets : ∀ (i : ℕ) pool, t.pools[i]? = some pool →
    ∃ pool', t'.pools[i]? = some pool' ∧ pool.Keeps pool' (call.set pool)

/-! ## 2. What a call does -/

variable {t : ClusterTopology}

/-- A set is added to a pool. -/
def PoolTopology.addSet (pool : PoolTopology) (disks : List DiskInfo) : PoolTopology :=
  { pool with sets := pool.sets ++ [⟨pool.sets.length, .active, disks⟩] }

/-- The state of a set is changed. -/
def PoolTopology.setState (pool : PoolTopology) (setIdx : ℕ) (state : SetState) : PoolTopology :=
  { pool with sets := pool.sets.modify setIdx fun set => { set with state := state } }

/-- The pools are replaced in a new generation. -/
def ClusterTopology.next (t : ClusterTopology) (pools : List PoolTopology) : ClusterTopology :=
  { t with pools := pools, generation := t.generation + 1 }

/-- **What a call does**: it errs or asks for what is there, and leaves the topology; or it makes
the next generation, with a new pool, a new set or a new state. -/
theorem TopologyCall.run_cases (t : ClusterTopology) (call : TopologyCall) :
    ((call.run t).1 = t ∧ ((call.run t).2 ≠ .ok ∨ call.RequestsCurrent t)) ∨
    (((call.run t).2 = .ok ∧ ¬ call.RequestsCurrent t) ∧
      ((call = .addPool ∧ (call.run t).1 = t.next (t.pools ++ [⟨t.pools.length, []⟩])) ∨
        ∃ change : PoolTopology → PoolTopology,
          (call.run t).1 = t.next (t.pools.modify (call.pool t) change) ∧
          ((∃ disks, (∀ pool : PoolTopology, call.set pool = pool.sets.length) ∧
              change = fun pool => pool.addSet disks) ∨
            ∃ j state, (∀ pool : PoolTopology, call.set pool = j) ∧
              change = fun pool => pool.setState j state))) := by
  cases call with
  | addPool => exact Or.inr ⟨⟨rfl, id⟩, Or.inl ⟨rfl, rfl⟩⟩
  | addSet poolIdx disks diskCount =>
    cases disks with
    | none => exact Or.inl ⟨rfl, Or.inl (by simp [run, topologyAddSet])⟩
    | some disks =>
      simp only [run, topologyAddSet]
      split
      · exact Or.inl ⟨rfl, Or.inl (by simp)⟩
      · exact Or.inr ⟨⟨rfl, id⟩, Or.inr ⟨_, rfl, Or.inl ⟨_, fun _ => rfl, rfl⟩⟩⟩
  | setState poolIdx setIdx newState =>
    simp only [run, topologySetState, RequestsCurrent]
    split
    · exact Or.inl ⟨rfl, Or.inl (by simp)⟩
    rename_i hpoolIdx
    split
    · exact Or.inl ⟨rfl, Or.inl (by simp)⟩
    rename_i pool hpool
    split
    · exact Or.inl ⟨rfl, Or.inl (by simp)⟩
    rename_i hsetIdx
    split
    · exact Or.inl ⟨rfl, Or.inl (by simp)⟩
    rename_i set hset
    split
    · rename_i hstate
      exact Or.inl ⟨rfl, Or.inr ⟨by omega, by omega, pool, set, hpool, hset, hstate⟩⟩
    · rename_i hstate
      refine Or.inr ⟨⟨rfl, ?_⟩, Or.inr ⟨_, rfl, Or.inr ⟨_, newState, fun _ => rfl, rfl⟩⟩⟩
      rintro ⟨-, -, pool', set', hpool', hset', heq⟩
      obtain rfl := Option.some.inj (hpool.symm.trans hpool')
      obtain rfl := Option.some.inj (hset.symm.trans hset')
      exact hstate heq

theorem ClusterTopology.next_ne (t : ClusterTopology) (pools : List PoolTopology) :
    t.next pools ≠ t := by
  intro heq
  have hgeneration : t.generation + 1 = t.generation := congrArg ClusterTopology.generation heq
  omega

/-- A call that changes something makes the next generation. -/
theorem TopologyCall.generation_run {call : TopologyCall} (h : (call.run t).1 ≠ t) :
    (call.run t).1.generation = t.generation + 1 := by
  rcases call.run_cases t with ⟨hsame, -⟩ | ⟨-, ⟨-, hrun⟩ | ⟨change, hrun, -⟩⟩
  · exact absurd hsame h
  · rw [hrun]
    rfl
  · rw [hrun]
    rfl

/-- A call leaves the whole topology exactly if it errs or asks for the state that is there. -/
theorem TopologyCall.run_eq_iff {call : TopologyCall} :
    (call.run t).1 = t ↔ (call.run t).2 ≠ .ok ∨ call.RequestsCurrent t := by
  rcases call.run_cases t with ⟨hsame, hwhy⟩ | ⟨⟨hok, hnew⟩, hrun⟩
  · exact ⟨fun _ => hwhy, fun _ => hsame⟩
  · constructor
    · intro hsame
      rcases hrun with ⟨-, hrun⟩ | ⟨change, hrun, -⟩
      · exact absurd (hrun.symm.trans hsame) (t.next_ne _)
      · exact absurd (hrun.symm.trans hsame) (t.next_ne _)
    · rintro (herr | hcurrent)
      · exact absurd hok herr
      · exact absurd hcurrent hnew

/-! ## 3. What stays -/

theorem PoolTopology.Keeps.refl (pool : PoolTopology) (addressed : ℕ) : pool.Keeps pool addressed :=
  ⟨rfl, fun _ _ => rfl, fun _ set hset => ⟨set, hset, rfl, rfl⟩⟩

theorem PoolTopology.keeps_addSet (pool : PoolTopology) (disks : List DiskInfo) :
    pool.Keeps (pool.addSet disks) pool.sets.length := by
  constructor
  · rfl
  · intro j hj
    simp only [addSet, List.getElem?_append]
    split
    · rfl
    · rw [List.getElem?_eq_none (by simp; omega), List.getElem?_eq_none (by omega)]
  · intro j set hset
    have hj : j < pool.sets.length := (List.getElem?_eq_some_iff.mp hset).1
    exact ⟨set, by rw [addSet, List.getElem?_append_left hj, hset], rfl, rfl⟩

theorem PoolTopology.keeps_setState (pool : PoolTopology) (setIdx : ℕ) (state : SetState) :
    pool.Keeps (pool.setState setIdx state) setIdx := by
  constructor
  · rfl
  · intro j hj
    simp [setState, hj.symm]
  · intro j set hset
    by_cases hj : setIdx = j
    · exact ⟨{ set with state := state }, by simp [setState, hset, hj], rfl, rfl⟩
    · exact ⟨set, by simp [setState, hset, hj], rfl, rfl⟩

/-- **Frame.**  The pools and sets a call does not address stay, and the disks of all of them. -/
theorem TopologyCall.frame_run (t : ClusterTopology) (call : TopologyCall) :
    call.Frame t (call.run t).1 := by
  rcases call.run_cases t with ⟨hsame, -⟩ | ⟨-, ⟨rfl, hrun⟩ | ⟨change, hrun, hchange⟩⟩
  · rw [hsame]
    exact ⟨⟨rfl, rfl, rfl⟩, fun _ _ => rfl, fun i pool hpool => ⟨pool, hpool, .refl pool _⟩⟩
  · rw [hrun]
    refine ⟨⟨rfl, rfl, rfl⟩, fun i hi => ?_, fun i pool hpool => ⟨pool, ?_, .refl pool _⟩⟩
    · have hi : i ≠ t.pools.length := hi
      simp only [ClusterTopology.next, List.getElem?_append]
      split
      · rfl
      · rw [List.getElem?_eq_none (by simp; omega), List.getElem?_eq_none (by omega)]
    · have hi : i < t.pools.length := (List.getElem?_eq_some_iff.mp hpool).1
      rw [ClusterTopology.next, List.getElem?_append_left hi, hpool]
  · rw [hrun]
    have hkeeps : ∀ pool : PoolTopology, pool.Keeps (change pool) (call.set pool) := by
      intro pool
      rcases hchange with ⟨disks, hset, rfl⟩ | ⟨j, state, hset, rfl⟩
      · rw [hset]
        exact pool.keeps_addSet disks
      · rw [hset]
        exact pool.keeps_setState j state
    refine ⟨⟨rfl, rfl, rfl⟩, fun i hi => ?_, fun i pool hpool => ?_⟩
    · simp [ClusterTopology.next, hi.symm]
    · by_cases hi : call.pool t = i
      · exact ⟨change pool, by simp [ClusterTopology.next, hpool, hi], hkeeps pool⟩
      · exact ⟨pool, by simp [ClusterTopology.next, hpool, hi], .refl pool _⟩

/-! ## 4. The indices -/

/-- A pool's index and those of its sets. -/
def PoolTopology.IndexedAt (pool : PoolTopology) (i : ℕ) : Prop :=
  pool.idx = i ∧ ∀ (j : ℕ) set, pool.sets[j]? = some set → set.idx = j

theorem PoolTopology.IndexedAt.addSet {pool : PoolTopology} {i : ℕ} (h : pool.IndexedAt i)
    (disks : List DiskInfo) : (pool.addSet disks).IndexedAt i := by
  refine ⟨h.1, fun j set hset => ?_⟩
  simp only [PoolTopology.addSet, List.getElem?_append] at hset
  split at hset
  · exact h.2 j set hset
  · obtain ⟨hj, rfl⟩ := List.getElem?_eq_some_iff.mp hset
    simp at hj ⊢
    omega

theorem PoolTopology.IndexedAt.setState {pool : PoolTopology} {i : ℕ} (h : pool.IndexedAt i)
    (setIdx : ℕ) (state : SetState) : (pool.setState setIdx state).IndexedAt i := by
  refine ⟨h.1, fun j set hset => ?_⟩
  simp only [PoolTopology.setState, List.getElem?_modify, Option.map_eq_map,
    Option.map_eq_some_iff] at hset
  obtain ⟨old, hold, rfl⟩ := hset
  split
  · exact h.2 j old hold
  · exact h.2 j old hold

/-- **Step.** -/
theorem Indexed.run (h : Indexed t) (call : TopologyCall) : Indexed (call.run t).1 := by
  rcases call.run_cases t with ⟨hsame, -⟩ | ⟨-, ⟨-, hrun⟩ | ⟨change, hrun, hchange⟩⟩
  · rwa [hsame]
  · rw [hrun]
    intro i pool hpool
    simp only [ClusterTopology.next, List.getElem?_append] at hpool
    split at hpool
    · exact h i pool hpool
    · obtain ⟨hi, rfl⟩ := List.getElem?_eq_some_iff.mp hpool
      simp at hi ⊢
      omega
  · rw [hrun]
    have hindexed : ∀ pool i, PoolTopology.IndexedAt pool i → (change pool).IndexedAt i := by
      intro pool i hpool
      rcases hchange with ⟨disks, -, rfl⟩ | ⟨j, state, -, rfl⟩
      · exact hpool.addSet disks
      · exact hpool.setState j state
    intro i pool hpool
    simp only [ClusterTopology.next, List.getElem?_modify, Option.map_eq_map,
      Option.map_eq_some_iff] at hpool
    obtain ⟨old, hold, rfl⟩ := hpool
    split
    · exact hindexed old i (h i old hold)
    · exact h i old hold

/-- **Run.** -/
theorem Indexed.runAll (h : Indexed t) (calls : List TopologyCall) :
    Indexed (TopologyCall.runAll t calls) := by
  induction calls generalizing t with
  | nil => exact h
  | cons call calls ih => exact ih (h.run call)

/-- **Every call of every sequence.**  In whatever topology the calls so far have made, the indices
are positions, and the next call makes the next generation if it changes anything, changes nothing
exactly if it errs or asks for the state that is there, and leaves what it does not address. -/
theorem topology_call_after_calls (calls : List TopologyCall) (call : TopologyCall) :
    let t := TopologyCall.runAll topologyNew calls
    Indexed t ∧ Indexed (call.run t).1 ∧
      ((call.run t).1 ≠ t → (call.run t).1.generation = t.generation + 1) ∧
      ((call.run t).1 = t ↔ (call.run t).2 ≠ .ok ∨ call.RequestsCurrent t) ∧
      call.Frame t (call.run t).1 := by
  intro t
  have hstart : Indexed topologyNew := fun i pool hpool => by simp [topologyNew] at hpool
  have hindexed : Indexed t := hstart.runAll calls
  exact ⟨hindexed, hindexed.run call, TopologyCall.generation_run, TopologyCall.run_eq_iff,
    call.frame_run t⟩

end Buckets
