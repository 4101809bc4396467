/-
# `buckets_ring_lookup_n`: several nodes for one object

The function walks clockwise from the hash of the name and writes down each node id it has not seen.
What it has seen it keeps in a table of `node_count + 1` flags, INDEXED BY THE NODE ID.  Node ids
are arbitrary; the scanner numbers the sets of a topology `pool * 1000 + set`, so that with a second
pool the table is read far behind its end.

* `visitIds_eq`: as long as every id is in the table, the loop writes the first distinct ids of
  the walk;
* `visitIds_some`: a loop that ends has used the table for ids in it only;
* `ringLookupN_iff`: so the function does what it is for, for every name and every `n`, EXACTLY IF
  no node id is greater than the number of nodes.
-/
import Mathlib.Data.Finset.Dedup
import Buckets.Lib.HashRing
import Buckets.Ring

namespace Buckets

open HashRing

/-! ## 1. The function -/

/-- An entry of the table; `none` is a read outside of it. -/
def seenAt (seen : List Bool) (nodeId : ℤ) : Option Bool :=
  if 0 ≤ nodeId then seen[nodeId.toNat]? else none

/-- The loop over the vnodes, from the place `pos`, with `todo` of them to go.  `none` is an access
outside of the table. -/
def ringWalk (vnodes : List RingVnode) (n : ℕ) :
    (todo pos : ℕ) → (seen : List Bool) → (outNodes : List ℤ) → Option (List ℤ)
  | 0, _, _, outNodes => some outNodes
  | todo + 1, pos, seen, outNodes =>
    if outNodes.length < n then
      let nodeId := (vnodes.getD pos default).nodeId
      match seenAt seen nodeId with
      | none => none
      | some true => ringWalk vnodes n todo ((pos + 1) % vnodes.length) seen outNodes
      | some false =>
        ringWalk vnodes n todo ((pos + 1) % vnodes.length) (seen.set nodeId.toNat true)
          (outNodes ++ [nodeId])
    else some outNodes

/-- `buckets_ring_lookup_n`: what it writes to `out_nodes`, the length being the result. -/
def ringLookupN (hashes : Hashes) (ring : Option Ring) (objectName : Option CString) (n : ℕ) :
    Option (List ℤ) :=
  match ring, objectName with
  | some ring, some objectName =>
    if n = 0 ∨ ring.vnodes.length = 0 then some []
    else
      let hash := hashes.xxhash64 ring.seed objectName
      let left := lowerBound (fun mid => (ring.vnodes.getD mid default).hash < hash) 0
        ring.vnodes.length
      let left := if ring.vnodes.length ≤ left then 0 else left
      ringWalk ring.vnodes n ring.vnodes.length left (List.replicate (ring.nodeCount + 1) false) []
  | _, _ => some []

/-! ## 2. The loop, over the ids it meets -/

/-- The loop without the places. -/
def visitIds (n : ℕ) : List Bool → List ℤ → List ℤ → Option (List ℤ)
  | _, outNodes, [] => some outNodes
  | seen, outNodes, nodeId :: rest =>
    if outNodes.length < n then
      match seenAt seen nodeId with
      | none => none
      | some true => visitIds n seen outNodes rest
      | some false => visitIds n (seen.set nodeId.toNat true) (outNodes ++ [nodeId]) rest
    else some outNodes

theorem ringWalk_eq_visitIds (vnodes : List RingVnode) (n : ℕ) :
    ∀ (todo pos : ℕ) (seen : List Bool) (outNodes : List ℤ), pos < vnodes.length →
      todo ≤ vnodes.length → ringWalk vnodes n todo pos seen outNodes =
        visitIds n seen outNodes (((vnodes.rotate pos).take todo).map RingVnode.nodeId) := by
  intro todo
  induction todo with
  | zero => intro pos seen outNodes _ _; rw [List.take_zero]; rfl
  | succ todo ih =>
    intro pos seen outNodes hpos htodo
    have hnext : (pos + 1) % vnodes.length < vnodes.length := Nat.mod_lt _ (by omega)
    -- the walk from `pos` is the vnode at `pos` and then the walk from the next place
    have hwalk : (vnodes.rotate pos).take (todo + 1) =
        vnodes.getD pos default :: (vnodes.rotate ((pos + 1) % vnodes.length)).take todo := by
      have hrotate : vnodes.rotate ((pos + 1) % vnodes.length) = (vnodes.rotate pos).rotate 1 := by
        rw [List.rotate_mod, List.rotate_rotate]
      have hhead := List.head?_rotate hpos
      cases hlist : vnodes.rotate pos with
      | nil =>
        have hlength := congrArg List.length hlist
        rw [List.length_rotate, List.length_nil] at hlength
        omega
      | cons first rest =>
        have hlength := congrArg List.length hlist
        rw [List.length_rotate, List.length_cons] at hlength
        rw [hlist, List.head?_cons] at hhead
        rw [hrotate, hlist, List.rotate_cons_succ, List.rotate_zero, List.take_succ_cons,
          List.take_append_of_le_length (by omega), List.getD_eq_getElem?_getD, ← hhead]
        rfl
    rw [hwalk, List.map_cons, ringWalk, visitIds]
    split
    · dsimp only
      cases hseen : seenAt seen (vnodes.getD pos default).nodeId with
      | none => rfl
      | some old =>
        cases old with
        | true => exact ih _ _ _ hnext (by omega)
        | false => exact ih _ _ _ hnext (by omega)
    · rfl

/-- An id the table has an entry for. -/
def InTable (count : ℕ) (nodeId : ℤ) : Prop := 0 ≤ nodeId ∧ nodeId.toNat < count

/-- The table says which ids were written. -/
def Records (seen : List Bool) (outNodes : List ℤ) : Prop :=
  ∀ nodeId, InTable seen.length nodeId → seenAt seen nodeId = some (decide (nodeId ∈ outNodes))

theorem records_replicate (count : ℕ) : Records (List.replicate count false) [] := by
  rintro nodeId ⟨hpos, hlt⟩
  rw [List.length_replicate] at hlt
  rw [seenAt, if_pos hpos, List.getElem?_replicate_of_lt hlt]
  simp

theorem Records.set {seen : List Bool} {outNodes : List ℤ} (h : Records seen outNodes) {nodeId : ℤ}
    (hin : InTable seen.length nodeId) :
    Records (seen.set nodeId.toNat true) (outNodes ++ [nodeId]) := by
  obtain ⟨hpos, hlt⟩ := hin
  intro other hother
  rw [List.length_set] at hother
  have hold := h other hother
  obtain ⟨hpos', hlt'⟩ := hother
  rw [seenAt, if_pos hpos'] at hold ⊢
  by_cases heq : other = nodeId
  · subst heq
    rw [List.getElem?_set_self hlt]
    simp
  · have hne : nodeId.toNat ≠ other.toNat := by omega
    rw [List.getElem?_set_ne hne, hold]
    simp [heq]

/-- The ids of a list that are not in another, each once. -/
def fresh (outNodes ids : List ℤ) : List ℤ := (ids.filter fun id => id ∉ outNodes).eraseDups

theorem fresh_cons_mem {outNodes ids : List ℤ} {nodeId : ℤ} (h : nodeId ∈ outNodes) :
    fresh outNodes (nodeId :: ids) = fresh outNodes ids := by
  rw [fresh, List.filter_cons_of_neg (by simpa using h), fresh]

theorem fresh_cons_notMem {outNodes ids : List ℤ} {nodeId : ℤ} (h : nodeId ∉ outNodes) :
    fresh outNodes (nodeId :: ids) = nodeId :: fresh (outNodes ++ [nodeId]) ids := by
  rw [fresh, List.filter_cons_of_pos (by simpa using h), List.eraseDups_cons, List.filter_filter,
    fresh]
  congr 3
  funext id
  rw [Bool.eq_iff_iff]
  simp only [Bool.and_eq_true, Bool.not_eq_true', beq_eq_false_iff_ne, ne_eq, decide_eq_true_eq,
    List.mem_append, List.mem_singleton, not_or]
  exact and_comm

/-- **The loop** writes the ids it meets, each once, up to `n` of them. -/
theorem visitIds_eq (n : ℕ) : ∀ (ids : List ℤ) (seen : List Bool) (outNodes : List ℤ),
    Records seen outNodes → (∀ id ∈ ids, InTable seen.length id) →
    visitIds n seen outNodes ids =
      some (outNodes ++ (fresh outNodes ids).take (n - outNodes.length)) := by
  intro ids
  induction ids with
  | nil =>
    intro seen outNodes _ _
    simp [visitIds, fresh]
  | cons nodeId ids ih =>
    intro seen outNodes hrecords hin
    have hhere := hin nodeId List.mem_cons_self
    have hrest : ∀ id ∈ ids, InTable seen.length id := fun id hid =>
      hin id (List.mem_cons_of_mem _ hid)
    rw [visitIds]
    by_cases hroom : outNodes.length < n
    · rw [if_pos hroom, hrecords nodeId hhere]
      by_cases hmem : nodeId ∈ outNodes
      · rw [decide_eq_true hmem, fresh_cons_mem hmem]
        exact ih seen outNodes hrecords hrest
      · have hroom' : n - outNodes.length = n - (outNodes ++ [nodeId]).length + 1 := by
          rw [List.length_append, List.length_singleton]
          omega
        rw [decide_eq_false hmem, fresh_cons_notMem hmem, hroom', List.take_succ_cons]
        have hset := ih _ _ (hrecords.set hhere) (by rwa [List.length_set])
        rw [List.append_assoc] at hset
        exact hset
    · have hnone : n - outNodes.length = 0 := by omega
      rw [if_neg hroom, hnone, List.take_zero, List.append_nil]

/-- **A loop that ends** has written ids of the table only. -/
theorem visitIds_some (n : ℕ) : ∀ (ids : List ℤ) (seen : List Bool) (outNodes result : List ℤ),
    visitIds n seen outNodes ids = some result → (∀ id ∈ outNodes, InTable seen.length id) →
    ∀ id ∈ result, InTable seen.length id := by
  intro ids
  induction ids with
  | nil =>
    intro seen outNodes result hvisit hout
    rw [← Option.some.inj hvisit]
    exact hout
  | cons nodeId ids ih =>
    intro seen outNodes result hvisit hout
    rw [visitIds] at hvisit
    split at hvisit
    · cases hseen : seenAt seen nodeId with
      | none => simp [hseen] at hvisit
      | some old =>
        have hhere : InTable seen.length nodeId := by
          unfold seenAt at hseen
          split at hseen
          · exact ⟨‹_›, (List.getElem?_eq_some_iff.mp hseen).1⟩
          · cases hseen
        rw [hseen] at hvisit
        cases old with
        | true => exact ih _ _ _ hvisit hout
        | false =>
          have hset := ih _ _ _ hvisit
          rw [List.length_set] at hset
          refine hset fun id hid => ?_
          rcases List.mem_append.mp hid with hid | hid
          · exact hout id hid
          · rw [List.mem_singleton.mp hid]
            exact hhere
    · rw [← Option.some.inj hvisit]
      exact hout

/-! ## 3. The members -/

section

variable (hashes : Hashes) {ring : Ring} {members : Finset ℤ}

/-- The members in the order one meets them clockwise from the hash of a name. -/
def Ring.clockwiseMembers (ring : Ring) (objectName : CString) : List ℤ :=
  ((walk RingVnode.place ring.vnodes (hashes.xxhash64 ring.seed objectName).toNat).map
    RingVnode.nodeId).eraseDups

theorem mem_clockwiseMembers (h : ring.Holds members) (objectName : CString) (id : ℤ) :
    id ∈ ring.clockwiseMembers hashes objectName ↔ id ∈ members := by
  rw [Ring.clockwiseMembers, List.mem_eraseDups, List.mem_map, ← h.any_iff, List.any_eq_true]
  constructor
  · rintro ⟨vnode, hmem, rfl⟩
    exact ⟨vnode, (walk_perm _ _ _).mem_iff.mp hmem, by simp⟩
  · rintro ⟨vnode, hmem, hid⟩
    exact ⟨vnode, (walk_perm _ _ _).mem_iff.mpr hmem, of_decide_eq_true hid⟩

/-- Each member is met. -/
theorem length_clockwiseMembers (h : ring.Holds members) (objectName : CString) :
    (ring.clockwiseMembers hashes objectName).length = ring.nodeCount := by
  have hset : (ring.clockwiseMembers hashes objectName).toFinset = members := by
    ext id
    rw [List.mem_toFinset, mem_clockwiseMembers hashes h]
  have hnodup : (ring.clockwiseMembers hashes objectName).Nodup :=
    nodup_eraseDups _ (Nat.le_refl _)
  rw [← List.toFinset_card_of_nodup hnodup, hset, h.count]

theorem head?_clockwiseMembers (h : ring.Holds members) (objectName : CString) {first : ℤ}
    (hfirst : (ring.clockwiseMembers hashes objectName).head? = some first) :
    ringLookup hashes (some ring) (some objectName) = first := by
  rw [ringLookup_eq hashes h.sorted, ← head?_walk]
  rw [Ring.clockwiseMembers] at hfirst
  cases hwalk : walk RingVnode.place ring.vnodes (hashes.xxhash64 ring.seed objectName).toNat with
  | nil =>
    rw [hwalk] at hfirst
    cases hfirst
  | cons vnode rest =>
    rw [hwalk, List.map_cons, List.eraseDups_cons] at hfirst
    exact Option.some.inj hfirst

/-- The function is the loop over the walk. -/
theorem ringLookupN_eq_visitIds (h : ring.Holds members) (objectName : CString) (n : ℕ) :
    ringLookupN hashes (some ring) (some objectName) n =
      visitIds n (List.replicate (ring.nodeCount + 1) false) []
        ((walk RingVnode.place ring.vnodes (hashes.xxhash64 ring.seed objectName).toNat).map
          RingVnode.nodeId) := by
  rw [ringLookupN]
  by_cases hnone : n = 0 ∨ ring.vnodes.length = 0
  · rw [if_pos hnone]
    rcases hnone with rfl | hempty
    · cases walk RingVnode.place ring.vnodes (hashes.xxhash64 ring.seed objectName).toNat <;> rfl
    · rw [List.length_eq_zero_iff.mp hempty]
      rfl
  · have hbelow : ∀ i vnode, ring.vnodes[i]? = some vnode →
        ((ring.vnodes.getD i default).hash < hashes.xxhash64 ring.seed objectName ↔
          vnode.place < (hashes.xxhash64 ring.seed objectName).toNat) := by
      intro i vnode hi
      rw [List.getD_eq_getElem?_getD, hi, Option.getD_some, hash_lt_iff]
    rw [if_neg hnone]
    dsimp only
    rw [ringWalk_eq_visitIds _ _ _ _ _ _ _ (Nat.le_refl _), rotate_wrap h.sorted hbelow,
      List.take_of_length_le (walk_perm _ _ _).length_eq.le]
    split
    · omega
    · omega

end

/-! ## 4. What the function is for -/

/-- The first `min n node_count` members met, the first being the one of `buckets_ring_lookup`, and
no access outside of the table. -/
def FindsMembers (hashes : Hashes) (ring : Ring) (objectName : CString) (n : ℕ) : Prop :=
  ringLookupN hashes (some ring) (some objectName) n =
      some ((ring.clockwiseMembers hashes objectName).take (min n ring.nodeCount)) ∧
    ∀ first, ((ring.clockwiseMembers hashes objectName).take (min n ring.nodeCount)).head? =
      some first → ringLookup hashes (some ring) (some objectName) = first

/-- A ring that finds its members has them all in the table: asked for `node_count` of them, it
writes each. -/
theorem le_of_findsMembers (hashes : Hashes) {ring : Ring} {members : Finset ℤ}
    (hholds : ring.Holds members)
    (hfinds : ∀ objectName n, FindsMembers hashes ring objectName n) {id : ℤ} (hid : id ∈ members) :
    id ≤ ring.nodeCount := by
  have hall := (hfinds [] ring.nodeCount).1
  rw [Nat.min_self, List.take_of_length_le (length_clockwiseMembers hashes hholds []).le,
    ringLookupN_eq_visitIds hashes hholds] at hall
  have hmem := (mem_clockwiseMembers hashes hholds [] id).mpr hid
  have hin := visitIds_some _ _ _ _ _ hall (fun id hid => by cases hid) id hmem
  rw [List.length_replicate] at hin
  obtain ⟨hpos, hlt⟩ := hin
  omega

/-- **Several nodes for one object.**  For a ring with ids that are not negative, however it was
built, the function finds the members for every name and every `n` exactly if no id is greater than
the number of nodes. -/
theorem ringLookupN_iff (hashes : Hashes) (qsort : Sorter RingVnode.place) {ops : List RingOp}
    {ring : Ring} (hrun : ringRun hashes qsort ops = some ring)
    (hids : ∀ vnode ∈ ring.vnodes, 0 ≤ vnode.nodeId) :
    (∀ objectName n, FindsMembers hashes ring objectName n) ↔
      ∀ vnode ∈ ring.vnodes, vnode.nodeId ≤ ring.nodeCount := by
  obtain ⟨members, -, hholds⟩ := ringRun_eq_some hashes qsort hrun
  constructor
  · intro hfinds vnode hvnode
    exact le_of_findsMembers hashes hholds hfinds (hholds.nodeId_mem hvnode)
  · intro hle objectName n
    have hin : ∀ id ∈ (walk RingVnode.place ring.vnodes
        (hashes.xxhash64 ring.seed objectName).toNat).map RingVnode.nodeId,
        InTable (List.replicate (ring.nodeCount + 1) false).length id := by
      intro id hid
      obtain ⟨vnode, hvnode, rfl⟩ := List.mem_map.mp hid
      have hmem := (walk_perm _ _ _).mem_iff.mp hvnode
      have hpos := hids vnode hmem
      have hbound := hle vnode hmem
      rw [List.length_replicate]
      exact ⟨hpos, by omega⟩
    have hlength := length_clockwiseMembers hashes hholds objectName
    refine ⟨?_, fun first hfirst => ?_⟩
    · rw [ringLookupN_eq_visitIds hashes hholds, visitIds_eq n _ _ _ (records_replicate _) hin,
        List.nil_append, List.length_nil, Nat.sub_zero, ← hlength, ← List.take_take,
        List.take_length]
      simp only [fresh, List.not_mem_nil, not_false_eq_true, decide_true, List.filter_true]
      rfl
    · refine head?_clockwiseMembers hashes hholds objectName ?_
      rw [List.head?_take] at hfirst
      split at hfirst
      · cases hfirst
      · exact hfirst

/-- The ring `topology_to_ring` builds for one pool of two sets. -/
theorem ringLookupN_one_pool : ∃ ring, ringRun Hashes.firstByte (Sorter.insertion _)
    [.create 150 0, .addNode 0 (some (cstr "pool0-set0")), .addNode 1 (some (cstr "pool0-set1"))] =
      some ring ∧ ∀ objectName n, FindsMembers Hashes.firstByte ring objectName n := by
  obtain ⟨ring, hrun, hholds⟩ := ringRun_of_membersRun Hashes.firstByte (Sorter.insertion _)
    (show membersRun [.create 150 0, .addNode 0 (some (cstr "pool0-set0")),
      .addNode 1 (some (cstr "pool0-set1"))] = some {1, 0} from rfl)
  have hcount : ring.nodeCount = 2 := hholds.count
  have hids : ∀ vnode ∈ ring.vnodes, vnode.nodeId = 1 ∨ vnode.nodeId = 0 := by
    intro vnode hvnode
    simpa using hholds.nodeId_mem hvnode
  refine ⟨ring, hrun, (ringLookupN_iff Hashes.firstByte (Sorter.insertion _) hrun ?_).mpr ?_⟩
  · intro vnode hvnode
    rcases hids vnode hvnode with hid | hid <;> omega
  · intro vnode hvnode
    rcases hids vnode hvnode with hid | hid <;> omega

/-- The ring of two pools of one set: the table has three entries, and 1000 is not one of them. -/
theorem ringLookupN_two_pools : ∃ ring, ringRun Hashes.firstByte (Sorter.insertion _)
    [.create 150 0, .addNode 0 (some (cstr "pool0-set0")),
      .addNode 1000 (some (cstr "pool1-set0"))] = some ring ∧
    (∀ vnode ∈ ring.vnodes, 0 ≤ vnode.nodeId) ∧
    ¬ ∀ objectName n, FindsMembers Hashes.firstByte ring objectName n := by
  obtain ⟨ring, hrun, hholds⟩ := ringRun_of_membersRun Hashes.firstByte (Sorter.insertion _)
    (show membersRun [.create 150 0, .addNode 0 (some (cstr "pool0-set0")),
      .addNode 1000 (some (cstr "pool1-set0"))] = some {1000, 0} from rfl)
  have hcount : ring.nodeCount = 2 := hholds.count
  refine ⟨ring, hrun, fun vnode hvnode => ?_, fun hfinds => ?_⟩
  · have hid : vnode.nodeId = 1000 ∨ vnode.nodeId = 0 := by
      simpa using hholds.nodeId_mem hvnode
    rcases hid with hid | hid <;> omega
  · have hle := le_of_findsMembers Hashes.firstByte hholds hfinds
      (show (1000 : ℤ) ∈ ({1000, 0} : Finset ℤ) by simp)
    omega

end Buckets
