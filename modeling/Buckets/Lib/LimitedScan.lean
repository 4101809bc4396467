/-
# Scans that stop at a limit

A scan goes through a list, keeps what an element gives, and stops as soon as it has `limit`
results (`collect`).  Several scans are merged by going through their answers and keeping, up to the
limit again, what has a key not seen before (`merge`).

A scan that stops says nothing about the elements behind: what it returns is a PREFIX in an order
nobody chose.  `length_le_of_take_perm` is the way to use that: if the first `limit` elements are
the same in two opposite orders, there are no others.
-/
import Mathlib.Data.List.Nodup
import Mathlib.Data.List.TakeDrop

namespace LimitedScan

variable {α β κ : Type}

/-! ## 1. One scan -/

/-- Go on from `found`. -/
def collect (f : α → Option β) (limit : ℕ) : List α → List β → List β
  | [], found => found
  | a :: rest, found =>
    if limit ≤ found.length then found
    else
      match f a with
      | none => collect f limit rest found
      | some b => collect f limit rest (found ++ [b])

variable {found : List β} {key : β → κ} {limit : ℕ}

/-- **What a scan returns.** -/
theorem collect_eq (f : α → Option β) (limit : ℕ) (l : List α)
    (hfound : found.length ≤ limit) :
    collect f limit l found = (found ++ l.filterMap f).take limit := by
  induction l generalizing found with
  | nil =>
    rw [collect, List.filterMap_nil, List.append_nil, List.take_of_length_le hfound]
  | cons a rest ih =>
    rw [collect]
    split
    case isTrue hfull =>
      have hlength : found.length = limit := Nat.le_antisymm hfound hfull
      rw [← hlength, List.take_left]
    case isFalse hroom =>
      cases hfa : f a with
      | none => rw [List.filterMap_cons_none hfa, ih hfound]
      | some b =>
        have hnext : (found ++ [b]).length ≤ limit := by
          rw [List.length_append, List.length_singleton]
          omega
        rw [List.filterMap_cons_some hfa]
        dsimp only
        rw [ih hnext, List.append_assoc, List.singleton_append]

theorem length_collect_le (f : α → Option β) (limit : ℕ) (l : List α)
    (hfound : found.length ≤ limit) : (collect f limit l found).length ≤ limit := by
  rw [collect_eq f limit l hfound]
  exact List.length_take_le ..

/-- A scan that goes on where another one stopped. -/
theorem take_take_append (l l' : List β) (limit : ℕ) :
    (l.take limit ++ l').take limit = (l ++ l').take limit := by
  rcases Nat.le_total limit l.length with h | h
  · rw [List.take_append_of_le_length h, List.take_append_of_le_length (by simp [h]),
      List.take_take, Nat.min_self]
  · rw [List.take_of_length_le h]

/-! ## 2. Merging answers -/

variable [DecidableEq κ]

/-- Keep the elements with new keys. -/
def merge (key : β → κ) (limit : ℕ) : List β → List β → List β
  | [], found => found
  | b :: rest, found =>
    if limit ≤ found.length then found
    else if key b ∈ found.map key then merge key limit rest found
    else merge key limit rest (found ++ [b])

theorem nodup_merge (l : List β)
    (h : (found.map key).Nodup) : ((merge key limit l found).map key).Nodup := by
  induction l generalizing found with
  | nil => exact h
  | cons b rest ih =>
    rw [merge]
    split
    · exact h
    · split
      · exact ih h
      · rename_i hnew
        refine ih ?_
        rw [List.map_append, List.map_singleton]
        exact List.nodup_append.mpr ⟨h, List.nodup_singleton _, by
          rintro k hk k' hk' rfl
          exact hnew (List.mem_singleton.mp hk' ▸ hk)⟩

theorem mem_of_mem_merge (l : List β) {b : β}
    (h : b ∈ merge key limit l found) : b ∈ found ∨ b ∈ l := by
  induction l generalizing found with
  | nil => exact Or.inl h
  | cons b' rest ih =>
    rw [merge] at h
    split at h
    · exact Or.inl h
    · split at h
      · exact (ih h).imp_right (List.mem_cons_of_mem b')
      · rcases ih h with hfound | hrest
        · rcases List.mem_append.mp hfound with hold | hnew
          · exact Or.inl hold
          · exact Or.inr (List.mem_cons.mpr (Or.inl (List.mem_singleton.mp hnew)))
        · exact Or.inr (List.mem_cons_of_mem b' hrest)

theorem subset_merge (l : List β) (found : List β) :
    found ⊆ merge key limit l found := by
  induction l generalizing found with
  | nil => exact List.Subset.refl _
  | cons b rest ih =>
    rw [merge]
    split
    · exact List.Subset.refl _
    · split
      · exact ih found
      · intro x hx
        exact ih (found ++ [b]) (List.mem_append_left _ hx)

theorem length_merge_le (l : List β) (found : List β) :
    (merge key limit l found).length ≤ found.length + l.length := by
  induction l generalizing found with
  | nil => exact Nat.le_refl _
  | cons b rest ih =>
    rw [merge, List.length_cons]
    split
    · omega
    · split
      · have := ih found
        omega
      · have := ih (found ++ [b])
        rw [List.length_append, List.length_singleton] at this
        omega

/-- With room for all, every key is kept. -/
theorem key_mem_merge {l : List β}
    (hroom : found.length + l.length ≤ limit) {b : β} (hb : b ∈ l) :
    key b ∈ (merge key limit l found).map key := by
  induction l generalizing found with
  | nil => exact absurd hb List.not_mem_nil
  | cons b' rest ih =>
    rw [List.length_cons] at hroom
    rw [merge, if_neg (by omega)]
    split
    · rename_i hseen
      rcases List.mem_cons.mp hb with rfl | hrest
      · obtain ⟨x, hx, hkey⟩ := List.mem_map.mp hseen
        exact hkey ▸ List.mem_map_of_mem (subset_merge rest found hx)
      · exact ih (by omega) hrest
    · rcases List.mem_cons.mp hb with rfl | hrest
      · have hadded : b ∈ found ++ [b] := List.mem_append_right _ (List.mem_singleton_self b)
        exact List.mem_map_of_mem (subset_merge rest _ hadded)
      · refine ih ?_ hrest
        rw [List.length_append, List.length_singleton]
        omega

/-- With room for all, the keys are those of both lists. -/
theorem key_mem_merge_iff {l : List β}
    (hroom : found.length + l.length ≤ limit) {k : κ} :
    k ∈ (merge key limit l found).map key ↔ k ∈ found.map key ∨ k ∈ l.map key := by
  constructor
  · intro hk
    obtain ⟨b, hb, rfl⟩ := List.mem_map.mp hk
    exact (mem_of_mem_merge l hb).imp List.mem_map_of_mem List.mem_map_of_mem
  · rintro (hk | hk)
    · obtain ⟨b, hb, rfl⟩ := List.mem_map.mp hk
      exact List.mem_map_of_mem (subset_merge l found hb)
    · obtain ⟨b, hb, rfl⟩ := List.mem_map.mp hk
      exact key_mem_merge hroom hb

/-! ## 3. Opposite orders -/

omit [DecidableEq κ] in
/-- If the first `limit` elements are the same in two opposite orders, there are no others. -/
theorem length_le_of_take_perm {l r : List κ} (hlimit : 0 < limit) (hl : l.Nodup)
    (hforward : (l.take limit).Perm r) (hbackward : (l.reverse.take limit).Perm r) :
    l.length ≤ limit := by
  by_contra hlong
  have hne : l ≠ [] := by
    rintro rfl
    exact hlong (Nat.zero_le _)
  obtain ⟨front, last, rfl⟩ : ∃ front last, l = front ++ [last] :=
    ⟨_, _, (List.dropLast_append_getLast hne).symm⟩
  obtain ⟨n, rfl⟩ := Nat.exists_eq_succ_of_ne_zero (Nat.pos_iff_ne_zero.mp hlimit)
  -- the last element is the first one of the other order
  have hlast : last ∈ (front ++ [last]).reverse.take n.succ := by
    rw [List.reverse_append, List.reverse_singleton, List.singleton_append, List.take_succ_cons]
    exact List.mem_cons_self ..
  have hfront : last ∈ (front ++ [last]).take n.succ :=
    hforward.mem_iff.mpr (hbackward.mem_iff.mp hlast)
  rw [List.length_append, List.length_singleton] at hlong
  rw [List.take_append_of_le_length (by omega)] at hfront
  exact List.disjoint_of_nodup_append hl (List.mem_of_mem_take hfront)
    (List.mem_singleton_self last)

end LimitedScan
