/-
# Groups found or created

Items are put into groups one after the other: an item joins the first group whose header has the
item's key, or else starts a group of its own at the end.  Groups have a capacity, and there is
room for a number of groups only.

* `members_insert`: no item is lost or doubled;
* `Grouped.insert`: the group of a key has the items of that key, in their order.
-/
import Mathlib.Data.List.Basic
import Mathlib.Data.List.Nodup
import Mathlib.Data.List.Perm.Basic
import Mathlib.Algebra.BigOperators.Group.List.Basic

namespace Grouping

variable {β κ α : Type*} [DecidableEq κ]

/-- One item: `room` is the number of groups that may still be started. -/
def insert (key : β → κ) (capacity : ℕ) : ℕ → List (β × List α) → β → α →
    Option (List (β × List α))
  | room, [], header, a => if room = 0 then none else some [(header, [a])]
  | room, group :: groups, header, a =>
    if key group.1 = key header then
      if capacity ≤ group.2.length then none else some ((group.1, group.2 ++ [a]) :: groups)
    else (insert key capacity (room - 1) groups header a).map (group :: ·)

/-- All the items, group by group. -/
def members (groups : List (β × List α)) : List α := groups.flatMap Prod.snd

/-- **No item is lost or doubled.** -/
theorem members_insert {key : β → κ} {capacity : ℕ} {groups groups' : List (β × List α)} {room : ℕ}
    {header : β} {a : α} (h : insert key capacity room groups header a = some groups') :
    (members groups').Perm (members groups ++ [a]) := by
  induction groups generalizing room groups' with
  | nil =>
    simp only [insert, Option.ite_none_left_eq_some, Option.some.injEq] at h
    rw [← h.2]
    exact List.Perm.refl _
  | cons group groups ih =>
    unfold insert at h
    split at h
    · simp only [Option.ite_none_left_eq_some, Option.some.injEq] at h
      rw [← h.2]
      -- the item moves behind the groups that follow
      simp only [members, List.flatMap_cons, List.append_assoc]
      exact (List.perm_append_comm).append_left _
    · obtain ⟨rest, hrest, rfl⟩ := Option.map_eq_some_iff.mp h
      have hperm := (ih hrest).append_left group.2
      simpa [members] using hperm

/-! ## The items of each group -/

theorem insert_found {key : β → κ} {capacity room : ℕ} {before after : List (β × List α)}
    {group : β × List α} {header : β} (hb : ∀ g ∈ before, key g.1 ≠ key header)
    (hk : key group.1 = key header) (hc : group.2.length < capacity) (a : α) :
    insert key capacity room (before ++ group :: after) header a =
      some (before ++ (group.1, group.2 ++ [a]) :: after) := by
  induction before generalizing room with
  | nil => simp [insert, hk, hc]
  | cons g before ih =>
    obtain ⟨hg, hb⟩ := List.forall_mem_cons.mp hb
    simp [insert, hg, ih hb]

theorem insert_new {key : β → κ} {capacity room : ℕ} {groups : List (β × List α)} {header : β}
    (hb : ∀ g ∈ groups, key g.1 ≠ key header) (hr : groups.length < room) (a : α) :
    insert key capacity room groups header a = some (groups ++ [(header, [a])]) := by
  induction groups generalizing room with
  | nil =>
    have h0 : room ≠ 0 := Nat.ne_of_gt hr
    simp [insert, h0]
  | cons g groups ih =>
    obtain ⟨hg, hb⟩ := List.forall_mem_cons.mp hb
    have hr' : groups.length < room - 1 := by
      simp only [List.length_cons] at hr
      omega
    simp [insert, hg, ih hb hr']

/-- The groups of `items`: one for each key, with the items of the key in their order. -/
structure Grouped (key : β → κ) (items : List (β × α)) (groups : List (β × List α)) : Prop where
  apart : (groups.map fun g => key g.1).Nodup
  header : ∀ g ∈ groups, ∃ p ∈ items, p.1 = g.1
  inOrder : ∀ g ∈ groups, g.2 = (items.filter fun p => key p.1 = key g.1).map Prod.snd
  covered : ∀ p ∈ items, ∃ g ∈ groups, key g.1 = key p.1

theorem grouped_nil (key : β → κ) : Grouped key ([] : List (β × α)) [] := by
  constructor <;> simp

theorem Grouped.length_le {key : β → κ} {items : List (β × α)} {groups : List (β × List α)}
    (h : Grouped key items groups) : groups.length ≤ items.length := by
  have hs : (groups.map fun g => key g.1) ⊆ items.map fun p => key p.1 := by
    intro k hk
    obtain ⟨g, hg, rfl⟩ := List.mem_map.mp hk
    obtain ⟨p, hp, heq⟩ := h.header g hg
    exact List.mem_map.mpr ⟨p, hp, by rw [heq]⟩
  simpa using (List.subperm_of_subset h.apart hs).length_le

/-- **One more item.** -/
theorem Grouped.insert {key : β → κ} {capacity room : ℕ} {items : List (β × α)}
    {groups : List (β × List α)} (h : Grouped key items groups) {header : β} (a : α)
    (hc : (items.filter fun p => key p.1 = key header).length < capacity)
    (hr : groups.length < room) :
    ∃ groups', Grouping.insert key capacity room groups header a = some groups' ∧
      Grouped key (items ++ [(header, a)]) groups' := by
  by_cases hk : ∃ g ∈ groups, key g.1 = key header
  · obtain ⟨g, hg, hk⟩ := hk
    obtain ⟨before, after, rfl⟩ := List.append_of_mem hg
    have hn : ∀ x ∈ before ++ after, key x.1 ≠ key header := by
      intro x hx hxk
      have hnodup := h.apart
      rw [List.map_append, List.map_cons, List.nodup_middle, List.nodup_cons] at hnodup
      refine hnodup.1 ?_
      rw [hk, ← hxk, ← List.map_append]
      exact List.mem_map_of_mem hx
    have hl : g.2.length < capacity := by
      rw [h.inOrder g hg, List.length_map, hk]
      exact hc
    refine ⟨_, insert_found (fun x hx => hn x (by simp [hx])) hk hl a, ?_, ?_, ?_, ?_⟩
    · simpa using h.apart
    · intro x hx
      have hx' : ∃ y ∈ before ++ g :: after, y.1 = x.1 := by
        rcases List.mem_append.mp hx with hx | hx
        · exact ⟨x, by simp [hx], rfl⟩
        · rcases List.mem_cons.mp hx with rfl | hx
          · exact ⟨g, by simp, rfl⟩
          · exact ⟨x, by simp [hx], rfl⟩
      obtain ⟨y, hy, heq⟩ := hx'
      obtain ⟨p, hp, hpy⟩ := h.header y hy
      exact ⟨p, by simp [hp], hpy.trans heq⟩
    · intro x hx
      have hother : x ∈ before ++ after → x.2 =
          ((items ++ [(header, a)]).filter fun p => key p.1 = key x.1).map Prod.snd := by
        intro hx
        have hne : key header ≠ key x.1 := (hn x hx).symm
        have hx' : x ∈ before ++ g :: after := by
          rcases List.mem_append.mp hx with hx | hx <;> simp [hx]
        simpa [List.filter_append, hne] using h.inOrder x hx'
      rcases List.mem_append.mp hx with hx | hx
      · exact hother (by simp [hx])
      · rcases List.mem_cons.mp hx with rfl | hx
        · simp [List.filter_append, hk, h.inOrder g hg]
        · exact hother (by simp [hx])
    · intro p hp
      rcases List.mem_append.mp hp with hp | hp
      · obtain ⟨x, hx, hxk⟩ := h.covered p hp
        rcases List.mem_append.mp hx with hx | hx
        · exact ⟨x, by simp [hx], hxk⟩
        · rcases List.mem_cons.mp hx with rfl | hx
          · exact ⟨(x.1, x.2 ++ [a]), by simp, hxk⟩
          · exact ⟨x, by simp [hx], hxk⟩
      · rw [List.mem_singleton.mp hp]
        exact ⟨(g.1, g.2 ++ [a]), by simp, hk⟩
  · have hn : ∀ g ∈ groups, key g.1 ≠ key header := fun g hg hgk => hk ⟨g, hg, hgk⟩
    have hempty : items.filter (fun p => decide (key p.1 = key header)) = [] := by
      refine List.filter_eq_nil_iff.mpr fun p hp hpk => ?_
      obtain ⟨g, hg, hgp⟩ := h.covered p hp
      exact hn g hg (hgp.trans (of_decide_eq_true hpk))
    refine ⟨_, insert_new hn hr a, ?_, ?_, ?_, ?_⟩
    · rw [List.map_append, List.nodup_append]
      refine ⟨h.apart, by simp, ?_⟩
      rintro k hk _ hk' rfl
      obtain ⟨g, hg, rfl⟩ := List.mem_map.mp hk
      exact hn g hg (by simpa using hk')
    · intro x hx
      rcases List.mem_append.mp hx with hx | hx
      · obtain ⟨p, hp, hpx⟩ := h.header x hx
        exact ⟨p, by simp [hp], hpx⟩
      · exact ⟨(header, a), by simp, by rw [List.mem_singleton.mp hx]⟩
    · intro x hx
      rcases List.mem_append.mp hx with hx | hx
      · simpa [List.filter_append, (hn x hx).symm] using h.inOrder x hx
      · simp [List.mem_singleton.mp hx, List.filter_append, hempty]
    · intro p hp
      rcases List.mem_append.mp hp with hp | hp
      · obtain ⟨g, hg, hgk⟩ := h.covered p hp
        exact ⟨g, by simp [hg], hgk⟩
      · exact ⟨(header, [a]), by simp, by rw [List.mem_singleton.mp hp]⟩

/-- An item of a full group is refused. -/
theorem insert_full {key : β → κ} {capacity room : ℕ} {groups : List (β × List α)} {header : β}
    (hapart : (groups.map fun g => key g.1).Nodup) {g : β × List α} (hg : g ∈ groups)
    (hk : key g.1 = key header) (hc : capacity ≤ g.2.length) (a : α) :
    insert key capacity room groups header a = none := by
  induction groups generalizing room with
  | nil => exact absurd hg List.not_mem_nil
  | cons first groups ih =>
    rw [List.map_cons, List.nodup_cons] at hapart
    rcases List.mem_cons.mp hg with rfl | hg
    · simp [insert, hk, hc]
    · have hne : key first.1 ≠ key header := by
        intro heq
        refine hapart.1 ?_
        rw [heq, ← hk]
        exact List.mem_map_of_mem hg
      simp [insert, hne, ih hapart.2 hg]

theorem Grouped.insert_full {key : β → κ} {capacity room : ℕ} {items : List (β × α)}
    {groups : List (β × List α)} (h : Grouped key items groups) {header : β} (a : α)
    (hpos : 0 < capacity)
    (hc : capacity ≤ (items.filter fun p => key p.1 = key header).length) :
    Grouping.insert key capacity room groups header a = none := by
  obtain ⟨p, hp⟩ := List.exists_mem_of_length_pos (Nat.lt_of_lt_of_le hpos hc)
  obtain ⟨hp, hkey⟩ := List.mem_filter.mp hp
  obtain ⟨g, hg, hgp⟩ := h.covered p hp
  have hk : key g.1 = key header := hgp.trans (of_decide_eq_true hkey)
  refine Grouping.insert_full h.apart hg hk ?_ a
  rw [h.inOrder g hg, List.length_map, hk]
  exact hc

end Grouping
