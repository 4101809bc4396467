/-
# Loops that stop at a failure

`l.mapM f`, for a function that may fail, has a result if and only if every call has, and these are
the results (`mapM_eq_some_iff`).
-/
import Mathlib.Data.List.Basic

namespace MapM

variable {α β : Type} {f : α → Option β} {l : List α} {bs : List β}

theorem mapM_eq_some_iff : l.mapM f = some bs ↔ l.map f = bs.map some := by
  induction l generalizing bs with
  | nil => cases bs <;> simp
  | cons a l ih => cases bs <;> simp [Option.bind_eq_some_iff, ih]

theorem mapM_congr {g : α → Option β} (h : ∀ a ∈ l, f a = g a) : l.mapM f = l.mapM g := by
  refine Option.ext fun bs => ?_
  rw [mapM_eq_some_iff, mapM_eq_some_iff, List.map_congr_left h]

theorem mapM_flatMap {γ : Type} (g : γ → List α) (l : List γ) :
    (l.flatMap g).mapM f = (l.mapM fun c => (g c).mapM f).map List.flatten := by
  induction l with
  | nil => rfl
  | cons c l ih =>
    rw [List.flatMap_cons, List.mapM_append, ih, List.mapM_cons]
    cases (g c).mapM f with
    | none => rfl
    | some bs => cases l.mapM fun c => (g c).mapM f <;> rfl

/-- The calls and the results. -/
theorem mem_of_mapM (h : l.mapM f = some bs) :
    (∀ a ∈ l, ∃ b ∈ bs, f a = some b) ∧ ∀ b ∈ bs, ∃ a ∈ l, f a = some b := by
  have hmap := mapM_eq_some_iff.mp h
  constructor
  · intro a ha
    obtain ⟨b, hb, hfa⟩ := List.mem_map.mp (hmap ▸ List.mem_map_of_mem ha)
    exact ⟨b, hb, hfa.symm⟩
  · intro b hb
    exact List.mem_map.mp (hmap.symm ▸ List.mem_map_of_mem hb)

theorem length_of_mapM (h : l.mapM f = some bs) : bs.length = l.length := by
  simpa using (congrArg List.length (mapM_eq_some_iff.mp h)).symm

theorem exists_mapM (h : ∀ a ∈ l, (f a).isSome = true) : ∃ bs, l.mapM f = some bs :=
  ⟨l.attach.map fun a => (f a.1).get (h a.1 a.2), mapM_eq_some_iff.mpr (by simp)⟩

end MapM
