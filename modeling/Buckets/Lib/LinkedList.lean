/-
# Linked lists through pointers

A link field is a map from addresses to addresses, with `none` for `NULL`.  `Seg next p as q` says
that from the pointer `p` the links run through the addresses `as` and arrive at `q`; a list ends at
`NULL`.  A DOUBLY linked list (`Linked`) is two of them over one list of addresses, the second
through it backwards.

Everything is about the maps, so the fields of one record do not disturb each other:

* `Seg.redirect` -- to write the last link of a segment is to move its end;
* `Seg.unlink`, `Seg.push` -- an element taken out of a chain, or put in front;
* `Linked.unlink`, `Linked.push` -- the same for both directions at once, with the head and the tail
  as special cases, as code has it.
-/
import Mathlib.Data.List.Basic
import Mathlib.Data.List.Nodup
import Mathlib.Data.List.Perm.Subperm
import Mathlib.Logic.Function.Basic

namespace LinkedList

variable {next next' prev : ℕ → Option ℕ} {p q r head tail : Option ℕ} {as xs ys : List ℕ} {a u : ℕ}

/-! ## 1. Segments -/

/-- From `p` the links run through `as` to `q`. -/
def Seg (next : ℕ → Option ℕ) : Option ℕ → List ℕ → Option ℕ → Prop
  | p, [], q => p = q
  | p, a :: as, q => p = some a ∧ Seg next (next a) as q

theorem Seg.congr (h : Seg next p as q) (hsame : ∀ a ∈ as, next' a = next a) :
    Seg next' p as q := by
  induction as generalizing p with
  | nil => exact h
  | cons a as ih =>
    obtain ⟨rfl, h⟩ := h
    refine ⟨rfl, ?_⟩
    rw [hsame a List.mem_cons_self]
    exact ih h fun b hb => hsame b (List.mem_cons_of_mem a hb)

theorem seg_append : Seg next p (xs ++ ys) q ↔ ∃ r, Seg next p xs r ∧ Seg next r ys q := by
  induction xs generalizing p with
  | nil =>
    constructor
    · intro h
      exact ⟨p, rfl, h⟩
    · rintro ⟨r, rfl, h⟩
      exact h
  | cons a xs ih =>
    constructor
    · rintro ⟨rfl, h⟩
      obtain ⟨r, hxs, hys⟩ := ih.mp h
      exact ⟨r, ⟨rfl, hxs⟩, hys⟩
    · rintro ⟨r, ⟨rfl, hxs⟩, hys⟩
      exact ⟨rfl, ih.mpr ⟨r, hxs, hys⟩⟩

/-- A list that ends at `NULL` starts at its first element. -/
theorem Seg.start_eq (h : Seg next p as none) : p = as.head? := by
  cases as with
  | nil => exact h
  | cons a as => exact h.1

/-- **Writing the last link** of a segment moves its end. -/
theorem Seg.redirect (h : Seg next p (xs ++ [u]) q) (hu : u ∉ xs) (r : Option ℕ) :
    Seg (Function.update next u r) p (xs ++ [u]) r := by
  obtain ⟨m, hxs, hm⟩ := seg_append.mp h
  refine seg_append.mpr ⟨m, hxs.congr fun b hb => ?_, hm.1, ?_⟩
  · exact Function.update_of_ne (fun hbu : b = u => hu (hbu ▸ hb)) ..
  · exact Function.update_self ..

/-- Writes outside a segment leave it. -/
theorem Seg.frame (h : Seg next p as q) (hu : u ∉ as) (r : Option ℕ) :
    Seg (Function.update next u r) p as q :=
  h.congr fun b hb => Function.update_of_ne (fun hbu : b = u => hu (hbu ▸ hb)) ..

/-! ## 2. Chains -/

/-- The links after an element was taken out: the one that led to it leads past it. -/
def past (next : ℕ → Option ℕ) (before : Option ℕ) (r : Option ℕ) : ℕ → Option ℕ :=
  match before with
  | none => next
  | some u => Function.update next u r

/-- The start after that. -/
def startPast (before : Option ℕ) (p r : Option ℕ) : Option ℕ :=
  match before with
  | none => r
  | some _ => p

/-- **An element is taken out of a chain.** -/
theorem Seg.unlink (h : Seg next p (xs ++ a :: ys) none) (hnodup : (xs ++ a :: ys).Nodup) :
    Seg (past next xs.getLast? (next a)) (startPast xs.getLast? p (next a)) (xs ++ ys) none := by
  obtain ⟨m, hxs, rfl, hys⟩ := seg_append.mp h
  obtain ⟨hnxs, hnys, hapart⟩ := List.nodup_append.mp hnodup
  rcases List.eq_nil_or_concat xs with rfl | ⟨us, u, rfl⟩
  · exact hys
  · rw [List.concat_eq_append] at hxs hnxs hapart ⊢
    rw [List.getLast?_concat]
    have hu : u ∉ us := by
      have := (List.nodup_append.mp hnxs).2.2
      exact fun hmem => this u hmem u (List.mem_singleton_self u) rfl
    have huys : u ∉ ys := fun hmem =>
      hapart u (by simp) u (List.mem_cons_of_mem a hmem) rfl
    exact seg_append.mpr ⟨next a, hxs.redirect hu (next a), hys.frame huys (next a)⟩

/-- An element is put in front of a chain. -/
theorem Seg.push (h : Seg next p as none) (ha : a ∉ as) :
    Seg (Function.update next a p) (some a) (a :: as) none := by
  refine ⟨rfl, ?_⟩
  rw [Function.update_self]
  exact h.frame ha p

/-- An element is put behind a chain. -/
theorem Seg.snoc (h : Seg next p as none) (hnodup : as.Nodup) (ha : a ∉ as) :
    Seg (past (Function.update next a none) as.getLast? (some a)) (startPast as.getLast? p (some a))
      (as ++ [a]) none := by
  rcases List.eq_nil_or_concat as with rfl | ⟨us, u, rfl⟩
  · exact ⟨rfl, Function.update_self ..⟩
  · rw [List.concat_eq_append] at h hnodup ha ⊢
    rw [List.getLast?_concat]
    have hu : u ∉ us := by
      have := (List.nodup_append.mp hnodup).2.2
      exact fun hmem => this u hmem u (List.mem_singleton_self u) rfl
    have hau : a ≠ u := fun hau => ha (by simp [hau])
    refine seg_append.mpr ⟨some a, (h.frame ha none).redirect hu (some a), rfl, ?_⟩
    exact (Function.update_of_ne hau ..).trans (Function.update_self ..)

/-! ## 3. Doubly linked lists -/

/-- The two link fields, the head and the tail of a doubly linked list of these addresses. -/
structure Linked (next prev : ℕ → Option ℕ) (head tail : Option ℕ) (as : List ℕ) : Prop where
  nodup : as.Nodup
  forward : Seg next head as none
  backward : Seg prev tail as.reverse none

theorem Linked.head_eq (h : Linked next prev head tail as) : head = as.head? := h.forward.start_eq

theorem linked_nil (next prev : ℕ → Option ℕ) : Linked next prev none none [] :=
  ⟨List.nodup_nil, rfl, rfl⟩

/-- The links of an element are its neighbours. -/
theorem Linked.neighbours (h : Linked next prev head tail (xs ++ a :: ys)) :
    next a = ys.head? ∧ prev a = xs.getLast? := by
  obtain ⟨-, -, -, hys⟩ := seg_append.mp h.forward
  have hback := h.backward
  rw [List.reverse_append, List.reverse_cons, List.append_assoc, List.singleton_append] at hback
  obtain ⟨-, -, -, hxs⟩ := seg_append.mp hback
  exact ⟨hys.start_eq, by rw [hxs.start_eq, List.head?_reverse]⟩

/-- **An element is taken out** of a doubly linked list. -/
theorem Linked.unlink (h : Linked next prev head tail (xs ++ a :: ys)) :
    Linked (past next (prev a) (next a)) (past prev (next a) (prev a))
      (startPast (prev a) head (next a)) (startPast (next a) tail (prev a)) (xs ++ ys) := by
  obtain ⟨hnext, hprev⟩ := h.neighbours
  refine ⟨?_, ?_, ?_⟩
  · exact h.nodup.sublist ((List.Sublist.refl xs).append (List.sublist_cons_self a ys))
  · rw [hprev]
    exact h.forward.unlink h.nodup
  · have hback := h.backward
    have hnodup := List.nodup_reverse.mpr h.nodup
    rw [List.reverse_append, List.reverse_cons, List.append_assoc, List.singleton_append]
      at hback hnodup
    have hlast : ys.reverse.getLast? = next a := by rw [List.getLast?_reverse, hnext]
    rw [List.reverse_append, ← hlast]
    exact hback.unlink hnodup

/-- **An element is put in front** of a doubly linked list. -/
theorem Linked.push (h : Linked next prev head tail as) (ha : a ∉ as) :
    Linked (Function.update next a head) (past (Function.update prev a none) head (some a))
      (some a) (startPast head tail (some a)) (a :: as) := by
  refine ⟨List.nodup_cons.mpr ⟨ha, h.nodup⟩, h.forward.push ha, ?_⟩
  have hlast : as.reverse.getLast? = head := by rw [List.getLast?_reverse, h.head_eq]
  rw [List.reverse_cons, ← hlast]
  exact h.backward.snoc (List.nodup_reverse.mpr h.nodup) fun hmem => ha (List.mem_reverse.mp hmem)

end LinkedList
