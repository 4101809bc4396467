/-
# A cache that forgets the entry not used for longest

The cache is a LIST of items, the one used last in front.  A put brings its item to the front, and
when the list is full the last item goes.

* `put_eq_cons`: after a put its item is in front of some of the items of the other keys.
-/
import Mathlib.Data.List.Basic
import Mathlib.Data.List.Nodup
import Mathlib.Data.List.Pairwise
import Mathlib.Data.Int.Order.Basic

namespace Lru

variable {κ ν : Type} [DecidableEq κ]

/-! ## 1. The list -/

/-- An entry of the cache; after `expiry` it is too old. -/
structure Item (κ ν : Type) where
  key : κ
  value : ν
  expiry : ℤ

def lookup (items : List (Item κ ν)) (key : κ) : Option (Item κ ν) :=
  items.find? fun item => item.key = key

def without (items : List (Item κ ν)) (key : κ) : List (Item κ ν) :=
  items.filter fun item => item.key ≠ key

theorem key_of_lookup {items : List (Item κ ν)} {key : κ} {item : Item κ ν}
    (h : lookup items key = some item) : item.key = key := by
  have hfound := List.find?_some h
  exact of_decide_eq_true hfound

theorem lookup_eq_none {items : List (Item κ ν)} {key : κ} :
    lookup items key = none ↔ ∀ item ∈ items, item.key ≠ key := by
  simp [lookup, List.find?_eq_none]

theorem key_ne_of_mem_without {items : List (Item κ ν)} {key : κ} {item : Item κ ν}
    (h : item ∈ without items key) : item.key ≠ key := by
  simpa using (List.mem_filter.mp h).2

/-! ## 2. A put -/

section Step

variable (max : ℕ) (ttl : ℤ)

/-- The items after a put. -/
def put (items : List (Item κ ν)) (key : κ) (value : ν) (now : ℤ) : List (Item κ ν) :=
  match lookup items key with
  | some _ => ⟨key, value, now + ttl⟩ :: without items key
  | none => ⟨key, value, now + ttl⟩ :: if max ≤ items.length then items.dropLast else items

end Step

/-- A put brings one item in front of some of those of the other keys. -/
theorem put_eq_cons (max : ℕ) (ttl : ℤ) (items : List (Item κ ν)) (key : κ) (value : ν) (now : ℤ) :
    ∃ rest, put max ttl items key value now = ⟨key, value, now + ttl⟩ :: rest ∧
      rest.Sublist items ∧ ∀ item ∈ rest, item.key ≠ key := by
  rw [put]
  cases hlookup : lookup items key with
  | some item =>
    exact ⟨without items key, rfl, List.filter_sublist,
      fun other hother => key_ne_of_mem_without hother⟩
  | none =>
    have hsub : (if max ≤ items.length then items.dropLast else items).Sublist items := by
      split
      · exact List.dropLast_sublist items
      · exact List.Sublist.refl items
    exact ⟨_, rfl, hsub, fun other hother => lookup_eq_none.mp hlookup other (hsub.subset hother)⟩

end Lru
