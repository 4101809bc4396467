/-
# The point that follows on a ring

Points lie on a circle of keys, each with an OWNER.  A key belongs to the owner of the first point
at or after it, and behind the last point one goes on with the first (`clockwise`).  The points are
kept sorted, so that the point can be found by bisection (`lowerBound`).

* `getElem?_lowerBound` -- the bisection ends where the clockwise scan ends, whatever the length of
  the list and with equal keys too; `rotate_wrap` -- and going on from there one meets the points in
  the order of `walk`;
* `clockwise_ahead` -- the point found is the one that no other point lies AHEAD of;
* `owner_clockwise` -- so more points change the owner of a key only to the owner of a new point.

The last one is all there is to consistent hashing: it compares two lists only by the points they
have, never by where the points are in them.
-/
import Mathlib.Data.List.Rotate
import Mathlib.Data.List.Sort
import Mathlib.Data.List.TakeWhile
import Mathlib.Order.Basic

namespace HashRing

/-! ## 1. Bisection -/

/-- The first place from `left` on, and before `right`, that is not below, found by bisection. -/
def lowerBound (below : ℕ → Prop) [DecidablePred below] (left right : ℕ) : ℕ :=
  if left < right then
    if below (left + (right - left) / 2) then lowerBound below (left + (right - left) / 2 + 1) right
    else lowerBound below left (left + (right - left) / 2)
  else left
termination_by right - left

/-- **Bisection** finds the place where `below` ends, if nothing is below behind a place that is
not. -/
theorem lowerBound_spec {below : ℕ → Prop} [DecidablePred below] {n : ℕ}
    (hdown : ∀ i j, i ≤ j → j < n → below j → below i) :
    ∀ {left right : ℕ}, left ≤ right → right ≤ n →
      left ≤ lowerBound below left right ∧ lowerBound below left right ≤ right ∧
      (∀ i, left ≤ i → i < lowerBound below left right → below i) ∧
      ∀ i, lowerBound below left right ≤ i → i < right → ¬ below i := by
  intro left right
  induction left, right using lowerBound.induct below with
  | case1 left right hlt hbelow ih =>
    intro hle hn
    obtain ⟨hleft, hright, hbefore, hafter⟩ := ih (by omega) hn
    rw [lowerBound, if_pos hlt, if_pos hbelow]
    refine ⟨by omega, hright, fun i hi hlow => ?_, hafter⟩
    by_cases hmid : i ≤ left + (right - left) / 2
    · exact hdown i _ hmid (by omega) hbelow
    · exact hbefore i (by omega) hlow
  | case2 left right hlt hbelow ih =>
    intro hle hn
    obtain ⟨hleft, hright, hbefore, hafter⟩ := ih (by omega) (by omega)
    rw [lowerBound, if_pos hlt, if_neg hbelow]
    refine ⟨hleft, by omega, hbefore, fun i hi hhigh hlow => ?_⟩
    by_cases hmid : i < left + (right - left) / 2
    · exact hafter i hi hmid hlow
    · exact hbelow (hdown _ i (by omega) (by omega) hlow)
  | case3 left right hlt =>
    intro hle hn
    rw [lowerBound, if_neg hlt]
    exact ⟨Nat.le_refl _, hle, fun i hi hlow => by omega, fun i hi hhigh => by omega⟩

/-! ## 2. The clockwise scan -/

variable {α κ ω : Type} [LinearOrder κ] {key : α → κ} {l l' : List α} {h : κ} {a b : α}

/-- The first point at or after `h`, or the first of all. -/
def clockwise (key : α → κ) (l : List α) (h : κ) : Option α :=
  (l.find? fun a => h ≤ key a).or l.head?

theorem clockwise_mem (hfound : clockwise key l h = some a) : a ∈ l := by
  rcases Option.or_eq_some_iff.mp hfound with hfind | ⟨-, hhead⟩
  · exact List.mem_of_find?_eq_some hfind
  · exact List.mem_of_mem_head? hhead

theorem exists_clockwise (hne : l ≠ []) (key : α → κ) (h : κ) :
    ∃ a, clockwise key l h = some a := by
  obtain ⟨first, rest, rfl⟩ := List.exists_cons_of_ne_nil hne
  cases hfind : (first :: rest).find? fun a => decide (h ≤ key a) with
  | none => exact ⟨first, by rw [clockwise, hfind]; rfl⟩
  | some a => exact ⟨a, by rw [clockwise, hfind]; rfl⟩

/-- The points in the order in which one meets them from `h` on. -/
def walk (key : α → κ) (l : List α) (h : κ) : List α :=
  l.dropWhile (fun a => key a < h) ++ l.takeWhile fun a => key a < h

/-- The walk begins with the point found. -/
theorem head?_walk (key : α → κ) (l : List α) (h : κ) :
    (walk key l h).head? = clockwise key l h := by
  have hfind : (l.find? fun a => h ≤ key a) = (l.dropWhile fun a => key a < h).head? := by
    rw [← List.find?_not_eq_head?_dropWhile]
    congr
    funext a
    rw [← decide_not, decide_eq_decide]
    exact not_lt.symm
  rw [walk, clockwise, hfind, List.head?_append]
  cases hdrop : l.dropWhile fun a => decide (key a < h) with
  | nil =>
    have hall := @List.takeWhile_append_dropWhile _ (fun a => decide (key a < h)) l
    rw [hdrop, List.append_nil] at hall
    rw [hall]
  | cons a rest => rfl

/-- Everybody is met. -/
theorem walk_perm (key : α → κ) (l : List α) (h : κ) : (walk key l h).Perm l := by
  have hall := @List.takeWhile_append_dropWhile _ (fun a => decide (key a < h)) l
  exact List.perm_append_comm.trans (List.Perm.of_eq hall)

/-- Whoever is met is kept once. -/
theorem nodup_eraseDups [DecidableEq ω] {count : ℕ} :
    ∀ owners : List ω, owners.length ≤ count → owners.eraseDups.Nodup := by
  induction count with
  | zero =>
    intro owners hlength
    rw [List.length_eq_zero_iff.mp (Nat.le_zero.mp hlength)]
    exact List.nodup_nil
  | succ count ih =>
    intro owners hlength
    cases owners with
    | nil => exact List.nodup_nil
    | cons owner owners =>
      rw [List.eraseDups_cons, List.nodup_cons]
      constructor
      · rw [List.mem_eraseDups, List.mem_filter]
        simp
      · have hfilter := List.length_filter_le (fun other => !other == owner) owners
        rw [List.length_cons] at hlength
        exact ih _ (by omega)

/-- **The bisection of a sorted list** finds where the walk begins. -/
theorem rotate_lowerBound {below : ℕ → Prop} [DecidablePred below]
    (hsorted : l.Pairwise fun a b => key a ≤ key b)
    (hbelow : ∀ i a, l[i]? = some a → (below i ↔ key a < h)) :
    lowerBound below 0 l.length ≤ l.length ∧
      l.rotate (lowerBound below 0 l.length) = walk key l h := by
  have hat : ∀ i (hi : i < l.length), below i ↔ key l[i] < h := fun i hi =>
    hbelow i _ (List.getElem?_eq_getElem hi)
  have hdown : ∀ i j, i ≤ j → j < l.length → below j → below i := by
    intro i j hij hj hlow
    rcases Nat.eq_or_lt_of_le hij with rfl | hlt
    · exact hlow
    · have hle := List.pairwise_iff_getElem.mp hsorted i j (by omega) hj hlt
      exact (hat i (by omega)).mpr (hle.trans_lt ((hat j hj).mp hlow))
  obtain ⟨-, hle, hbefore, hafter⟩ := lowerBound_spec hdown (Nat.zero_le l.length) (Nat.le_refl _)
  generalize lowerBound below 0 l.length = r at hle hbefore hafter ⊢
  have htake : ∀ a ∈ l.take r, decide (key a < h) = true := by
    intro a ha
    obtain ⟨i, hi, rfl⟩ := List.getElem_of_mem ha
    rw [List.length_take] at hi
    rw [List.getElem_take]
    exact decide_eq_true ((hat i (by omega)).mp (hbefore i (Nat.zero_le i) (by omega)))
  have hdrop : ∀ a, (l.drop r).head? = some a → ¬ decide (key a < h) = true := by
    intro a ha hlow
    rw [List.head?_drop] at ha
    obtain ⟨hr, rfl⟩ := List.getElem?_eq_some_iff.mp ha
    exact hafter r (Nat.le_refl r) hr ((hat r hr).mpr (of_decide_eq_true hlow))
  -- so `take r` and `drop r` are what `takeWhile` and `dropWhile` give
  refine ⟨hle, ?_⟩
  have hsplit := List.take_append_drop r l
  rw [List.rotate_eq_drop_append_take hle, walk]
  nth_rewrite 3 4 [← hsplit]
  rw [List.dropWhile_append_of_pos htake, List.takeWhile_append_of_pos htake]
  cases hrest : l.drop r with
  | nil => simp
  | cons a rest =>
    have ha : ¬ (fun a => decide (key a < h)) a = true := hdrop a (by rw [hrest]; rfl)
    rw [List.dropWhile_cons_of_neg (p := fun a => decide (key a < h)) ha,
      List.takeWhile_cons_of_neg (p := fun a => decide (key a < h)) ha, List.append_nil]

/-- The place found, behind the last point the first. -/
theorem rotate_wrap {below : ℕ → Prop} [DecidablePred below]
    (hsorted : l.Pairwise fun a b => key a ≤ key b)
    (hbelow : ∀ i a, l[i]? = some a → (below i ↔ key a < h)) :
    l.rotate (if l.length ≤ lowerBound below 0 l.length then 0 else lowerBound below 0 l.length) =
      walk key l h := by
  obtain ⟨hle, hrotate⟩ := rotate_lowerBound hsorted hbelow
  split
  · rename_i hge
    rw [← hrotate, Nat.le_antisymm hle hge, List.rotate_length, List.rotate_zero]
  · exact hrotate

/-- **The bisection of a sorted list is the clockwise scan.** -/
theorem getElem?_lowerBound {below : ℕ → Prop} [DecidablePred below]
    (hsorted : l.Pairwise fun a b => key a ≤ key b)
    (hbelow : ∀ i a, l[i]? = some a → (below i ↔ key a < h)) :
    l[if l.length ≤ lowerBound below 0 l.length then 0 else lowerBound below 0 l.length]? =
      clockwise key l h := by
  rw [← head?_walk, ← rotate_wrap hsorted hbelow]
  cases l with
  | nil => rfl
  | cons first rest =>
    refine (List.head?_rotate ?_).symm
    split
    · exact Nat.succ_pos _
    · omega

/-! ## 3. Which point it is -/

/-- Going clockwise from `h` one meets `x` no later than `y`. -/
def Ahead (h x y : κ) : Prop := (h ≤ x ∧ (h ≤ y → x ≤ y)) ∨ (x < h ∧ y < h ∧ x ≤ y)

theorem Ahead.antisymm {x y : κ} (hxy : Ahead h x y) (hyx : Ahead h y x) : x = y := by
  rcases hxy with ⟨hx, hle⟩ | ⟨hx, hy, hle⟩
  · rcases hyx with ⟨hy, hge⟩ | ⟨-, hx', -⟩
    · exact le_antisymm (hle hy) (hge hx)
    · exact absurd hx (not_le_of_gt hx')
  · rcases hyx with ⟨hy', -⟩ | ⟨-, -, hge⟩
    · exact absurd hy' (not_le_of_gt hy)
    · exact le_antisymm hle hge

/-- **No point lies ahead of the one found.** -/
theorem clockwise_ahead (hsorted : l.Pairwise fun a b => key a ≤ key b)
    (hfound : clockwise key l h = some a) (hb : b ∈ l) : Ahead h (key a) (key b) := by
  rcases Option.or_eq_some_iff.mp hfound with hfind | ⟨hnone, hhead⟩
  · obtain ⟨hle, before, after, rfl, hbefore⟩ := List.find?_eq_some_iff_append.mp hfind
    refine .inl ⟨of_decide_eq_true hle, fun hhb => ?_⟩
    rcases List.mem_append.mp hb with hb | hb
    · have := hbefore b hb
      simp [hhb] at this
    · rcases List.mem_cons.mp hb with rfl | hb
      · exact le_rfl
      · exact (List.pairwise_cons.mp (List.pairwise_append.mp hsorted).2.1).1 b hb
  · have hlow : ∀ c ∈ l, key c < h := by
      intro c hc
      simpa using List.find?_eq_none.mp hnone c hc
    obtain ⟨rest, rfl⟩ := List.head?_eq_some_iff.mp hhead
    refine .inr ⟨hlow a List.mem_cons_self, hlow b hb, ?_⟩
    rcases List.mem_cons.mp hb with rfl | hb
    · exact le_rfl
    · exact (List.pairwise_cons.mp hsorted).1 b hb

/-! ## 4. More points -/

/-- Points with different owners have different keys. -/
def Distinct (key : α → κ) (owner : α → ω) (l : List α) : Prop :=
  ∀ a ∈ l, ∀ b ∈ l, key a = key b → owner a = owner b

/-- **Consistent hashing.**  If the point found among more points was there before, its owner is
the one found before. -/
theorem owner_clockwise {owner : α → ω} (hsub : l ⊆ l') (hdistinct : Distinct key owner l')
    (hsorted : l.Pairwise fun a b => key a ≤ key b)
    (hsorted' : l'.Pairwise fun a b => key a ≤ key b)
    (hfound : clockwise key l' h = some a) (ha : a ∈ l) :
    (clockwise key l h).map owner = some (owner a) := by
  obtain ⟨b, hb⟩ := exists_clockwise (List.ne_nil_of_mem ha) key h
  have hmem : b ∈ l := clockwise_mem hb
  have hkey : key a = key b :=
    (clockwise_ahead hsorted' hfound (hsub hmem)).antisymm (clockwise_ahead hsorted hb ha)
  rw [hb, Option.map_some, hdistinct a (hsub ha) b (hsub hmem) hkey]

/-- The same points in another order have the same owners. -/
theorem owner_clockwise_perm {owner : α → ω} (hperm : l.Perm l')
    (hdistinct : Distinct key owner l') (hsorted : l.Pairwise fun a b => key a ≤ key b)
    (hsorted' : l'.Pairwise fun a b => key a ≤ key b) (h : κ) :
    (clockwise key l h).map owner = (clockwise key l' h).map owner := by
  cases hfound : clockwise key l' h with
  | none =>
    have hnil : l' = [] := by
      by_contra hne
      obtain ⟨a, ha⟩ := exists_clockwise hne key h
      rw [hfound] at ha
      cases ha
    rw [hnil] at hperm
    rw [hperm.eq_nil]
    rfl
  | some a =>
    exact owner_clockwise hperm.subset hdistinct hsorted hsorted' hfound
      (hperm.mem_iff.mpr (clockwise_mem hfound))

/-! ## 5. Sorting -/

/-- A sorting function; nothing is said of the order of equal keys. -/
structure Sorter (key : α → κ) where
  sort : List α → List α
  perm : ∀ l, (sort l).Perm l
  sorted : ∀ l, (sort l).Pairwise fun a b => key a ≤ key b

/-- There is one. -/
def Sorter.insertion (key : α → κ) : Sorter key where
  sort := List.insertionSort fun a b => key a ≤ key b
  perm := List.perm_insertionSort _
  sorted := fun l => by
    have htotal : Std.Total fun a b : α => key a ≤ key b := ⟨fun a b => le_total (key a) (key b)⟩
    have htrans : IsTrans α fun a b => key a ≤ key b := ⟨fun a b c => le_trans⟩
    exact List.pairwise_insertionSort _ l

end HashRing
