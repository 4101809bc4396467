/-
# Reading a list page by page

A client asks for a page, is told that there is more and where to go on, and asks again with that
MARKER until there is no more (`readAll`).  What it gets is the whole list, in finitely many calls,
if each page is a front of what lies behind its marker (`Continues`):

* a page that says there is more is not empty, and its marker is its last item, so the list left
  gets SHORTER -- this is also what makes the reading end;
* a page that says there is no more is all that was left.

Nothing is asked of the length of a page, which may be different each time.
-/
import Mathlib.Data.List.Basic

namespace Paging

variable {κ : Type}

/-! ## 1. Pages -/

/-- One answer. -/
structure Page (κ : Type) where
  items : List κ
  truncated : Bool
  next : Option κ

/-- Ask until there is no more, with at most `fuel` calls, the first of them the `n`th. -/
def readAll (call : ℕ → Option κ → Option (Page κ)) : ℕ → ℕ → Option κ → Option (List κ)
  | 0, _, _ => none
  | fuel + 1, n, marker =>
    (call n marker).bind fun page =>
      if page.truncated then
        page.next.bind fun next =>
          (readAll call fuel (n + 1) (some next)).map (page.items ++ ·)
      else some page.items

/-- The page is a front of the list, and says how to go on. -/
structure Page.Continues (page : Page κ) (l : List κ) : Prop where
  front : ∃ rest, l = page.items ++ rest ∧ (page.truncated = false → rest = [])
  next : page.truncated = true → ∃ last, page.items.getLast? = some last ∧ page.next = some last

/-! ## 2. Behind a marker -/

variable (lt : κ → κ → Prop) [DecidableRel lt]

/-- What is behind a marker. -/
def behind (marker : Option κ) (l : List κ) : List κ :=
  l.filter fun x => marker.all fun m => lt m x

variable {lt}

theorem behind_none (l : List κ) : behind lt none l = l :=
  List.filter_eq_self.mpr fun _ _ => rfl

section Sorted

variable (htrans : ∀ a b c, lt a b → lt b c → lt a c) (hirrefl : ∀ a, ¬ lt a a) {l : List κ}
  (hl : l.Pairwise lt)

include htrans hirrefl hl

/-- What is behind the last item of a front is the rest. -/
theorem behind_last {items rest : List κ} {marker : Option κ} {last : κ}
    (hsplit : behind lt marker l = items ++ rest) (hlast : items.getLast? = some last) :
    behind lt (some last) l = rest := by
  obtain ⟨front, rfl⟩ := List.getLast?_eq_some_iff.mp hlast
  have hmarker : ∀ m ∈ marker, lt m last := by
    intro m hm
    have hmem : last ∈ behind lt marker l := by
      rw [hsplit]
      simp
    have hall := (List.mem_filter.mp hmem).2
    rw [Option.mem_def.mp hm] at hall
    simpa using hall
  -- everything behind the last item was behind the marker
  have hagain : behind lt (some last) l = (behind lt marker l).filter fun x => lt last x := by
    rw [behind, behind, List.filter_filter]
    refine List.filter_congr fun x _ => ?_
    cases marker with
    | none => simp
    | some m =>
      by_cases hx : lt last x
      · simp [hx, htrans _ _ _ (hmarker m rfl) hx]
      · simp [hx]
  have hsorted : (front ++ [last] ++ rest).Pairwise lt := hsplit ▸ hl.filter _
  obtain ⟨hitems, -, hrest⟩ := List.pairwise_append.mp hsorted
  have hfront : (front ++ [last]).filter (fun x => lt last x) = [] := by
    refine List.filter_eq_nil_iff.mpr fun x hx hlt => ?_
    rcases List.mem_append.mp hx with hx | hx
    · have hbefore := (List.pairwise_append.mp hitems).2.2 x hx last (List.mem_singleton_self last)
      exact hirrefl x (htrans _ _ _ hbefore (of_decide_eq_true hlt))
    · rw [List.mem_singleton.mp hx] at hlt
      exact hirrefl last (of_decide_eq_true hlt)
  have hback : rest.filter (fun x => lt last x) = rest := by
    refine List.filter_eq_self.mpr fun x hx => decide_eq_true ?_
    exact hrest last (by simp) x hx
  rw [hagain, hsplit, List.filter_append, hfront, hback, List.nil_append]

/-- **The whole list is read**, in at most one call more than it has items. -/
theorem readAll_eq {call : ℕ → Option κ → Option (Page κ)}
    (hcall : ∀ n marker, (∀ m ∈ marker, m ∈ l) →
      ∃ page, call n marker = some page ∧ page.Continues (behind lt marker l))
    {fuel : ℕ} (n : ℕ) {marker : Option κ} (hmarker : ∀ m ∈ marker, m ∈ l)
    (hfuel : (behind lt marker l).length < fuel) :
    readAll call fuel n marker = some (behind lt marker l) := by
  induction fuel generalizing n marker with
  | zero => omega
  | succ fuel ih =>
    obtain ⟨page, hpage, hcontinues⟩ := hcall n marker hmarker
    obtain ⟨rest, hsplit, hend⟩ := hcontinues.front
    rw [readAll, hpage, Option.bind_some]
    cases htruncated : page.truncated with
    | false =>
      rw [if_neg Bool.false_ne_true, hsplit, hend htruncated, List.append_nil]
    | true =>
      obtain ⟨last, hlast, hnext⟩ := hcontinues.next htruncated
      have hrest : behind lt (some last) l = rest := behind_last htrans hirrefl hl hsplit hlast
      have hmem : last ∈ page.items := List.mem_of_getLast? hlast
      have hlength : rest.length < fuel := by
        have hpos := List.length_pos_of_mem hmem
        rw [hsplit, List.length_append] at hfuel
        omega
      have hlist : ∀ m ∈ some last, m ∈ l := by
        intro m hm
        obtain rfl := Option.some.inj hm
        have hbehind : last ∈ behind lt marker l := by
          rw [hsplit]
          exact List.mem_append_left _ hmem
        exact (List.mem_filter.mp hbehind).1
      rw [if_pos rfl, hnext, Option.bind_some, ih (n + 1) hlist (by rwa [hrest]), Option.map_some,
        hrest, hsplit]

end Sorted

end Paging
