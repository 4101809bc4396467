/-
# Electing by votes with an early end

Ballots are read in order.  Each is counted under its key, and the count ends at the first ballot
that brings its key to the quorum; the winner is the FIRST ballot that was read under that key.

* `elect_sound`: the winner's key has a quorum of all ballots;
* `elect_isSome`: if some key has a quorum, there is a winner -- maybe of another key, so the order
  of the ballots can matter;
* `elect_eq`: a ballot that leaves less than a quorum to the others wins, whatever the order.
-/
import Mathlib.Data.List.Basic

namespace Votes

variable {α κ : Type*} [DecidableEq κ] (key : α → κ)

/-! ## 1. The count -/

/-- One vote more for the ballot `a`: the entries, and the entry it went to. -/
def vote (a : α) : List (α × ℕ) → List (α × ℕ) × (α × ℕ)
  | [] => ([(a, 1)], (a, 1))
  | (b, n) :: entries =>
    if key b = key a then ((b, n + 1) :: entries, (b, n + 1))
    else
      let r := vote a entries
      ((b, n) :: r.1, r.2)

/-- Reads the ballots until an entry reaches the quorum. -/
def electFrom (quorum : ℕ) : List (α × ℕ) → List α → Option α
  | _, [] => none
  | entries, a :: ballots =>
    let r := vote key a entries
    if quorum ≤ r.2.2 then some r.2.1 else electFrom quorum r.1 ballots

def elect (quorum : ℕ) (ballots : List α) : Option α := electFrom key quorum [] ballots

/-- The number of ballots under a key. -/
def count (k : κ) (ballots : List α) : ℕ := ballots.countP fun a => key a = k

/-- The count an entry list holds for a key. -/
def countIn (k : κ) (entries : List (α × ℕ)) : ℕ :=
  ((entries.find? fun e => key e.1 = k).map Prod.snd).getD 0

variable {key}

theorem countIn_vote (a : α) (k : κ) : ∀ entries : List (α × ℕ),
    countIn key k (vote key a entries).1 =
      countIn key k entries + if key a = k then 1 else 0
  | [] => by by_cases h : key a = k <;> simp [vote, countIn, h]
  | (b, n) :: entries => by
    have ih := countIn_vote a k entries
    unfold countIn at ih
    by_cases hb : key b = key a <;> by_cases hk : key b = k <;> by_cases ha : key a = k <;>
      simp_all [vote, countIn]

/-- The entry a vote goes to: the first ballot of that key, and its new count. -/
theorem vote_entry (key : α → κ) (a : α) : ∀ entries : List (α × ℕ),
    key (vote key a entries).2.1 = key a ∧
      (vote key a entries).2.2 = countIn key (key a) entries + 1 ∧
      ((vote key a entries).2.1 = a ∨ (vote key a entries).2.1 ∈ entries.map Prod.fst)
  | [] => by simp [vote, countIn]
  | (b, n) :: entries => by
    obtain ⟨h1, h2, h3⟩ := vote_entry key a entries
    by_cases hb : key b = key a
    · simp [vote, countIn, hb]
    · refine ⟨by simp [vote, hb, h1], ?_, ?_⟩
      · simpa [vote, countIn, hb] using h2
      · simp only [vote, hb, if_false, List.map_cons, List.mem_cons]
        exact h3.imp_right Or.inr

theorem mem_vote (a : α) : ∀ (entries : List (α × ℕ)) (b : α),
    b ∈ (vote key a entries).1.map Prod.fst → b = a ∨ b ∈ entries.map Prod.fst
  | [], b, h => by simpa [vote] using h
  | (c, n) :: entries, b, h => by
    by_cases hc : key c = key a
    · exact Or.inr (by simpa [vote, hc] using h)
    · simp only [vote, hc, if_false, List.map_cons, List.mem_cons] at h ⊢
      rcases h with h | h
      · exact Or.inr (Or.inl h)
      · exact (mem_vote a entries b h).imp_right Or.inr

/-- **The count so far**: the entries are those of the ballots `seen`. -/
structure Counts (key : α → κ) (entries : List (α × ℕ)) (seen : List α) : Prop where
  count : ∀ k, countIn key k entries = count key k seen
  mem : ∀ a ∈ entries.map Prod.fst, a ∈ seen

theorem Counts.nil : Counts key [] [] := ⟨fun _ => rfl, fun _ h => h⟩

theorem count_append_singleton (k : κ) (seen : List α) (a : α) :
    count key k (seen ++ [a]) = count key k seen + if key a = k then 1 else 0 := by
  simp [count, List.countP_cons]

theorem Counts.vote {entries : List (α × ℕ)} {seen : List α} (h : Counts key entries seen)
    (a : α) : Counts key (vote key a entries).1 (seen ++ [a]) where
  count k := by rw [countIn_vote, h.count, count_append_singleton]
  mem b hb := by
    rcases mem_vote a entries b hb with rfl | hb
    · simp
    · exact List.mem_append_left _ (h.mem b hb)

/-- The entry that gets the vote has the count of its key, and its ballot has been read. -/
theorem Counts.entry {entries : List (α × ℕ)} {seen : List α} (h : Counts key entries seen)
    (a : α) : (Votes.vote key a entries).2.1 ∈ seen ++ [a] ∧
      (Votes.vote key a entries).2.2 =
        Votes.count key (key (Votes.vote key a entries).2.1) (seen ++ [a]) := by
  obtain ⟨h1, h2, h3⟩ := vote_entry key a entries
  refine ⟨?_, ?_⟩
  · rcases h3 with h3 | h3
    · simp [h3]
    · exact List.mem_append_left _ (h.mem _ h3)
  · rw [h1, h2, h.count, count_append_singleton, if_pos rfl]

/-! ## 2. The winner -/

variable {quorum : ℕ}

theorem electFrom_sound {w : α} : ∀ {ballots : List α} {entries : List (α × ℕ)}
    {seen : List α}, Counts key entries seen → electFrom key quorum entries ballots = some w →
    w ∈ seen ++ ballots ∧ quorum ≤ count key (key w) (seen ++ ballots)
  | a :: ballots, entries, seen, h, hw => by
    obtain ⟨hmem, hcount⟩ := h.entry a
    rw [electFrom] at hw
    split at hw
    · rename_i hquorum
      obtain rfl := Option.some.inj hw
      have hsplit : seen ++ a :: ballots = (seen ++ [a]) ++ ballots := by simp
      refine ⟨hsplit ▸ List.mem_append_left _ hmem, ?_⟩
      rw [hsplit, count, List.countP_append]
      rw [hcount, count] at hquorum
      omega
    · have ih := electFrom_sound (h.vote a) hw
      simpa using ih

theorem electFrom_eq_none : ∀ {ballots : List α} {entries : List (α × ℕ)}
    {seen : List α}, Counts key entries seen → (∀ a ∈ seen, count key (key a) seen < quorum) →
    electFrom key quorum entries ballots = none →
    ∀ a ∈ seen ++ ballots, count key (key a) (seen ++ ballots) < quorum
  | [], entries, seen, _, hlt, _ => by simpa using hlt
  | b :: ballots, entries, seen, h, hlt, hnone => by
    obtain ⟨hkey, hcount, -⟩ := vote_entry key b entries
    rw [electFrom] at hnone
    split at hnone
    · exact absurd hnone (Option.some_ne_none _)
    · rename_i hquorum
      -- the key of `b` is below the quorum by the test, every other key as before
      have hlt' : ∀ a ∈ seen ++ [b], count key (key a) (seen ++ [b]) < quorum := by
        intro a ha
        rw [count_append_singleton]
        by_cases hab : key b = key a
        · rw [hcount, h.count, hab] at hquorum
          rw [if_pos hab]
          omega
        · rw [if_neg hab]
          rcases List.mem_append.mp ha with ha | ha
          · exact hlt a ha
          · exact absurd (by rw [List.mem_singleton.mp ha]) hab
      have ih := electFrom_eq_none (h.vote b) hlt' hnone
      simpa using ih

/-- **The winner was read, and its key has a quorum.** -/
theorem elect_sound {ballots : List α} {w : α}
    (h : elect key quorum ballots = some w) :
    w ∈ ballots ∧ quorum ≤ count key (key w) ballots :=
  electFrom_sound Counts.nil h

/-- **A quorum for one key gives a winner.** -/
theorem elect_isSome {ballots : List α} {a : α} (ha : a ∈ ballots)
    (h : quorum ≤ count key (key a) ballots) : ∃ w, elect key quorum ballots = some w := by
  rw [← Option.isSome_iff_exists, Option.isSome_iff_ne_none]
  intro hnone
  have hlt : count key (key a) ballots < quorum := electFrom_eq_none Counts.nil (by simp) hnone a ha
  omega

/-- With a quorum of one the first ballot wins. -/
theorem elect_one_cons (a : α) (ballots : List α) : elect key 1 (a :: ballots) = some a := rfl

theorem electFrom_replicate {a : α} (ballots : List α) : ∀ (n m : ℕ),
    m + (n + 1) = quorum →
    electFrom key quorum [(a, m)] (List.replicate (n + 1) a ++ ballots) = some a
  | 0, m, h => by simp [electFrom, vote, ← h]
  | n + 1, m, h => by
    have ih : electFrom key quorum [(a, m + 1)] (List.replicate (n + 1) a ++ ballots) = some a :=
      electFrom_replicate ballots n (m + 1) (by omega)
    rw [List.replicate_succ, List.cons_append, electFrom]
    simpa [vote, show ¬quorum ≤ m + 1 by omega] using ih

/-- A quorum of equal ballots in front wins. -/
theorem elect_replicate_append (hquorum : 0 < quorum) (a : α) (ballots : List α) :
    elect key quorum (List.replicate quorum a ++ ballots) = some a := by
  obtain ⟨n, rfl⟩ : ∃ n, quorum = n + 1 := ⟨quorum - 1, by omega⟩
  cases n with
  | zero => exact elect_one_cons a ballots
  | succ n =>
    have hrest : electFrom key (n + 2) [(a, 1)] (List.replicate (n + 1) a ++ ballots) = some a :=
      electFrom_replicate ballots n 1 (by omega)
    rw [List.replicate_succ, List.cons_append, elect, electFrom]
    simpa [vote] using hrest

theorem count_add_count_le (key : α → κ) {k k' : κ} (h : k ≠ k') (ballots : List α) :
    count key k ballots + count key k' ballots ≤ ballots.length := by
  induction ballots with
  | nil => simp [count]
  | cons a ballots ih =>
    simp only [count, List.countP_cons, decide_eq_true_eq, List.length_cons] at ih ⊢
    by_cases h1 : key a = k <;> by_cases h2 : key a = k' <;> simp [h1, h2] <;> grind

/-- **A ballot with a quorum that leaves less than a quorum to the others wins**, if the keys tell
the ballots apart. -/
theorem elect_eq {ballots : List α} {a : α}
    (hinj : ∀ b ∈ ballots, key b = key a → b = a) (ha : a ∈ ballots)
    (hquorum : quorum ≤ count key (key a) ballots)
    (hothers : ballots.length < count key (key a) ballots + quorum) :
    elect key quorum ballots = some a := by
  obtain ⟨w, hw⟩ := elect_isSome ha hquorum
  obtain ⟨hmem, hcount⟩ := elect_sound hw
  by_cases hkey : key w = key a
  · rw [hw, hinj w hmem hkey]
  · have := count_add_count_le key (fun h => hkey h.symm) ballots
    omega

end Votes
