/-
# Tickets

Workers take work in turn, and each piece of work has the number of its turn.  A worker has at most
one number, and gives it up when the work is done.  `Tickets n held done` says that the numbers
below `n` are dealt: each is done ONCE or with one worker, never both.

* `Tickets.take`, `Tickets.finish`: the two things a worker does;
* `Tickets.all_done`: when no worker has a number, all are done, each once.
-/
import Mathlib.Data.List.Nodup
import Mathlib.Logic.Function.Basic

/-- The numbers below `n` are with workers or done. -/
structure Tickets {W : Type*} (n : ℕ) (held : W → Option ℕ) (done : List ℕ) : Prop where
  held_lt : ∀ w k, held w = some k → k < n
  done_lt : ∀ k ∈ done, k < n
  apart : ∀ w v k, held w = some k → held v = some k → w = v
  pending : ∀ w k, held w = some k → k ∉ done
  covered : ∀ k < n, k ∈ done ∨ ∃ w, held w = some k
  once : done.Nodup

namespace Tickets

variable {W : Type*} {n : ℕ} {held : W → Option ℕ} {done : List ℕ} {w : W}

theorem start : Tickets 0 (fun _ : W => none) [] := by
  constructor <;> simp

variable [DecidableEq W]

/-- A worker without a number takes the next one. -/
theorem take (h : Tickets n held done) (hw : held w = none) :
    Tickets (n + 1) (Function.update held w (some n)) done := by
  have hc : ∀ v k, Function.update held w (some n) v = some k →
      (v = w ∧ k = n) ∨ (v ≠ w ∧ held v = some k) := by
    intro v k hv
    by_cases hvw : v = w
    · subst hvw
      rw [Function.update_self, Option.some.injEq] at hv
      exact .inl ⟨rfl, hv.symm⟩
    · rw [Function.update_of_ne hvw] at hv
      exact .inr ⟨hvw, hv⟩
  refine ⟨fun v k hv => ?_, fun k hk => ?_, fun v u k hv hu => ?_, fun v k hv hk => ?_,
    fun k hk => ?_, h.once⟩
  · rcases hc v k hv with ⟨-, rfl⟩ | ⟨-, hv⟩
    · omega
    · exact Nat.lt_succ_of_lt (h.held_lt v k hv)
  · exact Nat.lt_succ_of_lt (h.done_lt k hk)
  · rcases hc v k hv with ⟨h1, h2⟩ | ⟨-, h2⟩ <;> rcases hc u k hu with ⟨h3, h4⟩ | ⟨-, h4⟩
    · exact h1.trans h3.symm
    · exact absurd (h.held_lt u k h4) (by omega)
    · exact absurd (h.held_lt v k h2) (by omega)
    · exact h.apart v u k h2 h4
  · rcases hc v k hv with ⟨-, rfl⟩ | ⟨-, hv⟩
    · exact absurd (h.done_lt _ hk) (Nat.lt_irrefl _)
    · exact h.pending v k hv hk
  · rcases Nat.lt_succ_iff_lt_or_eq.mp hk with hk | rfl
    · rcases h.covered k hk with hd | ⟨v, hv⟩
      · exact .inl hd
      · refine .inr ⟨v, ?_⟩
        rw [Function.update_of_ne, hv]
        rintro rfl
        simp [hw] at hv
    · exact .inr ⟨w, Function.update_self ..⟩

/-- A worker has done its work. -/
theorem finish {k : ℕ} (h : Tickets n held done) (hw : held w = some k) :
    Tickets n (Function.update held w none) (k :: done) := by
  have hc : ∀ v j, Function.update held w none v = some j → v ≠ w ∧ held v = some j := by
    intro v j hv
    by_cases hvw : v = w
    · simp [hvw] at hv
    · exact ⟨hvw, by simpa [hvw] using hv⟩
  refine ⟨fun v j hv => h.held_lt v j (hc v j hv).2, ?_, fun v u j hv hu => ?_, fun v j hv hj => ?_,
    fun j hj => ?_, List.nodup_cons.mpr ⟨h.pending w k hw, h.once⟩⟩
  · intro j hj
    rcases List.mem_cons.mp hj with rfl | hj
    · exact h.held_lt w j hw
    · exact h.done_lt j hj
  · exact h.apart v u j (hc v j hv).2 (hc u j hu).2
  · obtain ⟨hvw, hv⟩ := hc v j hv
    rcases List.mem_cons.mp hj with rfl | hj
    · exact hvw (h.apart v w j hv hw)
    · exact h.pending v j hv hj
  · rcases h.covered j hj with hd | ⟨v, hv⟩
    · exact .inl (List.mem_cons_of_mem k hd)
    · by_cases hvw : v = w
      · subst hvw
        rw [hw, Option.some.injEq] at hv
        exact .inl (hv ▸ List.mem_cons_self)
      · exact .inr ⟨v, by rw [Function.update_of_ne hvw, hv]⟩

omit [DecidableEq W] in
/-- Nobody has a number: each was done, once. -/
theorem all_done (h : Tickets n held done) (hnone : ∀ w, held w = none) {k : ℕ} (hk : k < n) :
    done.count k = 1 := by
  rcases h.covered k hk with hd | ⟨w, hw⟩
  · exact List.count_eq_one_of_mem h.once hd
  · simp [hnone w] at hw

end Tickets
