/-
# Interleavings

Threads that share a state, as ONE machine: what steps can be taken in a state (`enabled`), and what
a step does (`step`).  A step after which the language gives no meaning has NO state after it.

A claim about all interleavings is about the states they reach.  Where it holds only as long as the
threads keep to some discipline, the discipline is a condition on each step, made in the state
before it (`allowed`), and the claim is about what such steps reach.

* `Reachable.invariant` -- what the start has and each step keeps, all states that are reached have;
* `exists_of_run` -- the last state of a run that is written out is reached.
-/
import Mathlib.Logic.Basic

/-- What threads can do to a state. -/
structure Machine (S E : Type) where
  enabled : S → E → Prop
  step : S → E → Option S

namespace Machine

variable {S E : Type} (M : Machine S E)

/-- The states that steps with `allowed` reach. -/
inductive Reachable (allowed : S → E → Prop) (start : S) : S → Prop
  | start : Reachable allowed start start
  | step {s s' : S} {e : E} (h : Reachable allowed start s) (henabled : M.enabled s e)
      (hallowed : allowed s e) (hstep : M.step s e = some s') : Reachable allowed start s'

/-- No discipline. -/
def any (_ : S) (_ : E) : Prop := True

instance (s : S) (e : E) : Decidable (any s e) := .isTrue trivial

variable {M} {allowed : S → E → Prop} {start s : S}

theorem Reachable.invariant {I : S → Prop} (h : M.Reachable allowed start s) (hstart : I start)
    (hkeep : ∀ s e s', I s → M.enabled s e → allowed s e → M.step s e = some s' → I s') : I s := by
  induction h with
  | start => exact hstart
  | step _ henabled hallowed hstep ih => exact hkeep _ _ _ ih henabled hallowed hstep

section Run

variable (M) (allowed) [∀ s e, Decidable (M.enabled s e)] [∀ s e, Decidable (allowed s e)]

/-- A run that is written out. -/
def run : S → List E → Option S
  | s, [] => some s
  | s, e :: rest =>
    if M.enabled s e ∧ allowed s e then (M.step s e).bind fun s' => run s' rest else none

variable {M allowed}

theorem Reachable.run {s' : S} {events : List E} (h : M.Reachable allowed start s)
    (hrun : M.run allowed s events = some s') : M.Reachable allowed start s' := by
  induction events generalizing s with
  | nil =>
    obtain rfl := Option.some.inj hrun
    exact h
  | cons e rest ih =>
    rw [Machine.run] at hrun
    split at hrun
    · rename_i hmay
      obtain ⟨mid, hstep, hrest⟩ := Option.bind_eq_some_iff.mp hrun
      exact ih (h.step hmay.1 hmay.2 hstep) hrest
    · exact absurd hrun.symm (Option.some_ne_none s')

theorem reachable_of_run {events : List E} (hrun : M.run allowed start events = some s) :
    M.Reachable allowed start s :=
  Reachable.start.run hrun

theorem exists_of_run {events : List E} {P : S → Bool}
    (hrun : (M.run allowed start events).any P = true) :
    ∃ s, M.Reachable allowed start s ∧ P s = true := by
  obtain ⟨s, hs, hP⟩ := (Option.any_eq_true P _).mp hrun
  exact ⟨s, reachable_of_run hs, hP⟩

end Run

end Machine
