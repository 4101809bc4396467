/-
# Programs that call the system

A program makes calls, each with an answer from outside, and ends with a result.  What a call DOES
is left to a system; a program is only the tree of what it calls next for each answer.

That a program keeps to a PROTOCOL is a statement about this tree alone: in each mode some calls are
permitted, and an answer leads to the next mode (`Follows`).  What follows from the protocol is then
proved about modes, for every program that keeps to it:

* `follows_bind` -- a program after another one;
* `Follows.invariant` -- what relates the mode to the state of the system, and every permitted call
  keeps, holds at every point of a run, and so wherever the run may be cut off.
-/
import Mathlib.Logic.Basic

/-- A program with calls `Op`, answers `A` and results `α`. -/
inductive Prog (Op A : Type) (α : Type) where
  | pure (a : α)
  | call (op : Op) (next : A → Prog Op A α)

namespace Prog

variable {Op A α β : Type}

protected def bind : Prog Op A α → (α → Prog Op A β) → Prog Op A β
  | .pure a, f => f a
  | .call op next, f => .call op fun answer => (next answer).bind f

instance : Monad (Prog Op A) where
  pure := .pure
  bind := .bind

/-- A call, for its answer. -/
def ask (op : Op) : Prog Op A A := .call op .pure

/-- The points of a run: after some calls, each with an answer that the system can give. -/
inductive Reaches {S : Type} (perform : S → Op → A → Option S) :
    S → Prog Op A α → S → Prog Op A α → Prop
  | here (s : S) (prog : Prog Op A α) : Reaches perform s prog s prog
  | call {s mid s' : S} {op : Op} {answer : A} {next : A → Prog Op A α} {prog' : Prog Op A α}
      (hperform : perform s op answer = some mid) (h : Reaches perform mid (next answer) s' prog') :
      Reaches perform s (.call op next) s' prog'

/-- A run with these answers. -/
def exec {S : Type} (perform : S → Op → A → Option S) :
    S → Prog Op A α → List A → Option (S × Prog Op A α)
  | s, prog, [] => some (s, prog)
  | s, .call op next, answer :: rest =>
    (perform s op answer).bind fun s' => exec perform s' (next answer) rest
  | _, .pure _, _ :: _ => none

theorem reaches_of_exec {S : Type} {perform : S → Op → A → Option S} {s s' : S}
    {prog prog' : Prog Op A α} {answers : List A}
    (h : exec perform s prog answers = some (s', prog')) : Reaches perform s prog s' prog' := by
  induction answers generalizing s prog with
  | nil =>
    rw [exec] at h
    obtain ⟨rfl, rfl⟩ := Prod.mk.inj (Option.some.inj h)
    exact .here s prog
  | cons answer rest ih =>
    cases prog with
    | pure a => exact absurd h.symm (Option.some_ne_none _)
    | call op next =>
      obtain ⟨mid, hperform, hrest⟩ := Option.bind_eq_some_iff.mp h
      exact .call hperform (ih hrest)

/-- The result, if the program has ended. -/
def result : Prog Op A α → Option α
  | .pure a => some a
  | .call _ _ => none

theorem eq_pure_of_result {prog : Prog Op A α} {a : α} (h : prog.result = some a) :
    prog = .pure a := by
  cases prog with
  | pure b => exact congrArg Prog.pure (Option.some.inj h)
  | call op next => exact absurd h.symm (Option.some_ne_none a)

end Prog

/-- What calls are made in each mode, what may be answered, and where an answer leads. -/
structure Protocol (Op A M : Type) where
  permits : M → Op → Prop
  answers : Op → A → Prop
  next : M → Op → A → M

namespace Protocol

variable {Op A M α β : Type} (P : Protocol Op A M)

/-- The program keeps to the protocol, and its result is right for the mode it ends in. -/
def Follows (final : M → α → Prop) : M → Prog Op A α → Prop
  | m, .pure a => final m a
  | m, .call op next => P.permits m op ∧ ∀ answer, P.answers op answer →
      Follows final (P.next m op answer) (next answer)

variable {P} {final final' : M → α → Prop} {m : M}

theorem follows_ask {op : Op} {f : A → Prog Op A α} :
    P.Follows final m (Prog.ask op >>= f) ↔ P.permits m op ∧ ∀ answer, P.answers op answer →
      P.Follows final (P.next m op answer) (f answer) := Iff.rfl

theorem Follows.mono {prog : Prog Op A α} (h : P.Follows final m prog)
    (himp : ∀ m a, final m a → final' m a) : P.Follows final' m prog := by
  induction prog generalizing m with
  | pure a => exact himp m a h
  | call op next ih =>
    refine ⟨h.1, fun answer hanswer => ?_⟩
    exact ih answer (h.2 answer hanswer)

/-- **A program after another one.** -/
theorem follows_bind {final : M → β → Prop} {prog : Prog Op A α} {f : α → Prog Op A β} :
    P.Follows final m (prog >>= f) ↔ P.Follows (fun m a => P.Follows final m (f a)) m prog := by
  induction prog generalizing m with
  | pure a => exact Iff.rfl
  | call op next ih =>
    constructor
    · rintro ⟨hpermits, hnext⟩
      exact ⟨hpermits, fun answer hanswer => (ih answer).mp (hnext answer hanswer)⟩
    · rintro ⟨hpermits, hnext⟩
      exact ⟨hpermits, fun answer hanswer => (ih answer).mpr (hnext answer hanswer)⟩

/-- **At every point** of a run of a program that follows the protocol, the state is as the mode
says, and the rest of the program follows it too. -/
theorem Follows.invariant {S : Type} {perform : S → Op → A → Option S} {I : M → S → Prop}
    (hkeep : ∀ m s op answer s', I m s → P.permits m op → perform s op answer = some s' →
      P.answers op answer ∧ I (P.next m op answer) s')
    {s s' : S} {prog prog' : Prog Op A α} (h : P.Follows final m prog) (hI : I m s)
    (hreaches : Prog.Reaches perform s prog s' prog') :
    ∃ m', I m' s' ∧ P.Follows final m' prog' := by
  induction hreaches generalizing m with
  | here => exact ⟨m, hI, h⟩
  | call hperform _ ih =>
    obtain ⟨hanswers, hI'⟩ := hkeep _ _ _ _ _ hI h.1 hperform
    exact ih (h.2 _ hanswers) hI'

end Protocol

