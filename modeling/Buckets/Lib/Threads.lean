/-
# Threads that run programs

Each thread runs a program over one shared state: a call of the program is a section that nothing
interrupts, and between two calls any other thread may come.  A program that ends may GO ON with
another one (the next turn of a loop), or its call returns and the thread may make another call.
What else happens to the shared state is the environment.

A thread that keeps to a protocol is in a MODE of it.  What a mode says of the shared state is
something that the thread's own calls establish and that all other calls keep; and some modes are
for one thread at a time.

* `Inv.keep`, `inv_of_reachable`: both hold in every interleaving if each call of a protocol keeps
  to them in the state before it.
-/
import Buckets.Lib.Interleaving
import Buckets.Lib.Prog
import Mathlib.Logic.Function.Basic

namespace Threads

/-- What the calls of programs do, what the environment does, and what the programs are. -/
structure Code (S Op A α Entry Env : Type) where
  perform : S → Op → A → Option S
  environment : S → Env → Option S
  entry : Entry → Prog Op A α
  goesOn : α → Option (Prog Op A α)

/-- What is left of a program, and the mode it is in. -/
structure Call (Op A α M : Type) where
  rest : Prog Op A α
  mode : M

/-- The shared state, and the programs that threads are in. -/
structure State (T S Op A α M : Type) where
  shared : S
  calls : T → Option (Call Op A α M)

inductive Event (T A Entry Env : Type) where
  | enter (t : T) (entry : Entry)
  | step (t : T) (answer : A)
  | goOn (t : T)
  | leave (t : T)
  | environment (e : Env)

variable {T S Op A α Entry Env M : Type} [DecidableEq T]

/-- The state after a thread has come to `call`. -/
def State.become (s : State T S Op A α M) (t : T) (call : Option (Call Op A α M)) (shared : S) :
    State T S Op A α M :=
  ⟨shared, Function.update s.calls t call⟩

variable (code : Code S Op A α Entry Env) (P : Protocol Op A M) (mode : Entry → M)

def State.step (s : State T S Op A α M) : Event T A Entry Env → Option (State T S Op A α M)
  | .enter t entry =>
    match s.calls t with
    | none => some (s.become t (some ⟨code.entry entry, mode entry⟩) s.shared)
    | some _ => none
  | .step t answer =>
    match s.calls t with
    | some ⟨.call op next, m⟩ =>
      (code.perform s.shared op answer).map (s.become t (some ⟨next answer, P.next m op answer⟩))
    | _ => none
  | .goOn t =>
    match s.calls t with
    | some ⟨.pure a, m⟩ =>
      (code.goesOn a).map fun prog => s.become t (some ⟨prog, m⟩) s.shared
    | _ => none
  | .leave t =>
    match s.calls t with
    | some ⟨.pure a, _⟩ =>
      match code.goesOn a with
      | none => some (s.become t none s.shared)
      | some _ => none
    | _ => none
  | .environment e => (code.environment s.shared e).map fun shared => { s with shared := shared }

/-- A thread whose call waits takes no step. -/
def machine : Machine (State T S Op A α M) (Event T A Entry Env) :=
  ⟨fun s e => (s.step code P mode e).isSome, State.step code P mode⟩

instance (s : State T S Op A α M) (e : Event T A Entry Env) :
    Decidable ((machine code P mode).enabled s e) :=
  inferInstanceAs (Decidable ((s.step code P mode e).isSome = true))

/-- No thread is in a call. -/
def start (shared : S) : State T S Op A α M := ⟨shared, fun _ => none⟩

/-! ## The invariant -/

/-- The shared state is right, each program keeps to the protocol, what its mode says holds, and the
modes of two threads may be taken together. -/
structure Inv (final : M → α → Prop) (G : S → Prop) (Holds : M → S → Prop) (Apart : M → M → Prop)
    (s : State T S Op A α M) : Prop where
  shared : G s.shared
  follows : ∀ t, ∀ k ∈ s.calls t, P.Follows final k.mode k.rest
  holds : ∀ t, ∀ k ∈ s.calls t, Holds k.mode s.shared
  apart : ∀ t u, t ≠ u → ∀ k ∈ s.calls t, ∀ l ∈ s.calls u, Apart k.mode l.mode

/-- What a protocol, a condition on the steps and what is said of the modes have to do with each
other. -/
structure Rules (allowed : State T S Op A α M → Event T A Entry Env → Prop) (final : M → α → Prop)
    (G : S → Prop) (Holds : M → S → Prop) (Apart : M → M → Prop) : Prop where
  symm : ∀ m n, Apart m n → Apart n m
  entry : ∀ (s : State T S Op A α M) t e, allowed s (.enter t e) →
    P.Follows final (mode e) (code.entry e)
  enter : ∀ e shared, G shared → Holds (mode e) shared
  enterApart : ∀ e m, Apart (mode e) m
  goesOn : ∀ m a prog, final m a → code.goesOn a = some prog → P.Follows final m prog
  step : ∀ (s : State T S Op A α M) t m op next answer shared,
    Inv P final G Holds Apart s → s.calls t = some ⟨.call op next, m⟩ → P.permits m op →
    allowed s (.step t answer) → code.perform s.shared op answer = some shared →
    P.answers op answer ∧ G shared ∧ Holds (P.next m op answer) shared ∧
      ∀ u ≠ t, ∀ l ∈ s.calls u, Holds l.mode shared ∧ Apart (P.next m op answer) l.mode
  environment : ∀ shared e shared', G shared → code.environment shared e = some shared' →
    G shared' ∧ ∀ m, Holds m shared → Holds m shared'

variable {code P mode} {allowed : State T S Op A α M → Event T A Entry Env → Prop}
  {final : M → α → Prop} {G : S → Prop} {Holds : M → S → Prop} {Apart : M → M → Prop}
  {s s' : State T S Op A α M}

omit [DecidableEq T] in
theorem inv_start {shared : S} (h : G shared) :
    Inv P final G Holds Apart (start shared : State T S Op A α M) where
  shared := h
  follows _ k hk := absurd hk.symm (Option.some_ne_none k)
  holds _ k hk := absurd hk.symm (Option.some_ne_none k)
  apart _ _ _ k hk := absurd hk.symm (Option.some_ne_none k)

/-- A thread comes to another point of its calls. -/
theorem Inv.become (h : Inv P final G Holds Apart s) (hsymm : ∀ m n, Apart m n → Apart n m) {t : T}
    {call : Option (Call Op A α M)} {shared : S} (hshared : G shared)
    (hown : ∀ k ∈ call, P.Follows final k.mode k.rest ∧ Holds k.mode shared)
    (hothers : ∀ u ≠ t, ∀ l ∈ s.calls u, Holds l.mode shared ∧ ∀ k ∈ call, Apart k.mode l.mode) :
    Inv P final G Holds Apart (s.become t call shared) := by
  have hcases : ∀ u, ∀ k ∈ (s.become t call shared).calls u,
      (u = t ∧ k ∈ call) ∨ (u ≠ t ∧ k ∈ s.calls u) := by
    intro u k hk
    by_cases hut : u = t
    · subst hut
      exact .inl ⟨rfl, by simpa [State.become] using hk⟩
    · exact .inr ⟨hut, by simpa [State.become, hut] using hk⟩
  constructor
  case shared => exact hshared
  case follows =>
    intro u k hk
    obtain ⟨-, hk⟩ | ⟨-, hk⟩ := hcases u k hk
    · exact (hown k hk).1
    · exact h.follows u k hk
  case holds =>
    intro u k hk
    obtain ⟨-, hk⟩ | ⟨hut, hk⟩ := hcases u k hk
    · exact (hown k hk).2
    · exact (hothers u hut k hk).1
  case apart =>
    intro u v huv k hk l hl
    obtain ⟨hu, hk⟩ | ⟨hu, hk⟩ := hcases u k hk <;> obtain ⟨hv, hl⟩ | ⟨hv, hl⟩ := hcases v l hl
    · exact absurd (hu.trans hv.symm) huv
    · exact (hothers v hv l hl).2 k hk
    · exact hsymm _ _ ((hothers u hu k hk).2 l hl)
    · exact h.apart u v huv k hk l hl

/-- **One step** of a thread or of the environment. -/
theorem Inv.keep (h : Inv P final G Holds Apart s)
    (hrules : Rules (T := T) code P mode allowed final G Holds Apart) {e : Event T A Entry Env}
    (hallowed : allowed s e) (hstep : s.step code P mode e = some s') :
    Inv P final G Holds Apart s' := by
  cases e with
  | enter t entry =>
    cases hcalls : s.calls t with
    | some k => simp [State.step, hcalls] at hstep
    | none =>
      simp only [State.step, hcalls, Option.some.injEq] at hstep
      subst hstep
      apply h.become hrules.symm h.shared
      · intro k hk
        obtain rfl := Option.mem_some.mp hk
        exact ⟨hrules.entry s t entry hallowed, hrules.enter entry _ h.shared⟩
      · intro u _ l hl
        refine ⟨h.holds u l hl, ?_⟩
        intro k hk
        obtain rfl := Option.mem_some.mp hk
        exact hrules.enterApart entry l.mode
  | step t answer =>
    cases hcalls : s.calls t with
    | none => simp [State.step, hcalls] at hstep
    | some k =>
      obtain ⟨rest, m⟩ := k
      cases rest with
      | pure a => simp [State.step, hcalls] at hstep
      | call op next =>
        simp only [State.step, hcalls, Option.map_eq_some_iff] at hstep
        obtain ⟨shared, hperform, rfl⟩ := hstep
        have hfollows := h.follows t _ hcalls
        obtain ⟨hanswers, hG, hown, hothers⟩ :=
          hrules.step s t m op next answer shared h hcalls hfollows.1 hallowed hperform
        apply h.become hrules.symm hG
        · intro k hk
          obtain rfl := Option.mem_some.mp hk
          exact ⟨hfollows.2 answer hanswers, hown⟩
        · intro u hut l hl
          refine ⟨(hothers u hut l hl).1, ?_⟩
          intro k hk
          obtain rfl := Option.mem_some.mp hk
          exact (hothers u hut l hl).2
  | goOn t =>
    cases hcalls : s.calls t with
    | none => simp [State.step, hcalls] at hstep
    | some k =>
      obtain ⟨rest, m⟩ := k
      cases rest with
      | call op next => simp [State.step, hcalls] at hstep
      | pure a =>
        simp only [State.step, hcalls, Option.map_eq_some_iff] at hstep
        obtain ⟨prog, hgoesOn, rfl⟩ := hstep
        have hfollows := h.follows t _ hcalls
        have hholds := h.holds t _ hcalls
        have hapart := fun u hut => h.apart t u hut _ hcalls
        apply h.become hrules.symm h.shared
        · intro k hk
          obtain rfl := Option.mem_some.mp hk
          exact ⟨hrules.goesOn m a prog hfollows hgoesOn, hholds⟩
        · intro u hut l hl
          refine ⟨h.holds u l hl, ?_⟩
          intro k hk
          obtain rfl := Option.mem_some.mp hk
          exact hapart u hut.symm l hl
  | leave t =>
    cases hcalls : s.calls t with
    | none => simp [State.step, hcalls] at hstep
    | some k =>
      obtain ⟨rest, m⟩ := k
      cases rest with
      | call op next => simp [State.step, hcalls] at hstep
      | pure a =>
        cases hgoesOn : code.goesOn a with
        | some prog => simp [State.step, hcalls, hgoesOn] at hstep
        | none =>
          simp only [State.step, hcalls, hgoesOn, Option.some.injEq] at hstep
          subst hstep
          apply h.become hrules.symm h.shared
          · intro k hk
            exact absurd hk.symm (Option.some_ne_none k)
          · intro u _ l hl
            refine ⟨h.holds u l hl, ?_⟩
            intro k hk
            exact absurd hk.symm (Option.some_ne_none k)
  | environment e =>
    obtain ⟨shared, henv, rfl⟩ := Option.map_eq_some_iff.mp hstep
    obtain ⟨hG, hholds⟩ := hrules.environment s.shared e shared h.shared henv
    exact
      { shared := hG
        follows := h.follows
        holds := fun t k hk => hholds _ (h.holds t k hk)
        apart := h.apart }

/-- **In every interleaving** of steps that meet the condition. -/
theorem inv_of_reachable (hrules : Rules (T := T) code P mode allowed final G Holds Apart)
    {shared : S}
    (hstart : G shared) (h : (machine code P mode).Reachable allowed (start shared) s) :
    Inv P final G Holds Apart s := by
  apply h.invariant
  · exact inv_start hstart
  · intro s e s' hs _ hallowed hstep
    exact hs.keep hrules hallowed hstep

end Threads
