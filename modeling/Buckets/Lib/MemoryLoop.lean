/-
# Loops over a buffer

A `while` loop, with its state at the head of the loop.  A turn finds the condition false and the
loop is OVER, or it goes on with another state; `none` is an access outside of a buffer, after which
nothing is known.  A buffer is the list of its bytes.

* `exists_run` -- an invariant and a number that gets smaller: the loop ends, with the invariant and
  with what the turn that finds it over knows;
* `Reaches.keeps` -- the invariant holds whenever the loop is at its head;
* `write_append` -- a write behind the bytes that are already there.
-/
import Mathlib.Data.List.Basic
import Mathlib.Logic.Relation
import Buckets.Lib.CStr

namespace MemoryLoop

/-! ## 1. Buffers -/

/-- The bytes `bytes` written from position `i` on. -/
def write (buffer : List UInt8) (i : ℕ) (bytes : List UInt8) : Option (List UInt8) :=
  if i + bytes.length ≤ buffer.length then
    some (buffer.take i ++ (bytes ++ buffer.drop (i + bytes.length)))
  else none

theorem write_append {front back bytes : List UInt8} (h : bytes.length ≤ back.length) :
    write (front ++ back) front.length bytes =
      some (front ++ (bytes ++ back.drop bytes.length)) := by
  have hroom : front.length + bytes.length ≤ (front ++ back).length := by
    rw [List.length_append]
    exact Nat.add_le_add_left h front.length
  rw [write, if_pos hroom, List.take_left, ← List.drop_drop, List.drop_left]

/-- A buffer that holds a string: its text, the terminator, and whatever comes behind. -/
theorem exists_text_append {buffer : List UInt8} (h : 0 ∈ buffer) :
    ∃ back, buffer = CStr.text buffer ++ 0 :: back := by
  induction buffer with
  | nil => cases h
  | cons c buffer ih =>
    by_cases hc : c = 0
    · subst hc
      exact ⟨buffer, rfl⟩
    · obtain ⟨back, hback⟩ := ih ((List.mem_cons.mp h).resolve_left (Ne.symm hc))
      have htext : CStr.text (c :: buffer) = c :: CStr.text buffer :=
        List.takeWhile_cons_of_pos (by simpa using hc)
      refine ⟨back, ?_⟩
      rw [htext, List.cons_append, ← hback]

theorem zero_notMem_text (buffer : List UInt8) : 0 ∉ CStr.text buffer := by
  intro h
  have hne := List.mem_takeWhile_imp h
  simp at hne

/-! ## 2. Loops -/

/-- What a turn of the loop comes to. -/
inductive Turn (σ : Type) where
  | over
  | again (s : σ)

variable {σ : Type} {turn : σ → Option (Turn σ)} {Inv Post : σ → Prop} {s s' : σ}

/-- The loop, for at most `fuel` turns; the last one finds that it is over. -/
def run (turn : σ → Option (Turn σ)) : ℕ → σ → Option σ
  | 0, _ => none
  | fuel + 1, s =>
    match turn s with
    | none => none
    | some .over => some s
    | some (.again s') => run turn fuel s'

/-- From `s` the loop comes to its head with `s'`. -/
def Reaches (turn : σ → Option (Turn σ)) : σ → σ → Prop :=
  Relation.ReflTransGen fun s s' => turn s = some (.again s')

/-- **Total correctness of a loop.** -/
theorem exists_run (left : σ → ℕ)
    (hturn : ∀ s, Inv s → turn s = some .over ∧ Post s ∨
      ∃ s', turn s = some (.again s') ∧ left s' < left s ∧ Inv s')
    (h : Inv s) {fuel : ℕ} (hfuel : left s < fuel) :
    ∃ s', run turn fuel s = some s' ∧ Inv s' ∧ Post s' := by
  induction fuel generalizing s with
  | zero => exact absurd hfuel (Nat.not_lt_zero _)
  | succ fuel ih =>
    rcases hturn s h with ⟨hover, hpost⟩ | ⟨s', hagain, hless, h'⟩
    · refine ⟨s, ?_, h, hpost⟩
      rw [run, hover]
    · obtain ⟨last, hrun, hlast⟩ := ih h' (Nat.lt_of_lt_of_le hless (Nat.le_of_lt_succ hfuel))
      refine ⟨last, ?_, hlast⟩
      rw [run, hagain]
      exact hrun

/-- **The invariant at the head of the loop.** -/
theorem Reaches.keeps (hreaches : Reaches turn s s')
    (hturn : ∀ s, Inv s → turn s = some .over ∨ ∃ s', turn s = some (.again s') ∧ Inv s')
    (h : Inv s) : Inv s' := by
  induction hreaches with
  | refl => exact h
  | tail _ hstep ih =>
    rcases hturn _ ih with hover | ⟨s', hagain, h'⟩
    · rw [hover] at hstep
      cases hstep
    · rw [hagain] at hstep
      cases hstep
      exact h'

end MemoryLoop
