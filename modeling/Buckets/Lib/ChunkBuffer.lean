/-
# A buffer that is flushed when full

Data is copied into a buffer of fixed capacity; a full buffer becomes a chunk.  At the end the
chunks are put together again by their POSITIONS: every chunk but the last is taken to have the
capacity, and the last to have the rest.

* `fill_spec`: filling adds the data to the content, whatever the pieces it comes in;
* `reassemble_flush`: putting the chunks together gives the content.
-/
import Mathlib.Data.List.Basic
import Mathlib.Order.Basic

namespace ChunkBuffer

variable {α : Type*}

/-- The buffer, and the chunks flushed from it. -/
structure State (α : Type*) where
  buffer : List α
  chunks : List (List α)

namespace State

/-- All the data so far. -/
def content (s : State α) : List α := s.chunks.flatten ++ s.buffer

/-- The buffer becomes a chunk, unless it is empty. -/
def flush (s : State α) : State α :=
  if s.buffer.length = 0 then s else ⟨[], s.chunks ++ [s.buffer]⟩

theorem content_flush (s : State α) : s.flush.content = s.content := by
  unfold flush
  split
  · rfl
  · simp [content]

end State

/-- The copy loop: as much as there is room for, then a flush if the buffer is full. -/
def fill (capacity : ℕ) (hcapacity : 0 < capacity) (s : State α) (src : List α) : State α :=
  if src.length = 0 then s
  else
    let toCopy := min src.length (capacity - s.buffer.length)
    let s' : State α := ⟨s.buffer ++ src.take toCopy, s.chunks⟩
    fill capacity hcapacity (if capacity ≤ s'.buffer.length then s'.flush else s') (src.drop toCopy)
termination_by 2 * src.length + if capacity ≤ s.buffer.length then 1 else 0
decreasing_by
  rename_i hsrc
  simp only [List.length_drop, List.length_append, List.length_take]
  by_cases hfull : capacity ≤ s.buffer.length
  · -- a full buffer takes nothing, but is flushed
    have hbuffer : ¬s.buffer.length = 0 := by omega
    simp [State.flush, hfull, hbuffer]
    omega
  · rw [if_neg hfull]
    split <;> split <;> omega

/-- The chunks have the capacity, and the buffer has room. -/
structure Inv (capacity : ℕ) (s : State α) : Prop where
  room : s.buffer.length < capacity
  full : ∀ c ∈ s.chunks, c.length = capacity

/-- **Filling adds the data to the content.** -/
theorem fill_spec {capacity : ℕ} (hcapacity : 0 < capacity) {s : State α} (hs : Inv capacity s)
    (src : List α) : Inv capacity (fill capacity hcapacity s src) ∧
      (fill capacity hcapacity s src).content = s.content ++ src := by
  induction hn : src.length using Nat.strongRecOn generalizing s src with
  | ind n ih =>
    rw [fill]
    by_cases hsrc : src.length = 0
    · rw [if_pos hsrc, List.eq_nil_of_length_eq_zero hsrc, List.append_nil]
      exact ⟨hs, rfl⟩
    rw [if_neg hsrc]
    have hroom := hs.room
    generalize hcopy : min src.length (capacity - s.buffer.length) = toCopy
    generalize hnext : (if capacity ≤ (s.buffer ++ src.take toCopy).length then
      State.flush ⟨s.buffer ++ src.take toCopy, s.chunks⟩
      else ⟨s.buffer ++ src.take toCopy, s.chunks⟩) = next
    have hnextInv : Inv capacity next ∧ next.content = s.content ++ src.take toCopy := by
      rw [← hnext]
      split
      · rename_i hfull
        have hlen : (s.buffer ++ src.take toCopy).length = capacity := by
          rw [List.length_append, List.length_take] at hfull ⊢
          omega
        refine ⟨?_, by rw [State.content_flush]; simp [State.content]⟩
        have hne : ¬(s.buffer ++ src.take toCopy).length = 0 := by omega
        rw [State.flush, if_neg hne]
        refine ⟨by simpa using hcapacity, fun c hc => ?_⟩
        rcases List.mem_append.mp hc with hc | hc
        · exact hs.full c hc
        · rw [List.mem_singleton.mp hc, hlen]
      · rename_i hfull
        exact ⟨⟨by simpa using hfull, hs.full⟩, by simp [State.content]⟩
    obtain ⟨hinv, hcontent⟩ := ih (src.drop toCopy).length (by rw [List.length_drop]; omega)
      hnextInv.1 (src.drop toCopy) rfl
    dsimp only
    rw [hnext]
    refine ⟨hinv, ?_⟩
    rw [hcontent, hnextInv.2, List.append_assoc, List.take_append_drop]

/-- Copies the chunks one after the other: `capacity` elements of each but the last, of which the
rest up to `total` is taken.  `none` if a copy would run past the end of a chunk, or if the result
would not be filled. -/
def reassemble (capacity total : ℕ) : ℕ → List (List α) → Option (List α)
  | offset, [] => if offset = total then some [] else none
  | offset, c :: chunks =>
    let size := if chunks.length = 0 then total - offset else capacity
    if c.length < size then none
    else (reassemble capacity total (offset + size) chunks).map (c.take size ++ ·)

theorem reassemble_eq {capacity total : ℕ} : ∀ {chunks : List (List α)} {offset : ℕ},
    (∀ c ∈ chunks.dropLast, c.length = capacity) → offset + chunks.flatten.length = total →
    reassemble capacity total offset chunks = some chunks.flatten
  | [], offset, _, htotal => if_pos (by simpa using htotal)
  | [c], offset, _, htotal => by
    have hc : total - offset = c.length := by
      rw [List.flatten_cons, List.flatten_nil, List.append_nil] at htotal
      omega
    have hend : offset + c.length = total := by simpa using htotal
    simp [reassemble, hc, hend]
  | c :: c' :: chunks, offset, hfull, htotal => by
    have hc : c.length = capacity := hfull c (by simp)
    have htail : offset + capacity + (c' :: chunks).flatten.length = total := by
      rw [List.flatten_cons, List.length_append, hc] at htotal
      omega
    have ih := reassemble_eq (fun x hx => hfull x (List.mem_cons_of_mem c hx)) htail
    have hlen : ¬(c' :: chunks).length = 0 := by simp
    have htake : c.take capacity = c := List.take_of_length_le (Nat.le_of_eq hc)
    rw [reassemble, if_neg hlen, if_neg (by omega), ih, htake]
    rfl

/-- **After the last flush the chunks are put together to the content.** -/
theorem reassemble_flush {capacity : ℕ} {s : State α} (hs : Inv capacity s) :
    reassemble capacity s.content.length 0 s.flush.chunks = some s.content := by
  have hflat : s.flush.chunks.flatten = s.content := by
    unfold State.flush State.content
    split
    · rename_i hempty
      rw [List.eq_nil_of_length_eq_zero hempty, List.append_nil]
    · simp
  rw [← hflat]
  refine reassemble_eq (fun c hc => hs.full c ?_) (by rw [Nat.zero_add])
  unfold State.flush at hc
  split at hc
  · exact (List.dropLast_sublist _).subset hc
  · rwa [List.dropLast_concat] at hc

end ChunkBuffer
