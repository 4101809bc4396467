/-
# Ring buffers

A ring buffer keeps a queue in an array: the items start at `head`, go round the end of the array,
and the next one is written at `tail`.  Its arithmetic is what a buffer CARRIES (`head_lt`,
`count_le`, `tail_eq`), so there is no buffer without it.

What it is for is a queue with a bound (`BoundedFifo`): items come out in the order they went in, a
full queue takes none until one comes out, and a queue that is closed takes none at all.

* `contents_push`, `contents_pop`: on the items of a buffer, a push appends and a pop takes
  the first.
-/
import Mathlib.Data.List.Basic
import Mathlib.Data.Nat.ModEq
import Mathlib.Logic.Function.Basic

/-! ## 1. What a bounded queue is -/

/-- A queue of at most `bound` items; after it is closed it only gives out what it has. -/
structure BoundedFifo (α : Type) where
  items : List α
  bound : ℕ
  closed : Bool

namespace BoundedFifo

variable {α : Type}

/-- Whether the item was taken, and the queue after it; `none` while there is no room. -/
def push (q : BoundedFifo α) (a : α) : Option (BoundedFifo α × Bool) :=
  if q.closed then some (q, false)
  else if q.items.length < q.bound then some (⟨q.items ++ [a], q.bound, q.closed⟩, true)
  else none

/-- The first item, and the queue after it; `none` while there is none, no item when the queue is
closed. -/
def pop (q : BoundedFifo α) : Option (BoundedFifo α × Option α) :=
  match q.items with
  | a :: rest => some (⟨rest, q.bound, q.closed⟩, some a)
  | [] => if q.closed then some (q, none) else none

def close (q : BoundedFifo α) : BoundedFifo α := { q with closed := true }

/-- The operations of `Q` do on the queue that `view` makes of it what those of a queue do. -/
structure Refines {Q : Type} (view : Q → BoundedFifo α) (push : Q → α → Option (Q × Bool))
    (pop : Q → Option (Q × Option α)) (close : Q → Q) : Prop where
  push : ∀ q a, (push q a).map (Prod.map view id) = (view q).push a
  pop : ∀ q, (pop q).map (Prod.map view id) = (view q).pop
  close : ∀ q, view (close q) = (view q).close

end BoundedFifo

/-! ## 2. The buffer -/

structure RingBuffer (α : Type) where
  capacity : ℕ
  cells : ℕ → α
  head : ℕ
  tail : ℕ
  count : ℕ
  head_lt : head < capacity
  count_le : count ≤ capacity
  tail_eq : tail = (head + count) % capacity

namespace RingBuffer

variable {α : Type}

def empty (capacity : ℕ) (h : 0 < capacity) (zero : α) : RingBuffer α where
  capacity := capacity
  cells _ := zero
  head := 0
  tail := 0
  count := 0
  head_lt := h
  count_le := Nat.zero_le capacity
  tail_eq := (Nat.zero_mod capacity).symm

theorem capacity_pos (b : RingBuffer α) : 0 < b.capacity := Nat.zero_lt_of_lt b.head_lt

def push (b : RingBuffer α) (a : α) (h : b.count < b.capacity) : RingBuffer α where
  capacity := b.capacity
  cells := Function.update b.cells b.tail a
  head := b.head
  tail := (b.tail + 1) % b.capacity
  count := b.count + 1
  head_lt := b.head_lt
  count_le := h
  tail_eq := by rw [b.tail_eq, Nat.mod_add_mod, Nat.add_assoc]

def front (b : RingBuffer α) : α := b.cells b.head

def pop (b : RingBuffer α) (h : 0 < b.count) : RingBuffer α where
  capacity := b.capacity
  cells := b.cells
  head := (b.head + 1) % b.capacity
  tail := b.tail
  count := b.count - 1
  head_lt := Nat.mod_lt _ b.capacity_pos
  count_le := le_trans (Nat.sub_le b.count 1) b.count_le
  tail_eq := by rw [b.tail_eq, Nat.mod_add_mod, Nat.add_assoc, Nat.add_sub_cancel' h]

@[simp]
theorem capacity_push (b : RingBuffer α) (a : α) (h : b.count < b.capacity) :
    (b.push a h).capacity = b.capacity := rfl

@[simp]
theorem capacity_pop (b : RingBuffer α) (h : 0 < b.count) : (b.pop h).capacity = b.capacity := rfl

/-! ## 3. The items -/

/-- The items, from the head on. -/
def contents (b : RingBuffer α) : List α :=
  (List.range b.count).map fun i => b.cells ((b.head + i) % b.capacity)

@[simp]
theorem length_contents (b : RingBuffer α) : b.contents.length = b.count := by
  simp [contents]

@[simp]
theorem contents_empty (capacity : ℕ) (h : 0 < capacity) (zero : α) :
    (empty capacity h zero).contents = [] := rfl

theorem contents_eq_nil (b : RingBuffer α) (h : b.count = 0) : b.contents = [] := by
  rw [← List.length_eq_zero_iff, length_contents, h]

/-- Fewer steps from the head than the buffer is long do not come round to where more of them
end. -/
theorem add_mod_ne {capacity head i j : ℕ} (hij : i < j) (hj : j < capacity) :
    (head + i) % capacity ≠ (head + j) % capacity := by
  intro heq
  have hmod : i ≡ j [MOD capacity] := Nat.ModEq.add_left_cancel' head heq
  rw [Nat.ModEq, Nat.mod_eq_of_lt (hij.trans hj), Nat.mod_eq_of_lt hj] at hmod
  omega

theorem contents_push (b : RingBuffer α) (a : α) (h : b.count < b.capacity) :
    (b.push a h).contents = b.contents ++ [a] := by
  have hold : ∀ i ∈ List.range b.count,
      (b.push a h).cells ((b.head + i) % b.capacity) = b.cells ((b.head + i) % b.capacity) := by
    intro i hi
    apply Function.update_of_ne
    rw [b.tail_eq]
    exact add_mod_ne (List.mem_range.mp hi) h
  have hnew : (b.push a h).cells ((b.head + b.count) % b.capacity) = a := by
    rw [← b.tail_eq]
    exact Function.update_self ..
  change (List.range (b.count + 1)).map _ = _
  rw [List.range_succ, List.map_append, List.map_singleton]
  exact congrArg₂ (· ++ ·) (List.map_congr_left hold) (congrArg (fun x => [x]) hnew)

theorem contents_pop (b : RingBuffer α) (h : 0 < b.count) :
    b.contents = b.front :: (b.pop h).contents := by
  have hcount : b.count = b.count - 1 + 1 := (Nat.sub_add_cancel h).symm
  have hfirst : b.cells ((b.head + 0) % b.capacity) = b.front := by
    rw [Nat.add_zero, Nat.mod_eq_of_lt b.head_lt]
    rfl
  have hrest : ∀ i, b.cells ((b.head + (i + 1)) % b.capacity) =
      b.cells (((b.head + 1) % b.capacity + i) % b.capacity) := by
    intro i
    rw [Nat.mod_add_mod, Nat.add_assoc, Nat.add_comm 1 i]
  rw [contents, hcount, List.range_succ_eq_map, List.map_cons, List.map_map, hfirst]
  refine congrArg _ (List.map_congr_left fun i _ => ?_)
  exact hrest i

end RingBuffer
