/-
# `storage/async_replication.c`: the queue of metadata replications

Producers put work items into a linked queue, and workers take them out, replicate the record, and
count the item as completed or failed.  Each of these is a section under the lock of the queue.  A
producer that finds the queue full drops its item, and a worker exits when a shutdown is requested
AND nothing is left.

* `Rep`: the nodes `as` are linked from `head` to `tail` -- `enqueueWork_refines`,
  `dequeueWork_refines` say that on them the two functions are those of a bounded
  first-in-first-out queue;
* `Inv`: what was accepted is what was dequeued and then what is queued, and the dequeued items are
  dealt to the workers like tickets;
* `replication_run`: every interleaving.
-/
import Buckets.Lib.Interleaving
import Buckets.Lib.LinkedList
import Buckets.Lib.Tickets

namespace Buckets
namespace ReplicationQueue

open LinkedList

/-! ## 1. The linked queue -/

/-- `MAX_QUEUE_SIZE`. -/
def maxQueueSize : ℕ := 10000

/-- `replication_queue_t`, with the links and the contents of the work items by address. -/
structure Queue (α : Type) where
  head : Option ℕ
  tail : Option ℕ
  next : ℕ → Option ℕ
  work : ℕ → α
  count : ℕ
  shutdown : Bool
  completed : ℕ
  failed : ℕ

namespace Queue

variable {α : Type}

/-- `enqueue_work` of an item at the address `a`; whether it was accepted. -/
def enqueueWork (q : Queue α) (a : ℕ) (w : α) : Queue α × Bool :=
  if maxQueueSize ≤ q.count then (q, false)
  else
    let next := Function.update q.next a none
    ({ q with
        next := match q.tail with
          | some tail => Function.update next tail (some a)
          | none => next
        head := match q.tail with
          | some _ => q.head
          | none => some a
        tail := some a
        work := Function.update q.work a w
        count := q.count + 1 }, true)

/-- `dequeue_work`: the address of an item, or none after a shutdown; `none` while the caller
waits. -/
def dequeueWork (q : Queue α) : Option (Queue α × Option ℕ) :=
  match q.head with
  | none => if q.shutdown then some (q, none) else none
  | some a =>
    some ({ q with
      head := q.next a
      tail := if q.next a = none then none else q.tail
      count := q.count - 1 }, some a)

/-- The nodes `as` are the queue. -/
structure Rep (q : Queue α) (as : List ℕ) : Prop where
  chain : Seg q.next q.head as none
  nodup : as.Nodup
  tail : q.tail = as.getLast?
  count : q.count = as.length
  bounded : as.length ≤ maxQueueSize

/-- A bounded FIFO queue takes an item as long as there is room. -/
def push (items : List α) (w : α) : List α × Bool :=
  if maxQueueSize ≤ items.length then (items, false) else (items ++ [w], true)

/-- It gives the first item; `none` while there is none and it is not closed. -/
def pop (closed : Bool) : List α → Option (List α × Option α)
  | [] => if closed then some ([], none) else none
  | w :: items => some (items, some w)

variable {q q' : Queue α} {as : List ℕ} {a : ℕ} {w : α}

theorem Rep.enqueue (h : Rep q as) (ha : a ∉ as) (hr : as.length < maxQueueSize) :
    Rep (q.enqueueWork a w).1 (as ++ [a]) ∧ (q.enqueueWork a w).2 = true ∧
      (q.enqueueWork a w).1.work = Function.update q.work a w := by
  have hc : ¬ maxQueueSize ≤ q.count := by rw [h.count]; omega
  have hs := h.chain.snoc h.nodup ha
  rw [← h.tail] at hs
  rw [enqueueWork, if_neg hc]
  refine ⟨⟨?_, ?_, ?_, ?_, ?_⟩, rfl, rfl⟩
  · cases ht : q.tail <;> simpa [ht, past, startPast] using hs
  · exact List.nodup_append.mpr ⟨h.nodup, by simp, fun x hx y hy => by
      rintro rfl
      exact ha (List.mem_singleton.mp hy ▸ hx)⟩
  · simp
  · simp [h.count]
  · rw [List.length_append]
    exact hr

theorem enqueueWork_keeps : (q.enqueueWork a w).1.shutdown = q.shutdown ∧
    (q.enqueueWork a w).1.completed = q.completed ∧ (q.enqueueWork a w).1.failed = q.failed := by
  rw [enqueueWork]
  split <;> exact ⟨rfl, rfl, rfl⟩

/-- An item at an address of its own leaves the others. -/
theorem map_update (ha : a ∉ as) (work : ℕ → α) (w : α) :
    as.map (Function.update work a w) = as.map work := by
  refine List.map_congr_left fun b hb => Function.update_of_ne ?_ ..
  rintro rfl
  exact ha hb

theorem Rep.enqueue_full (h : Rep q as) (hr : ¬ as.length < maxQueueSize) :
    q.enqueueWork a w = (q, false) :=
  if_pos (by rw [h.count]; omega)

/-- `enqueue_work` is `push`. -/
theorem enqueueWork_refines (h : Rep q as) (ha : a ∉ as) (w : α) :
    ∃ as', Rep (q.enqueueWork a w).1 as' ∧
      (as'.map (q.enqueueWork a w).1.work, (q.enqueueWork a w).2) = push (as.map q.work) w := by
  by_cases hr : as.length < maxQueueSize
  · obtain ⟨h1, h2, h3⟩ := h.enqueue (w := w) ha hr
    refine ⟨as ++ [a], h1, ?_⟩
    rw [h2, h3, push, if_neg (by rw [List.length_map]; omega)]
    simp [map_update ha]
  · rw [h.enqueue_full hr]
    refine ⟨as, h, ?_⟩
    rw [push, if_pos (by rw [List.length_map]; omega)]

theorem Rep.dequeue_nil (h : Rep q []) :
    q.dequeueWork = if q.shutdown then some (q, none) else none := by
  rw [dequeueWork, h.chain.start_eq]
  rfl

theorem Rep.dequeue_cons (h : Rep q (a :: as)) :
    ∃ q', q.dequeueWork = some (q', some a) ∧ Rep q' as ∧ q'.work = q.work ∧
      q'.shutdown = q.shutdown ∧ q'.completed = q.completed ∧ q'.failed = q.failed := by
  obtain ⟨h0, h1⟩ := h.chain
  obtain ⟨h2, h3⟩ := List.nodup_cons.mp h.nodup
  rw [dequeueWork, h0]
  refine ⟨_, rfl, ⟨h1, h3, ?_, ?_, ?_⟩, rfl, rfl, rfl, rfl⟩
  · rw [h1.start_eq]
    cases as with
    | nil => rfl
    | cons b bs => simp [h.tail]
  · simp [h.count]
  · have := h.bounded
    simp only [List.length_cons] at this
    omega

/-- `dequeue_work` is `pop`. -/
theorem dequeueWork_refines (h : Rep q as) :
    (q.dequeueWork = none ∧ pop q.shutdown (as.map q.work) = none) ∨
      ∃ q' r as', q.dequeueWork = some (q', r) ∧ Rep q' as' ∧
        pop q.shutdown (as.map q.work) = some (as'.map q'.work, r.map q.work) := by
  cases as with
  | nil =>
    rw [h.dequeue_nil]
    cases hs : q.shutdown with
    | false => exact .inl ⟨rfl, rfl⟩
    | true => exact .inr ⟨q, none, [], rfl, h, rfl⟩
  | cons a as =>
    obtain ⟨q', h1, h2, h3, -⟩ := h.dequeue_cons
    exact .inr ⟨q', some a, as, h1, h2, by rw [h3]; rfl⟩

end Queue

/-! ## 2. Producers and workers -/

/-- Where a worker is. -/
inductive Pc where
  /-- In `dequeue_work`. -/
  | waiting
  /-- With an item, which was dequeued after `number` others. -/
  | replicating (number address : ℕ)
  | exited
  deriving DecidableEq

def Pc.number : Pc → Option ℕ
  | .replicating number _ => some number
  | _ => none

structure State (W α : Type) where
  queue : Queue α
  pc : W → Pc
  /-- The addresses of work items that are not freed. -/
  allocated : ℕ → Bool
  /-- The items that were accepted, and those that were dequeued. -/
  accepted : List α
  dequeued : List α
  /-- How many were accepted when the shutdown was requested. -/
  requested : ℕ
  /-- The numbers of the items that were counted, with how they were counted. -/
  counted : List (ℕ × Bool)

inductive Event (W α : Type) where
  /-- `async_replication_queue`, with the address of the new item. -/
  | queue (a : ℕ) (w : α)
  /-- A section of a worker; `ok`: the replication succeeded. -/
  | work (t : W) (ok : Bool)
  | shutdown

namespace State

variable {W α : Type} [DecidableEq W]

/-- `async_replication_init`, with workers `W` that were started. -/
def start (zero : ℕ → α) : State W α where
  queue := ⟨none, none, fun _ => none, zero, 0, false, 0, 0⟩
  pc := fun _ => .waiting
  allocated := fun _ => false
  accepted := []
  dequeued := []
  requested := 0
  counted := []

def setPc (s : State W α) (t : W) (pc : Pc) : State W α :=
  { s with pc := Function.update s.pc t pc }

/-- `async_replication_queue`. -/
def asyncReplicationQueue (s : State W α) (a : ℕ) (w : α) : State W α :=
  match s.queue.enqueueWork a w with
  | (queue, true) =>
    { s with
      queue := queue
      allocated := Function.update s.allocated a true
      accepted := s.accepted ++ [w] }
  | (_, false) => s

/-- The worker counts its item, and frees it. -/
def count (s : State W α) (number a : ℕ) (ok : Bool) : State W α :=
  { s with
    queue := { s.queue with
      completed := if ok then s.queue.completed + 1 else s.queue.completed
      failed := if ok then s.queue.failed else s.queue.failed + 1 }
    allocated := Function.update s.allocated a false
    counted := (number, ok) :: s.counted }

/-- `replication_worker`; `none` while it waits, and after it has exited. -/
def replicationWorker (s : State W α) (t : W) (ok : Bool) : Option (State W α) :=
  match s.pc t with
  | .waiting =>
    match s.queue.dequeueWork with
    | none => none
    | some (_, none) => some (s.setPc t .exited)
    | some (queue, some a) =>
      some (setPc { s with queue := queue, dequeued := s.dequeued ++ [s.queue.work a] } t
        (.replicating s.dequeued.length a))
  | .replicating number a => some ((s.count number a ok).setPc t .waiting)
  | .exited => none

/-- `async_replication_shutdown`, before it waits for the workers. -/
def asyncReplicationShutdown (s : State W α) : State W α :=
  { s with
    queue := { s.queue with shutdown := true }
    requested := if s.queue.shutdown then s.requested else s.accepted.length }

def step (s : State W α) : Event W α → Option (State W α)
  | .queue a w => some (s.asyncReplicationQueue a w)
  | .work t ok => s.replicationWorker t ok
  | .shutdown => some s.asyncReplicationShutdown

end State

/-- A new item has an address of its own. -/
def replication (W α : Type) [DecidableEq W] : Machine (State W α) (Event W α) where
  enabled s
    | .queue a _ => s.allocated a = false
    | _ => True
  step := State.step

/-! ## 3. What every step keeps -/

section Inv

variable {W α : Type} {s : State W α} {as : List ℕ}

structure Inv (s : State W α) (as : List ℕ) : Prop where
  rep : s.queue.Rep as
  order : s.accepted = s.dequeued ++ as.map s.queue.work
  queued : ∀ a ∈ as, s.allocated a = true
  held : ∀ t n a, s.pc t = .replicating n a → s.allocated a = true ∧ a ∉ as
  apart : ∀ t u n m a, s.pc t = .replicating n a → s.pc u = .replicating m a → t = u
  tickets : Tickets s.dequeued.length (fun t => (s.pc t).number) (s.counted.map Prod.fst)
  completed : s.queue.completed = s.counted.countP fun c => c.2
  failed : s.queue.failed = s.counted.countP fun c => !c.2
  requested : s.queue.shutdown = true → s.requested ≤ s.accepted.length
  exited : ∀ t, s.pc t = .exited → s.queue.shutdown = true ∧ s.requested ≤ s.dequeued.length

theorem inv_start [DecidableEq W] (zero : ℕ → α) : Inv (State.start zero : State W α) [] := by
  refine ⟨⟨rfl, List.nodup_nil, rfl, rfl, Nat.zero_le _⟩, rfl, ?_, ?_, ?_, Tickets.start, rfl,
    rfl, ?_, ?_⟩
  all_goals simp [State.start]

variable [DecidableEq W]

omit [DecidableEq W] in
theorem Inv.queue (h : Inv s as) {a : ℕ} (ha : s.allocated a = false) (w : α) :
    ∃ as', Inv (s.asyncReplicationQueue a w) as' := by
  have hn : a ∉ as := fun hm => by simp [h.queued a hm] at ha
  by_cases hr : as.length < maxQueueSize
  · obtain ⟨h1, h2, h3⟩ := h.rep.enqueue (w := w) hn hr
    obtain ⟨k1, k2, k3⟩ := Queue.enqueueWork_keeps (q := s.queue) (a := a) (w := w)
    have he : s.queue.enqueueWork a w = ((s.queue.enqueueWork a w).1, true) := Prod.ext rfl h2
    rw [State.asyncReplicationQueue, he]
    refine ⟨as ++ [a], h1, ?_, ?_, ?_, h.apart, h.tickets, k2.trans h.completed,
      k3.trans h.failed, ?_, ?_⟩
    · simp [h3, h.order, Queue.map_update hn]
    · intro b hb
      rcases List.mem_append.mp hb with hb | hb
      · by_cases hba : b = a <;> simp [hba, h.queued b hb]
      · simp [List.mem_singleton.mp hb]
    · intro t n b hb
      obtain ⟨h4, h5⟩ := h.held t n b hb
      have hba : b ≠ a := by
        rintro rfl
        simp [h4] at ha
      exact ⟨by simp [hba, h4], by simp [h5, hba]⟩
    · intro hs
      have h4 := h.requested (k1 ▸ hs)
      simp only [List.length_append]
      omega
    · intro t ht
      exact ⟨k1.trans (h.exited t ht).1, (h.exited t ht).2⟩
  · refine ⟨as, ?_⟩
    rw [State.asyncReplicationQueue, h.rep.enqueue_full hr]
    exact h

omit [DecidableEq W] in
theorem Inv.shutdown (h : Inv s as) : Inv s.asyncReplicationShutdown as := by
  refine ⟨⟨h.rep.chain, h.rep.nodup, h.rep.tail, h.rep.count, h.rep.bounded⟩, h.order,
    h.queued, h.held, h.apart, h.tickets, h.completed, h.failed, fun _ => ?_, fun t ht => ⟨rfl, ?_⟩⟩
  · simp only [State.asyncReplicationShutdown]
    split
    · rename_i hs
      exact h.requested hs
    · exact Nat.le_refl _
  · obtain ⟨h1, h2⟩ := h.exited t ht
    simpa [State.asyncReplicationShutdown, h1] using h2

/-- The program counters after a step of `t`. -/
theorem setPc_cases {t u : W} {pc pc' : Pc} (h : (s.setPc t pc).pc u = pc') :
    (u = t ∧ pc = pc') ∨ (u ≠ t ∧ s.pc u = pc') := by
  by_cases hu : u = t
  · exact .inl ⟨hu, by simpa [State.setPc, hu] using h⟩
  · exact .inr ⟨hu, by simpa [State.setPc, hu] using h⟩

theorem number_setPc (t : W) (pc : Pc) :
    (fun u => ((s.setPc t pc).pc u).number) =
      Function.update (fun u => (s.pc u).number) t pc.number := by
  funext u
  by_cases hu : u = t <;> simp [State.setPc, hu]

/-- A worker takes the first item. -/
theorem Inv.take {a : ℕ} (h : Inv s (a :: as)) {t : W} (ht : s.pc t = .waiting) {q : Queue α}
    (h1 : q.Rep as) (h2 : q.work = s.queue.work ∧ q.shutdown = s.queue.shutdown ∧
      q.completed = s.queue.completed ∧ q.failed = s.queue.failed) :
    Inv (State.setPc { s with queue := q, dequeued := s.dequeued ++ [s.queue.work a] } t
      (.replicating s.dequeued.length a)) as := by
  obtain ⟨hw, hs, hc, hf⟩ := h2
  have hn := (List.nodup_cons.mp h.rep.nodup).1
  refine ⟨h1, ?_, fun b hb => h.queued b (List.mem_cons_of_mem a hb), ?_, ?_, ?_,
    hc.trans h.completed, hf.trans h.failed, fun hd => h.requested (hs ▸ hd), ?_⟩
  · simp [State.setPc, hw, h.order]
  · intro u n b hu
    rcases setPc_cases hu with ⟨-, hb⟩ | ⟨-, hb⟩
    · cases hb
      exact ⟨h.queued a List.mem_cons_self, hn⟩
    · obtain ⟨h3, h4⟩ := h.held u n b hb
      exact ⟨h3, fun hm => h4 (List.mem_cons_of_mem a hm)⟩
  · intro u v n m b hu hv
    rcases setPc_cases hu with ⟨rfl, hb⟩ | ⟨-, hb⟩ <;>
      rcases setPc_cases hv with ⟨rfl, hb'⟩ | ⟨-, hb'⟩
    · rfl
    · cases hb
      exact absurd List.mem_cons_self (h.held v m a hb').2
    · cases hb'
      exact absurd List.mem_cons_self (h.held u n a hb).2
    · exact h.apart u v n m b hb hb'
  · have h3 := h.tickets.take (w := t) (by simp [ht, Pc.number])
    rw [number_setPc]
    simpa [State.setPc, Pc.number] using h3
  · intro u hu
    rcases setPc_cases hu with ⟨-, hb⟩ | ⟨-, hb⟩
    · cases hb
    · obtain ⟨h3, h4⟩ := h.exited u hb
      refine ⟨hs.trans h3, ?_⟩
      simp only [State.setPc, List.length_append]
      omega

/-- A worker counts its item. -/
theorem Inv.count {t : W} {n a : ℕ} (h : Inv s as) (ht : s.pc t = .replicating n a) (ok : Bool) :
    Inv ((s.count n a ok).setPc t .waiting) as := by
  have hn := (h.held t n a ht).2
  refine ⟨⟨h.rep.chain, h.rep.nodup, h.rep.tail, h.rep.count, h.rep.bounded⟩, h.order,
    fun b hb => ?_, ?_, ?_, ?_, ?_, ?_, h.requested, ?_⟩
  · have hba : b ≠ a := fun hba => hn (hba ▸ hb)
    simpa [State.setPc, State.count, hba] using h.queued b hb
  · intro u m b hu
    rcases setPc_cases hu with ⟨-, hb⟩ | ⟨hne, hb⟩
    · cases hb
    · have hba : b ≠ a := by
        rintro rfl
        exact hne (h.apart u t m n b hb ht)
      simpa [State.setPc, State.count, hba] using h.held u m b hb
  · intro u v m k b hu hv
    rcases setPc_cases hu with ⟨-, hb⟩ | ⟨-, hb⟩ <;> rcases setPc_cases hv with ⟨-, hb'⟩ | ⟨-, hb'⟩
    · cases hb
    · cases hb
    · cases hb'
    · exact h.apart u v m k b hb hb'
  · have h3 := h.tickets.finish (w := t) (k := n) (by simp [ht, Pc.number])
    rw [number_setPc]
    exact h3
  · cases ok <;> simp [State.setPc, State.count, h.completed]
  · cases ok <;> simp [State.setPc, State.count, h.failed]
  · intro u hu
    rcases setPc_cases hu with ⟨-, hb⟩ | ⟨-, hb⟩
    · cases hb
    · exact h.exited u hb

/-- A worker that finds nothing after the shutdown exits: everything accepted was dequeued. -/
theorem Inv.exit {t : W} (h : Inv s []) (ht : s.pc t = .waiting) (hs : s.queue.shutdown = true) :
    Inv (s.setPc t .exited) [] := by
  have hr : s.requested ≤ s.dequeued.length := by
    have h1 := h.requested hs
    rw [h.order] at h1
    simpa using h1
  refine ⟨h.rep, h.order, h.queued, ?_, ?_, ?_, h.completed, h.failed, h.requested, ?_⟩
  · intro u n b hu
    rcases setPc_cases hu with ⟨-, hb⟩ | ⟨-, hb⟩
    · cases hb
    · exact h.held u n b hb
  · intro u v n m b hu hv
    rcases setPc_cases hu with ⟨-, hb⟩ | ⟨-, hb⟩ <;> rcases setPc_cases hv with ⟨-, hb'⟩ | ⟨-, hb'⟩
    · cases hb
    · cases hb
    · cases hb'
    · exact h.apart u v n m b hb hb'
  · have h1 : Function.update (fun u => (s.pc u).number) t Pc.exited.number =
        fun u => (s.pc u).number := by
      rw [Function.update_eq_self_iff]
      simp [ht, Pc.number]
    rw [number_setPc, h1]
    exact h.tickets
  · intro u hu
    rcases setPc_cases hu with ⟨-, -⟩ | ⟨-, hb⟩
    · exact ⟨hs, hr⟩
    · exact h.exited u hb

theorem Inv.work {t : W} {ok : Bool} {s' : State W α} (h : Inv s as)
    (hw : s.replicationWorker t ok = some s') : ∃ as', Inv s' as' := by
  rw [State.replicationWorker] at hw
  split at hw
  · rename_i ht
    cases as with
    | nil =>
      rw [h.rep.dequeue_nil] at hw
      cases hs : s.queue.shutdown with
      | false => simp [hs] at hw
      | true =>
        simp only [hs, if_true, Option.some.injEq] at hw
        exact ⟨[], hw ▸ h.exit ht hs⟩
    | cons a as =>
      obtain ⟨q, h1, h2, h3⟩ := h.rep.dequeue_cons
      simp only [h1, Option.some.injEq] at hw
      exact ⟨as, hw ▸ h.take ht h2 h3⟩
  · rename_i n a ht
    exact ⟨as, Option.some.inj hw ▸ h.count ht ok⟩
  · simp at hw

/-- **One step.** -/
theorem inv_step {s' : State W α} {e : Event W α} (h : Inv s as)
    (he : (replication W α).enabled s e) (hstep : s.step e = some s') : ∃ as', Inv s' as' := by
  cases e with
  | queue a w => exact Option.some.inj hstep ▸ h.queue he w
  | work t ok => exact h.work hstep
  | shutdown => exact ⟨as, Option.some.inj hstep ▸ h.shutdown⟩

theorem inv_of_reachable {zero : ℕ → α}
    (h : (replication W α).Reachable Machine.any (State.start zero) s) : ∃ as, Inv s as := by
  refine h.invariant (I := fun s => ∃ as, Inv s as) ⟨[], inv_start zero⟩ ?_
  rintro s e s' ⟨as, hs⟩ he - hstep
  exact inv_step hs he hstep

end Inv

/-! ## 4. Runs -/

/-- **Every interleaving of producers and workers**: the linked queue is a bounded FIFO queue of the
items that were accepted and not dequeued, and its two functions are those of one; a dequeued item
has one number, which at most one worker has and which is counted at most once; and when all workers
have exited, every item accepted before the shutdown was requested is counted once, as completed or
as failed. -/
theorem replication_run {W α : Type} [DecidableEq W] {zero : ℕ → α} {s : State W α}
    (h : (replication W α).Reachable Machine.any (State.start zero) s) :
    (∃ as, s.queue.Rep as ∧ s.accepted = s.dequeued ++ as.map s.queue.work ∧
      s.queue.count = as.length ∧ s.queue.count ≤ maxQueueSize ∧
      (∀ a w, s.allocated a = false → ∃ as', (s.queue.enqueueWork a w).1.Rep as' ∧
        (as'.map (s.queue.enqueueWork a w).1.work, (s.queue.enqueueWork a w).2) =
          Queue.push (as.map s.queue.work) w) ∧
      ((s.queue.dequeueWork = none ∧ Queue.pop s.queue.shutdown (as.map s.queue.work) = none) ∨
        ∃ q' r as', s.queue.dequeueWork = some (q', r) ∧ q'.Rep as' ∧
          Queue.pop s.queue.shutdown (as.map s.queue.work) =
            some (as'.map q'.work, r.map s.queue.work))) ∧
    Tickets s.dequeued.length (fun t => (s.pc t).number) (s.counted.map Prod.fst) ∧
    s.queue.completed = s.counted.countP (fun c => c.2) ∧
    s.queue.failed = s.counted.countP (fun c => !c.2) ∧
    (Nonempty W → (∀ t, s.pc t = .exited) → s.requested ≤ s.dequeued.length ∧
      ∀ n < s.requested, (s.counted.map Prod.fst).count n = 1) := by
  obtain ⟨as, hinv⟩ := inv_of_reachable h
  refine ⟨⟨as, hinv.rep, hinv.order, hinv.rep.count, ?_, ?_, Queue.dequeueWork_refines hinv.rep⟩,
    hinv.tickets, hinv.completed, hinv.failed, ?_⟩
  · rw [hinv.rep.count]
    exact hinv.rep.bounded
  · intro a w ha
    refine Queue.enqueueWork_refines hinv.rep (fun hm => ?_) w
    simp [hinv.queued a hm] at ha
  · rintro ⟨t⟩ hall
    have hr := (hinv.exited t (hall t)).2
    refine ⟨hr, fun n hn => hinv.tickets.all_done (fun u => ?_) (by omega)⟩
    simp [hall u, Pc.number]

instance {W α : Type} [DecidableEq W] (s : State W α) :
    (e : Event W α) → Decidable ((replication W α).enabled s e)
  | .queue a _ => inferInstanceAs (Decidable (s.allocated a = false))
  | .work _ _ => isTrue trivial
  | .shutdown => isTrue trivial

/-- Two workers and two items: each takes one, the shutdown comes between, and the second is done
first, and fails. -/
theorem replication_run_two_workers : ∃ s : State Bool ℕ,
    (replication Bool ℕ).Reachable Machine.any (State.start fun _ => 0) s ∧
      s.requested = 2 ∧ s.counted = [(0, true), (1, false)] ∧
      (∀ n < s.requested, (s.counted.map Prod.fst).count n = 1) ∧
      s.queue.completed = s.counted.countP fun c => c.2 := by
  have hrun : (((replication Bool ℕ).run Machine.any (State.start fun _ => 0)
      [.queue 7 5, .queue 8 6, .work false true, .shutdown, .work true true, .work true false,
        .work false true, .work true true, .work false true]).any
      fun s => decide (∀ t, s.pc t = .exited) && s.requested == 2 &&
        s.counted == [(0, true), (1, false)]) = true := by decide
  obtain ⟨s, hs, hp⟩ := Machine.exists_of_run hrun
  simp only [Bool.and_eq_true, decide_eq_true_eq, beq_iff_eq] at hp
  obtain ⟨⟨hexited, hrequested⟩, hcounted⟩ := hp
  obtain ⟨-, -, h1, -, h2⟩ := replication_run hs
  exact ⟨s, hs, hrequested, hcounted, (h2 ⟨true⟩ hexited).2, h1⟩

end ReplicationQueue
end Buckets
