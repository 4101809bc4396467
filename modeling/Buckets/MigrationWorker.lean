/-
# The workers of a migration

The tasks of a migration go through a queue that many threads share: a ring buffer under one lock,
with two conditions to wait on.  A worker pops a task, counts itself as active, tries the migration
up to `MAX_RETRY_ATTEMPTS` times, counts the task as completed or as failed, and counts itself out
again; each of these is a critical section of its own, so other threads come in between.  A worker
exits when the queue is shut down AND empty.

The counters say nothing about which task was executed when, so the model keeps beside them what
they count: the tasks that were accepted, the tasks that were taken out, and the executions
that ended.

* `view_push`, `view_pop`: the queue is a bounded FIFO queue;
* `workerPool_drains`: in every interleaving, after a shutdown the workers leave no accepted task
  behind, execute none twice, and the counters are right.
-/
import Buckets.Json
import Buckets.Lib.Interleaving
import Buckets.Lib.RingBuffer

namespace Buckets

/-! ## 1. The task queue -/

structure MigrationTask where
  bucket : CString
  object : CString
  versionId : CString
  oldPoolIdx : ℤ
  oldSetIdx : ℤ
  newPoolIdx : ℤ
  newSetIdx : ℤ
  size : ℤ
  modTime : ℤ
  retryCount : ℤ
  lastAttempt : ℤ
deriving DecidableEq

/-- A task of which all bytes are zero. -/
def MigrationTask.zero : MigrationTask := ⟨[], [], [], 0, 0, 0, 0, 0, 0, 0, 0⟩

structure TaskQueue where
  tasks : RingBuffer MigrationTask
  shutdown : Bool

def taskQueueCreate (capacity : ℕ) (h : 0 < capacity) : TaskQueue :=
  ⟨.empty capacity h .zero, false⟩

namespace TaskQueue

/-- Whether the task was accepted; `none` while the caller waits for room. -/
def taskQueuePush (queue : TaskQueue) (task : MigrationTask) : Option (TaskQueue × Bool) :=
  if queue.shutdown then some (queue, false)
  else if h : queue.tasks.count < queue.tasks.capacity then
    some ({ queue with tasks := queue.tasks.push task h }, true)
  else none

/-- A task, or none after a shutdown; `none` while the caller waits for one. -/
def taskQueuePop (queue : TaskQueue) : Option (TaskQueue × Option MigrationTask) :=
  if h : 0 < queue.tasks.count then
    some ({ queue with tasks := queue.tasks.pop h }, some queue.tasks.front)
  else if queue.shutdown then some (queue, none)
  else none

def taskQueueShutdown (queue : TaskQueue) : TaskQueue := { queue with shutdown := true }

/-- The queue as what it is for. -/
def view (queue : TaskQueue) : BoundedFifo MigrationTask :=
  ⟨queue.tasks.contents, queue.tasks.capacity, queue.shutdown⟩

theorem view_push (queue : TaskQueue) (task : MigrationTask) :
    (queue.taskQueuePush task).map (Prod.map view id) = queue.view.push task := by
  rw [taskQueuePush, BoundedFifo.push]
  by_cases hdown : queue.shutdown = true
  · have hclosed : queue.view.closed = true := hdown
    rw [if_pos hdown, if_pos hclosed]
    rfl
  · have hclosed : ¬ queue.view.closed = true := hdown
    rw [if_neg hdown, if_neg hclosed]
    by_cases hroom : queue.tasks.count < queue.tasks.capacity
    · have hlength : queue.view.items.length < queue.view.bound := by
        simpa [view] using hroom
      rw [dif_pos hroom, if_pos hlength]
      simp [view, RingBuffer.contents_push]
    · have hlength : ¬ queue.view.items.length < queue.view.bound := by
        simpa [view] using hroom
      rw [dif_neg hroom, if_neg hlength]
      rfl

theorem view_pop (queue : TaskQueue) :
    queue.taskQueuePop.map (Prod.map view id) = queue.view.pop := by
  rw [taskQueuePop, BoundedFifo.pop]
  by_cases hsome : 0 < queue.tasks.count
  · have hitems : queue.view.items = queue.tasks.front :: (queue.tasks.pop hsome).contents :=
      queue.tasks.contents_pop hsome
    rw [dif_pos hsome, hitems]
    rfl
  · have hitems : queue.view.items = [] := queue.tasks.contents_eq_nil (by omega)
    rw [dif_neg hsome, hitems]
    by_cases hdown : queue.shutdown = true
    · rw [if_pos hdown]
      exact (if_pos hdown).symm
    · rw [if_neg hdown]
      exact (if_neg hdown).symm

/-- The task queue is a bounded FIFO queue. -/
theorem refines :
    BoundedFifo.Refines view taskQueuePush taskQueuePop taskQueueShutdown where
  push := view_push
  pop := view_pop
  close _ := rfl

end TaskQueue

/-! ## 2. A worker -/

def maxRetryAttempts : ℕ := 3

/-- How the steps of one attempt end. -/
structure AttemptIo where
  readSourceObject : Bool
  writeDestinationObject : Bool
  updateRegistryLocation : Bool
  deleteSourceObject : Bool

/-- One attempt; that the source cannot be deleted does not make it fail. -/
def executeMigration (io : AttemptIo) : Bool :=
  io.readSourceObject && io.writeDestinationObject && io.updateRegistryLocation

/-- A task that was taken out of the queue, with how many were before it. -/
structure Taken where
  number : ℕ
  task : MigrationTask
deriving DecidableEq

/-- Where a worker is. -/
inductive WorkerPc where
  /-- At `task_queue_pop`. -/
  | popping
  /-- It has a task, and has not yet counted itself as active. -/
  | popped (taken : Taken)
  /-- Before an attempt, with the number of those that failed. -/
  | executing (taken : Taken) (attempts : ℕ)
  /-- The last attempt succeeded, and the task is not yet counted. -/
  | migrated (taken : Taken) (attempts : ℕ)
  /-- All attempts failed, and the task is not yet counted. -/
  | gaveUp (taken : Taken) (attempts : ℕ)
  /-- The task is counted, and the worker still counted as active. -/
  | counted
  | exited
deriving DecidableEq

/-- The task that a worker has and has not counted. -/
def WorkerPc.taken : WorkerPc → Option Taken
  | .popped taken => some taken
  | .executing taken _ => some taken
  | .migrated taken _ => some taken
  | .gaveUp taken _ => some taken
  | _ => none

/-- An execution of a task that has ended. -/
structure Execution (T : Type) where
  taken : Taken
  worker : T
  attempts : ℕ
  succeeded : Bool

/-- `buckets_worker_pool_t`; its counters, `i64`, have no bound here. -/
structure WorkerPool (T : Type) where
  queue : TaskQueue
  tasksCompleted : ℤ
  tasksFailed : ℤ
  bytesMigrated : ℤ
  activeWorkers : ℤ
  pc : T → WorkerPc
  /-- The tasks that pushes put into the queue. -/
  accepted : List MigrationTask
  /-- The tasks that pops took out of it. -/
  popped : List MigrationTask
  executions : List (Execution T)

namespace WorkerPool

variable {T : Type} [DecidableEq T]

def goTo (s : WorkerPool T) (t : T) (pc : WorkerPc) : WorkerPool T :=
  { s with pc := Function.update s.pc t pc }

/-- The next section of the worker `t`; `none` while it waits, and after it has exited. -/
def work (s : WorkerPool T) (t : T) (io : AttemptIo) : Option (WorkerPool T) :=
  match s.pc t with
  | .popping =>
    match s.queue.taskQueuePop with
    | none => none
    | some (_, none) => some (s.goTo t .exited)
    | some (queue, some task) =>
      some (goTo { s with queue := queue, popped := s.popped ++ [task] } t
        (.popped ⟨s.popped.length, task⟩))
  | .popped taken =>
    some (goTo { s with activeWorkers := s.activeWorkers + 1 } t (.executing taken 0))
  | .executing taken attempts =>
    if executeMigration io then some (s.goTo t (.migrated taken (attempts + 1)))
    else if attempts + 1 < maxRetryAttempts then some (s.goTo t (.executing taken (attempts + 1)))
    else some (s.goTo t (.gaveUp taken (attempts + 1)))
  | .migrated taken attempts =>
    some (goTo
      { s with
        tasksCompleted := s.tasksCompleted + 1
        bytesMigrated := s.bytesMigrated + taken.task.size
        executions := s.executions ++ [⟨taken, t, attempts, true⟩] } t .counted)
  | .gaveUp taken attempts =>
    some (goTo
      { s with
        tasksFailed := s.tasksFailed + 1
        executions := s.executions ++ [⟨taken, t, attempts, false⟩] } t .counted)
  | .counted => some (goTo { s with activeWorkers := s.activeWorkers - 1 } t .popping)
  | .exited => none

/-- A section of some thread. -/
inductive Event (T : Type) where
  | push (task : MigrationTask)
  | work (t : T) (io : AttemptIo)
  | shutdown

/-- A push of some thread; `none` while it waits. -/
def push (s : WorkerPool T) (task : MigrationTask) : Option (WorkerPool T × Bool) :=
  match s.queue.taskQueuePush task with
  | none => none
  | some (_, false) => some (s, false)
  | some (queue, true) => some ({ s with queue := queue, accepted := s.accepted ++ [task] }, true)

def step (s : WorkerPool T) : Event T → Option (WorkerPool T)
  | .push task => (s.push task).map Prod.fst
  | .work t io => s.work t io
  | .shutdown => some { s with queue := s.queue.taskQueueShutdown }

/-- A thread that waits takes no step. -/
def machine : Machine (WorkerPool T) (Event T) := ⟨fun s e => (s.step e).isSome, step⟩

instance (s : WorkerPool T) (e : Event T) : Decidable (machine.enabled s e) :=
  inferInstanceAs (Decidable ((s.step e).isSome = true))

/-- A pool after its workers have been started. -/
def start (capacity : ℕ) (h : 0 < capacity) : WorkerPool T where
  queue := taskQueueCreate capacity h
  tasksCompleted := 0
  tasksFailed := 0
  bytesMigrated := 0
  activeWorkers := 0
  pc _ := .popping
  accepted := []
  popped := []
  executions := []

/-! ## 3. Who has which task -/

/-- The tasks that workers have and have not counted. -/
def held (s : WorkerPool T) (t : T) : Option Taken := (s.pc t).taken

theorem held_goTo (s : WorkerPool T) (t : T) (pc : WorkerPc) :
    (s.goTo t pc).held = Function.update s.held t pc.taken := by
  funext u
  by_cases hut : u = t
  · subst hut
    simp [held, goTo]
  · simp [held, goTo, hut]

end WorkerPool

/-- Every task that was popped has one worker, that has it or has executed it. -/
structure Assigned {T : Type} (popped : List MigrationTask) (held : T → Option Taken)
    (executions : List (Execution T)) : Prop where
  own : ∀ t, ∀ taken ∈ held t, popped[taken.number]? = some taken.task
  apart : ∀ t u, ∀ a ∈ held t, ∀ b ∈ held u, a.number = b.number → t = u
  pending : ∀ t, ∀ taken ∈ held t, taken.number ∉ executions.map fun e => e.taken.number
  covered : ∀ n < popped.length,
    n ∈ executions.map (fun e => e.taken.number) ∨ ∃ t, ∃ taken ∈ held t, taken.number = n
  once : (executions.map fun e => e.taken.number).Nodup
  executed : ∀ e ∈ executions, popped[e.taken.number]? = some e.taken.task

namespace Assigned

variable {T : Type} {popped : List MigrationTask} {held : T → Option Taken}
  {executions : List (Execution T)}

theorem start : Assigned [] (fun _ : T => none) [] where
  own t taken h := by simp at h
  apart t u a ha := by simp at ha
  pending t taken h := by simp at h
  covered n hn := by simp at hn
  once := List.nodup_nil
  executed e he := by simp at he

theorem lt_of_held (h : Assigned popped held executions) {t : T} {taken : Taken}
    (ht : taken ∈ held t) : taken.number < popped.length :=
  (List.getElem?_eq_some_iff.mp (h.own t taken ht)).1

theorem lt_of_executed (h : Assigned popped held executions) {n : ℕ}
    (hn : n ∈ executions.map fun e => e.taken.number) : n < popped.length := by
  obtain ⟨e, he, rfl⟩ := List.mem_map.mp hn
  exact (List.getElem?_eq_some_iff.mp (h.executed e he)).1

variable [DecidableEq T]

/-- A worker without a task pops one. -/
theorem pop (h : Assigned popped held executions) {t : T} (ht : held t = none)
    (task : MigrationTask) :
    Assigned (popped ++ [task]) (Function.update held t (some ⟨popped.length, task⟩))
      executions := by
  have hkeep : ∀ {n : ℕ} {task' : MigrationTask}, popped[n]? = some task' →
      (popped ++ [task])[n]? = some task' := by
    intro n task' hn
    rw [List.getElem?_append_left (List.getElem?_eq_some_iff.mp hn).1, hn]
  have hcases : ∀ u, ∀ taken ∈ Function.update held t (some ⟨popped.length, task⟩) u,
      (u = t ∧ taken = ⟨popped.length, task⟩) ∨ (u ≠ t ∧ taken ∈ held u) := by
    intro u taken hu
    by_cases hut : u = t
    · subst hut
      rw [Function.update_self] at hu
      exact .inl ⟨rfl, (Option.mem_some.mp hu).symm⟩
    · rw [Function.update_of_ne hut] at hu
      exact .inr ⟨hut, hu⟩
  constructor
  case own =>
    intro u taken hu
    obtain ⟨-, rfl⟩ | ⟨-, hu⟩ := hcases u taken hu
    · simp
    · exact hkeep (h.own u taken hu)
  case apart =>
    intro u v a ha b hb hab
    obtain ⟨hu, rfl⟩ | ⟨-, ha'⟩ := hcases u a ha <;> obtain ⟨hv, rfl⟩ | ⟨-, hb'⟩ := hcases v b hb
    · rw [hu, hv]
    · exact absurd hab.symm (h.lt_of_held hb').ne
    · exact absurd hab (h.lt_of_held ha').ne
    · exact h.apart u v a ha' b hb' hab
  case pending =>
    intro u taken hu hmem
    obtain ⟨-, rfl⟩ | ⟨-, hu⟩ := hcases u taken hu
    · exact lt_irrefl _ (h.lt_of_executed hmem)
    · exact h.pending u taken hu hmem
  case covered =>
    intro n hn
    rw [List.length_append, List.length_singleton] at hn
    by_cases hlast : n = popped.length
    · refine .inr ⟨t, ⟨popped.length, task⟩, ?_, hlast.symm⟩
      rw [Function.update_self]
      rfl
    · obtain hexec | ⟨u, taken, hu, hnum⟩ := h.covered n (by omega)
      · exact .inl hexec
      · refine .inr ⟨u, taken, ?_, hnum⟩
        have hut : u ≠ t := by
          rintro rfl
          rw [ht] at hu
          exact absurd hu.symm (Option.some_ne_none taken)
        rwa [Function.update_of_ne hut]
  case once => exact h.once
  case executed =>
    intro e he
    exact hkeep (h.executed e he)

/-- A worker counts the task it has. -/
theorem count (h : Assigned popped held executions) (e : Execution T)
    (ht : held e.worker = some e.taken) :
    Assigned popped (Function.update held e.worker none) (executions ++ [e]) := by
  have hcases : ∀ u, ∀ taken ∈ Function.update held e.worker none u,
      u ≠ e.worker ∧ taken ∈ held u := by
    intro u taken hu
    by_cases hut : u = e.worker
    · subst hut
      rw [Function.update_self] at hu
      exact absurd hu.symm (Option.some_ne_none taken)
    · rw [Function.update_of_ne hut] at hu
      exact ⟨hut, hu⟩
  have hnumbers : (executions ++ [e]).map (fun e => e.taken.number) =
      executions.map (fun e => e.taken.number) ++ [e.taken.number] := by
    simp
  constructor
  case own =>
    intro u taken hu
    exact h.own u taken (hcases u taken hu).2
  case apart =>
    intro u v a ha b hb
    exact h.apart u v a (hcases u a ha).2 b (hcases v b hb).2
  case pending =>
    intro u taken hu hmem
    obtain ⟨hut, hu⟩ := hcases u taken hu
    rw [hnumbers, List.mem_append, List.mem_singleton] at hmem
    obtain hmem | hnum := hmem
    · exact h.pending u taken hu hmem
    · exact hut (h.apart u e.worker taken hu e.taken ht hnum)
  case covered =>
    intro n hn
    rw [hnumbers, List.mem_append, List.mem_singleton]
    obtain hexec | ⟨u, taken, hu, hnum⟩ := h.covered n hn
    · exact .inl (.inl hexec)
    · by_cases hut : u = e.worker
      · subst hut
        obtain rfl : e.taken = taken := Option.some.inj (ht.symm.trans hu)
        exact .inl (.inr hnum.symm)
      · refine .inr ⟨u, taken, ?_, hnum⟩
        rwa [Function.update_of_ne hut]
  case once =>
    rw [hnumbers]
    refine List.nodup_append'.mpr ⟨h.once, List.nodup_singleton _, ?_⟩
    intro n hn hlast
    rw [List.mem_singleton.mp hlast] at hn
    exact h.pending e.worker e.taken ht hn
  case executed =>
    intro e' he'
    rw [List.mem_append, List.mem_singleton] at he'
    obtain he' | rfl := he'
    · exact h.executed e' he'
    · exact h.own e'.worker e'.taken ht

omit [DecidableEq T] in
/-- When no worker has a task, what was popped is what was executed. -/
theorem perm (h : Assigned popped held executions) (hnone : ∀ t, held t = none) :
    (executions.map fun e => e.taken.number).Perm (List.range popped.length) := by
  rw [List.perm_ext_iff_of_nodup h.once List.nodup_range]
  intro n
  rw [List.mem_range]
  constructor
  · exact h.lt_of_executed
  · intro hn
    obtain hexec | ⟨t, taken, ht, -⟩ := h.covered n hn
    · exact hexec
    · rw [hnone t] at ht
      exact absurd ht.symm (Option.some_ne_none taken)

end Assigned

/-! ## 4. What the counters count -/

structure Counted {T : Type} (completed failed bytes : ℤ) (executions : List (Execution T)) :
    Prop where
  completed : completed = executions.countP fun e => e.succeeded
  failed : failed = executions.countP fun e => !e.succeeded
  bytes : bytes = ((executions.filter fun e => e.succeeded).map fun e => e.taken.task.size).sum

namespace Counted

variable {T : Type} {completed failed bytes : ℤ} {executions : List (Execution T)}

theorem succeeds (h : Counted completed failed bytes executions) (e : Execution T)
    (he : e.succeeded = true) :
    Counted (completed + 1) failed (bytes + e.taken.task.size) (executions ++ [e]) where
  completed := by simp [List.countP_append, he, h.completed]
  failed := by simp [List.countP_append, he, h.failed]
  bytes := by simp [List.filter_append, he, h.bytes]

theorem fails (h : Counted completed failed bytes executions) (e : Execution T)
    (he : e.succeeded = false) : Counted completed (failed + 1) bytes (executions ++ [e]) where
  completed := by simp [List.countP_append, he, h.completed]
  failed := by simp [List.countP_append, he, h.failed]
  bytes := by simp [List.filter_append, he, h.bytes]

theorem add_eq (h : Counted completed failed bytes executions) :
    completed + failed = executions.length := by
  have hsplit := List.length_eq_countP_add_countP (fun e : Execution T => e.succeeded)
    (l := executions)
  simp only [Bool.not_eq_true, Bool.decide_eq_false] at hsplit
  rw [h.completed, h.failed, hsplit, Nat.cast_add]

end Counted

/-! ## 5. Every interleaving -/

/-- The attempts that a worker has made, after which it is where it is. -/
def WorkerPc.WithinAttempts : WorkerPc → Prop
  | .executing _ attempts => attempts < maxRetryAttempts
  | .migrated _ attempts => 0 < attempts ∧ attempts ≤ maxRetryAttempts
  | .gaveUp _ attempts => 0 < attempts ∧ attempts ≤ maxRetryAttempts
  | _ => True

namespace WorkerPool

variable {T : Type}

structure Inv (capacity : ℕ) (s : WorkerPool T) : Prop where
  capacity : s.queue.tasks.capacity = capacity
  fifo : s.accepted = s.popped ++ s.queue.tasks.contents
  assigned : Assigned s.popped s.held s.executions
  counted : Counted s.tasksCompleted s.tasksFailed s.bytesMigrated s.executions
  trying : ∀ t, (s.pc t).WithinAttempts
  tried : ∀ e ∈ s.executions, 0 < e.attempts ∧ e.attempts ≤ maxRetryAttempts
  down : ∀ t, s.pc t = .exited → s.queue.shutdown = true ∧ s.queue.tasks.count = 0

theorem inv_start (capacity : ℕ) (h : 0 < capacity) : Inv capacity (start (T := T) capacity h) where
  capacity := rfl
  fifo := rfl
  assigned := Assigned.start
  counted := ⟨rfl, rfl, rfl⟩
  trying t := trivial
  tried e he := by simp [start] at he
  down t ht := by simp [start] at ht

section Steps

variable {capacity : ℕ} {s s' : WorkerPool T}

/-- How many workers are counted as active is nothing that the rest depends on. -/
theorem Inv.active (h : Inv capacity s) (activeWorkers : ℤ) :
    Inv capacity { s with activeWorkers := activeWorkers } where
  capacity := h.capacity
  fifo := h.fifo
  assigned := h.assigned
  counted := h.counted
  trying := h.trying
  tried := h.tried
  down := h.down

theorem Inv.shutdown (h : Inv capacity s) :
    Inv capacity { s with queue := s.queue.taskQueueShutdown } where
  capacity := h.capacity
  fifo := h.fifo
  assigned := h.assigned
  counted := h.counted
  trying := h.trying
  tried := h.tried
  down t ht := ⟨rfl, (h.down t ht).2⟩

theorem Inv.push (h : Inv capacity s) {task : MigrationTask} {accepted : Bool}
    (hpush : s.push task = some (s', accepted)) : Inv capacity s' := by
  rw [WorkerPool.push, TaskQueue.taskQueuePush] at hpush
  by_cases hdown : s.queue.shutdown = true
  · rw [if_pos hdown] at hpush
    cases hpush
    exact h
  · rw [if_neg hdown] at hpush
    by_cases hroom : s.queue.tasks.count < s.queue.tasks.capacity
    · rw [dif_pos hroom] at hpush
      cases hpush
      exact
        { capacity := h.capacity
          fifo := by simp [h.fifo, RingBuffer.contents_push]
          assigned := h.assigned
          counted := h.counted
          trying := h.trying
          tried := h.tried
          down := fun t ht => absurd (h.down t ht).1 hdown }
    · rw [dif_neg hroom] at hpush
      cases hpush

/-- The tasks that are executed, with one more. -/
theorem Inv.tried_append (h : Inv capacity s) {e : Execution T}
    (he : 0 < e.attempts ∧ e.attempts ≤ maxRetryAttempts) :
    ∀ e' ∈ s.executions ++ [e], 0 < e'.attempts ∧ e'.attempts ≤ maxRetryAttempts := by
  intro e' he'
  rw [List.mem_append, List.mem_singleton] at he'
  obtain he' | rfl := he'
  · exact h.tried e' he'
  · exact he

variable [DecidableEq T] {t : T} {pc : WorkerPc}

theorem inv_goTo (hcapacity : s.queue.tasks.capacity = capacity)
    (hfifo : s.accepted = s.popped ++ s.queue.tasks.contents)
    (hassigned : Assigned s.popped (Function.update s.held t pc.taken) s.executions)
    (hcounted : Counted s.tasksCompleted s.tasksFailed s.bytesMigrated s.executions)
    (htrying : ∀ u, (s.pc u).WithinAttempts) (hpc : pc.WithinAttempts)
    (htried : ∀ e ∈ s.executions, 0 < e.attempts ∧ e.attempts ≤ maxRetryAttempts)
    (hdown : ∀ u, s.pc u = .exited → s.queue.shutdown = true ∧ s.queue.tasks.count = 0)
    (hexit : pc = .exited → s.queue.shutdown = true ∧ s.queue.tasks.count = 0) :
    Inv capacity (s.goTo t pc) where
  capacity := hcapacity
  fifo := hfifo
  assigned := by
    rw [held_goTo]
    exact hassigned
  counted := hcounted
  trying u := by
    by_cases hut : u = t
    · subst hut
      simpa [goTo] using hpc
    · simpa [goTo, hut] using htrying u
  tried := htried
  down u hu := by
    by_cases hut : u = t
    · subst hut
      exact hexit (by simpa [goTo] using hu)
    · exact hdown u (by simpa [goTo, hut] using hu)

/-- A worker goes on with the task it has, or without one. -/
theorem Inv.goOn (h : Inv capacity s) (htaken : pc.taken = s.held t) (hpc : pc.WithinAttempts)
    (hexit : pc = .exited → s.queue.shutdown = true ∧ s.queue.tasks.count = 0) :
    Inv capacity (s.goTo t pc) := by
  apply inv_goTo h.capacity h.fifo ?_ h.counted h.trying hpc h.tried h.down hexit
  rw [htaken, Function.update_eq_self]
  exact h.assigned

theorem Inv.pop (h : Inv capacity s) (hheld : s.held t = none) {queue : TaskQueue}
    {task : MigrationTask} (hpop : s.queue.taskQueuePop = some (queue, some task)) :
    Inv capacity (goTo { s with queue := queue, popped := s.popped ++ [task] } t
      (.popped ⟨s.popped.length, task⟩)) := by
  rw [TaskQueue.taskQueuePop] at hpop
  by_cases hsome : 0 < s.queue.tasks.count
  · rw [dif_pos hsome] at hpop
    cases hpop
    apply inv_goTo
    case hcapacity => exact h.capacity
    case hfifo => simp [h.fifo, s.queue.tasks.contents_pop hsome]
    case hassigned => exact h.assigned.pop hheld _
    case hcounted => exact h.counted
    case htrying => exact h.trying
    case hpc => trivial
    case htried => exact h.tried
    case hdown =>
      intro u hu
      exact absurd (h.down u hu).2 hsome.ne'
    case hexit => nofun
  · rw [dif_neg hsome] at hpop
    split at hpop <;> cases hpop

theorem exit_of_pop {queue queue' : TaskQueue} (hpop : queue.taskQueuePop = some (queue', none)) :
    queue.shutdown = true ∧ queue.tasks.count = 0 := by
  rw [TaskQueue.taskQueuePop] at hpop
  by_cases hsome : 0 < queue.tasks.count
  · rw [dif_pos hsome] at hpop
    cases hpop
  · rw [dif_neg hsome] at hpop
    by_cases hdown : queue.shutdown = true
    · exact ⟨hdown, by omega⟩
    · rw [if_neg hdown] at hpop
      cases hpop

theorem Inv.work (h : Inv capacity s) {io : AttemptIo} (hwork : s.work t io = some s') :
    Inv capacity s' := by
  have htrying := h.trying t
  rw [WorkerPool.work] at hwork
  cases hpc : s.pc t with
  | popping =>
    have hheld : s.held t = none := by rw [held, hpc]; rfl
    simp only [hpc] at hwork
    cases hpop : s.queue.taskQueuePop with
    | none =>
      simp [hpop] at hwork
    | some got =>
      obtain ⟨queue, task⟩ := got
      cases task with
      | none =>
        simp only [hpop, Option.some.injEq] at hwork
        subst hwork
        exact h.goOn hheld.symm trivial fun _ => exit_of_pop hpop
      | some task =>
        simp only [hpop, Option.some.injEq] at hwork
        subst hwork
        exact h.pop hheld hpop
  | popped taken =>
    have hheld : s.held t = some taken := by rw [held, hpc]; rfl
    simp only [hpc, Option.some.injEq] at hwork
    subst hwork
    refine (h.active _).goOn hheld.symm ?_ nofun
    exact Nat.succ_pos 2
  | executing taken attempts =>
    have hheld : s.held t = some taken := by rw [held, hpc]; rfl
    have hlt : attempts < maxRetryAttempts := by
      rw [hpc] at htrying
      exact htrying
    simp only [hpc] at hwork
    split at hwork
    · cases hwork
      exact h.goOn hheld.symm ⟨attempts.succ_pos, hlt⟩ nofun
    · split at hwork
      · cases hwork
        rename_i hagain
        exact h.goOn hheld.symm hagain nofun
      · cases hwork
        exact h.goOn hheld.symm ⟨attempts.succ_pos, hlt⟩ nofun
  | migrated taken attempts =>
    have hheld : s.held t = some taken := by rw [held, hpc]; rfl
    rw [hpc] at htrying
    simp only [hpc, Option.some.injEq] at hwork
    subst hwork
    let e : Execution T := ⟨taken, t, attempts, true⟩
    exact inv_goTo h.capacity h.fifo (h.assigned.count e hheld) (h.counted.succeeds e rfl) h.trying
      trivial (h.tried_append htrying) h.down nofun
  | gaveUp taken attempts =>
    have hheld : s.held t = some taken := by rw [held, hpc]; rfl
    rw [hpc] at htrying
    simp only [hpc, Option.some.injEq] at hwork
    subst hwork
    let e : Execution T := ⟨taken, t, attempts, false⟩
    exact inv_goTo h.capacity h.fifo (h.assigned.count e hheld) (h.counted.fails e rfl) h.trying
      trivial (h.tried_append htrying) h.down nofun
  | counted =>
    have hheld : s.held t = none := by rw [held, hpc]; rfl
    simp only [hpc, Option.some.injEq] at hwork
    subst hwork
    exact (h.active _).goOn hheld.symm trivial nofun
  | exited =>
    simp [hpc] at hwork

theorem Inv.step (h : Inv capacity s) {e : Event T} (hstep : s.step e = some s') :
    Inv capacity s' := by
  cases e with
  | push task =>
    obtain ⟨⟨after, accepted⟩, hpush, rfl⟩ := Option.map_eq_some_iff.mp hstep
    exact h.push hpush
  | work t io => exact h.work hstep
  | shutdown =>
    cases hstep
    exact h.shutdown

theorem inv_of_reachable {hpos : 0 < capacity}
    (h : machine.Reachable Machine.any (start capacity hpos) s) : Inv capacity s := by
  apply h.invariant
  · exact inv_start capacity hpos
  · intro s e s' hs _ _ hstep
    exact hs.step hstep

end Steps

/-! ## 6. After a shutdown -/

/-- Every task that was accepted is executed, once, and the counters are right. -/
structure Drained (s : WorkerPool T) : Prop where
  once : (s.executions.map fun e => e.taken.number).Perm (List.range s.accepted.length)
  tasks : ∀ e ∈ s.executions, s.accepted[e.taken.number]? = some e.taken.task
  attempts : ∀ e ∈ s.executions, 0 < e.attempts ∧ e.attempts ≤ maxRetryAttempts
  counts : s.tasksCompleted + s.tasksFailed = s.accepted.length
  completed : s.tasksCompleted = s.executions.countP fun e => e.succeeded
  bytes : s.bytesMigrated =
    ((s.executions.filter fun e => e.succeeded).map fun e => e.taken.task.size).sum

theorem Inv.drained {capacity : ℕ} {s : WorkerPool T} [Nonempty T] (h : Inv capacity s)
    (hexited : ∀ t, s.pc t = .exited) : s.Drained := by
  obtain ⟨t⟩ := ‹Nonempty T›
  have hempty : s.queue.tasks.contents = [] :=
    s.queue.tasks.contents_eq_nil (h.down t (hexited t)).2
  have haccepted : s.accepted = s.popped := by rw [h.fifo, hempty, List.append_nil]
  have hperm := h.assigned.perm fun u => by rw [held, hexited u]; rfl
  constructor
  case once =>
    rw [haccepted]
    exact hperm
  case tasks =>
    rw [haccepted]
    exact h.assigned.executed
  case attempts => exact h.tried
  case counts =>
    have hlength := hperm.length_eq
    rw [List.length_map, List.length_range] at hlength
    rw [h.counted.add_eq, hlength, haccepted]
  case completed => exact h.counted.completed
  case bytes => exact h.counted.bytes

/-- **The workers drain the queue.**  In every interleaving of pushes, workers and shutdowns, with
any number of workers, any capacity and any outcome of each attempt, tasks come out of the queue in
the order in which they were accepted and there are never more in it than its capacity; and when all
workers have exited after a shutdown, each accepted task was executed once, by one worker, with at
most `maxRetryAttempts` attempts, and the counters say so. -/
theorem workerPool_drains [DecidableEq T] [Nonempty T] {capacity : ℕ} (hcapacity : 0 < capacity) :
    BoundedFifo.Refines TaskQueue.view TaskQueue.taskQueuePush TaskQueue.taskQueuePop
        TaskQueue.taskQueueShutdown ∧
      ∀ s : WorkerPool T, machine.Reachable Machine.any (start capacity hcapacity) s →
        s.accepted = s.popped ++ s.queue.view.items ∧
        s.queue.view.items.length ≤ capacity ∧
        (s.queue.shutdown = true → (∀ t, s.pc t = .exited) → s.Drained) := by
  refine ⟨TaskQueue.refines, ?_⟩
  intro s hs
  have hinv := inv_of_reachable hs
  refine ⟨hinv.fifo, ?_, ?_⟩
  · have hle := s.queue.tasks.count_le
    rw [hinv.capacity] at hle
    simpa [TaskQueue.view] using hle
  · intro _ hexited
    exact hinv.drained hexited

/-- Two workers on a queue with room for one task: the first task needs two attempts, the second
fails in all three, and both workers exit. -/
def twoTasks : List (Event (Fin 2)) :=
  let ok : AttemptIo := ⟨true, true, true, false⟩
  let unread : AttemptIo := ⟨false, true, true, true⟩
  let unwritten : AttemptIo := ⟨true, false, true, true⟩
  [.push { MigrationTask.zero with object := [97], size := 5 }, .work 0 ok,
    .push { MigrationTask.zero with object := [98], size := 7 }, .work 1 ok, .shutdown, .work 1 ok,
    .work 0 ok, .push MigrationTask.zero, .work 1 unread, .work 0 unread, .work 0 ok,
    .work 1 unwritten, .work 0 ok, .work 1 unread, .work 1 ok, .work 1 ok, .work 0 ok, .work 0 ok,
    .work 1 ok]

theorem workerPool_drains_two_tasks :
    ∃ s : WorkerPool (Fin 2), machine.Reachable Machine.any (start 1 Nat.one_pos) s ∧
      s.accepted.length = 2 ∧ s.tasksCompleted = 1 ∧ s.bytesMigrated = 5 ∧ s.Drained := by
  have hrun : (machine.run Machine.any (start 1 Nat.one_pos) twoTasks).any
    (fun s : WorkerPool (Fin 2) =>
      decide (s.queue.shutdown = true ∧ (∀ t, s.pc t = .exited) ∧ s.accepted.length = 2 ∧
        s.tasksCompleted = 1 ∧ s.bytesMigrated = 5)) = true := by
    decide +kernel
  obtain ⟨s, hs, hfacts⟩ := Machine.exists_of_run hrun
  obtain ⟨hdown, hexited, haccepted, hcompleted, hbytes⟩ := of_decide_eq_true hfacts
  have hdrained := ((workerPool_drains Nat.one_pos).2 s hs).2.2 hdown hexited
  exact ⟨s, hs, haccepted, hcompleted, hbytes, hdrained⟩

end WorkerPool

end Buckets
