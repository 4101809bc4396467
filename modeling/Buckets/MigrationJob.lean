/-
# Migration jobs

`buckets_migration_job_start` scans the disks, makes a worker pool and submits the tasks;
`_pause`, `_resume` and `_stop` stop and start the workers and set the state of the job; and
`_wait` is to return when the job is over.  Each of them reads and writes the job in several
critical sections, so calls of other threads, and the workers, come in between.

The calls are written here as PROGRAMS over the sections, in the order of the source; the two loops
of `_wait` are programs that go on.
-/
import Buckets.Lib.Threads
import Buckets.MigrationWorker

namespace Buckets

/-! ## 1. The job -/

inductive MigrationState where
  | idle
  | scanning
  | migrating
  | paused
  | completed
  | failed
deriving DecidableEq

def isValidTransition : MigrationState → MigrationState → Bool
  | .idle, new => new == .scanning || new == .failed
  | .scanning, new => new == .migrating || new == .completed || new == .failed
  | .migrating, new => new == .paused || new == .completed || new == .failed
  | .paused, new => new == .migrating || new == .failed
  | .completed, _ => false
  | .failed, _ => false

def MigrationState.terminal : MigrationState → Bool
  | .completed | .failed => true
  | _ => false

/-- The number of workers, and the room in their queue. -/
def numWorkers : ℕ := 16

def queueCapacity : ℕ := 10000

/-- The worker pool of a job.  Threads have the numbers in which they were created. -/
structure JobPool where
  workers : WorkerPool ℕ
  running : Bool
  threads : ℕ → ℕ
  created : ℕ
  joined : ℕ → Bool

def workerPoolCreate : JobPool where
  workers := WorkerPool.start queueCapacity (Nat.succ_pos 9999)
  running := false
  threads _ := 0
  created := 0
  joined _ := false

structure MigrationJob where
  state : MigrationState
  totalObjects : ℤ
  migratedObjects : ℤ
  failedObjects : ℤ
  bytesTotal : ℤ
  bytesMigrated : ℤ
  workerPool : Option JobPool

inductive JobRet where
  | ok
  | invalidArg
  | noMem
  | ioErr
deriving DecidableEq

/-! ## 2. Sections -/

/-- A section of a call. -/
inductive JobOp where
  | readState
  | transitionState (newState : MigrationState)
  | scan
  | setTotals (tasks : List MigrationTask)
  | createPool
  | hasPool
  | isRunning
  | setRunning (running : Bool)
  | createThread (i : ℕ)
  | joinThread (i : ℕ)
  | push (task : MigrationTask)
  | shutdown
  | getStats
  | setProgress (completed failed bytes : ℤ)
  | queueCount
  | activeCount
  /-- `buckets_migration_job_save`, or nothing where no checkpoint is needed. -/
  | save
deriving DecidableEq

inductive JobAnswer where
  | state (state : MigrationState)
  | flag (b : Bool)
  | scanned (result : Except JobRet (List MigrationTask))
  | stats (completed failed bytes : ℤ)
  | number (n : ℤ)
  | done

namespace JobPool

/-- `pthread_create`; it may fail. -/
def createThread (pool : JobPool) (i : ℕ) (ok : Bool) : JobPool :=
  if ok then
    { pool with
      threads := Function.update pool.threads i pool.created
      created := pool.created + 1 }
  else pool

/-- `pthread_join`, of a thread that has exited and nobody has joined. -/
def joinThread (pool : JobPool) (i : ℕ) : Option JobPool :=
  if pool.workers.pc (pool.threads i) = .exited ∧ pool.joined (pool.threads i) = false then
    some { pool with joined := Function.update pool.joined (pool.threads i) true }
  else none

def push (pool : JobPool) (task : MigrationTask) (ok : Bool) : Option JobPool :=
  match pool.workers.push task with
  | none => none
  | some (workers, accepted) =>
    if accepted = ok then some { pool with workers := workers } else none

def shutdown (pool : JobPool) : JobPool :=
  { pool with workers := { pool.workers with queue := pool.workers.queue.taskQueueShutdown } }

/-- A section of a worker. -/
def work (pool : JobPool) (t : ℕ) (io : AttemptIo) : Option JobPool :=
  if t < pool.created then
    (pool.workers.work t io).map fun workers => { pool with workers := workers }
  else none

end JobPool

namespace MigrationJob

/-- A section that needs the pool, and changes nothing else. -/
def onPool (job : MigrationJob) (f : JobPool → Option JobPool) : Option MigrationJob :=
  job.workerPool.bind fun pool => (f pool).map fun pool => { job with workerPool := some pool }

/-- What a section does; what it answers is given, and not every answer is possible. -/
def perform (job : MigrationJob) : JobOp → JobAnswer → Option MigrationJob
  | .readState, .state state => if state = job.state then some job else none
  | .transitionState newState, .flag ok =>
    if isValidTransition job.state newState = ok then
      some (if ok then { job with state := newState } else job)
    else none
  | .scan, .scanned _ => some job
  | .setTotals tasks, .done =>
    some { job with
      totalObjects := tasks.length
      bytesTotal := (tasks.map MigrationTask.size).sum }
  | .createPool, .flag ok =>
    some (if ok then { job with workerPool := some workerPoolCreate } else job)
  | .hasPool, .flag b => if job.workerPool.isSome = b then some job else none
  | .isRunning, .flag b => job.onPool fun pool => if pool.running = b then some pool else none
  | .setRunning b, .done => job.onPool fun pool => some { pool with running := b }
  | .createThread i, .flag ok => job.onPool fun pool => some (pool.createThread i ok)
  | .joinThread i, .done => job.onPool fun pool => pool.joinThread i
  | .push task, .flag ok => job.onPool fun pool => pool.push task ok
  | .shutdown, .done => job.onPool fun pool => some pool.shutdown
  | .getStats, .stats completed failed bytes =>
    job.onPool fun pool =>
      if pool.workers.tasksCompleted = completed ∧ pool.workers.tasksFailed = failed ∧
        pool.workers.bytesMigrated = bytes then some pool else none
  | .setProgress completed failed bytes, .done =>
    some { job with
      migratedObjects := completed
      failedObjects := failed
      bytesMigrated := bytes }
  | .queueCount, .number n =>
    job.onPool fun pool => if (pool.workers.queue.tasks.count : ℤ) = n then some pool else none
  | .activeCount, .number n =>
    job.onPool fun pool => if pool.workers.activeWorkers = n then some pool else none
  | .save, .flag _ => some job
  | _, _ => none

/-- A section of a worker of the pool. -/
def workerStep (job : MigrationJob) (e : ℕ × AttemptIo) : Option MigrationJob :=
  job.onPool fun pool => pool.work e.1 e.2

end MigrationJob

/-! ## 3. The calls -/

/-- The loops of `buckets_migration_job_wait`. -/
inductive JobLoop where
  | wait
  | poolWait

inductive JobOutcome where
  | returns (ret : JobRet)
  /-- `buckets_migration_job_wait` returns `BUCKETS_OK`. -/
  | waited
  | goesTo (loop : JobLoop)

abbrev JobProg := Prog JobOp JobAnswer

def askState : JobProg MigrationState := do
  match ← Prog.ask .readState with
  | .state state => return state
  | _ => return .failed

def askFlag (op : JobOp) : JobProg Bool := do
  match ← Prog.ask op with
  | .flag b => return b
  | _ => return false

def askNumber (op : JobOp) : JobProg ℤ := do
  match ← Prog.ask op with
  | .number n => return n
  | _ => return 0

def transitionState (newState : MigrationState) : JobProg JobRet := do
  if ← askFlag (.transitionState newState) then return .ok
  else return .invalidArg

def joinThreads : List ℕ → JobProg Unit
  | [] => return ()
  | i :: rest => do
    let _ ← Prog.ask (.joinThread i)
    joinThreads rest

def workerPoolStop : JobProg JobRet := do
  if ← askFlag .isRunning then
    let _ ← Prog.ask .shutdown
    joinThreads (List.range numWorkers)
    let _ ← Prog.ask (.setRunning false)
    return .ok
  else return .invalidArg

def createThreads : List ℕ → JobProg JobRet
  | [] => return .ok
  | i :: rest => do
    if ← askFlag (.createThread i) then createThreads rest
    else
      let _ ← workerPoolStop
      return .ioErr

def workerPoolStart : JobProg JobRet := do
  if ← askFlag .isRunning then return .invalidArg
  else
    match ← createThreads (List.range numWorkers) with
    | .ok =>
      let _ ← Prog.ask (.setRunning true)
      return .ok
    | ret => return ret

def pushTasks : List MigrationTask → JobProg JobRet
  | [] => return .ok
  | task :: rest => do
    if ← askFlag (.push task) then pushTasks rest
    else return .invalidArg

def workerPoolSubmit (tasks : List MigrationTask) : JobProg JobRet := do
  if ← askFlag .isRunning then pushTasks tasks
  else return .invalidArg

/-- The job fails: the transition to FAILED, and the error that is returned after it. -/
def failWith (ret : JobRet) : JobProg JobRet := do
  let _ ← transitionState .failed
  return ret

/-- From the scan on. -/
def startMigration (tasks : List MigrationTask) : JobProg JobRet := do
  match ← transitionState .migrating with
  | .ok =>
    if ← askFlag .createPool then
      match ← workerPoolStart with
      | .ok =>
        match ← workerPoolSubmit tasks with
        | .ok => return .ok
        | ret => failWith ret
      | ret => failWith ret
    else failWith .noMem
  | ret => return ret

def migrationJobStart : JobProg JobRet := do
  if (← askState) ≠ .idle then return .invalidArg
  else
    match ← transitionState .scanning with
    | .ok =>
      match ← Prog.ask .scan with
      | .scanned (.ok tasks) =>
        let _ ← Prog.ask (.setTotals tasks)
        if tasks.length = 0 then
          let _ ← transitionState .completed
          return .ok
        else startMigration tasks
      | .scanned (.error ret) => failWith ret
      | _ => return .invalidArg
    | ret => return ret

def migrationJobPause : JobProg JobRet := do
  if (← askState) ≠ .migrating then return .invalidArg
  else if ← askFlag .hasPool then
    match ← workerPoolStop with
    | .ok => transitionState .paused
    | ret => return ret
  else transitionState .paused

def migrationJobResume : JobProg JobRet := do
  if (← askState) ≠ .paused then return .invalidArg
  else if ← askFlag .hasPool then
    match ← workerPoolStart with
    | .ok => transitionState .migrating
    | ret => return ret
  else transitionState .migrating

def migrationJobStop : JobProg JobRet := do
  let state ← askState
  if state = .completed ∨ state = .failed then return .ok
  else
    if ← askFlag .hasPool then
      let _ ← workerPoolStop
    transitionState .failed

def updateProgress : JobProg Unit := do
  if ← askFlag .hasPool then
    match ← Prog.ask .getStats with
    | .stats completed failed bytes =>
      let _ ← Prog.ask (.setProgress completed failed bytes)
      return ()
    | _ => return ()
  else return ()

/-- One turn of the loop of `buckets_migration_job_wait`. -/
def migrationJobWait : JobProg JobOutcome := do
  let state ← askState
  if state = .completed ∨ state = .failed then return .waited
  else if state = .migrating then
    updateProgress
    let _ ← Prog.ask .save
    if ← askFlag .hasPool then return .goesTo .poolWait
    else return .goesTo .wait
  else return .goesTo .wait

/-- One turn of the loop of `buckets_worker_pool_wait`, and what comes after it. -/
def workerPoolWait : JobProg JobOutcome := do
  let remaining ← askNumber .queueCount
  let active ← askNumber .activeCount
  if remaining = 0 ∧ active = 0 then
    let _ ← transitionState .completed
    let _ ← Prog.ask .save
    return .waited
  else return .goesTo .poolWait

inductive JobApi where
  | start
  | pause
  | resume
  | stop
  | wait
deriving DecidableEq

def returning (prog : JobProg JobRet) : JobProg JobOutcome := do
  return .returns (← prog)

def JobApi.prog : JobApi → JobProg JobOutcome
  | .start => returning migrationJobStart
  | .pause => returning migrationJobPause
  | .resume => returning migrationJobResume
  | .stop => returning migrationJobStop
  | .wait => migrationJobWait

def JobOutcome.goesOn : JobOutcome → Option (JobProg JobOutcome)
  | .returns _ => none
  | .waited => none
  | .goesTo .wait => some migrationJobWait
  | .goesTo .poolWait => some workerPoolWait

/-- The calls, with the workers as what else happens. -/
def jobCode : Threads.Code MigrationJob JobOp JobAnswer JobOutcome JobApi (ℕ × AttemptIo) where
  perform := MigrationJob.perform
  environment := MigrationJob.workerStep
  entry := JobApi.prog
  goesOn := JobOutcome.goesOn

abbrev JobEvent (C : Type) := Threads.Event C JobAnswer JobApi (ℕ × AttemptIo)

/-- A call of `wait` has returned. -/
def jobWaited {C M : Type} (s : Threads.State C MigrationJob JobOp JobAnswer JobOutcome M) (c : C) :
    Bool :=
  (s.calls c).any fun call =>
    match call.rest with
    | .pure .waited => true
    | _ => false

theorem rest_of_jobWaited {C M : Type}
    {s : Threads.State C MigrationJob JobOp JobAnswer JobOutcome M} {c : C}
    (h : jobWaited s c = true) : ∃ call ∈ s.calls c, call.rest = .pure .waited := by
  obtain ⟨call, hcall, hrest⟩ := (Option.any_eq_true _ _).mp h
  refine ⟨call, hcall, ?_⟩
  split at hrest
  · assumption
  · cases hrest

/-! ## 4. What a section answers -/

def JobOp.answers : JobOp → JobAnswer → Prop
  | .readState, answer => ∃ state, answer = .state state
  | .scan, answer => ∃ result, answer = .scanned result
  | .getStats, answer => ∃ completed failed bytes, answer = .stats completed failed bytes
  | .queueCount, answer | .activeCount, answer => ∃ n, answer = .number n
  | .setTotals _, answer | .setRunning _, answer | .joinThread _, answer | .shutdown, answer
  | .setProgress _ _ _, answer => answer = .done
  | .transitionState _, answer | .createPool, answer | .hasPool, answer | .isRunning, answer
  | .createThread _, answer | .push _, answer | .save, answer => ∃ b, answer = .flag b

theorem MigrationJob.answers_of_perform {job : MigrationJob} {op : JobOp} {answer : JobAnswer}
    {job' : MigrationJob} (h : job.perform op answer = some job') : op.answers answer := by
  cases op <;> cases answer <;> first | exact ⟨_, rfl⟩ | exact ⟨_, _, _, rfl⟩ | rfl | cases h

end Buckets
