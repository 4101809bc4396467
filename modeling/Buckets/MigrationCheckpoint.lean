/-
# Checkpoints of a migration job

`buckets_migration_job_save` writes what identifies a job, its state and its counts, as JSON.  The
worker pool is not in it, nor the tasks, and `buckets_migration_job_resume_from_checkpoint` makes
neither of them: it sets a job that was MIGRATING to PAUSED and leaves the rest to `_resume`.

But `_resume` starts a pool only if there IS one, and without a pool `_wait` goes round its loop.

* `resumeFromCheckpoint_save`: what a checkpoint gives back;
* `resumed_never_ends`: whoever calls `_resume` and `_wait` on it, and however often, the job stays
  PAUSED or MIGRATING and no `_wait` returns.
-/
import Buckets.MigrationJob

namespace Buckets

open Json

/-! ## 1. The file -/

/-- What identifies a job. -/
structure JobInfo where
  jobId : CString
  sourceGeneration : ℤ
  targetGeneration : ℤ
  startTime : ℤ

namespace MigrationState

def number : MigrationState → ℤ
  | .idle => 0
  | .scanning => 1
  | .migrating => 2
  | .paused => 3
  | .completed => 4
  | .failed => 5

/-- The state with a number, if there is one. -/
def ofNumber (n : ℤ) : Option MigrationState :=
  [idle, scanning, migrating, paused, completed, failed].find? fun state => state.number = n

theorem ofNumber_number (state : MigrationState) : ofNumber state.number = some state := by
  cases state <;> rfl

end MigrationState

/-- The members of a checkpoint. -/
def checkpointMembers (info : JobInfo) (job : MigrationJob) (now : ℤ) :
    List (CString × Option Json) :=
  [(cstr "job_id", some (.string info.jobId)),
   (cstr "source_generation", some (.int info.sourceGeneration)),
   (cstr "target_generation", some (.int info.targetGeneration)),
   (cstr "state", some (.int job.state.number)), (cstr "checkpoint_time", some (.int now)),
   (cstr "start_time", some (.int info.startTime)),
   (cstr "total_objects", some (.int job.totalObjects)),
   (cstr "migrated_objects", some (.int job.migratedObjects)),
   (cstr "failed_objects", some (.int job.failedObjects)),
   (cstr "bytes_total", some (.int job.bytesTotal)),
   (cstr "bytes_migrated", some (.int job.bytesMigrated))]

/-- The file after `buckets_migration_job_save`. -/
def migrationJobSave (cjson : CJson) (r : AtomicWrite) (old : Option cjson.Text) (info : JobInfo)
    (job : MigrationJob) (now : ℤ) : Option cjson.Text :=
  jsonSave cjson r old (mkObject (checkpointMembers info job now))

/-- A member as an `i64`; `default` if there is none, and no value if it is not a number. -/
def longItem (j : Json) (name : CString) (default : ℤ) : Option ℤ :=
  match j.getObjectItem name with
  | none => some default
  | some item => (asNumber item).map Double.val

/-- `buckets_migration_job_load`. -/
def migrationJobLoad (cjson : CJson) (file : Option cjson.Text) :
    Option (JobInfo × MigrationJob) := do
  let j ← jsonLoad cjson file
  let jobId ← j.stringItem (cstr "job_id")
  let sourceGeneration ← (j.getObjectItem (cstr "source_generation")).bind asNumber
  let targetGeneration ← (j.getObjectItem (cstr "target_generation")).bind asNumber
  let state ← (← longItem j (cstr "state") 0) |> MigrationState.ofNumber
  let startTime ← longItem j (cstr "start_time") 0
  let totalObjects ← longItem j (cstr "total_objects") 0
  let migratedObjects ← longItem j (cstr "migrated_objects") 0
  let failedObjects ← longItem j (cstr "failed_objects") 0
  let bytesTotal ← longItem j (cstr "bytes_total") 0
  let bytesMigrated ← longItem j (cstr "bytes_migrated") 0
  return (⟨charArray 64 jobId, sourceGeneration.val, targetGeneration.val, startTime⟩,
    ⟨state, totalObjects, migratedObjects, failedObjects, bytesTotal, bytesMigrated, none⟩)

/-- `buckets_migration_job_resume_from_checkpoint`. -/
def migrationJobResumeFromCheckpoint (cjson : CJson) (file : Option cjson.Text) (diskCount : ℤ) :
    Option (JobInfo × MigrationJob) :=
  if diskCount ≤ 0 then none
  else
    (migrationJobLoad cjson file).map fun (info, job) =>
      if job.state = .migrating then (info, { job with state := .paused }) else (info, job)

/-! ## 2. What a checkpoint gives back -/

section Load

variable {info : JobInfo} {job : MigrationJob} {now : ℤ}

theorem checkpoint_nodup : (names (checkpointMembers info job now)).Nodup := by
  simp only [names, checkpointMembers, List.map_cons, List.map_nil]
  decide +kernel

theorem getObjectItem_checkpoint {name : CString} {item : Option Json}
    (h : (name, item) ∈ checkpointMembers info job now) :
    (mkObject (checkpointMembers info job now)).getObjectItem name = item :=
  getObjectItem_mkObject checkpoint_nodup h

theorem longItem_checkpoint {name : CString} {n default : ℤ}
    (h : (name, some (Json.int n)) ∈ checkpointMembers info job now) :
    longItem (mkObject (checkpointMembers info job now)) name default =
      some (Double.ofInt n).val := by
  rw [longItem, getObjectItem_checkpoint h]
  rfl

/-- The numbers of a job as they come back through `double`. -/
def MigrationJob.rounded (job : MigrationJob) (state : MigrationState) : MigrationJob where
  state := state
  totalObjects := (Double.ofInt job.totalObjects).val
  migratedObjects := (Double.ofInt job.migratedObjects).val
  failedObjects := (Double.ofInt job.failedObjects).val
  bytesTotal := (Double.ofInt job.bytesTotal).val
  bytesMigrated := (Double.ofInt job.bytesMigrated).val
  workerPool := none

def JobInfo.rounded (info : JobInfo) : JobInfo where
  jobId := charArray 64 info.jobId
  sourceGeneration := (Double.ofInt info.sourceGeneration).val
  targetGeneration := (Double.ofInt info.targetGeneration).val
  startTime := (Double.ofInt info.startTime).val

theorem longItem_state :
    longItem (mkObject (checkpointMembers info job now)) (cstr "state") 0 =
      some job.state.number := by
  have hval : (Double.ofInt job.state.number).val = job.state.number := by
    apply Double.ofInt_val
    cases job.state <;> decide
  have hmem : (cstr "state", some (Json.int job.state.number)) ∈
      checkpointMembers info job now := by
    simp [checkpointMembers]
  rw [longItem_checkpoint hmem, hval]

theorem stringItem_jobId :
    (mkObject (checkpointMembers info job now)).stringItem (cstr "job_id") = some info.jobId := by
  have hmem : (cstr "job_id", some (Json.string info.jobId)) ∈ checkpointMembers info job now := by
    simp [checkpointMembers]
  rw [stringItem, getObjectItem_checkpoint hmem]
  rfl

theorem migrationJobLoad_save {cjson : CJson} {r : AtomicWrite} (hinstalls : r.installs = true)
    (old : Option cjson.Text) :
    migrationJobLoad cjson (migrationJobSave cjson r old info job now) =
      some (info.rounded, job.rounded job.state) := by
  have hload : jsonLoad cjson (migrationJobSave cjson r old info job now) =
      some (mkObject (checkpointMembers info job now)) := by
    rw [migrationJobSave, jsonSave, if_pos hinstalls]
    exact cjson.parse_print _
  have hsource : (cstr "source_generation", some (Json.int info.sourceGeneration)) ∈
      checkpointMembers info job now := by simp [checkpointMembers]
  have htarget : (cstr "target_generation", some (Json.int info.targetGeneration)) ∈
      checkpointMembers info job now := by simp [checkpointMembers]
  have hstart : (cstr "start_time", some (Json.int info.startTime)) ∈
      checkpointMembers info job now := by simp [checkpointMembers]
  have htotal : (cstr "total_objects", some (Json.int job.totalObjects)) ∈
      checkpointMembers info job now := by simp [checkpointMembers]
  have hmigrated : (cstr "migrated_objects", some (Json.int job.migratedObjects)) ∈
      checkpointMembers info job now := by simp [checkpointMembers]
  have hfailed : (cstr "failed_objects", some (Json.int job.failedObjects)) ∈
      checkpointMembers info job now := by simp [checkpointMembers]
  have hbytes : (cstr "bytes_total", some (Json.int job.bytesTotal)) ∈
      checkpointMembers info job now := by simp [checkpointMembers]
  have hbytesMigrated : (cstr "bytes_migrated", some (Json.int job.bytesMigrated)) ∈
      checkpointMembers info job now := by simp [checkpointMembers]
  simp only [migrationJobLoad, hload, Option.bind_eq_bind, Option.bind_some, stringItem_jobId,
    getObjectItem_checkpoint hsource,
    getObjectItem_checkpoint htarget, longItem_state, MigrationState.ofNumber_number,
    longItem_checkpoint hstart, longItem_checkpoint htotal, longItem_checkpoint hmigrated,
    longItem_checkpoint hfailed, longItem_checkpoint hbytes, longItem_checkpoint hbytesMigrated,
    Json.int, asNumber]
  rfl

/-- **What a checkpoint gives back**: a job that was migrating is paused, and has no pool. -/
theorem resumeFromCheckpoint_save {cjson : CJson} {r : AtomicWrite} (hinstalls : r.installs = true)
    (old : Option cjson.Text) {diskCount : ℤ} (hdisks : 0 < diskCount)
    (hstate : job.state = .migrating) :
    migrationJobResumeFromCheckpoint cjson (migrationJobSave cjson r old info job now) diskCount =
      some (info.rounded, job.rounded .paused) := by
  rw [migrationJobResumeFromCheckpoint, if_neg (not_le.mpr hdisks), migrationJobLoad_save hinstalls,
    hstate]
  rfl

end Load

/-! ## 3. After the load -/

/-- The sections of `resume` and `wait`, and what they are answered as long as there is no pool. -/
def resumedProtocol : Protocol JobOp JobAnswer Unit where
  permits _ op := op = .readState ∨ op = .hasPool ∨ op = .transitionState .migrating ∨ op = .save
  answers
    | .readState, answer => answer = .state .paused ∨ answer = .state .migrating
    | .hasPool, answer => answer = .flag false
    | _, answer => ∃ b, answer = .flag b
  next _ _ _ := ()

/-- No program comes to the end of `wait`. -/
def notWaited (_ : Unit) : JobOutcome → Prop
  | .returns _ => True
  | .waited => False
  | .goesTo .wait => True
  | .goesTo .poolWait => False

theorem resumed_follows_resume :
    resumedProtocol.Follows notWaited () (returning migrationJobResume) := by
  refine ⟨.inl rfl, ?_⟩
  rintro answer (rfl | rfl)
  · refine ⟨.inr (.inl rfl), ?_⟩
    rintro answer rfl
    refine ⟨.inr (.inr (.inl rfl)), ?_⟩
    rintro answer ⟨b, rfl⟩
    cases b with
    | true => trivial
    | false => trivial
  · trivial

/-- A turn of the loop of `wait` ends in another one. -/
theorem resumed_follows_wait : resumedProtocol.Follows notWaited () migrationJobWait := by
  refine ⟨.inl rfl, ?_⟩
  rintro answer (rfl | rfl)
  · trivial
  · refine ⟨.inr (.inl rfl), ?_⟩
    rintro answer rfl
    refine ⟨.inr (.inr (.inr rfl)), ?_⟩
    rintro answer ⟨b, rfl⟩
    refine ⟨.inr (.inl rfl), ?_⟩
    rintro answer rfl
    trivial

/-- The job is not over, and nothing can bring it to its end. -/
structure MigrationJob.Adrift (job : MigrationJob) : Prop where
  pool : job.workerPool = none
  state : job.state = .paused ∨ job.state = .migrating

theorem MigrationJob.Adrift.not_terminal {job : MigrationJob} (h : job.Adrift) :
    job.state.terminal = false := by
  obtain hstate | hstate := h.state <;> rw [hstate] <;> rfl

theorem MigrationJob.Adrift.perform {job job' : MigrationJob} (h : job.Adrift) {op : JobOp}
    {answer : JobAnswer} (hpermits : resumedProtocol.permits () op)
    (hperform : job.perform op answer = some job') :
    resumedProtocol.answers op answer ∧ job'.Adrift := by
  have hanswers := MigrationJob.answers_of_perform hperform
  obtain rfl | rfl | rfl | rfl := hpermits
  · obtain ⟨state, rfl⟩ := hanswers
    rw [MigrationJob.perform] at hperform
    split at hperform
    · rename_i hstate
      cases hperform
      refine ⟨?_, h⟩
      rw [hstate]
      exact h.state.imp (congrArg _) (congrArg _)
    · cases hperform
  · obtain ⟨b, rfl⟩ := hanswers
    rw [MigrationJob.perform, h.pool] at hperform
    split at hperform
    · rename_i hb
      cases hperform
      exact ⟨congrArg _ hb.symm, h⟩
    · cases hperform
  · obtain ⟨b, rfl⟩ := hanswers
    rw [MigrationJob.perform] at hperform
    split at hperform
    · cases hperform
      refine ⟨⟨b, rfl⟩, ?_⟩
      cases b with
      | true => exact ⟨h.pool, .inr rfl⟩
      | false => exact h
    · cases hperform
  · obtain ⟨b, rfl⟩ := hanswers
    cases hperform
    exact ⟨⟨b, rfl⟩, h⟩

section Threads

variable {C : Type}

/-- The threads of the process after the load. -/
abbrev ResumedThreads (C : Type) := Threads.State C MigrationJob JobOp JobAnswer JobOutcome Unit

/-- Only `resume` and `wait` are called. -/
def ResumeAndWait (_ : ResumedThreads C) : JobEvent C → Prop
  | .enter _ api => api = .resume ∨ api = .wait
  | _ => True

theorem resumed_rules : Threads.Rules (T := C) jobCode resumedProtocol (fun _ => ()) ResumeAndWait
    notWaited MigrationJob.Adrift (fun _ _ => True) (fun _ _ => True) where
  symm _ _ _ := trivial
  entry s c api hallowed := by
    obtain rfl | rfl := hallowed
    · exact resumed_follows_resume
    · exact resumed_follows_wait
  enter _ _ _ := trivial
  enterApart _ _ := trivial
  goesOn _ outcome prog hfinal hgoesOn := by
    cases outcome with
    | returns ret => cases hgoesOn
    | waited => cases hgoesOn
    | goesTo loop =>
      cases loop with
      | wait =>
        cases hgoesOn
        exact resumed_follows_wait
      | poolWait => exact hfinal.elim
  step s c m op f answer job h _ hpermits _ hperform := by
    obtain ⟨hanswers, hadrift⟩ := h.shared.perform hpermits hperform
    exact ⟨hanswers, hadrift, trivial, fun _ _ _ _ => ⟨trivial, trivial⟩⟩
  environment job e job' h hstep := by
    -- there are no workers
    have hnone : job.workerStep e = none := by
      rw [MigrationJob.workerStep, MigrationJob.onPool, h.pool]
      rfl
    exact absurd (hnone.symm.trans hstep).symm (Option.some_ne_none job')

variable [DecidableEq C]

/-- The machine of calls after the load. -/
def resumedMachine (C : Type) [DecidableEq C] : Machine (ResumedThreads C) (JobEvent C) :=
  Threads.machine jobCode resumedProtocol fun _ => ()

theorem adrift_of_reachable {job : MigrationJob} (hjob : job.Adrift) {s : ResumedThreads C}
    (h : (resumedMachine C).Reachable ResumeAndWait (Threads.start job) s) :
    s.shared.state.terminal = false ∧ ∀ c, jobWaited s c = false := by
  have hinv := Threads.inv_of_reachable resumed_rules hjob h
  refine ⟨hinv.shared.not_terminal, ?_⟩
  intro c
  rw [← Bool.not_eq_true]
  intro hwaited
  obtain ⟨call, hcall, hrest⟩ := rest_of_jobWaited hwaited
  have hfollows := hinv.follows c call hcall
  rw [hrest] at hfollows
  exact hfollows

end Threads

/-- **A job that was saved while migrating never ends after it is loaded.**  Whatever the job, and
whoever calls `resume` and `wait` on what was loaded, its state is never terminal and no call of
`wait` returns. -/
theorem resumed_never_ends {C : Type} [DecidableEq C] {cjson : CJson} {r : AtomicWrite}
    (hinstalls : r.installs = true) (old : Option cjson.Text) (info : JobInfo) {job : MigrationJob}
    (hstate : job.state = .migrating) (now : ℤ) {diskCount : ℤ} (hdisks : 0 < diskCount) :
    ∃ info' loaded, migrationJobResumeFromCheckpoint cjson
        (migrationJobSave cjson r old info job now) diskCount = some (info', loaded) ∧
      ∀ s : ResumedThreads C,
        (resumedMachine C).Reachable ResumeAndWait (Threads.start loaded) s →
        s.shared.state.terminal = false ∧ ∀ c, jobWaited s c = false := by
  refine ⟨info.rounded, job.rounded .paused, ?_, ?_⟩
  · exact resumeFromCheckpoint_save hinstalls old hdisks hstate
  · intro s hs
    exact adrift_of_reachable ⟨rfl, .inl rfl⟩ hs

/-- A job with one object, that is not yet migrated. -/
def oneObjectJob : MigrationJob where
  state := .migrating
  totalObjects := 1
  migratedObjects := 0
  failedObjects := 0
  bytesTotal := 5
  bytesMigrated := 0
  workerPool := none

def oneObjectInfo : JobInfo := ⟨cstr "migration-gen-1-to-2", 1, 2, 0⟩

theorem resumed_never_ends_one_object :
    ∃ info' loaded, migrationJobResumeFromCheckpoint CJson.reference
        (migrationJobSave CJson.reference .ok none oneObjectInfo oneObjectJob 0) 1 =
          some (info', loaded) ∧
      ∀ s : ResumedThreads (Fin 1),
        (resumedMachine (Fin 1)).Reachable ResumeAndWait (Threads.start loaded) s →
        s.shared.state.terminal = false ∧ ∀ c, jobWaited s c = false :=
  resumed_never_ends rfl none oneObjectInfo rfl 0 Int.one_pos

instance {C : Type} [DecidableEq C] (s : ResumedThreads C) (e : JobEvent C) :
    Decidable ((resumedMachine C).enabled s e) :=
  inferInstanceAs (Decidable ((Threads.machine jobCode resumedProtocol fun _ => ()).enabled s e))

instance {C : Type} (s : ResumedThreads C) (e : JobEvent C) : Decidable (ResumeAndWait s e) := by
  unfold ResumeAndWait
  split <;> infer_instance

/-- `resume` returns OK, and `wait` comes back to where it began: the job is MIGRATING, the object
is not migrated, and this is all that can happen. -/
theorem resumed_goes_round :
    ∃ info' loaded, migrationJobResumeFromCheckpoint CJson.reference
        (migrationJobSave CJson.reference .ok none oneObjectInfo oneObjectJob 0) 1 =
          some (info', loaded) ∧
      (∃ s : ResumedThreads (Fin 1),
        (resumedMachine (Fin 1)).Reachable ResumeAndWait (Threads.start loaded) s ∧
        s.shared.state = .migrating ∧ s.shared.totalObjects = 1 ∧
        s.shared.migratedObjects + s.shared.failedObjects = 0 ∧ (s.calls 0).isSome = true) ∧
      ∀ s : ResumedThreads (Fin 1),
        (resumedMachine (Fin 1)).Reachable ResumeAndWait (Threads.start loaded) s →
        s.shared.state.terminal = false ∧ jobWaited s 0 = false := by
  have hrun : ((resumedMachine (Fin 1)).run ResumeAndWait
      (Threads.start (oneObjectJob.rounded .paused))
      [.enter 0 .resume, .step 0 (.state .paused), .step 0 (.flag false), .step 0 (.flag true),
        .leave 0, .enter 0 .wait, .step 0 (.state .migrating), .step 0 (.flag false),
        .step 0 (.flag true), .step 0 (.flag false), .goOn 0]).any (fun s =>
      decide (s.shared.state = .migrating ∧ s.shared.totalObjects = 1 ∧
        s.shared.migratedObjects + s.shared.failedObjects = 0 ∧ (s.calls 0).isSome = true)) =
          true := by
    decide +kernel
  obtain ⟨s, hs, hfacts⟩ := Machine.exists_of_run hrun
  refine ⟨oneObjectInfo.rounded, oneObjectJob.rounded .paused, ?_, ?_, ?_⟩
  · exact resumeFromCheckpoint_save rfl none Int.one_pos rfl
  · exact ⟨s, hs, of_decide_eq_true hfacts⟩
  · intro s' hs'
    obtain ⟨hstate, hwaited⟩ := adrift_of_reachable ⟨rfl, .inl rfl⟩ hs'
    exact ⟨hstate, hwaited 0⟩

end Buckets
