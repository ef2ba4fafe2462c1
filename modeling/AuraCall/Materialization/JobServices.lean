import AuraCall.Materialization.Jobs

/-!
# The materialization job services

`createArchiveMaterializationJobService` and `createHistoryMaterializationService`: creating, listing, reading,
cancelling, running and recovering jobs, as scripts on one job store in which every await is an action of its own. Any
number of calls run side by side.

The clock, the file system, and everything that the provider work does are `JobSurroundings`, and may answer anything at
any time. What the history service asks of a request is a `HistoryKind`.

A scheduled job is a link of a chain of promises (`QueueLink`): it runs when the link before it has settled, which
`Scheduled` requires of a step; the services themselves do not look at it.
-/

namespace AuraCall.Materialization

open Script SharedDocument

/-! ## Requests -/

structure ArchiveRequest where
  archiveItemId : String
  force : Bool
  acknowledgeTargetDefaultReset : Bool
  deriving DecidableEq

/-- What the history service makes of requests of type `π`. -/
structure HistoryKind (π : Type) where
  /-- the normalized request and its source key -/
  accept : π → Except Thrown (π × String)
  /-- `resolveRunningStaleThresholdMs` -/
  staleThresholdMs : π → Int
  /-- `formatRunningTimeoutMessage` -/
  timeoutMessage : π → String

/-! ## State -/

/-- What the provider work of a job does next. -/
inductive ProviderTurn (ρ γ : Type)
  /-- an attempt begins, or is checkpointed: the progress of the stored job changes -/
  | attempt (lost : String) (progress : γ → γ)
  | failed (thrown : Thrown)
  /-- the work has a result, and the status and the error it gives the job -/
  | finished (status : JobStatus) (result : ρ) (error : Option JobError) (message : String)
      (final : status = .succeeded ∨ status = .skipped ∨ status = .failed)

/-- What the code is told from outside. A call has a number. -/
structure JobSurroundings (ρ γ : Type) where
  clock : IsoTime
  storeFault : Option Thrown
  generateId : String
  /-- the wait for the provider-work boundary or the acquisition of the browser fails -/
  boundary : Nat → Option Thrown
  turn : Nat → ProviderTurn ρ γ
  /-- the progress that a job has when its run ends without a result -/
  lastProgress : Nat → γ → γ
  /-- the progress that the telemetry of a stale run adds -/
  telemetry : String → γ → γ
  /-- the cleanup after a stale run fails -/
  staleCleanup : Nat → Option Thrown

/-- A link of the chain of promises: a scheduled job that waits for the link before it, and runs. -/
structure QueueLink where
  call : Nat
  jobId : String
  after : Option Nat
  begun : Bool
  settled : Bool
  /-- the `finally` after it has ended -/
  finished : Bool
  /-- its job was declared stale while it ran -/
  stale : Bool
  deriving DecidableEq

/-- A running job was declared stale: whether it was marked as scheduled, and the links by then. -/
structure StaleDeclaration where
  jobId : String
  marked : Bool
  links : List QueueLink
  deriving DecidableEq

structure Scheduler where
  scheduledJobIds : List String
  /-- jobs whose work was handed to `schedule` and has not begun -/
  callbacks : List String
  links : List QueueLink
  /-- the link that the next one waits for; a resolved promise is none -/
  queue : Option Nat
  declared : List StaleDeclaration
  deriving DecidableEq

/-- Provider work that was started. -/
structure StartedWork where
  call : Nat
  jobId : String

/-- A look for an active job: when, and for which source key. -/
structure SourceScan where
  call : Nat
  position : Nat
  sourceKey : String

structure JobRest (ρ γ : Type) where
  surroundings : JobSurroundings ρ γ
  scheduler : Scheduler
  work : List StartedWork
  scans : List SourceScan

variable {π ρ γ α : Type}

abbrev ServiceState (π ρ γ : Type) := JobState π ρ γ (JobRest ρ γ)

abbrev ServiceScript (π ρ γ α : Type) := JobScript π ρ γ (JobRest ρ γ) α

/-- What calls resolve to. -/
inductive JobReply (π ρ γ : Type)
  | created (reused : Bool) (job : MaterializationJob π ρ γ)
  | listed (jobs : List (MaterializationJob π ρ γ))
  | read (job : Option (MaterializationJob π ρ γ))
  | cancelled (job : MaterializationJob π ρ γ)
  | ran (job : MaterializationJob π ρ γ)
  | recovered (count : Nat)
  | scheduled

def storeFault (rest : JobRest ρ γ) : Option Thrown := rest.surroundings.storeFault

def ask (read : JobSurroundings ρ γ → Except Thrown α) : ServiceScript π ρ γ α := look fun s => read s.rest.surroundings

def now : ServiceScript π ρ γ IsoTime := ask fun surroundings => .ok surroundings.clock

/-- Nothing, or an error. -/
def throwAny : Option Thrown → Except Thrown PUnit
  | none => .ok ⟨⟩
  | some thrown => .error thrown

/-! ## Scheduling -/

/-- `scheduleJob` of the history service: a job that is scheduled already is not scheduled again. -/
def Scheduler.scheduleJob (scheduler : Scheduler) (jobId : String) : Scheduler :=
  if jobId ∈ scheduler.scheduledJobIds then scheduler
  else { scheduler with
    scheduledJobIds := scheduler.scheduledJobIds ++ [jobId], callbacks := scheduler.callbacks ++ [jobId] }

/-- The archive service schedules without a set. -/
def Scheduler.schedule (scheduler : Scheduler) (jobId : String) : Scheduler :=
  { scheduler with callbacks := scheduler.callbacks ++ [jobId] }

/-- `queue = queue.then(...)`. -/
def Scheduler.chain (scheduler : Scheduler) (call : Nat) (jobId : String) : Scheduler :=
  { scheduler with
    callbacks := scheduler.callbacks.erase jobId
    links := scheduler.links ++ [⟨call, jobId, scheduler.queue, false, false, false, false⟩]
    queue := some scheduler.links.length }

/-- The link of a call goes on. -/
def Scheduler.mark (scheduler : Scheduler) (call : Nat) (f : QueueLink → QueueLink) : Scheduler :=
  { scheduler with links := scheduler.links.map fun link => if link.call = call then f link else link }

/-- `scheduledJobIds.delete(jobId)`. -/
def Scheduler.unschedule (scheduler : Scheduler) (jobId : String) : Scheduler :=
  { scheduler with scheduledJobIds := scheduler.scheduledJobIds.filter (· ≠ jobId) }

/-- The runs of a job that is declared stale. -/
def Scheduler.declareStale (scheduler : Scheduler) (jobId : String) : Scheduler :=
  { scheduler with
    links := scheduler.links.map fun link =>
      if link.jobId = jobId ∧ link.begun = true ∧ link.settled = false then { link with stale := true } else link
    declared := scheduler.declared ++ [⟨jobId, decide (jobId ∈ scheduler.scheduledJobIds), scheduler.links⟩] }

/-- `if (scheduledJobIds.delete(jobId)) queue = Promise.resolve()`. -/
def Scheduler.abandon (scheduler : Scheduler) (jobId : String) : Scheduler :=
  if jobId ∈ scheduler.scheduledJobIds then { (scheduler.declareStale jobId).unschedule jobId with queue := none }
  else scheduler.declareStale jobId

def changeScheduler (f : Scheduler → Scheduler) : ServiceScript π ρ γ PUnit :=
  change fun s => { s with rest := { s.rest with scheduler := f s.rest.scheduler } }

/-! ## Both services -/

section Both

variable (call : Nat)

/-- A scan of the stored jobs for a source key. -/
def noteScan (position : Nat) (sourceKey : String) : ServiceScript π ρ γ PUnit :=
  change fun s => { s with rest := { s.rest with scans := s.rest.scans ++ [⟨call, position, sourceKey⟩] } }

/-- A new job. -/
def queuedJob (id : String) (request : π) (sourceKey : String) (generatedAt : IsoTime) (progress : γ)
    (message : String) : MaterializationJob π ρ γ :=
  { id, request, sourceKey, status := .queued, createdAt := generatedAt, updatedAt := generatedAt, startedAt := none
    completedAt := none, attemptCount := 0, result := none, progress, error := none, message }

def cancelledJob (job : MaterializationJob π ρ γ) (cancelledAt : IsoTime) (message : String) :
    MaterializationJob π ρ γ :=
  { job with status := .cancelled, updatedAt := cancelledAt, completedAt := some cancelledAt, error := none, message }

/-- `cancelJob`, for the service whose errors begin with `service`. -/
def cancelJob (service id : String) : ServiceScript π ρ γ (JobReply π ρ γ) := do
  let jobId := trim id
  if jobId = "" then throw (.control (service ++ " materialization job id is required.") 400)
  else do
    let jobs ← listJobs storeFault
    match findJob jobId jobs.items with
    | none => throw (.control (service ++ " materialization job " ++ jobId ++ " was not found.") 404)
    | some job =>
      if job.status = .cancelled then pure (.cancelled job)
      else if job.status ≠ .queued then
        throw (.control (service ++ " materialization job " ++ jobId ++ " is " ++ job.status.text ++
          "; only queued jobs can be cancelled before provider work starts.") 409)
      else do
        let cancelledAt ← now
        let cancelled := cancelledJob job cancelledAt
          (service ++ " materialization job cancelled before provider work started.")
        let _ ← upsertJob storeFault call (some jobs) cancelled
        pure (.cancelled cancelled)

def runningJob (job : MaterializationJob π ρ γ) (startedAt : IsoTime) (message : String) : MaterializationJob π ρ γ :=
  { job with
    status := .running, startedAt := some (job.startedAt.getD startedAt), updatedAt := startedAt
    attemptCount := job.attemptCount + 1, error := none, message }

/-- Provider work for a job is started. -/
def startWork (jobId : String) : ServiceScript π ρ γ PUnit :=
  change fun s => { s with rest := { s.rest with work := s.rest.work ++ [⟨call, jobId⟩] } }

def failedJob (job : MaterializationJob π ρ γ) (failedAt : IsoTime) (error : JobError) (message : String) :
    MaterializationJob π ρ γ :=
  { job with status := .failed, updatedAt := failedAt, completedAt := some failedAt, error := some error, message }

/-- What `recoverInterruptedJobs` makes of a job that was interrupted. -/
def interruptedJob (service : String) (job : MaterializationJob π ρ γ) (time : IsoTime) : MaterializationJob π ρ γ :=
  let message := service ++ " materialization job was interrupted before this AuraCall API process started."
  failedJob job time ⟨message, .internalError, 500⟩ message

end Both

/-! ## The archive service -/

section Archive

variable (call : Nat)

def findActiveJobForArchiveItem (archiveItemId : String) (jobs : List (MaterializationJob π ρ γ)) :
    Option (MaterializationJob π ρ γ) :=
  jobs.find? fun job => job.sourceKey == archiveItemId && isActiveStatus job.status

/-- `createJob` of the archive service. -/
def createArchiveJob (request : ArchiveRequest) (progress : γ) :
    ServiceScript ArchiveRequest ρ γ (JobReply ArchiveRequest ρ γ) := do
  let archiveItemId := trim request.archiveItemId
  if archiveItemId = "" then throw (.materialization "Archive item id is required." 400)
  else do
    let generatedAt ← now
    let jobs ← listJobs storeFault
    noteScan call jobs.position archiveItemId
    match findActiveJobForArchiveItem archiveItemId jobs.items with
    | some active => pure (.created true active)
    | none => do
      let id ← ask fun surroundings => .ok surroundings.generateId
      let job := queuedJob id { request with archiveItemId } archiveItemId generatedAt progress
        "Archive materialization job queued."
      let _ ← upsertJob storeFault call none job
      changeScheduler (·.schedule id)
      pure (.created false job)

/-- The end of a run of the archive service: it writes what it has started with, whatever is stored by now. -/
def settleArchiveJob (started : Basis (MaterializationJob π ρ γ)) (settled : IsoTime → MaterializationJob π ρ γ) :
    ServiceScript π ρ γ (JobReply π ρ γ) := do
  let completedAt ← now
  let job := settled completedAt
  let _ ← upsertJob storeFault call (some started) job
  pure (.ran job)

/-- The `try` of a run: the provider work, and its result. -/
def workArchiveJob (running : MaterializationJob π ρ γ) (started : Basis (MaterializationJob π ρ γ)) :
    ServiceScript π ρ γ (JobReply π ρ γ) := do
  startWork call running.id
  match ← ask fun surroundings => .ok (surroundings.turn call) with
  | .attempt .. => throw (.error "Archive materialization has no attempts.")
  | .failed thrown => throw thrown
  | .finished status result _ message _ =>
    settleArchiveJob call started fun completedAt =>
      { running with
        status := if status = .skipped then .skipped else .succeeded, updatedAt := completedAt
        completedAt := some completedAt, result := some result, error := none, message }

/-- The `catch` of a run. -/
def failArchiveJob (running : MaterializationJob π ρ γ) (started : Basis (MaterializationJob π ρ γ))
    (thrown : Thrown) : ServiceScript π ρ γ (JobReply π ρ γ) :=
  settleArchiveJob call started fun completedAt =>
    { failedJob running completedAt (materializationJobError thrown)
        (thrown.message "Archive materialization job failed.") with result := none }

/-- `runJob` of the archive service. -/
def runArchiveJob (id : String) : ServiceScript π ρ γ (JobReply π ρ γ) := do
  let jobs ← listJobs storeFault
  match findJob (trim id) jobs.items with
  | none => throw (.materialization ("Archive materialization job " ++ id ++ " was not found.") 404)
  | some job =>
    if !isActiveStatus job.status then pure (.ran job)
    else do
      let startedAt ← now
      let running := runningJob job startedAt "Archive materialization job is running."
      let started ← upsertJob storeFault call (some jobs) running
      (workArchiveJob call running started).orElse (failArchiveJob call running started)

/-- The jobs that were interrupted, one after the other. -/
def recoverArchiveJobs (jobs : Basis (MaterializationJob π ρ γ)) :
    List (MaterializationJob π ρ γ) → Nat → ServiceScript π ρ γ (JobReply π ρ γ)
  | [], recovered => pure (.recovered recovered)
  | job :: rest, recovered =>
    if !isActiveStatus job.status then recoverArchiveJobs jobs rest recovered
    else do
      let time ← now
      let _ ← upsertJob storeFault call (some jobs) (interruptedJob "Archive" job time)
      recoverArchiveJobs jobs rest (recovered + 1)

/-- `recoverInterruptedJobs` of the archive service. -/
def recoverInterruptedArchiveJobs : ServiceScript π ρ γ (JobReply π ρ γ) := do
  let jobs ← listJobs storeFault
  recoverArchiveJobs call jobs jobs.items 0

end Archive

/-! ## The history service -/

section History

variable (kind : HistoryKind π) (call : Nat)

def canRunningJobTimeout (job : MaterializationJob π ρ γ) : Bool := job.status = .running

def isTimedOutRunningJob (job : MaterializationJob π ρ γ) (time : IsoTime) : Bool :=
  canRunningJobTimeout job &&
    decide (kind.staleThresholdMs job.request ≤ time.ms - (job.startedAt.getD job.updatedAt).ms)

/-- `recoverStaleRunningJob`, of a job that a reading has found. -/
def recoverStaleRunningJob (jobs : Basis (MaterializationJob π ρ γ)) (job : MaterializationJob π ρ γ) :
    ServiceScript π ρ γ (MaterializationJob π ρ γ) := do
  let time ← now
  if isTimedOutRunningJob kind job time then do
    let telemetry ← ask fun surroundings => .ok (surroundings.telemetry job.id)
    let message := kind.timeoutMessage job.request
    let failed := { failedJob job time ⟨message, .internalError, 500⟩ message with progress := telemetry job.progress }
    let _ ← upsertJob storeFault call (some jobs) failed
    changeScheduler (·.abandon job.id)
    ask fun surroundings => throwAny (surroundings.staleCleanup call)
    pure failed
  else pure job

/-- `recoverStaleRunningJobs`. -/
def recoverStaleRunningJobs (jobs : Basis (MaterializationJob π ρ γ)) :
    List (MaterializationJob π ρ γ) → ServiceScript π ρ γ (List (MaterializationJob π ρ γ))
  | [] => pure []
  | job :: rest => do
    let recovered ← recoverStaleRunningJob kind call jobs job
    let others ← recoverStaleRunningJobs jobs rest
    pure (recovered :: others)

/-- The first active job of the source that is not declared stale. -/
def findActiveJob (sourceKey : String) (jobs : Basis (MaterializationJob π ρ γ)) :
    List (MaterializationJob π ρ γ) → ServiceScript π ρ γ (Option (MaterializationJob π ρ γ))
  | [] => pure none
  | job :: rest =>
    if job.sourceKey ≠ sourceKey ∨ isActiveStatus job.status = false then findActiveJob sourceKey jobs rest
    else do
      let recovered ← recoverStaleRunningJob kind call jobs job
      if isActiveStatus recovered.status then pure (some recovered) else findActiveJob sourceKey jobs rest

/-- `findActiveJobForSource`. -/
def findActiveJobForSource (sourceKey : String) : ServiceScript π ρ γ (Option (MaterializationJob π ρ γ)) := do
  let jobs ← listJobs storeFault
  noteScan call jobs.position sourceKey
  findActiveJob kind call sourceKey jobs jobs.items

/-- `createJob` of the history service. -/
def createHistoryJob (request : π) (progress : γ) : ServiceScript π ρ γ (JobReply π ρ γ) := do
  let (normalized, sourceKey) ← ofExcept (kind.accept request)
  let generatedAt ← now
  match ← findActiveJobForSource kind call sourceKey with
  | some active => do
    if active.status = .queued then changeScheduler (·.scheduleJob active.id) else pure ⟨⟩
    pure (.created true active)
  | none => do
    let id ← ask fun surroundings => .ok surroundings.generateId
    let job := queuedJob id normalized sourceKey generatedAt progress "History materialization job queued."
    let _ ← upsertJob storeFault call none job
    changeScheduler (·.scheduleJob id)
    pure (.created false job)

/-- `listJobs` of the history service. -/
def listHistoryJobs : ServiceScript π ρ γ (JobReply π ρ γ) := do
  let jobs ← listJobs storeFault
  let recovered ← recoverStaleRunningJobs kind call jobs jobs.items
  pure (.listed recovered)

/-- `readJob` of the history service. -/
def readHistoryJob (id : String) : ServiceScript π ρ γ (JobReply π ρ γ) := do
  let jobs ← listJobs storeFault
  match findJob (trim id) jobs.items with
  | none => pure (.read none)
  | some job => do
    let recovered ← recoverStaleRunningJob kind call jobs job
    pure (.read (some recovered))

/-- `beginAttempt` and `checkpoint`: the progress of a job that is still running. -/
def saveProgress (jobId lost : String) (progress : γ → γ) : ServiceScript π ρ γ PUnit := do
  let jobs ← listJobs storeFault
  match findJob jobId jobs.items with
  | none => throw (.error lost)
  | some job =>
    if job.status ≠ .running then throw (.error lost)
    else do
      let _ ← upsertJob storeFault call (some jobs) { job with progress := progress job.progress }
      pure ⟨⟩

/-- The end of a run of the history service: a stored job that is not active any more is left alone. -/
def settleHistoryJob (running : MaterializationJob π ρ γ)
    (settled : MaterializationJob π ρ γ → IsoTime → MaterializationJob π ρ γ) :
    ServiceScript π ρ γ (JobReply π ρ γ) := do
  let jobs ← listJobs storeFault
  match findJob running.id jobs.items with
  | some current =>
    if !isActiveStatus current.status then pure (.ran current)
    else do
      let completedAt ← now
      let _ ← upsertJob storeFault call (some jobs) (settled current completedAt)
      pure (.ran (settled current completedAt))
  | none => do
    let completedAt ← now
    let _ ← upsertJob storeFault call (some jobs) (settled running completedAt)
    pure (.ran (settled running completedAt))

/-- The provider work of a job: its attempts, and its result. -/
def workHistoryJob (running : MaterializationJob π ρ γ) : Nat → ServiceScript π ρ γ (JobReply π ρ γ)
  | 0 => throw (.error "")
  | rounds + 1 => do
    match ← ask fun surroundings => .ok (surroundings.turn call) with
    | .attempt lost progress => do
      saveProgress call running.id lost progress
      workHistoryJob running rounds
    | .failed thrown => throw thrown
    | .finished status result error message _ =>
      settleHistoryJob call running fun job completedAt =>
        { job with
          status, updatedAt := completedAt, completedAt := some completedAt, result := some result, error, message }

/-- The `catch` of a run. -/
def failHistoryJob (running : MaterializationJob π ρ γ) (thrown : Thrown) : ServiceScript π ρ γ (JobReply π ρ γ) := do
  let progress ← ask fun surroundings => .ok (surroundings.lastProgress call)
  settleHistoryJob call running fun job completedAt =>
    { failedJob job completedAt (historyMaterializationJobError thrown)
        (thrown.message "History materialization job failed.") with
      result := none, progress := progress job.progress }

/-- The `try` of a run: the provider work starts when the browser is there. -/
def tryHistoryJob (running : MaterializationJob π ρ γ) (rounds : Nat) : ServiceScript π ρ γ (JobReply π ρ γ) := do
  ask fun surroundings => throwAny (surroundings.boundary call)
  startWork call running.id
  workHistoryJob call running rounds

/-- `runJob` of the history service; the provider work may take any number of rounds. -/
def runHistoryJob (id : String) (rounds : Nat) : ServiceScript π ρ γ (JobReply π ρ γ) := do
  let jobs ← listJobs storeFault
  match findJob (trim id) jobs.items with
  | none => throw (.materialization ("History materialization job " ++ id ++ " was not found.") 404)
  | some job =>
    if !isActiveStatus job.status then pure (.ran job)
    else do
      let startedAt ← now
      let running := runningJob job startedAt "History materialization job is running."
      let _ ← upsertJob storeFault call (some jobs) running
      (tryHistoryJob call running rounds).orElse (failHistoryJob call running)

/-- What `recoverInterruptedJobs` of the history service makes of a queued job. -/
def requeuedJob (job : MaterializationJob π ρ γ) (time : IsoTime) : MaterializationJob π ρ γ :=
  { job with
    updatedAt := time, error := none
    message := "History materialization job was recovered and re-queued after AuraCall API startup." }

def recoverHistoryJobs (jobs : Basis (MaterializationJob π ρ γ)) :
    List (MaterializationJob π ρ γ) → Nat → ServiceScript π ρ γ (JobReply π ρ γ)
  | [], recovered => pure (.recovered recovered)
  | job :: rest, recovered =>
    if !isActiveStatus job.status then recoverHistoryJobs jobs rest recovered
    else if job.status = .queued then do
      let time ← now
      let _ ← upsertJob storeFault call (some jobs) (requeuedJob job time)
      changeScheduler (·.scheduleJob job.id)
      recoverHistoryJobs jobs rest (recovered + 1)
    else do
      let time ← now
      let _ ← upsertJob storeFault call (some jobs) (interruptedJob "History" job time)
      recoverHistoryJobs jobs rest (recovered + 1)

/-- `recoverInterruptedJobs` of the history service. -/
def recoverInterruptedHistoryJobs : ServiceScript π ρ γ (JobReply π ρ γ) := do
  let jobs ← listJobs storeFault
  recoverHistoryJobs call jobs jobs.items 0

end History

/-! ## Scheduled work -/

/-- The work that `schedule` calls: a link of the chain, the run of its job, and what follows it. -/
def scheduledWork (call : Nat) (jobId : String) (run : ServiceScript π ρ γ (JobReply π ρ γ))
    (settled : Scheduler → Scheduler) : ServiceScript π ρ γ (JobReply π ρ γ) := do
  changeScheduler (·.chain call jobId)
  changeScheduler (·.mark call fun link => { link with begun := true })
  let _ ← (run.bind fun _ => pure ⟨⟩).orElse fun _ => (pure ⟨⟩ : ServiceScript π ρ γ PUnit)
  changeScheduler (·.mark call fun link => { link with settled := true })
  changeScheduler fun scheduler => settled (scheduler.mark call fun link => { link with finished := true })
  pure .scheduled

/-! ## All calls -/

inductive JobCall (π γ : Type)
  | createJob (request : π) (progress : γ)
  | listJobs
  | readJob (id : String)
  | cancelJob (id : String)
  | runJob (id : String) (rounds : Nat)
  | recoverInterruptedJobs
  | work (jobId : String) (rounds : Nat)

def archiveCall (call : Nat) : JobCall ArchiveRequest γ → ServiceScript ArchiveRequest ρ γ (JobReply ArchiveRequest ρ γ)
  | .createJob request progress => createArchiveJob call request progress
  | .listJobs => do
    let jobs ← listJobs storeFault
    pure (.listed jobs.items)
  | .readJob id => do
    let jobs ← listJobs storeFault
    pure (.read (findJob (trim id) jobs.items))
  | .cancelJob id => cancelJob call "Archive" id
  | .runJob id _ => runArchiveJob call id
  | .recoverInterruptedJobs => recoverInterruptedArchiveJobs call
  | .work jobId _ => scheduledWork call jobId (runArchiveJob call jobId) id

def historyCall (kind : HistoryKind π) (call : Nat) : JobCall π γ → ServiceScript π ρ γ (JobReply π ρ γ)
  | .createJob request progress => createHistoryJob kind call request progress
  | .listJobs => listHistoryJobs kind call
  | .readJob id => readHistoryJob kind call id
  | .cancelJob id => cancelJob call "History" id
  | .runJob id rounds => runHistoryJob call id rounds
  | .recoverInterruptedJobs => recoverInterruptedHistoryJobs call
  | .work jobId rounds => scheduledWork call jobId (runHistoryJob call jobId rounds) (·.unschedule jobId)

/-- What happens besides: the surroundings change. -/
def disturbJobs (s : ServiceState π ρ γ) (surroundings : JobSurroundings ρ γ) : Option (ServiceState π ρ γ) :=
  some { s with rest := { s.rest with surroundings } }

/-- A process starts with the stored jobs, whose ids differ. -/
def JobInit (s : ServiceState π ρ γ) : Prop :=
  s.writes = [] ∧ (s.items.map (·.id)).Nodup ∧ s.rest.scheduler = ⟨[], [], [], none, []⟩ ∧ s.rest.work = [] ∧ s.rest.scans = []

/-- Any number of calls of the archive service. -/
def archiveSystem (ρ γ : Type) (Init : ServiceState ArchiveRequest ρ γ → Prop) :
    TransitionSystem (Threads (ServiceState ArchiveRequest ρ γ) Thrown (JobReply ArchiveRequest ρ γ))
      (Threads.Event (JobCall ArchiveRequest γ) (JobSurroundings ρ γ)) :=
  Threads.system Init archiveCall disturbJobs

/-- Any number of calls of the history service. -/
def historySystem (kind : HistoryKind π) (ρ γ : Type) (Init : ServiceState π ρ γ → Prop) :
    TransitionSystem (Threads (ServiceState π ρ γ) Thrown (JobReply π ρ γ))
      (Threads.Event (JobCall π γ) (JobSurroundings ρ γ)) :=
  Threads.system Init (historyCall kind) disturbJobs

end AuraCall.Materialization
