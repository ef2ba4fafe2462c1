import AuraCall.Runtime.ResponseBatches

/-!
# Gates and step starts

The server asks two gates before a run may start its next step: `createResponseBatchExecutionGate`, then
`createTenantExecutionLimitGate` (`composeExecutionGates`). Here the gates answer one run at a time: from the first
question to the start of a step no other run is asked, while the records of all runs go on. A run can start any step
that `startExecutionRunStep` starts.

Every start is logged with its tenant and its batch, as the record has them.
-/

namespace AuraCall.Runtime

/-! ## The gate of a batch -/

def minuteMs : Int := 60000

/-- A direct run with the metadata of the batch. -/
def isBatchRun (batchId : String) (record : ExecutionRunStoredRecord) : Bool :=
  record.value.run.sourceKind == .direct && (readResponseBatchRunMetadata record).any (·.batchId == batchId)

def countActiveBatchRuns (records : List ExecutionRunStoredRecord) (batchId excludingRunId : String) : Nat :=
  (records.filter fun record =>
    runIdOf record != excludingRunId && isBatchRun batchId record && ! isTerminalRun record &&
      recordHasActiveLease record).length

/-- The event starts a step of the batch, and not before the cutoff. -/
def startsBatchStep (deps : TenantGateDeps) (batchId : String) (cutoffMs : Int) (record : ExecutionRunStoredRecord)
    (event : ExecutionRunEvent) : Bool :=
  isBatchRun batchId record && event.type == .stepStarted && (deps.dates.parse event.createdAt).any (cutoffMs ≤ ·)

/-- The keys of some events of the records, each once. -/
def startedKeys (p : ExecutionRunStoredRecord → ExecutionRunEvent → Bool) (records : List ExecutionRunStoredRecord) :
    List String :=
  records.foldl (fun keys record => record.value.events.foldl (fun keys event =>
    if p record event then
      if keys.contains (eventChatKey record event) then keys else keys ++ [eventChatKey record event]
    else keys) keys) []

def countRecentlyStartedBatchRuns (deps : TenantGateDeps) (records : List ExecutionRunStoredRecord) (batchId : String)
    (cutoffMs : Int) : Nat := (startedKeys (startsBatchStep deps batchId cutoffMs) records).length

/-- `createResponseBatchExecutionGate`, on a listing of all runs. -/
def responseBatchGate (deps : TenantGateDeps) (records : List ExecutionRunStoredRecord) (nowMs : Int)
    (record : ExecutionRunStoredRecord) : GateAnswer :=
  match readResponseBatchRunMetadata record with
  | none => .allowed
  | some batch =>
    let active := refuseAtLimit batch.limits.maxConcurrentRuns
      (countActiveBatchRuns records batch.batchId (runIdOf record)) fun activeCount max =>
        s!"response batch {batch.batchId} concurrency limit reached: {activeCount}/{max}"
    let started := refuseAtLimit batch.limits.maxBrowserInteractionsPerMinute
      (countRecentlyStartedBatchRuns deps records batch.batchId (nowMs - minuteMs)) fun startedCount max =>
        s!"response batch {batch.batchId} browser interaction rate limit reached: {startedCount}/{max} per minute"
    match active <|> started with
    | some reason => .refused reason
    | none => .allowed

/-! ## Starts -/

/-- The tenant of a step. -/
def stepTenant (deps : TenantGateDeps) (step : ExecutionRunStep) : Option String :=
  if step.service = some .chatgpt then
    some (chatgptTenantKey deps.table deps.config (normalizeNonEmptyString step.runtimeProfileId)
      (normalizeNonEmptyString step.browserProfileId))
  else none

/-- The tenant of the step with this id, where the last one counts. -/
def tenantOfStep (deps : TenantGateDeps) (record : ExecutionRunStoredRecord) (stepId : String) : Option String :=
  (stepById record.value.steps stepId).bind (stepTenant deps)

/-- The batch of a direct run. -/
def batchOfRun (record : ExecutionRunStoredRecord) : Option String :=
  if record.value.run.sourceKind = .direct then (readResponseBatchRunMetadata record).map (·.batchId) else none

/-- The key that the gates count the starts of a step by. -/
def stepChatKey (runId stepId : String) : String :=
  match truthy (some stepId) with
  | some stepId => runId ++ "\x00" ++ stepId
  | none => runId

structure StepStart where
  runId : String
  stepId : String
  startedAt : Int
  tenantKey : Option String
  batchId : Option String
  deriving DecidableEq

def StepStart.chatKey (start : StepStart) : String := stepChatKey start.runId start.stepId

/-! ## Runs that are asked about -/

/-- What a step keeps. -/
def stepPlan (step : ExecutionRunStep) :
    String × Option ExecutionRunServiceId × Option String × Option String :=
  (step.id, step.service, step.runtimeProfileId, step.browserProfileId)

def startEvents (record : ExecutionRunStoredRecord) : List ExecutionRunEvent :=
  record.value.events.filter (·.type == .stepStarted)

/-- What the record of a run goes through besides the starts of its steps. -/
structure StepProgress extends RunProgress where
  sourceKind : ∀ record, (apply record).value.run.sourceKind = record.value.run.sourceKind
  steps : ∀ record, (apply record).value.steps.map stepPlan = record.value.steps.map stepPlan
  starts : ∀ record, startEvents (apply record) = startEvents record

/-- A run that the gates are asked about: as it was then, and when they have answered. -/
structure PendingStart where
  record : ExecutionRunStoredRecord
  batchAt : Int
  tenantAt : Option Int

structure StartState where
  clock : Int
  stored : KeyedMap StoredRun.runId
  reservationsByTenant : String → TenantReservations
  pending : Option PendingStart
  starts : List StepStart

namespace StartState

def records (s : StartState) : List ExecutionRunStoredRecord := s.stored.values.map (·.record)

/-- `listRuns({ updatedSince })`. -/
def recentRecords (s : StartState) : List ExecutionRunStoredRecord :=
  (s.stored.values.filter fun run => decide (s.clock - dayMs ≤ run.mtimeMs)).map (·.record)

/-- The second gate, on a run of a tenant. -/
def askTenant (deps : TenantGateDeps) (s : StartState) (pending : PendingStart) (scope : TenantExecutionScope) :
    StartState :=
  let decision := decideTenantGate deps scope (runIdOf pending.record) s.clock s.recentRecords
    (s.reservationsByTenant scope.tenantKey)
  { s with
    reservationsByTenant := Function.update s.reservationsByTenant scope.tenantKey decision.1
    pending := if decision.2 = .allowed then some { pending with tenantAt := some s.clock } else none }

/-- The step of a run starts. -/
def started (deps : TenantGateDeps) (s : StartState) (record : ExecutionRunStoredRecord) (stepId : String)
    (bundle : ExecutionRunRecordBundle) : StartState :=
  { s with
    stored := s.stored.set ⟨⟨record.revision + 1, bundle⟩, s.clock⟩
    pending := none
    starts := s.starts ++ [⟨runIdOf record, stepId, s.clock, tenantOfStep deps record stepId, batchOfRun record⟩] }

end StartState

/-- The clock goes on, a run is created or goes on, a gate is asked, the run that has been granted starts a step or
never does, or the server starts again. -/
inductive StartStep
  | tick (time : Int)
  | create (record : ExecutionRunStoredRecord)
  | progress (runId : String) (progress : StepProgress)
  | batchGate (runId : String)
  | tenantGate
  | start (stepId createdAt : String)
  | leave
  | restart

/-- A refusal ends the questions about a run. A start is dated by the clock. -/
def startNext (deps : TenantGateDeps) (s : StartState) : StartStep → Option StartState
  | .tick time => if s.clock ≤ time then some { s with clock := time } else none
  | .create record =>
    if (s.stored.get? (runIdOf record)).isNone ∧ startEvents record = [] then
      some { s with stored := s.stored.set ⟨record, s.clock⟩ }
    else none
  | .progress runId progress =>
    (s.stored.get? runId).map fun run => { s with stored := s.stored.set ⟨progress.apply run.record, s.clock⟩ }
  | .batchGate runId =>
    match s.pending, s.stored.get? runId with
    | none, some run =>
      some { s with
        pending :=
          if responseBatchGate deps s.records s.clock run.record = .allowed then some ⟨run.record, s.clock, none⟩
          else none }
    | _, _ => none
  | .tenantGate =>
    match s.pending with
    | none => none
    | some pending =>
      if pending.tenantAt.isSome then none
      else
        match resolveTenantExecutionScope deps.table deps.config pending.record with
        | none => some { s with pending := some { pending with tenantAt := some s.clock } }
        | some scope => some (s.askTenant deps pending scope)
  | .start stepId createdAt =>
    match s.pending with
    | none => none
    | some pending =>
      if pending.tenantAt.isSome ∧ deps.dates.parse createdAt = some s.clock then
        match s.stored.get? (runIdOf pending.record) with
        | none => none
        | some run =>
          match startExecutionRunStep run.record.value stepId createdAt with
          | .ok bundle => some (s.started deps run.record stepId bundle)
          | .error _ => none
      else none
  | .leave => some { s with pending := none }
  | .restart => some { s with reservationsByTenant := fun _ => .empty, pending := none }

/-- What a step does. -/
inductive StartEffect (deps : TenantGateDeps) (s : StartState) : StartStep → StartState → Prop
  | ticked {time : Int} (hle : s.clock ≤ time) : StartEffect deps s (.tick time) { s with clock := time }
  | created {record : ExecutionRunStoredRecord} (hnew : s.stored.get? (runIdOf record) = none)
      (hstarts : startEvents record = []) :
      StartEffect deps s (.create record) { s with stored := s.stored.set ⟨record, s.clock⟩ }
  | progressed {runId : String} {progress : StepProgress} {run : StoredRun} (hrun : s.stored.get? runId = some run) :
      StartEffect deps s (.progress runId progress)
        { s with stored := s.stored.set ⟨progress.apply run.record, s.clock⟩ }
  | batchGranted {runId : String} {run : StoredRun} (hrun : s.stored.get? runId = some run)
      (hallowed : responseBatchGate deps s.records s.clock run.record = .allowed) :
      StartEffect deps s (.batchGate runId) { s with pending := some ⟨run.record, s.clock, none⟩ }
  | batchRefused {runId : String} : StartEffect deps s (.batchGate runId) { s with pending := none }
  | exempt {pending : PendingStart} (hpending : s.pending = some pending)
      (hscope : resolveTenantExecutionScope deps.table deps.config pending.record = none) :
      StartEffect deps s .tenantGate { s with pending := some { pending with tenantAt := some s.clock } }
  | tenantAsked {pending : PendingStart} {scope : TenantExecutionScope} (hpending : s.pending = some pending)
      (hscope : resolveTenantExecutionScope deps.table deps.config pending.record = some scope) :
      StartEffect deps s .tenantGate (s.askTenant deps pending scope)
  | started {stepId createdAt : String} {pending : PendingStart} {time : Int} {run : StoredRun}
      {bundle : ExecutionRunRecordBundle} (hpending : s.pending = some pending) (htenant : pending.tenantAt = some time)
      (hnow : deps.dates.parse createdAt = some s.clock) (hrun : s.stored.get? (runIdOf pending.record) = some run)
      (hbundle : startExecutionRunStep run.record.value stepId createdAt = .ok bundle) :
      StartEffect deps s (.start stepId createdAt) (s.started deps run.record stepId bundle)
  | left : StartEffect deps s .leave { s with pending := none }
  | restarted : StartEffect deps s .restart { s with reservationsByTenant := fun _ => .empty, pending := none }

theorem startNext_effect {deps : TenantGateDeps} {s s' : StartState} {step : StartStep}
    (h : startNext deps s step = some s') : StartEffect deps s step s' := by
  cases step with
  | tick time =>
    simp only [startNext, Option.ite_none_right_eq_some, Option.some.injEq] at h
    obtain ⟨hle, rfl⟩ := h
    exact .ticked hle
  | create record =>
    simp only [startNext, Option.ite_none_right_eq_some, Option.some.injEq, Option.isNone_iff_eq_none] at h
    obtain ⟨⟨hnew, hstarts⟩, rfl⟩ := h
    exact .created hnew hstarts
  | progress runId progress =>
    simp only [startNext, Option.map_eq_some_iff] at h
    obtain ⟨run, hrun, rfl⟩ := h
    exact .progressed hrun
  | batchGate runId =>
    simp only [startNext] at h
    split at h
    · rename_i run _ hrun
      cases h
      split
      · rename_i hallowed
        exact .batchGranted hrun hallowed
      · exact .batchRefused
    · cases h
  | tenantGate =>
    simp only [startNext] at h
    split at h
    · cases h
    · rename_i pending hpending
      split at h
      · cases h
      · split at h
        · rename_i hscope
          cases h
          exact .exempt hpending hscope
        · rename_i scope hscope
          cases h
          exact .tenantAsked hpending hscope
  | start stepId createdAt =>
    simp only [startNext] at h
    split at h
    · cases h
    · rename_i pending hpending
      split at h
      · rename_i hready
        obtain ⟨time, htenant⟩ := Option.isSome_iff_exists.1 hready.1
        split at h
        · cases h
        · rename_i run hrun
          split at h
          · rename_i bundle hbundle
            cases h
            exact .started hpending htenant hready.2 hrun hbundle
          · cases h
      · cases h
  | leave =>
    cases h
    exact .left
  | restart =>
    cases h
    exact .restarted

/-- No run has been created yet. -/
def StartState.initial (clock : Int) : StartState := ⟨clock, .empty, fun _ => .empty, none, []⟩

/-- The gates and the runs, from a clock. -/
def startSystem (deps : TenantGateDeps) (clock : Int) : TransitionSystem StartState StartStep :=
  .ofNext (· = .initial clock) (startNext deps)

end AuraCall.Runtime
