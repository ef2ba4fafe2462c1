import AuraCall.Runtime.Dispatch
import AuraCall.Runtime.Lease

/-!
# What the runner does to the steps of a run

Starting, succeeding, failing, cancelling, resuming and recovering steps, and the operator's entries about a run. Each
is a function of the bundle; what the executor of a step has produced is an argument.
-/

namespace AuraCall.Runtime

/-! ## Starting, succeeding and failing -/

def startStep (startedAt : String) (candidate : ExecutionRunStep) : ExecutionRunStep :=
  { candidate with status := .running, startedAt := some startedAt, completedAt := none, failure := none }

def startExecutionRunStep (bundle : ExecutionRunRecordBundle) (stepId startedAt : String) :
    Except RuntimeError ExecutionRunRecordBundle := do
  let step ← requireStep bundle stepId
  if step.status ≠ .planned ∧ step.status ≠ .runnable then throwing s!"Execution step {stepId} is not runnable"
  else .ok (applyBundleMutation bundle {
    updatedAt := startedAt
    event := { id := s!"{bundle.run.id}:event:{stepId}:started:{startedAt}", runId := bundle.run.id, type := .stepStarted,
               createdAt := startedAt, stepId := some stepId, note := some "step started by local runner" }
    runStatus := .running
    sharedStateStatus := .active
    stepUpdater := updateStep stepId (startStep startedAt) })

/-- `normalizeTaskTransfer(value) !== null`. -/
def isTaskTransfer (value : Json) : Bool :=
  value.record?.any fun transfer =>
    (transfer.string? "title").any (! ·.isEmpty) || (transfer.string? "objective").any (! ·.isEmpty) ||
    ((transfer.get "successCriteria").bind (·.array?)).any (·.any (·.string?.isSome)) ||
    ((transfer.get "requestedOutputs").bind (·.array?)).any (·.any (·.record?.isSome)) ||
    ((transfer.get "inputArtifacts").bind (·.array?)).any (·.any (·.record?.isSome))

/-- The handoffs with a task transfer from a dependency of the step. -/
def extractDependencyTaskTransfers (handoffs : List TeamRunHandoff) (step : ExecutionRunStep) : List TeamRunHandoff :=
  handoffs.filter fun handoff => handoff.toStepId == step.id && step.dependsOnStepIds.contains handoff.fromStepId &&
    (handoff.structuredData.get "taskTransfer").any isTaskTransfer

structure ConsumedTaskTransferLifecycle where
  handoffs : List TeamRunHandoff
  events : List ExecutionRunEvent

def applyConsumedTaskTransferLifecycle (bundle : ExecutionRunRecordBundle) (stepId completedAt : String) :
    Except RuntimeError ConsumedTaskTransferLifecycle := do
  let step ← requireStep bundle stepId
  let consumedTransfers := extractDependencyTaskTransfers bundle.handoffs step
  if consumedTransfers.isEmpty then .ok ⟨bundle.handoffs, []⟩
  else .ok {
    handoffs := bundle.handoffs.map fun handoff =>
      if consumedTransfers.any (·.id == handoff.id) then
        { handoff with status := .consumed, notes := handoff.notes ++ [s!"handoff consumed by {stepId}"] }
      else handoff
    events := consumedTransfers.map fun transfer =>
      { id := s!"{bundle.run.id}:event:{transfer.id}:consumed:{completedAt}", runId := bundle.run.id,
        type := .handoffConsumed, createdAt := completedAt, stepId := some stepId,
        note := some s!"handoff consumed from {transfer.fromStepId} by {stepId}",
        payload := some [("handoffId", .string transfer.id), ("fromStepId", .string transfer.fromStepId),
          ("fromAgentId", .string transfer.fromAgentId)] } }

/-- What a step leaves when its executor returns nothing. -/
def defaultOutput : TeamRunStepOutput := ⟨some "bounded local runner pass completed", [], [], []⟩

/-- The argument of `succeedExecutionRunStep`; `handoffContext` is `applyResolvedLocalActionOutcomeContextToHandoffs`.
-/
structure SucceedInput where
  completedAt : String
  output : Option TeamRunStepOutput := none
  sharedState : SharedStatePatch := {}
  localActionRequests : Option (List TeamRunLocalActionRequest) := none
  localActionEvents : List ExecutionRunEvent := []
  handoffContext : List TeamRunHandoff → List TeamRunHandoff := id

def succeedStep (completedAt : String) (output : TeamRunStepOutput) (candidate : ExecutionRunStep) : ExecutionRunStep :=
  { candidate with status := .succeeded, completedAt := some completedAt, output := some output, failure := none }

def succeedExecutionRunStep (bundle : ExecutionRunRecordBundle) (stepId : String) (input : SucceedInput) :
    Except RuntimeError ExecutionRunRecordBundle := do
  let step ← requireStep bundle stepId
  if step.status ≠ .running then throwing s!"Execution step {stepId} is not running"
  else
    let provisional := applyBundleMutation bundle {
      updatedAt := input.completedAt
      event := { id := s!"{bundle.run.id}:event:{stepId}:succeeded:{input.completedAt}", runId := bundle.run.id,
                 type := .stepSucceeded, createdAt := input.completedAt, stepId := some stepId,
                 note := some "step completed by local runner" }
      runStatus := .running
      sharedStateStatus := .active
      stepUpdater := updateStep stepId (succeedStep input.completedAt (input.output.getD defaultOutput))
      sharedStateAppender := input.sharedState }
    let dispatchPlan := createExecutionRunDispatchPlan provisional
    let allSucceeded := provisional.steps.all (·.status == .succeeded)
    let consumed ← applyConsumedTaskTransferLifecycle provisional stepId input.completedAt
    let appendedEvents := input.localActionEvents ++ consumed.events
    .ok { provisional with
      handoffs := input.handoffContext consumed.handoffs
      localActionRequests := input.localActionRequests.getD provisional.localActionRequests
      events := provisional.events ++ appendedEvents
      run := { provisional.run with
        status := if allSucceeded then .succeeded
          else if dispatchPlan.runningStepIds.length > 0 then .running else provisional.run.status }
      sharedState := { provisional.sharedState with
        status := if allSucceeded then .succeeded else provisional.sharedState.status
        history := provisional.sharedState.history ++ appendedEvents } }

def ExecutionRunStepStatus.text : ExecutionRunStepStatus → String
  | planned => "planned"
  | runnable => "runnable"
  | running => "running"
  | succeeded => "succeeded"
  | failed => "failed"
  | blocked => "blocked"
  | skipped => "skipped"
  | cancelled => "cancelled"

structure FailInput where
  failedAt : String
  output : Option TeamRunStepOutput := none
  sharedState : SharedStatePatch := {}
  localActionRequests : Option (List TeamRunLocalActionRequest) := none
  localActionEvents : List ExecutionRunEvent := []
  failure : TeamRunFailure

def failStep (failedAt : String) (output : Option TeamRunStepOutput) (failure : TeamRunFailure)
    (candidate : ExecutionRunStep) : ExecutionRunStep :=
  { candidate with
    status := .failed, completedAt := some failedAt, output := output.or candidate.output, failure := some failure }

def failExecutionRunStep (bundle : ExecutionRunRecordBundle) (stepId : String) (input : FailInput) :
    Except RuntimeError ExecutionRunRecordBundle := do
  let step ← requireStep bundle stepId
  if step.status.isOpen then
    let provisional := applyBundleMutation bundle {
      updatedAt := input.failedAt
      event := { id := s!"{bundle.run.id}:event:{stepId}:failed:{input.failedAt}", runId := bundle.run.id,
                 type := .stepFailed, createdAt := input.failedAt, stepId := some stepId,
                 note := some input.failure.message, payload := some [("code", .string input.failure.code)] }
      runStatus := .failed
      sharedStateStatus := .failed
      stepUpdater := updateStep stepId (failStep input.failedAt input.output input.failure)
      sharedStateAppender := input.sharedState }
    .ok { provisional with
      localActionRequests := input.localActionRequests.getD provisional.localActionRequests
      events := provisional.events ++ input.localActionEvents
      sharedState := { provisional.sharedState with
        history := provisional.sharedState.history ++ input.localActionEvents } }
  else throwing s!"Execution step {stepId} cannot fail from status {step.status.text}"

/-! ## Cancelling and resuming -/

def escalateStep (cancelledAt : String) (guidance : JsonRecord) (candidate : ExecutionRunStep) : ExecutionRunStep :=
  { candidate with
    status := .cancelled
    completedAt := some cancelledAt
    output := some {
      summary := some "paused for human escalation"
      artifacts := []
      structuredData := [("humanEscalation",
        .object [("requestedAt", .string cancelledAt), ("guidance", .object guidance)])]
      notes := ["dependency host-action guidance escalated; runner paused for human input"] }
    failure := none }

def cancelExecutionRunStepForHumanEscalation (bundle : ExecutionRunRecordBundle) (stepId cancelledAt : String)
    (guidance : JsonRecord) : Except RuntimeError ExecutionRunRecordBundle := do
  let step ← requireStep bundle stepId
  if step.status ≠ .running then throwing s!"Execution step {stepId} is not running"
  else .ok (applyBundleMutation bundle {
    updatedAt := cancelledAt
    event := { id := s!"{bundle.run.id}:event:{stepId}:human-escalation:{cancelledAt}", runId := bundle.run.id,
               type := .noteAdded, createdAt := cancelledAt, stepId := some stepId,
               note := some "step paused for human escalation after dependency host-action guidance escalated",
               payload := some [("guidance", .object guidance)] }
    runStatus := .cancelled
    sharedStateStatus := .cancelled
    stepUpdater := updateStep stepId (escalateStep cancelledAt guidance)
    sharedStateAppender := {
      structuredOutputs := [⟨s!"human.escalation.{stepId}", .object [("stepId", .string stepId),
        ("requestedAt", .string cancelledAt), ("reason", .string "dependency-local-action-escalate"),
        ("guidance", .object guidance)]⟩]
      notes := ["run paused for human escalation"] } })

/-- The statuses of the steps that `cancelExecutionRun` cancels. -/
def ExecutionRunStepStatus.isMutable : ExecutionRunStepStatus → Bool
  | planned | runnable | running | blocked => true
  | succeeded | failed | skipped | cancelled => false

inductive CancelSource
  | operator | serviceHost

def CancelSource.text : CancelSource → String
  | operator => "operator"
  | serviceHost => "service-host"

structure CancelInput where
  cancelledAt : String
  note : Option String := none
  source : CancelSource := .operator

def cancelStep (cancelledAt note source : String) (candidate : ExecutionRunStep) : ExecutionRunStep :=
  if candidate.status.isMutable then
    { candidate with
      status := .cancelled
      completedAt := candidate.completedAt.or (some cancelledAt)
      failure := none
      output := candidate.output.or (some {
        summary := some note
        artifacts := []
        structuredData := [("cancellation", .object [("cancelledAt", .string cancelledAt), ("source", .string source)])]
        notes := [note] }) }
  else candidate

def cancelExecutionRun (bundle : ExecutionRunRecordBundle) (input : CancelInput) :
    Except RuntimeError ExecutionRunRecordBundle :=
  if bundle.steps.any (·.status.isMutable) then
    let note := input.note.getD "run cancelled by local operator control"
    .ok (applyBundleMutation bundle {
      updatedAt := input.cancelledAt
      event := { id := s!"{bundle.run.id}:event:run-cancelled:{input.cancelledAt}", runId := bundle.run.id,
                 type := .noteAdded, createdAt := input.cancelledAt, note := some note,
                 payload := some [("source", .string input.source.text), ("status", .string "cancelled")] }
      runStatus := .cancelled
      sharedStateStatus := .cancelled
      stepUpdater := cancelStep input.cancelledAt note input.source.text
      sharedStateAppender := { notes := [note] } })
  else throwing s!"Execution run {bundle.run.id} has no active or pending steps to cancel"

/-- `isRecord(step.output?.structuredData.humanEscalation)`. -/
def ExecutionRunStep.escalated (step : ExecutionRunStep) : Bool :=
  step.output.any fun output => (output.structuredData.record? "humanEscalation").isSome

structure ResumeInput where
  resumedAt : String
  note : Option String := none
  guidance : Option JsonRecord := none
  override : Option JsonRecord := none

/-- `{ resumedAt, note, guidance, override }`, each `null` when it is missing. -/
def ResumeInput.fields (input : ResumeInput) : JsonRecord :=
  [("resumedAt", .string input.resumedAt), ("note", .ofOption input.note),
    ("guidance", input.guidance.elim .null .object), ("override", input.override.elim .null .object)]

def resumeStep (input : ResumeInput) (step : ExecutionRunStep) : ExecutionRunStep :=
  { step with
    status := .runnable
    completedAt := none
    output := none
    failure := none
    input := { step.input with
      structuredData := step.input.structuredData.set "humanEscalationResume" (.object input.fields) } }

def resumeExecutionRunAfterHumanEscalation (bundle : ExecutionRunRecordBundle) (input : ResumeInput) :
    Except RuntimeError ExecutionRunRecordBundle :=
  match bundle.steps.find? fun step => step.status == .cancelled && step.escalated with
  | none => throwing s!"Execution run {bundle.run.id} has no cancelled human-escalation step to resume"
  | some cancelledStep =>
    let note := input.note.getD "run resumed after human escalation"
    .ok (applyBundleMutation bundle {
      updatedAt := input.resumedAt
      event := { id := s!"{bundle.run.id}:event:{cancelledStep.id}:human-resume:{input.resumedAt}", runId := bundle.run.id,
                 type := .noteAdded, createdAt := input.resumedAt, stepId := some cancelledStep.id, note := some note,
                 payload := some [("resumedStepId", .string cancelledStep.id),
                   ("source", .string "human-escalation-resume")] }
      runStatus := .running
      sharedStateStatus := .active
      stepUpdater := updateStep cancelledStep.id (resumeStep input)
      sharedStateAppender := {
        structuredOutputs := [⟨s!"human.resume.{cancelledStep.id}",
          .object (("stepId", .string cancelledStep.id) :: input.fields)⟩]
        notes := [note] } })

/-! ## Recovering -/

def recoverStep (candidate : ExecutionRunStep) : ExecutionRunStep :=
  if candidate.status = .running then
    { candidate with status := .runnable, startedAt := none, completedAt := none, failure := none }
  else candidate

structure RecoveredExecutionRun where
  bundle : ExecutionRunRecordBundle
  recoveredStepIds : List String

/-- One turn of the loop: a step that runs becomes runnable. -/
def recoverOne (recovered : RecoveredExecutionRun) (stepId timestamp : String) : RecoveredExecutionRun :=
  if recovered.bundle.steps.any fun candidate => candidate.id == stepId && candidate.status == .running then
    { bundle := applyBundleMutation recovered.bundle {
        updatedAt := timestamp
        event := { id := s!"{recovered.bundle.run.id}:event:{stepId}:recovered-no-lease:{timestamp}",
                   runId := recovered.bundle.run.id, type := .noteAdded, createdAt := timestamp, stepId := some stepId,
                   note := some "recovered stranded running step for host replay",
                   payload := some [("stepId", .string stepId), ("fromStatus", .string "running"),
                     ("toStatus", .string "runnable"), ("source", .string "service-host")] }
        runStatus := .running
        sharedStateStatus := .active
        stepUpdater := updateStep stepId recoverStep }
      recoveredStepIds := recovered.recoveredStepIds ++ [stepId] }
  else recovered

def recoverStranded (now : Nat → String) : RecoveredExecutionRun → List (String × Nat) → RecoveredExecutionRun
  | recovered, [] => recovered
  | recovered, (stepId, turn) :: rest => recoverStranded now (recoverOne recovered stepId (now turn)) rest

/-- `now turn` is what `now()` returns in a turn of the loop. -/
def recoverStrandedRunningExecutionRun (bundle : ExecutionRunRecordBundle) (now : Nat → String) :
    Option RecoveredExecutionRun :=
  let recovered := recoverStranded now ⟨bundle, []⟩ (createExecutionRunDispatchPlan bundle).runningStepIds.zipIdx
  if recovered.recoveredStepIds.isEmpty then none else some recovered

/-! ## The operator's entries -/

inductive LocalActionResolution
  | approved | rejected | cancelled
  deriving DecidableEq

def LocalActionResolution.text : LocalActionResolution → String
  | approved => "approved"
  | rejected => "rejected"
  | cancelled => "cancelled"

def LocalActionResolution.status : LocalActionResolution → TeamRunLocalActionRequestStatus
  | approved => .approved
  | rejected => .rejected
  | cancelled => .cancelled

def defaultLocalActionResolutionReason (resolution : LocalActionResolution) : String :=
  s!"local action {resolution.text} by service host operator control"

def TeamRunLocalActionRequestStatus.text : TeamRunLocalActionRequestStatus → String
  | requested => "requested"
  | approved => "approved"
  | rejected => "rejected"
  | executed => "executed"
  | failed => "failed"
  | cancelled => "cancelled"

/-- `orderedStatuses`. -/
def requestStatuses : List TeamRunLocalActionRequestStatus :=
  [.requested, .approved, .rejected, .executed, .failed, .cancelled]

def countStatus (requests : List TeamRunLocalActionRequest) (status : TeamRunLocalActionRequestStatus) : Nat :=
  requests.countP (·.status == status)

def localActionOutcomesKey (stepId : String) : String := s!"step.localActionOutcomes.{stepId}"

def summarizeLocalActionRequestsForSharedState (stepId : String) (requests : List TeamRunLocalActionRequest)
    (generatedAt : String) : Option TeamRunStructuredOutput :=
  if requests.isEmpty then none
  else some ⟨localActionOutcomesKey stepId, .object [
    ("ownerStepId", .string stepId), ("generatedAt", .string generatedAt), ("total", .ofNat requests.length),
    ("counts", .object (requestStatuses.map fun status => (status.text, .ofNat (countStatus requests status)))),
    ("items", .array (requests.map fun request => .object [
      ("requestId", .string request.id), ("kind", .string request.kind), ("status", .string request.status.text),
      ("summary", .string request.summary), ("command", .ofOption request.command), ("args", .ofStrings request.args),
      ("resultSummary", .ofOption request.resultSummary)]))]⟩

def formatLocalActionOutcomeNote (stepId : String) (requests : List TeamRunLocalActionRequest) : Option String :=
  if requests.isEmpty then none
  else
    let parts := (requestStatuses.filter fun status => countStatus requests status > 0).map fun status =>
      s!"{status.text}={countStatus requests status}"
    some (s!"local action outcomes for {stepId}: " ++ ", ".intercalate parts)

/-- The bundle with an operator's event, and further notes and outputs of the shared state. -/
def withOperatorEvent (bundle : ExecutionRunRecordBundle) (event : ExecutionRunEvent) (updatedAt : String)
    (structuredOutputs : List TeamRunStructuredOutput) (notes : List String) : ExecutionRunRecordBundle :=
  { bundle with
    run := { bundle.run with updatedAt }
    events := bundle.events ++ [event]
    sharedState := { bundle.sharedState with
      structuredOutputs
      notes := bundle.sharedState.notes ++ notes
      history := bundle.sharedState.history ++ [event]
      lastUpdatedAt := updatedAt } }

structure ResolveInput where
  requestId : String
  resolution : LocalActionResolution
  note : Option String := none
  resolvedAt : String

/-- What `resolveLocalActionRequest` persists, `none` when the request is missing or has been resolved. -/
def resolveLocalActionRequest (bundle : ExecutionRunRecordBundle) (input : ResolveInput) :
    Option ExecutionRunRecordBundle := do
  let existingRequest ← bundle.localActionRequests.find? (·.id == input.requestId)
  guard (existingRequest.status = .requested)
  let reason := input.note.getD (defaultLocalActionResolutionReason input.resolution)
  let resolvedRequest := { existingRequest with
    status := input.resolution.status
    approvedAt := if input.resolution = .approved then some input.resolvedAt else existingRequest.approvedAt
    completedAt := if input.resolution = .approved then existingRequest.completedAt else some input.resolvedAt
    resultSummary := some reason
    resultPayload := some [("source", .string "operator")] }
  let updatedRequests := bundle.localActionRequests.map fun candidate =>
    if candidate.id == input.requestId then resolvedRequest else candidate
  let ownerStep := bundle.steps.find? (·.id == existingRequest.ownerStepId)
  let ownerStepRequests := updatedRequests.filter (·.ownerStepId == existingRequest.ownerStepId)
  let outcomeSummary := ownerStep.bind fun step =>
    summarizeLocalActionRequestsForSharedState step.id ownerStepRequests input.resolvedAt
  let outcomeNote := ownerStep.bind fun step => formatLocalActionOutcomeNote step.id ownerStepRequests
  let outcomeSummaryKey := localActionOutcomesKey existingRequest.ownerStepId
  let resolutionEvent : ExecutionRunEvent :=
    { id := s!"{bundle.run.id}:event:{input.requestId}:{input.resolution.text}:operator:{input.resolvedAt}",
      runId := bundle.run.id, type := .noteAdded, createdAt := input.resolvedAt,
      stepId := some existingRequest.ownerStepId, note := some reason,
      payload := some [("requestId", .string input.requestId), ("requestStatus", .string input.resolution.text),
        ("source", .string "operator")] }
  some { withOperatorEvent bundle resolutionEvent input.resolvedAt
      (bundle.sharedState.structuredOutputs.filter (·.key != outcomeSummaryKey) ++ outcomeSummary.toList)
      outcomeNote.toList with
    localActionRequests := updatedRequests }

structure DrainEventInput where
  eventAt : String
  executed : Bool
  reason : String
  skipReason : Option String

/-- What `persistOperatorDrainEvent` persists. -/
def operatorDrainEvent (bundle : ExecutionRunRecordBundle) (input : DrainEventInput) : ExecutionRunRecordBundle :=
  let status := if input.executed then "executed" else "skipped"
  withOperatorEvent bundle
    { id := s!"{bundle.run.id}:event:drain-run:{status}:{input.eventAt}", runId := bundle.run.id, type := .noteAdded,
      createdAt := input.eventAt, note := some input.reason,
      payload := some [("source", .string "operator"), ("action", .string "drain-run"), ("status", .string status),
        ("skipReason", .ofOption input.skipReason)] }
    input.eventAt bundle.sharedState.structuredOutputs [input.reason]

/-! ## What an operation changes -/

/-- The steps are rewritten one by one, and the leases are kept. -/
structure Rewrites (f : ExecutionRunStep → ExecutionRunStep) (bundle bundle' : ExecutionRunRecordBundle) : Prop where
  steps : bundle'.steps = bundle.steps.map f
  leases : bundle'.leases = bundle.leases
  appends : ∃ events, Appends bundle bundle' events

theorem applyBundleMutation_rewrites {bundle : ExecutionRunRecordBundle} {input : BundleMutation}
    {f : ExecutionRunStep → ExecutionRunStep} (h : input.stepUpdater = f) :
    Rewrites f bundle (applyBundleMutation bundle input) :=
  ⟨by rw [← h]; rfl, rfl, _, applyBundleMutation_appends bundle input⟩

theorem requireStep_eq_ok {bundle : ExecutionRunRecordBundle} {stepId : String} {step : ExecutionRunStep}
    (h : requireStep bundle stepId = .ok step) : step ∈ bundle.steps ∧ step.id = stepId := by
  unfold requireStep at h
  split at h
  · rename_i found hf
    cases h
    exact ⟨List.mem_of_find?_eq_some hf, by simpa using List.find?_some hf⟩
  · cases h

theorem bind_eq_ok {α β : Type} {x : Except RuntimeError α} {f : α → Except RuntimeError β} {b : β}
    (h : (x >>= f) = .ok b) : ∃ a, x = .ok a ∧ f a = .ok b := by
  cases x with
  | error e => cases h
  | ok a => exact ⟨a, rfl, h⟩

section Specifications

variable {bundle bundle' : ExecutionRunRecordBundle} {stepId : String}

/-- A step that starts was dispatchable. -/
theorem startExecutionRunStep_eq_ok {startedAt : String} (h : startExecutionRunStep bundle stepId startedAt = .ok bundle') :
    (∃ step ∈ bundle.steps, step.id = stepId ∧ (step.status = .planned ∨ step.status = .runnable)) ∧
      bundle'.run.status = .running ∧ Rewrites (updateStep stepId (startStep startedAt)) bundle bundle' := by
  obtain ⟨step, hr, h⟩ := bind_eq_ok h
  obtain ⟨hm, hi⟩ := requireStep_eq_ok hr
  split at h
  · cases h
  · rename_i hs
    cases h
    refine ⟨⟨step, hm, hi, ?_⟩, rfl, applyBundleMutation_rewrites rfl⟩
    by_cases hp : step.status = .planned
    · exact .inl hp
    · exact .inr (by_contra fun hn => hs ⟨hp, hn⟩)

/-- A step that succeeds was running. -/
theorem succeedExecutionRunStep_eq_ok {input : SucceedInput} (h : succeedExecutionRunStep bundle stepId input = .ok bundle') :
    (∃ step ∈ bundle.steps, step.id = stepId ∧ step.status = .running) ∧
      (bundle'.run.status = .running ∨ bundle'.run.status = .succeeded) ∧
      Rewrites (updateStep stepId (succeedStep input.completedAt (input.output.getD defaultOutput))) bundle bundle' := by
  obtain ⟨step, hr, h⟩ := bind_eq_ok h
  obtain ⟨hm, hi⟩ := requireStep_eq_ok hr
  split at h
  · cases h
  · rename_i hs
    obtain ⟨consumed, -, h⟩ := bind_eq_ok h
    cases h
    refine ⟨⟨step, hm, hi, not_not.mp hs⟩, ?_, rfl, rfl, _, (applyBundleMutation_appends _ _).trans ⟨rfl, rfl⟩⟩
    dsimp only [applyBundleMutation_status]
    split
    · exact .inr rfl
    · exact .inl (ite_self _)

/-- A step that fails was dispatchable or running. -/
theorem failExecutionRunStep_eq_ok {input : FailInput} (h : failExecutionRunStep bundle stepId input = .ok bundle') :
    (∃ step ∈ bundle.steps, step.id = stepId ∧ step.status.isOpen = true) ∧ bundle'.run.status = .failed ∧
      Rewrites (updateStep stepId (failStep input.failedAt input.output input.failure)) bundle bundle' := by
  obtain ⟨step, hr, h⟩ := bind_eq_ok h
  obtain ⟨hm, hi⟩ := requireStep_eq_ok hr
  split at h
  · rename_i hs
    cases h
    exact ⟨⟨step, hm, hi, hs⟩, rfl, rfl, rfl, _, (applyBundleMutation_appends _ _).trans ⟨rfl, rfl⟩⟩
  · cases h

/-- A step that is escalated was running. -/
theorem cancelExecutionRunStepForHumanEscalation_eq_ok {cancelledAt : String} {guidance : JsonRecord}
    (h : cancelExecutionRunStepForHumanEscalation bundle stepId cancelledAt guidance = .ok bundle') :
    (∃ step ∈ bundle.steps, step.id = stepId ∧ step.status = .running) ∧ bundle'.run.status = .cancelled ∧
      Rewrites (updateStep stepId (escalateStep cancelledAt guidance)) bundle bundle' := by
  obtain ⟨step, hr, h⟩ := bind_eq_ok h
  obtain ⟨hm, hi⟩ := requireStep_eq_ok hr
  split at h
  · cases h
  · rename_i hs
    cases h
    exact ⟨⟨step, hm, hi, not_not.mp hs⟩, rfl, applyBundleMutation_rewrites rfl⟩

theorem cancelExecutionRun_eq_ok {input : CancelInput} (h : cancelExecutionRun bundle input = .ok bundle') :
    bundle'.run.status = .cancelled ∧ ∃ note, Rewrites (cancelStep input.cancelledAt note input.source.text) bundle bundle' := by
  unfold cancelExecutionRun at h
  split at h
  · cases h
    exact ⟨rfl, _, applyBundleMutation_rewrites rfl⟩
  · cases h

/-- The step that is resumed was cancelled for human escalation. -/
theorem resumeExecutionRunAfterHumanEscalation_eq_ok {input : ResumeInput}
    (h : resumeExecutionRunAfterHumanEscalation bundle input = .ok bundle') :
    ∃ step ∈ bundle.steps, step.status = .cancelled ∧ step.escalated = true ∧ bundle'.run.status = .running ∧
      Rewrites (updateStep step.id (resumeStep input)) bundle bundle' := by
  unfold resumeExecutionRunAfterHumanEscalation at h
  split at h
  · cases h
  · rename_i step hf
    cases h
    have hs : step.status = .cancelled ∧ step.escalated = true := by simpa using List.find?_some hf
    exact ⟨step, List.mem_of_find?_eq_some hf, hs.1, hs.2, rfl, applyBundleMutation_rewrites rfl⟩

theorem recoverStranded_keeps {P : ExecutionRunRecordBundle → Prop} {now : Nat → String}
    (hP : ∀ b b', P b → ∀ step ∈ b.steps, step.status = .running → b'.run.status = .running →
      Rewrites (updateStep step.id recoverStep) b b' → P b') :
    ∀ (turns : List (String × Nat)) (recovered : RecoveredExecutionRun), P recovered.bundle →
      P (recoverStranded now recovered turns).bundle
  | [], _, h => h
  | (stepId, turn) :: rest, recovered, h => by
    refine recoverStranded_keeps hP rest (recoverOne recovered stepId (now turn)) ?_
    unfold recoverOne
    split
    · rename_i hr
      obtain ⟨step, hm, hs⟩ := List.any_eq_true.mp hr
      obtain ⟨rfl, hrun⟩ : step.id = stepId ∧ step.status = .running := by simpa using hs
      exact hP _ _ h step hm hrun rfl (applyBundleMutation_rewrites rfl)
    · exact h

theorem recoverStrandedRunningExecutionRun_keeps {P : ExecutionRunRecordBundle → Prop} {now : Nat → String}
    {recovered : RecoveredExecutionRun}
    (hP : ∀ b b', P b → ∀ step ∈ b.steps, step.status = .running → b'.run.status = .running →
      Rewrites (updateStep step.id recoverStep) b b' → P b')
    (h : recoverStrandedRunningExecutionRun bundle now = some recovered) (hb : P bundle) : P recovered.bundle := by
  simp only [recoverStrandedRunningExecutionRun, Option.ite_none_left_eq_some, Option.some.injEq] at h
  obtain ⟨-, rfl⟩ := h
  exact recoverStranded_keeps hP _ _ hb

theorem resolveLocalActionRequest_eq_some {input : ResolveInput} (h : resolveLocalActionRequest bundle input = some bundle') :
    KeepsSteps bundle bundle' ∧ bundle'.leases = bundle.leases ∧ ∃ events, Appends bundle bundle' events := by
  unfold resolveLocalActionRequest at h
  obtain ⟨request, -, h⟩ := Option.bind_eq_some_iff.mp h
  obtain ⟨_, -, h⟩ := Option.bind_eq_some_iff.mp h
  cases h
  exact ⟨⟨rfl, rfl⟩, rfl, _, rfl, rfl⟩

end Specifications

end AuraCall.Runtime
