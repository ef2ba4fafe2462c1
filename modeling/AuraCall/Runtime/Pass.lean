import AuraCall.Runtime.Control

/-!
# A pass of the runner

`executeStoredExecutionRunOnce` inspects the run, acquires its lease (or renews the one it was given), starts the next
runnable step, runs its executor, reads the record again, and writes the outcome of the step with the revision read.

What the pass is told while it runs is its environment: the times, the result of the executor, and what the step's
output and the local actions it asks for come to. It is an argument of the pass, and every environment is possible.
-/

namespace AuraCall.Runtime

open RevisionedStore

/-! ## What a pass is given and told -/

structure PassOptions where
  runId : String
  ownerId : String
  leaseId : Option String := none
  existingLeaseId : Option String := none
  leaseHeartbeatTtlMs : Int := 15000

def PassOptions.hold (options : PassOptions) : Hold :=
  ⟨options.existingLeaseId.getD (options.leaseId.getD s!"{options.runId}:lease:local-runner"), options.ownerId⟩

/-- What `executeStep` returns. -/
structure StepResult where
  output : Option TeamRunStepOutput := none
  sharedState : SharedStatePatch := {}

/-- What the result of a step comes to: its output, what it adds to the shared state, the local actions it has asked
for, and the labels of required outputs that are missing, with the message about them. -/
structure StepSettlement where
  output : TeamRunStepOutput
  sharedState : SharedStatePatch := {}
  localActionRequests : List TeamRunLocalActionRequest
  localActionEvents : List ExecutionRunEvent := []
  handoffContext : List TeamRunHandoff → List TeamRunHandoff := id
  missingRequired : Option (String × List String) := none

/-- What a pass is told: the results of `now()`, of the executor and the callbacks, `buildExecutionContextStep` on the
data of the step, and `settle`, which stands for `resolveLocalActionRequests`, the patches of the shared state and
`evaluateRequiredRequestedOutputsForStoredRuntime` on the record read last. -/
structure PassEnvironment where
  dates : Dates
  numberText : ℚ → String
  limitCheckedAt : String
  limitFailedAt : String
  leasedAt : String
  startedAt : String
  escalatedAt : String
  completedAt : String
  failedAt : String
  releasedAt : String
  contextData : ExecutionRunRecordBundle → ExecutionRunStep → JsonRecord
  onLeaseHeartbeat : Except RuntimeError Unit
  executeStep : Except RuntimeError (Option StepResult)
  settle : ExecutionRunRecordBundle → StepResult → Except RuntimeError StepSettlement
  extractFailureRecoverySharedState : Option JsonRecord → Option SharedStatePatch

/-! ## Limits of a step -/

def readNonNegativeRunnerInt (value : Option Json) : Int :=
  match value.bind (·.number?) with
  | some (.finite q) => max 0 ⌊q⌋
  | _ => 0

def readStoredProviderUsageTotalTokens (bundle : ExecutionRunRecordBundle) : Int :=
  ((bundle.sharedState.structuredOutputs.filter fun entry => "step.providerUsage.".toList.isPrefixOf entry.key.toList).map
    fun entry => readNonNegativeRunnerInt (entry.value.record?.bind fun value => value.get "totalTokens")).sum

def calculateElapsedRuntimeMinutes (dates : Dates) (startedAt now : String) : Option Int := do
  let startedAtMs ← dates.parse startedAt
  let nowMs ← dates.parse now
  if nowMs < startedAtMs then none else some ((nowMs - startedAtMs) / 60000)

def providerBudget (step : ExecutionRunStep) : Option JsonRecord :=
  (step.input.structuredData.record? "constraints").bind fun constraints => constraints.record? "providerBudget"

def resolveStepProviderBudgetMaxTokens (step : ExecutionRunStep) : Option Int :=
  (providerBudget step).bind fun budget => budget.positiveInteger? "maxTokens"

def resolveStepProviderBudgetMaxRequests (step : ExecutionRunStep) : Option Int :=
  (providerBudget step).bind fun budget => budget.positiveInteger? "maxRequests"

def resolveStepMaxRuntimeMinutes (step : ExecutionRunStep) : Option ℚ :=
  match ((step.input.structuredData.record? "constraints").bind fun constraints =>
      constraints.get "maxRuntimeMinutes").bind (·.number?) with
  | some (.finite q) => if 0 < q then some q else none
  | _ => none

def resolveStepTurnPolicyMaxTurns (step : ExecutionRunStep) : Option Int :=
  (step.input.structuredData.record? "turnPolicy").bind fun policy => policy.positiveInteger? "maxTurns"

def limitFailure (stepId code message : String) (details : JsonRecord) : TeamRunFailure :=
  ⟨code, message, some stepId, some details⟩

/-- The first limit the inspected step is beyond. -/
def stepLimitFailure (env : PassEnvironment) (bundle : ExecutionRunRecordBundle) (step : ExecutionRunStep) :
    Option TeamRunFailure :=
  let tokens := (resolveStepProviderBudgetMaxTokens step).bind fun maxTokens =>
    let consumed := readStoredProviderUsageTotalTokens bundle
    if consumed > maxTokens then some (limitFailure step.id "task_provider_token_limit_exceeded"
      s!"stored provider token usage {consumed} exceeds task provider token limit {maxTokens}"
      [("maxTokens", .number (.finite maxTokens)), ("consumedTokens", .number (.finite consumed))])
    else none
  let requests := (resolveStepProviderBudgetMaxRequests step).bind fun maxRequests =>
    if step.order > maxRequests then some (limitFailure step.id "task_provider_request_limit_exceeded"
      s!"step order {step.order} exceeds task provider request limit {maxRequests}"
      [("maxRequests", .number (.finite maxRequests)), ("stepOrder", .number (.finite step.order))])
    else none
  let runtime := (resolveStepMaxRuntimeMinutes step).bind fun maxRuntimeMinutes =>
    (calculateElapsedRuntimeMinutes env.dates bundle.run.createdAt env.limitCheckedAt).bind fun elapsed =>
      if (elapsed : ℚ) > maxRuntimeMinutes then some (limitFailure step.id "task_runtime_limit_exceeded"
        s!"elapsed runtime {elapsed} minutes exceeds task runtime limit {env.numberText maxRuntimeMinutes}"
        [("maxRuntimeMinutes", .number (.finite maxRuntimeMinutes)),
          ("elapsedRuntimeMinutes", .number (.finite elapsed))])
      else none
  let turns := (resolveStepTurnPolicyMaxTurns step).bind fun maxTurns =>
    if step.order > maxTurns then some (limitFailure step.id "task_turn_limit_exceeded"
      s!"step order {step.order} exceeds task turn limit {maxTurns}"
      [("maxTurns", .number (.finite maxTurns)), ("stepOrder", .number (.finite step.order))])
    else none
  tokens.or (requests.or (runtime.or turns))

/-! ## Escalation -/

inductive EscalationAction
  | pause | fail

structure EscalationBehavior where
  action : EscalationAction
  message : String
  guidance : JsonRecord

/-- `resolveEscalationControlBehavior`, of the structured data of the execution context step. -/
def resolveEscalationControlBehavior (structuredData : JsonRecord) : Option EscalationBehavior := do
  let sharedStateContext ← structuredData.record? "sharedStateContext"
  let guidance ← sharedStateContext.record? "dependencyLocalActionDecisionGuidance"
  guard (guidance.string? "action" = some "escalate")
  let resumed := (structuredData.record? "humanEscalationResume").any fun resume => (resume.string? "resumedAt").isSome
  guard (!resumed)
  let policy := structuredData.record? "humanInteractionPolicy"
  let defaultBehavior := (policy.bind fun policy => policy.string? "defaultBehavior").getD "pause"
  let allowed := ((policy.bind fun policy => policy.get "allowHumanEscalation").bind (·.bool?)).getD true
  guard (defaultBehavior ≠ "continue")
  if defaultBehavior = "pause" ∧ allowed then
    some ⟨.pause, "dependency host-action guidance escalated and requires human input", guidance⟩
  else some ⟨.fail, "dependency host-action guidance escalated and human escalation is not permitted", guidance⟩

def requiresConfiguredStoredStepExecutor (bundle : ExecutionRunRecordBundle) : Bool :=
  (bundle.run.initialInputs.record? "auracall").any fun auracall =>
    let service := auracall.string? "service"
    let agent := trim ((auracall.string? "agent").getD "")
    auracall.string? "transport" == some "browser" ||
    (!agent.isEmpty && (service == some "chatgpt" || service == some "gemini" || service == some "grok"))

/-! ## The pass -/

/-- The lease the pass executes under: the given one, renewed, or a new one. -/
def obtainLease (options : PassOptions) (env : PassEnvironment) (inspected : ExecutionRunStoredRecord) :
    Call ExecutionRunStoredRecord :=
  let expiresAt := addMillisecondsToIsoTimestamp env.dates env.leasedAt (max 1 options.leaseHeartbeatTtlMs)
  match options.existingLeaseId.filter (! ·.isEmpty) with
  | some existingLeaseId => match getActiveExecutionRunLease inspected.value with
    | none => throwCall s!"Execution run {options.runId} does not have active lease {existingLeaseId}"
    | some activeLease =>
      if activeLease.id ≠ existingLeaseId then
        throwCall s!"Execution run {options.runId} does not have active lease {existingLeaseId}"
      else if activeLease.ownerId ≠ options.ownerId then
        throwCall s!"Execution run {options.runId} active lease {existingLeaseId} is owned by {activeLease.ownerId}"
      else heartbeatLease (.renew options.hold) options.runId ⟨existingLeaseId, env.leasedAt, expiresAt, none⟩
  | none =>
    acquireLease (.acquire options.hold) options.runId
      ⟨options.hold.leaseId, options.ownerId, env.leasedAt, some env.leasedAt, expiresAt⟩

/-- Why a pass releases its lease, with the record it ends with. -/
abbrev PassEnd := String × ExecutionRunStoredRecord

/-- `currentRecord.bundle.run.status === 'cancelled' || requireStep(…).status === 'cancelled'`. -/
def passCancelled (bundle : ExecutionRunRecordBundle) (stepId : String) : Except RuntimeError Bool :=
  if bundle.run.status = .cancelled then .ok true
  else (requireStep bundle stepId).map fun step => decide (step.status = .cancelled)

/-- From the end of the executor to the write of the outcome. -/
def completePass (env : PassEnvironment) (hold : Hold) (stepId : String) (started : ExecutionRunStoredRecord)
    (result : StepResult) : Call PassEnd := do
  let current := (← readRun (.run hold)).getD started
  if ← Program.ofExcept (passCancelled current.value stepId) then return ("cancelled", current)
  else
    let settlement ← Program.ofExcept (env.settle current.value result)
    match settlement.missingRequired with
    | some (message, labels) =>
      let failed ← Program.ofExcept (failExecutionRunStep current.value stepId {
        failedAt := env.completedAt
        output := some settlement.output
        sharedState := settlement.sharedState
        localActionRequests := some settlement.localActionRequests
        localActionEvents := settlement.localActionEvents
        failure := ⟨"requested_output_required_missing", message, some stepId,
          some [("missingRequiredLabels", .ofStrings labels)]⟩ })
      return ("failed", ← writeRecord (.commit hold) failed (some current.revision))
    | none =>
      let succeeded ← Program.ofExcept (succeedExecutionRunStep current.value stepId {
        completedAt := env.completedAt
        output := some settlement.output
        sharedState := settlement.sharedState
        localActionRequests := some settlement.localActionRequests
        localActionEvents := settlement.localActionEvents
        handoffContext := settlement.handoffContext })
      return ("completed", ← writeRecord (.commit hold) succeeded (some current.revision))

/-- The `try` block: start the step, escalate it or run its executor, and write the outcome. -/
def runStep (env : PassEnvironment) (hold : Hold) (stepId : String) (requiresConfiguredExecutor : Bool)
    (leased : ExecutionRunStoredRecord) : Call PassEnd := do
  let startedBundle ← Program.ofExcept (startExecutionRunStep leased.value stepId env.startedAt)
  let started ← writeRecord (.run hold) startedBundle (some leased.revision)
  let runningStep ← Program.ofExcept (requireStep started.value stepId)
  match resolveEscalationControlBehavior (env.contextData started.value runningStep) with
  | some ⟨.pause, _, guidance⟩ =>
    let cancelled ← Program.ofExcept
      (cancelExecutionRunStepForHumanEscalation started.value stepId env.escalatedAt guidance)
    return ("cancelled", ← writeRecord (.run hold) cancelled (some started.revision))
  | some ⟨.fail, message, guidance⟩ =>
    let failed ← Program.ofExcept (failExecutionRunStep started.value stepId {
      failedAt := env.escalatedAt
      failure := ⟨"human_escalation_required", message, some stepId, some [("guidance", .object guidance)]⟩ })
    return ("failed", ← writeRecord (.commit hold) failed (some started.revision))
  | none => match ← Program.ofExcept env.executeStep with
    | none =>
      if requiresConfiguredExecutor then
        throwCall s!"No configured stored-step executor is attached for browser-backed run {started.value.run.id}."
      else completePass env hold stepId started { output := some defaultOutput }
    | some result => completePass env hold stepId started result

/-- The `catch` block: the step fails, unless the run or the step was cancelled. -/
def failPass (env : PassEnvironment) (hold : Hold) (stepId : String) (leased : ExecutionRunStoredRecord)
    (error : RuntimeError) : Call PassEnd := do
  let current := (← readRun (.run hold)).getD leased
  if ← Program.ofExcept (passCancelled current.value stepId) then return ("cancelled", current)
  else
    let recovery := env.extractFailureRecoverySharedState error.details
    let failed ← Program.ofExcept (failExecutionRunStep current.value stepId {
      failedAt := env.failedAt
      output := recovery.map fun patch =>
        ⟨some "Provider run failed, but AuraCall captured a recoverable diagnostic artifact.", patch.artifacts,
          [("recovery", .array (patch.structuredOutputs.map fun entry =>
            .object [("key", .string entry.key), ("value", entry.value)]))], patch.notes⟩
      sharedState := recovery.getD {}
      failure := ⟨"runner_execution_failed", error.message, some stepId, error.details⟩ })
    return ("failed", ← writeRecord (.commit hold) failed (some current.revision))

/-- `releaseExecutionRunLeaseIfStillActive`. -/
def releasePass (options : PassOptions) (releasedAt releaseReason : String) (currentRecord : ExecutionRunStoredRecord) :
    Call ExecutionRunStoredRecord := do
  let point := Point.release options.hold
  let latest := (← readRun point).getD currentRecord
  match getActiveExecutionRunLease latest.value with
  | none => return latest
  | some activeLease =>
    if activeLease.id ≠ options.hold.leaseId then return latest
    else match ← (releaseLease point options.runId ⟨options.hold.leaseId, releasedAt, some releaseReason⟩).outcome with
      | .ok released => return released
      | .error e => match ← readRun point with
        | some refreshed => if (getActiveExecutionRunLease refreshed.value).isNone then return refreshed else .throw e
        | none => .throw e

def executeStoredExecutionRunOnce (options : PassOptions) (env : PassEnvironment) : Call ExecutionRunStoredRecord := do
  let inspected ← requireStoredRecord .inspect options.runId
  match (createExecutionRunDispatchPlan inspected.value).nextRunnableStepId with
  | none => return inspected
  | some stepId =>
    let inspectedStep ← Program.ofExcept (requireStep inspected.value stepId)
    match stepLimitFailure env inspected.value inspectedStep with
    | some failure =>
      let failed ← Program.ofExcept
        (failExecutionRunStep inspected.value stepId { failedAt := env.limitFailedAt, failure })
      writeRecord (.refuse options.hold) failed (some inspected.revision)
    | none =>
      let leased ← obtainLease options env inspected
      Program.ofExcept env.onLeaseHeartbeat
      let requiresConfiguredExecutor := requiresConfiguredStoredStepExecutor inspected.value
      let result ← ((runStep env options.hold stepId requiresConfiguredExecutor leased).orElse
        (failPass env options.hold stepId leased)).outcome
      match result with
      | .ok (releaseReason, final) => releasePass options env.releasedAt releaseReason final
      | .error e =>
        let _ ← releasePass options env.releasedAt "failed" leased
        .throw e

end AuraCall.Runtime
