import AuraCall.Js.Json

/-!
# The records of the execution runtime

An execution run is stored as one bundle: the run, its steps, their handoffs and local action requests, the state the
steps share, the events, and the leases of the runners. `applyBundleMutation` is the one way the runner rewrites the
steps of a bundle.
-/

namespace AuraCall.Runtime

/-! ## Records -/

inductive ExecutionRunStatus
  | planned | running | succeeded | failed | cancelled
  deriving DecidableEq

inductive ExecutionRunSourceKind
  | teamRun | direct
  deriving DecidableEq

inductive ExecutionRunStepStatus
  | planned | runnable | running | succeeded | failed | blocked | skipped | cancelled
  deriving DecidableEq

inductive ExecutionRunEventType
  | runCreated | stepPlanned | stepRunnable | stepStarted | stepSucceeded | stepFailed | handoffConsumed
  | leaseAcquired | leaseReleased | noteAdded
  deriving DecidableEq

inductive ExecutionRunLeaseStatus
  | active | released | expired
  deriving DecidableEq

inductive ExecutionRunServiceId
  | chatgpt | gemini | grok
  deriving DecidableEq

/-- The only fail policy the schema has. -/
inductive TeamRunFailPolicy
  | failFast
  deriving DecidableEq

structure ExecutionRun where
  id : String
  sourceKind : ExecutionRunSourceKind
  status : ExecutionRunStatus
  createdAt : String
  updatedAt : String
  initialInputs : JsonRecord
  failPolicy : TeamRunFailPolicy

structure TeamRunStepInput where
  structuredData : JsonRecord

structure TeamRunStepOutput where
  summary : Option String
  artifacts : List Json
  structuredData : JsonRecord
  notes : List String

structure TeamRunFailure where
  code : String
  message : String
  ownerStepId : Option String
  details : Option JsonRecord

structure ExecutionRunStep where
  id : String
  runtimeProfileId : Option String
  browserProfileId : Option String
  service : Option ExecutionRunServiceId
  status : ExecutionRunStepStatus
  order : Int
  dependsOnStepIds : List String
  input : TeamRunStepInput
  output : Option TeamRunStepOutput
  startedAt : Option String
  completedAt : Option String
  failure : Option TeamRunFailure

structure ExecutionRunEvent where
  id : String
  runId : String
  type : ExecutionRunEventType
  createdAt : String
  stepId : Option String := none
  leaseId : Option String := none
  note : Option String := none
  payload : Option JsonRecord := none

structure ExecutionRunLease where
  id : String
  runId : String
  ownerId : String
  status : ExecutionRunLeaseStatus
  acquiredAt : String
  heartbeatAt : String
  expiresAt : String
  releasedAt : Option String
  releaseReason : Option String

structure TeamRunStructuredOutput where
  key : String
  value : Json

inductive TeamRunHandoffStatus
  | prepared | delivered | consumed | failed
  deriving DecidableEq

structure TeamRunHandoff where
  id : String
  fromStepId : String
  toStepId : String
  fromAgentId : String
  structuredData : JsonRecord
  notes : List String
  status : TeamRunHandoffStatus

inductive TeamRunLocalActionRequestStatus
  | requested | approved | rejected | executed | failed | cancelled
  deriving DecidableEq

structure TeamRunLocalActionRequest where
  id : String
  ownerStepId : String
  kind : String
  summary : String
  command : Option String
  args : List String
  status : TeamRunLocalActionRequestStatus
  approvedAt : Option String
  completedAt : Option String
  resultSummary : Option String
  resultPayload : Option JsonRecord

inductive SharedStateStatus
  | active | succeeded | failed | cancelled
  deriving DecidableEq

structure ExecutionRunSharedState where
  status : SharedStateStatus
  artifacts : List Json
  structuredOutputs : List TeamRunStructuredOutput
  notes : List String
  history : List ExecutionRunEvent
  lastUpdatedAt : String

structure ExecutionRunRecordBundle where
  run : ExecutionRun
  steps : List ExecutionRunStep
  handoffs : List TeamRunHandoff
  localActionRequests : List TeamRunLocalActionRequest
  sharedState : ExecutionRunSharedState
  events : List ExecutionRunEvent
  leases : List ExecutionRunLease

inductive ExecutionRunnerStatus
  | active | stale
  deriving DecidableEq

structure ExecutionRunnerRecord where
  id : String
  hostId : String
  status : ExecutionRunnerStatus
  lastHeartbeatAt : String
  expiresAt : String
  serviceIds : List ExecutionRunServiceId
  runtimeProfileIds : List String
  browserProfileIds : List String
  serviceAccountIds : List String
  browserCapable : Bool

/-- What `artifacts`, `structuredOutputs` and `notes` are extended with, as `normalizeTeamRunArtifactRefs` and
`normalizeRuntimeStructuredOutputs` leave it. -/
structure SharedStatePatch where
  artifacts : List Json := []
  structuredOutputs : List TeamRunStructuredOutput := []
  notes : List String := []

/-- `succeeded`, `failed` or `cancelled`. -/
def ExecutionRunStatus.isTerminal : ExecutionRunStatus → Bool
  | succeeded | failed | cancelled => true
  | planned | running => false

def ExecutionRunStatus.text : ExecutionRunStatus → String
  | planned => "planned"
  | running => "running"
  | succeeded => "succeeded"
  | failed => "failed"
  | cancelled => "cancelled"

/-! ## Calls and times -/

/-- A thrown error: its message, and the details of a user error. -/
structure RuntimeError where
  message : String
  details : Option JsonRecord := none

/-- `throw new Error(message)`. -/
def throwing {α : Type} (message : String) : Except RuntimeError α := .error ⟨message, none⟩

/-- `left <= right`, of two strings. -/
def notAfter (left right : String) : Bool := decide (codeUnits left ≤ codeUnits right)

/-- `Date.parse` and `new Date(…).toISOString()`. -/
structure Dates where
  parse : String → Option Int
  toISOString : Int → String

def addMillisecondsToIsoTimestamp (dates : Dates) (timestamp : String) (milliseconds : Int) : String :=
  match dates.parse timestamp with
  | none => timestamp
  | some parsed => dates.toISOString (parsed + milliseconds)

/-! ## Steps and mutations -/

def requireStep (bundle : ExecutionRunRecordBundle) (stepId : String) : Except RuntimeError ExecutionRunStep :=
  match bundle.steps.find? (·.id == stepId) with
  | some step => .ok step
  | none => throwing s!"Execution step {stepId} was not found in run {bundle.run.id}"

/-- The argument of `applyBundleMutation`. -/
structure BundleMutation where
  updatedAt : String
  event : ExecutionRunEvent
  runStatus : ExecutionRunStatus
  sharedStateStatus : SharedStateStatus
  stepUpdater : ExecutionRunStep → ExecutionRunStep
  sharedStateAppender : SharedStatePatch := {}

/-- `{ ...sharedState, artifacts: […], structuredOutputs: […], notes: […] }`, each list extended by the patch. -/
def appendPatch (sharedState : ExecutionRunSharedState) (patch : SharedStatePatch) : ExecutionRunSharedState :=
  { sharedState with
    artifacts := sharedState.artifacts ++ patch.artifacts
    structuredOutputs := sharedState.structuredOutputs ++ patch.structuredOutputs
    notes := sharedState.notes ++ patch.notes }

def applyBundleMutation (bundle : ExecutionRunRecordBundle) (input : BundleMutation) : ExecutionRunRecordBundle :=
  let sharedState := appendPatch bundle.sharedState input.sharedStateAppender
  { bundle with
    run := { bundle.run with status := input.runStatus, updatedAt := input.updatedAt }
    steps := bundle.steps.map input.stepUpdater
    events := bundle.events ++ [input.event]
    sharedState := { sharedState with
      status := input.sharedStateStatus
      history := sharedState.history ++ [input.event]
      lastUpdatedAt := input.updatedAt } }

/-- `candidate => candidate.id === stepId ? update(candidate) : candidate`. -/
def updateStep (stepId : String) (update : ExecutionRunStep → ExecutionRunStep) (candidate : ExecutionRunStep) :
    ExecutionRunStep :=
  if candidate.id == stepId then update candidate else candidate

/-! ## Appended events -/

/-- The events and the history are those of `bundle` followed by the same events. -/
def Appends (bundle bundle' : ExecutionRunRecordBundle) (events : List ExecutionRunEvent) : Prop :=
  bundle'.events = bundle.events ++ events ∧ bundle'.sharedState.history = bundle.sharedState.history ++ events

theorem Appends.refl (bundle : ExecutionRunRecordBundle) : Appends bundle bundle [] := by simp [Appends]

theorem Appends.trans {b b' b'' : ExecutionRunRecordBundle} {events events' : List ExecutionRunEvent}
    (h : Appends b b' events) (h' : Appends b' b'' events') : Appends b b'' (events ++ events') := by
  obtain ⟨he, hh⟩ := h
  obtain ⟨he', hh'⟩ := h'
  exact ⟨by rw [he', he, List.append_assoc], by rw [hh', hh, List.append_assoc]⟩

theorem applyBundleMutation_appends (bundle : ExecutionRunRecordBundle) (input : BundleMutation) :
    Appends bundle (applyBundleMutation bundle input) [input.event] := ⟨rfl, rfl⟩

@[simp] theorem applyBundleMutation_steps (bundle : ExecutionRunRecordBundle) (input : BundleMutation) :
    (applyBundleMutation bundle input).steps = bundle.steps.map input.stepUpdater := rfl

@[simp] theorem applyBundleMutation_status (bundle : ExecutionRunRecordBundle) (input : BundleMutation) :
    (applyBundleMutation bundle input).run.status = input.runStatus := rfl

end AuraCall.Runtime
