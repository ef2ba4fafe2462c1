import AuraCall.Lib.AssocRecord
import AuraCall.Runtime.TenantGate

/-!
# Response batches

`createResponseBatchService`: a call creates the responses of a batch one after the other, each a direct run that has
the batch and its index in its metadata, and then writes the record of the batch, which lists them. What happens in a
call is part of it here: `ResponseAttempt` is how one response is created, and `writeFailure` is why the record cannot
be written.
-/

namespace AuraCall.Runtime

/-! ## Requests and records -/

/-- A missing limit does not limit. -/
structure ResponseBatchLimits where
  maxConcurrentRuns : Option Int
  maxBrowserInteractionsPerMinute : Option Int
  deriving DecidableEq

structure ExecutionRequestExtensionHints where
  runtimeProfile : Option String
  agent : Option String
  service : Option String
  team : Option String

/-- `input` is a text, or the messages of a conversation. -/
structure ExecutionRequest where
  model : String
  input : Json
  metadata : Option JsonRecord
  auracall : Option ExecutionRequestExtensionHints

/-- The mode is always `next_available`, and the project is never synchronized. -/
structure ResponseBatchDispatchRequest where
  team : String

structure ResponseBatchDispatchRecord where
  team : String
  memberCount : Nat
  projectName : Option String
  warnings : List String

structure ResponseBatchDispatchJobAssignment where
  team : String
  memberAgent : String
  memberIndex : Nat

structure ResponseBatchDispatchResolution where
  requests : List ExecutionRequest
  dispatch : ResponseBatchDispatchRecord
  assignments : List ResponseBatchDispatchJobAssignment

structure ResponseBatchCreateRequest where
  id : Option String := none
  team : Option String := none
  dispatch : Option ResponseBatchDispatchRequest := none
  dispatchResolution : Option ResponseBatchDispatchResolution := none
  requests : List ExecutionRequest
  metadata : Option JsonRecord := none
  limits : Option ResponseBatchLimits := none

structure ResponseBatchJobRecord where
  index : Nat
  responseId : String
  model : String
  agent : Option String
  service : Option String
  runtimeProfile : Option String
  dispatch : Option ResponseBatchDispatchJobAssignment
  createdAt : String

structure ResponseBatchRecord where
  id : String
  createdAt : String
  updatedAt : String
  metadata : JsonRecord
  limits : ResponseBatchLimits
  dispatch : Option ResponseBatchDispatchRecord
  jobs : List ResponseBatchJobRecord

/-- An issue that the schema of the request has, by its field, or a thrown message. -/
inductive ResponseBatchError
  | invalid (path : String)
  | thrown (message : String)

/-! ## Creating a response -/

/-- What a run goes through: it stays the same run, with the inputs it was created with. -/
structure RunProgress where
  apply : ExecutionRunStoredRecord → ExecutionRunStoredRecord
  runId : ∀ record, runIdOf (apply record) = runIdOf record
  initialInputs : ∀ record, (apply record).value.run.initialInputs = record.value.run.initialInputs

/-- A call of `createResponse`: it may throw before it stores the run, and after the run has been drained. -/
structure ResponseAttempt where
  responseId : String
  createdAt : String
  rejected : Option String := none
  drain : RunProgress
  failed : Option String := none

def normalizeExecutionServiceId (value : Option String) : Option ExecutionRunServiceId :=
  if value = some "chatgpt" then some .chatgpt
  else if value = some "gemini" then some .gemini
  else if value = some "grok" then some .grok
  else none

/-- A direct run of one step. -/
def createDirectExecutionBundle (responseId : String) (request : ExecutionRequest) (createdAt : String) :
    ExecutionRunRecordBundle :=
  let stepId := responseId ++ ":step:1"
  let runtimeProfile := request.auracall.bind (·.runtimeProfile)
  let service := normalizeExecutionServiceId (request.auracall.bind (·.service))
  let metadata := Json.object (request.metadata.getD [])
  let initialInputs : JsonRecord :=
    [("model", .string request.model), ("metadata", metadata), ("requestInput", request.input),
      ("runtimeProfile", .ofOption runtimeProfile), ("service", .ofOption (service.map (·.text))),
      ("agent", .ofOption (request.auracall.bind (·.agent)))]
  let events : List ExecutionRunEvent :=
    [{ id := responseId ++ ":event:run-created", runId := responseId, type := .runCreated, createdAt
       note := some "created from HTTP responses adapter request"
       payload := some [("model", .string request.model)] },
     { id := responseId ++ ":event:" ++ stepId ++ ":runnable", runId := responseId, type := .stepRunnable, createdAt
       stepId := some stepId, note := some "initial direct prompt step is runnable"
       payload := some [("order", .ofNat 1)] }]
  { run := ⟨responseId, .direct, .planned, createdAt, createdAt, initialInputs, .failFast⟩
    steps := [⟨stepId, runtimeProfile, none, service, .runnable, 1, [],
      ⟨[("requestInput", request.input), ("metadata", metadata)]⟩, none, none, none, none⟩]
    handoffs := []
    localActionRequests := []
    sharedState := ⟨.active, [], [], [], events, createdAt⟩
    events
    leases := [] }

/-- The runs of a store. -/
abbrev StoredRuns := KeyedMap runIdOf

/-- The id of the response, and the runs that are left. -/
def createResponse (request : ExecutionRequest) (attempt : ResponseAttempt) (runs : StoredRuns) :
    Except ResponseBatchError String × StoredRuns :=
  match attempt.rejected with
  | some message => (.error (.thrown message), runs)
  | none =>
    match runs.get? attempt.responseId with
    | some found =>
      (.error (.thrown s!"Execution run {attempt.responseId} revision mismatch: expected 0, found {found.revision}"),
        runs)
    | none =>
      let bundle := createDirectExecutionBundle attempt.responseId request attempt.createdAt
      let stored := runs.set (attempt.drain.apply ⟨1, bundle⟩)
      match attempt.failed with
      | some message => (.error (.thrown message), stored)
      | none => (.ok attempt.responseId, stored)

/-! ## The metadata of a batch -/

def limitJson (limit : Option Int) : Json := limit.elim .null fun n => .number (.finite n)

def withBatchMetadata (request : ExecutionRequest) (batchId : String) (batchIndex : Nat) (limits : ResponseBatchLimits)
    (dispatch : Option ResponseBatchDispatchRecord) (assignment : Option ResponseBatchDispatchJobAssignment) :
    ExecutionRequest :=
  let batchLimits := Json.object [("maxConcurrentRuns", limitJson limits.maxConcurrentRuns),
    ("maxBrowserInteractionsPerMinute", limitJson limits.maxBrowserInteractionsPerMinute)]
  let batchDispatch : List (String × Option Json) :=
    match dispatch, assignment with
    | some dispatch, some assignment =>
      [("batchDispatch", some (.object [("team", .string dispatch.team), ("mode", .string "next_available"),
        ("projectSync", .string "none"), ("memberAgent", .string assignment.memberAgent),
        ("memberIndex", .ofNat assignment.memberIndex)]))]
    | _, _ => []
  { request with
    metadata := some (AssocRecord.assign (request.metadata.getD [])
      ([("batchId", some (.string batchId)), ("batchIndex", some (.ofNat batchIndex)),
        ("batchLimits", some batchLimits)] ++ batchDispatch)) }

/-- `batchId` and `limits` of `readResponseBatchRunMetadata`. -/
structure ResponseBatchRunMetadata where
  batchId : String
  limits : ResponseBatchLimits

def readResponseBatchRunMetadata (record : ExecutionRunStoredRecord) : Option ResponseBatchRunMetadata := do
  let metadata ← record.value.run.initialInputs.record? "metadata"
  let batchId ← truthy (metadata.string? "batchId")
  let rawLimits := metadata.record? "batchLimits"
  return ⟨batchId, rawLimits.bind (·.positiveInteger? "maxConcurrentRuns"),
    rawLimits.bind (·.positiveInteger? "maxBrowserInteractionsPerMinute")⟩

/-- `metadata.batchIndex`. -/
def readBatchIndex (record : ExecutionRunStoredRecord) : Option JsNumber := do
  let metadata ← record.value.run.initialInputs.record? "metadata"
  let value ← metadata.get "batchIndex"
  value.number?

/-! ## The status of a batch -/

inductive ResponseBatchJobStatusText
  | inProgress | completed | failed | cancelled | missing
  deriving DecidableEq

structure ResponseBatchJobStatus where
  job : ResponseBatchJobRecord
  status : ResponseBatchJobStatusText
  readFailure : Option String

inductive ResponseBatchStatusText
  | queued | running | completed | failed | cancelled | mixedTerminal
  deriving DecidableEq

structure ResponseBatchCounts where
  total : Nat
  inProgress : Nat
  completed : Nat
  failed : Nat
  cancelled : Nat
  missing : Nat

structure ResponseBatchStatus where
  record : ResponseBatchRecord
  status : ResponseBatchStatusText
  counts : ResponseBatchCounts
  jobs : List ResponseBatchJobStatus

def resolveBatchStatus (counts : ResponseBatchCounts) : ResponseBatchStatusText :=
  if counts.inProgress > 0 then .running
  else if counts.missing > 0 then .failed
  else if counts.failed > 0 ∧ counts.completed + counts.cancelled + counts.failed = counts.total then .failed
  else if counts.cancelled > 0 ∧ counts.completed + counts.cancelled = counts.total then .cancelled
  else if counts.completed = counts.total then .completed
  else if counts.failed > 0 ∨ counts.cancelled > 0 then .mixedTerminal
  else .queued

def countJobs (jobs : List ResponseBatchJobStatus) (status : ResponseBatchJobStatusText) : Nat :=
  (jobs.filter (·.status == status)).length

/-- The jobs of a record, by what reading their responses gives. -/
def summarizeBatchStatus (readResponse : String → Except String (Option ResponseBatchJobStatusText))
    (record : ResponseBatchRecord) : ResponseBatchStatus :=
  let jobs := record.jobs.map fun job =>
    match readResponse job.responseId with
    | .ok response => ⟨job, response.getD .missing, none⟩
    | .error message => ⟨job, .missing, some message⟩
  let counts : ResponseBatchCounts :=
    { total := jobs.length, inProgress := countJobs jobs .inProgress, completed := countJobs jobs .completed
      failed := countJobs jobs .failed, cancelled := countJobs jobs .cancelled
      missing := countJobs jobs .missing }
  ⟨record, resolveBatchStatus counts, counts, jobs⟩

/-! ## The service -/

/-- What the service is created with: where the file of a record is, and what reading the response of a run gives. -/
structure ResponseBatchHost where
  getResponseBatchRecordPath : String → String
  readRun : ExecutionRunStoredRecord → Except String ResponseBatchJobStatusText

/-- The runs, and the record in each file. -/
structure BatchState where
  runs : StoredRuns
  files : String → Option ResponseBatchRecord

def BatchState.readBatch (host : ResponseBatchHost) (s : BatchState) (id : String) : Option ResponseBatchRecord :=
  s.files (host.getResponseBatchRecordPath id)

def BatchState.readResponse (host : ResponseBatchHost) (s : BatchState) (responseId : String) :
    Except String (Option ResponseBatchJobStatusText) :=
  match s.runs.get? responseId with
  | none => .ok none
  | some run => (host.readRun run).map some

/-- A call of `createBatch`, with all that happens in it. -/
structure CreateBatchCall where
  payload : ResponseBatchCreateRequest
  generatedId : String
  createdAt : String
  resolveDispatchPool : Option (ResponseBatchDispatchRequest → List ExecutionRequest →
    Except String ResponseBatchDispatchResolution) := none
  attempt : Nat → ResponseAttempt
  writeFailure : Option String := none

/-- What a call creates. -/
structure BatchPlan where
  id : String
  requests : List ExecutionRequest
  limits : ResponseBatchLimits
  resolution : Option ResponseBatchDispatchResolution

/-- `z.string().trim().min(1)`. -/
def parseText (path value : String) : Except ResponseBatchError String :=
  if trim value = "" then .error (.invalid path) else .ok (trim value)

def parseOptionalText (path : String) : Option String → Except ResponseBatchError (Option String)
  | none => .ok none
  | some value => (parseText path value).map some

/-- `z.number().int().positive().optional()`. -/
def parseLimit (path : String) : Option Int → Except ResponseBatchError (Option Int)
  | none => .ok none
  | some value => if 0 < value then .ok (some value) else .error (.invalid path)

/-- The schema of the field `dispatchResolution`. -/
def parseDispatchResolution (resolution : ResponseBatchDispatchResolution) :
    Except ResponseBatchError ResponseBatchDispatchResolution := do
  let team ← parseText "dispatchResolution.dispatch.team" resolution.dispatch.team
  let assignments ← resolution.assignments.mapM fun assignment => do
    let assigned ← parseText "dispatchResolution.assignments.team" assignment.team
    let memberAgent ← parseText "dispatchResolution.assignments.memberAgent" assignment.memberAgent
    return (⟨assigned, memberAgent, assignment.memberIndex⟩ : ResponseBatchDispatchJobAssignment)
  return { resolution with dispatch := { resolution.dispatch with team }, assignments }

def parseOptionalResolution :
    Option ResponseBatchDispatchResolution → Except ResponseBatchError (Option ResponseBatchDispatchResolution)
  | none => .ok none
  | some resolution => (parseDispatchResolution resolution).map some

def normalizeResponseBatchDispatchRequest (dispatch : Option ResponseBatchDispatchRequest) (team : Option String) :
    Except ResponseBatchError (Option ResponseBatchDispatchRequest) :=
  match dispatch, team with
  | some dispatch, some team =>
    if dispatch.team ≠ team then
      .error (.thrown ("Response batch dispatch team \"" ++ dispatch.team ++ "\" conflicts with top-level team \"" ++
        team ++ "\"."))
    else .ok (some dispatch)
  | some dispatch, none => .ok (some dispatch)
  | none, some team => .ok (some ⟨team⟩)
  | none, none => .ok none

def assertDispatchResolutionMatches (dispatch : ResponseBatchDispatchRequest)
    (resolution : ResponseBatchDispatchResolution) : Except ResponseBatchError ResponseBatchDispatchResolution :=
  if resolution.dispatch.team ≠ dispatch.team then
    .error (.thrown ("Response batch dispatch resolution team \"" ++ resolution.dispatch.team ++
      "\" does not match requested team \"" ++ dispatch.team ++ "\"."))
  else if resolution.requests.length ≠ resolution.assignments.length then
    .error (.thrown "Response batch dispatch resolution must provide one assignment per expanded request.")
  else .ok resolution

def CreateBatchCall.resolveDispatchResolution (call : CreateBatchCall)
    (payloadResolution : Option ResponseBatchDispatchResolution) :
    Option ResponseBatchDispatchRequest → Except ResponseBatchError (Option ResponseBatchDispatchResolution)
  | none => .ok none
  | some dispatch =>
    match payloadResolution, call.resolveDispatchPool with
    | some resolution, _ => (assertDispatchResolutionMatches dispatch resolution).map some
    | none, none =>
      .error (.thrown ("Response batch dispatch team \"" ++ dispatch.team ++
        "\" requires a dispatch-pool resolver in this runtime surface."))
    | none, some resolver =>
      match resolver dispatch call.payload.requests with
      | .error message => .error (.thrown message)
      | .ok resolution => (assertDispatchResolutionMatches dispatch resolution).map some

/-- The part of `createBatch` before the first response. -/
def CreateBatchCall.prepare (call : CreateBatchCall) : Except ResponseBatchError BatchPlan := do
  let id ← parseOptionalText "id" call.payload.id
  let team ← parseOptionalText "team" call.payload.team
  let dispatchTeam ← parseOptionalText "dispatch.team" (call.payload.dispatch.map (·.team))
  let payloadResolution ← parseOptionalResolution call.payload.dispatchResolution
  if call.payload.requests.isEmpty then throw (.invalid "requests")
  let limits := call.payload.limits.getD ⟨none, none⟩
  let maxConcurrentRuns ← parseLimit "limits.maxConcurrentRuns" limits.maxConcurrentRuns
  let maxBrowserInteractionsPerMinute ←
    parseLimit "limits.maxBrowserInteractionsPerMinute" limits.maxBrowserInteractionsPerMinute
  let dispatch ← normalizeResponseBatchDispatchRequest (dispatchTeam.map (⟨·⟩)) team
  let resolution ← call.resolveDispatchResolution payloadResolution dispatch
  return ⟨id.getD call.generatedId, (resolution.map (·.requests)).getD call.payload.requests,
    ⟨maxConcurrentRuns, maxBrowserInteractionsPerMinute⟩, resolution⟩

/-- The job of a request. -/
def CreateBatchCall.job (call : CreateBatchCall) (plan : BatchPlan) (index : Nat) (request : ExecutionRequest)
    (responseId : String) : ResponseBatchJobRecord :=
  { index, responseId, model := request.model, agent := request.auracall.bind (·.agent)
    service := request.auracall.bind (·.service), runtimeProfile := request.auracall.bind (·.runtimeProfile)
    dispatch := plan.resolution.bind (·.assignments[index]?), createdAt := call.createdAt }

/-- The loop over the requests, from the one with this index on. -/
def CreateBatchCall.createJobs (call : CreateBatchCall) (plan : BatchPlan) :
    Nat → List ExecutionRequest → StoredRuns → Except ResponseBatchError (List ResponseBatchJobRecord) × StoredRuns
  | _, [], runs => (.ok [], runs)
  | index, request :: rest, runs =>
    let batched := withBatchMetadata request plan.id index plan.limits (plan.resolution.map (·.dispatch))
      (plan.resolution.bind (·.assignments[index]?))
    match createResponse batched (call.attempt index) runs with
    | (.error error, runs') => (.error error, runs')
    | (.ok responseId, runs') =>
      match call.createJobs plan (index + 1) rest runs' with
      | (.error error, runs'') => (.error error, runs'')
      | (.ok jobs, runs'') => (.ok (call.job plan index request responseId :: jobs), runs'')

def CreateBatchCall.record (call : CreateBatchCall) (plan : BatchPlan) (jobs : List ResponseBatchJobRecord) :
    ResponseBatchRecord :=
  { id := plan.id, createdAt := call.createdAt, updatedAt := call.createdAt, metadata := call.payload.metadata.getD []
    limits := plan.limits, dispatch := plan.resolution.map (·.dispatch), jobs }

/-- `writeResponseBatchRecord` puts the record into its file at once. -/
def BatchState.writeBatch (host : ResponseBatchHost) (s : BatchState) (record : ResponseBatchRecord) : BatchState :=
  { s with files := Function.update s.files (host.getResponseBatchRecordPath record.id) (some record) }

def createBatch (host : ResponseBatchHost) (call : CreateBatchCall) (s : BatchState) :
    Except ResponseBatchError ResponseBatchStatus × BatchState :=
  match call.prepare with
  | .error error => (.error error, s)
  | .ok plan =>
    match call.createJobs plan 0 plan.requests s.runs with
    | (.error error, runs) => (.error error, { s with runs })
    | (.ok jobs, runs) =>
      match call.writeFailure with
      | some message => (.error (.thrown message), { s with runs })
      | none =>
        let record := call.record plan jobs
        let s' := BatchState.writeBatch host { s with runs } record
        (.ok (summarizeBatchStatus (s'.readResponse host) record), s')

def readBatchStatus (host : ResponseBatchHost) (id : String) (s : BatchState) : Option ResponseBatchStatus :=
  (s.readBatch host id).map (summarizeBatchStatus (s.readResponse host))

/-- A batch is created, or a run goes on. -/
inductive BatchStep
  | create (call : CreateBatchCall)
  | progress (runId : String) (progress : RunProgress)

def batchNext (host : ResponseBatchHost) (s : BatchState) : BatchStep → Option BatchState
  | .create call => some (createBatch host call s).2
  | .progress runId progress => (s.runs.get? runId).map fun run => { s with runs := s.runs.set (progress.apply run) }

/-- Any sequence of calls, from an empty store. -/
def batchSystem (host : ResponseBatchHost) : TransitionSystem BatchState BatchStep :=
  .ofNext (· = ⟨.empty, fun _ => none⟩) (batchNext host)

end AuraCall.Runtime
