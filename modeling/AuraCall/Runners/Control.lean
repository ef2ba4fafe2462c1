import Mathlib.Data.List.Sort
import AuraCall.Lib.EventTrace
import AuraCall.Lib.Interleaving
import AuraCall.Lib.KeyedMap
import AuraCall.Runtime.Model

/-!
# Runner records

`runnersStore.ts` and `runnersControl.ts`: the records of the hosts that execute runs. A record is written with the
revision it expects to replace, which the store checks and replaces in one step; a record is deleted with its directory,
whatever is in it. Runners are expired and compacted on what a listing has found, one after the other.

Every heartbeat, expiry and deletion is in the trace. An expiry or deletion stands there with how far the trace was when
its listing has read the runner.
-/

namespace AuraCall.Runners

open AuraCall.Runtime (ExecutionRunServiceId notAfter)
open Script

/-! ## Records -/

inductive ExecutionRunnerStatus
  | active
  | stale
  deriving DecidableEq

structure ExecutionRunnerRecord where
  id : String
  hostId : String
  status : ExecutionRunnerStatus
  startedAt : String
  lastHeartbeatAt : String
  expiresAt : String
  lastActivityAt : Option String
  lastClaimedRunId : Option String
  serviceIds : List ExecutionRunServiceId
  runtimeProfileIds : List String
  browserProfileIds : List String
  serviceAccountIds : List String
  browserCapable : Bool
  eligibilityNote : Option String
  deriving DecidableEq

/-- A record as the store has written it: the first revision is 1. -/
structure ExecutionRunnerStoredRecord where
  revision : Nat
  persistedAt : String
  runner : ExecutionRunnerRecord
  positive : 0 < revision

/-- The store writes a record under the id of its runner. -/
def ExecutionRunnerStoredRecord.runnerId (record : ExecutionRunnerStoredRecord) : String := record.runner.id

inductive RunnerError
  | notFound (runnerId : String)
  | revisionMismatch (runnerId : String) (expected found : Nat)
  | mismatchAfterRetry (runnerId : String)
  deriving DecidableEq

def RunnerError.message : RunnerError → String
  | notFound runnerId => "Execution runner " ++ runnerId ++ " was not found"
  | revisionMismatch runnerId expected found =>
    "Execution runner " ++ runnerId ++ " revision mismatch: expected " ++ toString expected ++ ", found " ++ toString found
  | mismatchAfterRetry runnerId => "Execution runner " ++ runnerId ++ " revision mismatch after retry"

/-- Only a write reports a mismatch, and under the id of the runner it was to write. -/
def isRunnerRevisionMismatchError (error : RunnerError) (runnerId : String) : Bool :=
  match error with
  | .notFound _ => false
  | .revisionMismatch id _ _ | .mismatchAfterRetry id => id == runnerId

/-- `left > right`. -/
def laterThan (left right : String) : Bool := !notAfter left right

/-! ## The store -/

inductive RunnerEvent
  | heartbeat (runnerId expiresAt : String)
  | stale (runnerId now : String) (listed : Nat)
  | deleted (runnerId : String) (listed : Nat)
  deriving DecidableEq

def RunnerEvent.runnerId : RunnerEvent → String
  | heartbeat runnerId _ | stale runnerId _ _ | deleted runnerId _ => runnerId

/-- The records by their ids, and the trace. -/
structure RunnerState where
  records : KeyedMap ExecutionRunnerStoredRecord.runnerId
  trace : List RunnerEvent

abbrev RunnerScript := Script RunnerState RunnerError

/-- The host: in which order the files that are read at once are read, and how it compares strings. -/
structure RunnerHost where
  readOrder : List String → List String
  perm : ∀ ids, (readOrder ids).Perm ids
  localeCompare : String → String → Ordering

/-- What was read, and how far the trace was then. -/
structure Reading (α : Type) where
  value : α
  position : Nat

structure ListExecutionRunnerRecordOptions where
  limit : Option Int := none
  status : Option ExecutionRunnerStatus := none
  hostId : Option String := none
  serviceId : Option ExecutionRunServiceId := none

def readRecord (runnerId : String) : RunnerScript (Reading (Option ExecutionRunnerStoredRecord)) :=
  look fun s => .ok ⟨s.records.get? runnerId, s.trace.length⟩

/-- `writeRunner`: one step that compares the revision and replaces the record. -/
def writeRunner (runner : ExecutionRunnerRecord) (expectedRevision : Nat) (persistedAt : Option String)
    (events : List RunnerEvent) : RunnerScript ExecutionRunnerStoredRecord :=
  perform fun s =>
    let currentRevision := ((s.records.get? runner.id).map (·.revision)).getD 0
    if currentRevision ≠ expectedRevision then (.error (.revisionMismatch runner.id expectedRevision currentRevision), s)
    else
      let nextRecord : ExecutionRunnerStoredRecord :=
        ⟨currentRevision + 1, persistedAt.getD runner.lastHeartbeatAt, runner, Nat.succ_pos _⟩
      (.ok nextRecord, ⟨s.records.set nextRecord, s.trace ++ events⟩)

/-- `deleteRunner`: nothing happens to a directory that is not there. -/
def deleteRunner (runnerId : String) (listed : Nat) : RunnerScript PUnit :=
  change fun s =>
    if (s.records.get? runnerId).isSome then ⟨s.records.delete runnerId, s.trace ++ [.deleted runnerId listed]⟩ else s

/-- The records of some ids, those that are there, in the order of the ids. -/
def pickRecords (ids : List String) (readings : List (String × Reading (Option ExecutionRunnerStoredRecord))) :
    List (Reading ExecutionRunnerStoredRecord) :=
  ids.filterMap fun id =>
    (readings.lookup id).bind fun reading => reading.value.map fun record => ⟨record, reading.position⟩

/-- Records are read one after the other. -/
def readRecords : List String → RunnerScript (List (String × Reading (Option ExecutionRunnerStoredRecord)))
  | [] => pure []
  | id :: ids => do
    let reading ← readRecord id
    let readings ← readRecords ids
    pure ((id, reading) :: readings)

/-- `Promise.all` over the records of some ids. -/
def readAll (host : RunnerHost) (ids : List String) : RunnerScript (List (Reading ExecutionRunnerStoredRecord)) := do
  let readings ← readRecords (host.readOrder ids)
  pure (pickRecords ids readings)

def ListExecutionRunnerRecordOptions.admits (options : ListExecutionRunnerRecordOptions)
    (runner : ExecutionRunnerRecord) : Bool :=
  options.status.all (· == runner.status) && options.hostId.all (fun hostId => hostId == "" || hostId == runner.hostId) &&
    options.serviceId.all runner.serviceIds.contains

/-- `store.listRunners`: the latest heartbeat first. -/
def listStoredRunners (host : RunnerHost) (options : ListExecutionRunnerRecordOptions) :
    RunnerScript (List (Reading ExecutionRunnerRecord)) := do
  let entries ← look fun s => .ok (s.records.values.map (·.runnerId))
  let records ← readAll host entries
  let runners : List (Reading ExecutionRunnerRecord) := records.map fun reading => ⟨reading.value.runner, reading.position⟩
  let filtered := runners.filter fun runner => options.admits runner.value
  let sorted := filtered.insertionSort fun left right =>
    host.localeCompare right.value.lastHeartbeatAt left.value.lastHeartbeatAt ≠ .gt
  pure (match options.limit with
    | some limit => if 0 ≤ limit then sorted.take limit.toNat else sorted
    | none => sorted)

/-! ## The control -/

section Control

variable (host : RunnerHost)

structure HeartbeatExecutionRunnerInput where
  runnerId : String
  heartbeatAt : String
  expiresAt : String
  serviceIds : Option (List ExecutionRunServiceId)
  runtimeProfileIds : Option (List String)
  browserProfileIds : Option (List String)
  serviceAccountIds : Option (List String)
  browserCapable : Option Bool
  eligibilityNote : Option String

structure MarkExecutionRunnerStaleInput where
  runnerId : String
  staleAt : String
  eligibilityNote : Option String

structure ExpireExecutionRunnersInput where
  now : String
  eligibilityNote : Option String

structure ExpireExecutionRunnersResult where
  expiredRunnerIds : List String
  records : List ExecutionRunnerStoredRecord

structure CompactStaleExecutionRunnersInput where
  keepNewest : JsNumber

structure CompactStaleExecutionRunnersResult where
  scannedStaleRunnerCount : Nat
  retainedRunnerIds : List String
  deletedRunnerIds : List String

structure RecordExecutionRunnerActivityInput where
  runnerId : String
  activityAt : String
  runId : String
  eligibilityNote : Option String

def RUNNER_UPDATE_MAX_ATTEMPTS : Nat := 3

def requireStoredRunnerRecord (runnerId : String) : RunnerScript ExecutionRunnerStoredRecord := do
  let reading ← readRecord runnerId
  match reading.value with
  | some record => pure record
  | none => throw (.notFound runnerId)

/-- The attempts of `updateRunnerWithRevisionRetry` that are left, after a last mismatch. -/
def updateAttempts (runnerId : String) (buildUpdate : ExecutionRunnerRecord → ExecutionRunnerRecord)
    (persistedAt : Option String) (events : List RunnerEvent) :
    Nat → RunnerError → RunnerScript ExecutionRunnerStoredRecord
  | 0, lastMismatch => throw lastMismatch
  | attempts + 1, _ => do
    let record ← requireStoredRunnerRecord runnerId
    (writeRunner (buildUpdate record.runner) record.revision persistedAt events).orElse fun error =>
      if isRunnerRevisionMismatchError error runnerId then
        updateAttempts runnerId buildUpdate persistedAt events attempts error
      else throw error

def updateRunnerWithRevisionRetry (runnerId : String) (buildUpdate : ExecutionRunnerRecord → ExecutionRunnerRecord)
    (persistedAt : Option String) (events : List RunnerEvent) : RunnerScript ExecutionRunnerStoredRecord :=
  updateAttempts runnerId buildUpdate persistedAt events RUNNER_UPDATE_MAX_ATTEMPTS (.mismatchAfterRetry runnerId)

/-- What a heartbeat makes of a runner. -/
def HeartbeatExecutionRunnerInput.update (input : HeartbeatExecutionRunnerInput) (runner : ExecutionRunnerRecord) :
    ExecutionRunnerRecord :=
  { runner with
    status := .active
    lastHeartbeatAt := input.heartbeatAt
    expiresAt := input.expiresAt
    serviceIds := input.serviceIds.getD runner.serviceIds
    runtimeProfileIds := input.runtimeProfileIds.getD runner.runtimeProfileIds
    browserProfileIds := input.browserProfileIds.getD runner.browserProfileIds
    serviceAccountIds := input.serviceAccountIds.getD runner.serviceAccountIds
    browserCapable := input.browserCapable.getD runner.browserCapable
    eligibilityNote := input.eligibilityNote.or runner.eligibilityNote }

def heartbeatRunner (input : HeartbeatExecutionRunnerInput) : RunnerScript ExecutionRunnerStoredRecord :=
  updateRunnerWithRevisionRetry input.runnerId input.update none [.heartbeat input.runnerId input.expiresAt]

/-- What an expiry makes of a runner. -/
def MarkExecutionRunnerStaleInput.update (input : MarkExecutionRunnerStaleInput) (runner : ExecutionRunnerRecord) :
    ExecutionRunnerRecord :=
  { runner with
    status := .stale
    expiresAt := input.staleAt
    eligibilityNote := input.eligibilityNote.or runner.eligibilityNote }

def markRunnerStale (input : MarkExecutionRunnerStaleInput) (listed : Nat) :
    RunnerScript ExecutionRunnerStoredRecord := do
  let record ← requireStoredRunnerRecord input.runnerId
  writeRunner (input.update record.runner) record.revision (some input.staleAt)
    [.stale input.runnerId input.staleAt listed]

/-- `listRunners`: the records of the listed runners are read again. -/
def listRunners (options : ListExecutionRunnerRecordOptions) :
    RunnerScript (List (Reading ExecutionRunnerStoredRecord)) := do
  let runners ← listStoredRunners host options
  readAll host (runners.map (·.value.id))

/-- The loop of `expireRunners`. -/
def expireListed (input : ExpireExecutionRunnersInput) :
    List (Reading ExecutionRunnerStoredRecord) → RunnerScript (List ExecutionRunnerStoredRecord)
  | [] => pure []
  | listed :: rest => do
    let record := listed.value
    if record.runner.status ≠ .active || laterThan record.runner.expiresAt input.now then expireListed input rest
    else do
      let note := (input.eligibilityNote.or record.runner.eligibilityNote).or (some "runner heartbeat expired")
      let updated ← markRunnerStale ⟨record.runnerId, input.now, note⟩ listed.position
      let records ← expireListed input rest
      pure (updated :: records)

def expireRunners (input : ExpireExecutionRunnersInput) : RunnerScript ExpireExecutionRunnersResult := do
  let records ← listRunners host {}
  let updated ← expireListed input records
  pure ⟨updated.map (·.runnerId), updated⟩

/-- `slice(0, Math.max(0, Math.floor(keepNewest)))` keeps so many of a list of this length. -/
def CompactStaleExecutionRunnersInput.kept (input : CompactStaleExecutionRunnersInput) (length : Nat) : Nat :=
  match input.keepNewest.floor.atLeast 0 with
  | .finite q => ⌊q⌋.toNat
  | .nan => 0
  | .infinite _ => length

/-- The loop of `compactStaleRunners`. -/
def deleteListed : List (Reading ExecutionRunnerRecord) → RunnerScript PUnit
  | [] => pure ⟨⟩
  | listed :: rest => do
    deleteRunner listed.value.id listed.position
    deleteListed rest

def compactStaleRunners (input : CompactStaleExecutionRunnersInput) :
    RunnerScript CompactStaleExecutionRunnersResult := do
  let staleRunners ← listStoredRunners host { status := some .stale }
  let keepNewest := input.kept staleRunners.length
  deleteListed (staleRunners.drop keepNewest)
  pure ⟨staleRunners.length, (staleRunners.take keepNewest).map (·.value.id), (staleRunners.drop keepNewest).map (·.value.id)⟩

/-- What an activity makes of a runner. -/
def RecordExecutionRunnerActivityInput.update (input : RecordExecutionRunnerActivityInput)
    (runner : ExecutionRunnerRecord) : ExecutionRunnerRecord :=
  { runner with
    lastActivityAt := some input.activityAt
    lastClaimedRunId := some input.runId
    eligibilityNote := input.eligibilityNote.or runner.eligibilityNote }

def recordRunnerActivity (input : RecordExecutionRunnerActivityInput) : RunnerScript ExecutionRunnerStoredRecord :=
  updateRunnerWithRevisionRetry input.runnerId input.update (some input.activityAt) []

end Control

/-! ## Calls -/

/-- The calls of the hosts. -/
inductive RunnerCall
  | heartbeat (input : HeartbeatExecutionRunnerInput)
  | activity (input : RecordExecutionRunnerActivityInput)
  | expire (input : ExpireExecutionRunnersInput)
  | compact (input : CompactStaleExecutionRunnersInput)

/-- A call; what it answers is left out. -/
def runnerCall (host : RunnerHost) : RunnerCall → RunnerScript PUnit
  | .heartbeat input => do let _ ← heartbeatRunner input; pure ⟨⟩
  | .activity input => do let _ ← recordRunnerActivity input; pure ⟨⟩
  | .expire input => do let _ ← expireRunners host input; pure ⟨⟩
  | .compact input => do let _ ← compactStaleRunners host input; pure ⟨⟩

/-- Any number of calls side by side, on any records. -/
def runnerSystem (host : RunnerHost) : TransitionSystem (Threads RunnerState RunnerError PUnit)
    (Threads.Event RunnerCall Empty) :=
  Threads.system (fun s => s.trace = []) (fun _ => runnerCall host) fun _ event => event.elim

end AuraCall.Runners
