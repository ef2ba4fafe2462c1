import AuraCall.Lib.RevisionedStore
import AuraCall.Runtime.Steps

/-!
# Calls on the stored record of a run

`createExecutionRuntimeControl` and the service host read the stored record of a run, compute a new bundle from it, and
write that with the revision they have read. Each call here is a program over the store of one run, as the source writes
it: every `await` on the store is a call of the program.
-/

namespace AuraCall.Runtime

open RevisionedStore

/-- The lease a runner executes under. -/
structure Hold where
  leaseId : String
  ownerId : String
  deriving DecidableEq

/-- What a call on the store is part of. A pass of the runner acquires its lease, or renews the one it was given; it is
at `run` until it writes the outcome of its step at `commit`. At `refuse` it writes a failure without having acquired
the lease. -/
inductive Point
  | control
  | inspect
  | refuse (hold : Hold)
  | acquire (hold : Hold)
  | renew (hold : Hold)
  | run (hold : Hold)
  | commit (hold : Hold)
  | release (hold : Hold)

/-- A stored record: `revision` and `bundle`. -/
abbrev ExecutionRunStoredRecord := Stored ExecutionRunRecordBundle

abbrev RunContents := Contents ExecutionRunRecordBundle

abbrev Call (α : Type) := Program Point ExecutionRunRecordBundle RuntimeError α

/-! ## The runtime control -/

/-- `throw new Error(message)`, in a call. -/
def throwCall {α : Type} (message : String) : Call α := .throw ⟨message, none⟩

def readRun (point : Point) : Call (Option ExecutionRunStoredRecord) := Program.readAt point

def writeRecord (point : Point) (bundle : ExecutionRunRecordBundle) (expectedRevision : Option Nat) :
    Call ExecutionRunStoredRecord := do
  match ← Program.writeAt point expectedRevision bundle with
  | .ok record => return record
  | .error found =>
    throwCall s!"Execution run {bundle.run.id} revision mismatch: expected {expectedRevision.getD 0}, found {found}"

def requireStoredRecord (point : Point) (runId : String) : Call ExecutionRunStoredRecord := do
  match ← readRun point with
  | some record => return record
  | none => throwCall s!"Execution run {runId} was not found"

def createRun (bundle : ExecutionRunRecordBundle) : Call ExecutionRunStoredRecord :=
  writeRecord .control bundle (some 0)

/-- Read the record, rewrite its bundle, and write it with the revision read. -/
def rewriteRun (point : Point) (runId : String)
    (operation : ExecutionRunRecordBundle → Except RuntimeError ExecutionRunRecordBundle) :
    Call ExecutionRunStoredRecord := do
  let record ← requireStoredRecord point runId
  let bundle ← Program.ofExcept (operation record.value)
  writeRecord point bundle (some record.revision)

def acquireLease (point : Point) (runId : String) (input : AcquireInput) : Call ExecutionRunStoredRecord :=
  rewriteRun point runId fun bundle => (acquireExecutionRunLease bundle input).map (·.bundle)

def heartbeatLease (point : Point) (runId : String) (input : HeartbeatInput) : Call ExecutionRunStoredRecord :=
  rewriteRun point runId fun bundle => (heartbeatExecutionRunLease bundle input).map (·.bundle)

def releaseLease (point : Point) (runId : String) (input : ReleaseInput) : Call ExecutionRunStoredRecord :=
  rewriteRun point runId fun bundle => (releaseExecutionRunLease bundle input).map (·.bundle)

def expireLeases (now : String) : Call (Option ExecutionRunStoredRecord) := do
  match ← readRun .control with
  | none => return none
  | some record =>
    let result := expireExecutionRunLeases record.value now
    if result.expiredLeaseIds.isEmpty then return some record
    else return some (← writeRecord .control result.bundle (some record.revision))

def persistRun (runId : String) (bundle : ExecutionRunRecordBundle) (expectedRevision : Option Nat) :
    Call ExecutionRunStoredRecord :=
  if bundle.run.id ≠ runId then
    throwCall s!"Execution run {bundle.run.id} does not match persisted bundle identity {runId}"
  else writeRecord .control bundle expectedRevision

def resumeHumanEscalation (runId : String) (input : ResumeInput) : Call ExecutionRunStoredRecord :=
  rewriteRun .control runId fun bundle => resumeExecutionRunAfterHumanEscalation bundle input

/-! ## Repair -/

inductive ReconciliationStatus
  | noActiveLease | activeRunner | staleRunner | missingRunner
  deriving DecidableEq

structure LeaseRunnerReconciliation where
  runId : String
  leaseId : Option String
  leaseOwnerId : Option String
  leaseExpiresAt : Option String
  status : ReconciliationStatus
  reason : Option String

def reconcileExecutionRunLeaseRunner (runId : String) (lease : Option ExecutionRunLease)
    (runner : Option ExecutionRunnerRecord) : LeaseRunnerReconciliation :=
  match lease with
  | none => ⟨runId, none, none, none, .noActiveLease, some "run has no active lease"⟩
  | some lease =>
    if lease.id.isEmpty || lease.ownerId.isEmpty then
      ⟨runId, none, none, none, .noActiveLease, some "run has no active lease"⟩
    else match runner with
      | none => ⟨runId, some lease.id, some lease.ownerId, some lease.expiresAt, .missingRunner,
          some s!"lease owner {lease.ownerId} has no persisted runner record"⟩
      | some runner =>
        if runner.status ≠ .active then
          ⟨runId, some lease.id, some lease.ownerId, some lease.expiresAt, .staleRunner,
            some s!"lease owner {lease.ownerId} is stale"⟩
        else ⟨runId, some lease.id, some lease.ownerId, some lease.expiresAt, .activeRunner, none⟩

inductive ExecutionRunRepairPosture
  | inspectOnly | locallyReclaimable | notReclaimable
  deriving DecidableEq

structure RepairClassification where
  runId : String
  posture : ExecutionRunRepairPosture
  reason : String
  reconciliation : LeaseRunnerReconciliation

def classifyExecutionRunRepairPosture (reconciliation : LeaseRunnerReconciliation) (now : String) :
    RepairClassification :=
  let expired := reconciliation.leaseExpiresAt.any fun expiresAt => !expiresAt.isEmpty && notAfter expiresAt now
  match reconciliation.status with
  | .noActiveLease => ⟨reconciliation.runId, .notReclaimable, "run has no active lease to reclaim", reconciliation⟩
  | .activeRunner =>
    if expired then
      ⟨reconciliation.runId, .locallyReclaimable, "active lease owner stopped renewing the expired lease",
        reconciliation⟩
    else
      ⟨reconciliation.runId, .notReclaimable, "active lease is still owned by an active runner", reconciliation⟩
  | .staleRunner | .missingRunner =>
    if expired then
      ⟨reconciliation.runId, .locallyReclaimable, "active lease owner is unavailable and the lease is expired",
        reconciliation⟩
    else
      ⟨reconciliation.runId, .inspectOnly, "active lease owner is unavailable but the lease has not expired yet",
        reconciliation⟩

/-- `readRunner` is what the registry of the runners holds for an owner at the time it is asked. -/
def repairStoredExecutionRunLease (runId now : String) (readRunner : String → Option ExecutionRunnerRecord) :
    Call (Option (RepairClassification × Bool)) := do
  match ← readRun .control with
  | none => return none
  | some record =>
    let lease := getActiveExecutionRunLease record.value
    let classification := classifyExecutionRunRepairPosture
      (reconcileExecutionRunLeaseRunner runId lease (lease.bind fun lease => readRunner lease.ownerId)) now
    if classification.posture ≠ .locallyReclaimable then return some (classification, false)
    else
      let _ ← expireLeases now
      return some (classification, true)

/-! ## The service host -/

/-- `now attempt turn` is what `now()` returns in a turn of the loop of an attempt. -/
def recoverAndPersistStrandedRun (now : Nat → Nat → String) : Nat → ExecutionRunStoredRecord → Call Bool
  | 0, _ => return false
  | attemptsRemaining + 1, record =>
    match recoverStrandedRunningExecutionRun record.value (now attemptsRemaining) with
    | none => return false
    | some recovered => do
      match ← (persistRun record.value.run.id recovered.bundle (some record.revision)).outcome with
      | .ok _ => return true
      | .error _ =>
        if attemptsRemaining = 0 then return false
        else match ← readRun .control with
          | none => return false
          | some reread =>
            if (getActiveExecutionRunLease reread.value).isSome then return false
            else recoverAndPersistStrandedRun now attemptsRemaining reread

/-- A drain of the run: a run without an active lease has its running steps recovered. -/
def recoverRun (now : Nat → Nat → String) : Call Bool := do
  match ← readRun .control with
  | none => return false
  | some record =>
    if (getActiveExecutionRunLease record.value).isSome then return false
    else recoverAndPersistStrandedRun now 2 record

inductive CancelRunStatus
  | cancelled | notActive | notOwned | notFound
  deriving DecidableEq

structure CancelRunResult where
  status : CancelRunStatus
  cancelled : Bool
  reason : String

def createTerminalCancelRaceResult (status : ExecutionRunStatus) : CancelRunResult :=
  if status = .cancelled then ⟨.cancelled, true, "run was already cancelled"⟩
  else ⟨.notActive, false, s!"run already {status.text}; cancellation was not applied"⟩

/-- `expectedOwnerId` is `runnerId ?? ownerId` of the host. -/
structure CancelOwnedRunInput where
  runId : String
  note : Option String := none
  cancelledAt : String
  expectedOwnerId : String

/-- `try { await control.persistRun(…) } catch { … }`: a lost race with a terminal status is its own result. -/
def persistCancelledRun (record : ExecutionRunStoredRecord) (runId cancelledAt note : String) :
    Call (Option CancelRunResult) := do
  let cancelledBundle ← Program.ofExcept
    (cancelExecutionRun record.value { cancelledAt, note := some note, source := .operator })
  match ← (persistRun runId cancelledBundle (some record.revision)).outcome with
  | .ok _ => return none
  | .error e => match ← readRun .control with
    | some latest =>
      if latest.value.run.status.isTerminal then return some (createTerminalCancelRaceResult latest.value.run.status)
      else .throw e
    | none => .throw e

def cancelOwnedRun (input : CancelOwnedRunInput) : Call CancelRunResult := do
  match ← readRun .control with
  | none => return ⟨.notFound, false, s!"run {input.runId} was not found"⟩
  | some record => match getActiveExecutionRunLease record.value with
    | none =>
      let status := record.value.run.status
      if status.isTerminal then return createTerminalCancelRaceResult status
      else if record.value.steps.any (·.status.isMutable) then
        let reason := input.note.getD
          (if status = .planned then "planned run cancelled by service host operator control"
          else "run without active lease cancelled by service host operator control")
        match ← persistCancelledRun record input.runId input.cancelledAt reason with
        | some race => return race
        | none => return ⟨.cancelled, true, reason⟩
      else return ⟨.notActive, false, "run has no active lease to cancel"⟩
    | some activeLease =>
      if activeLease.ownerId ≠ input.expectedOwnerId then
        return ⟨.notOwned, false, s!"active lease is owned by {activeLease.ownerId}, not {input.expectedOwnerId}"⟩
      else
        let reason := input.note.getD "run cancelled by service host operator control"
        match ← persistCancelledRun record input.runId input.cancelledAt reason with
        | some race => return race
        | none =>
          let release : ReleaseInput := ⟨activeLease.id, input.cancelledAt, some "cancelled"⟩
          match ← (releaseLease .control input.runId release).outcome with
          | .ok _ => return ⟨.cancelled, true, reason⟩
          | .error e => match ← readRun .control with
            | some latest =>
              if latest.value.run.status = .cancelled ∧ getActiveExecutionRunLease latest.value = none then
                return ⟨.cancelled, true, reason⟩
              else .throw e
            | none => .throw e

/-- `false` when there is nothing to resolve. -/
def resolveLocalAction (runId : String) (input : ResolveInput) : Call Bool := do
  match ← readRun .control with
  | none => return false
  | some record => match resolveLocalActionRequest record.value input with
    | none => return false
    | some bundle =>
      let _ ← persistRun runId bundle (some record.revision)
      return true

def persistOperatorDrainEvent (runId : String) (input : DrainEventInput) : Call Unit := do
  match ← readRun .control with
  | none => return ()
  | some record =>
    let _ ← persistRun runId (operatorDrainEvent record.value input) (some record.revision)
    return ()

end AuraCall.Runtime
