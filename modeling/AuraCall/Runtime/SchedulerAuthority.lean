import AuraCall.Runtime.Control

/-!
# The scheduler's authority over a run

`evaluateStoredExecutionRunSchedulerAuthority` decides from the stored record and the registered runners who may claim a
run; `claimLocalRunWithSchedulerAuthority` asks it, reads the record again, and gives the local runner a lease, after
ending the expired one of an owner that is gone.
-/

namespace AuraCall.Runtime

open RevisionedStore

/-! ## The queue of a run -/

inductive ExecutionRunQueueState
  | runnable | waiting | activeLease | recoverableStranded | stranded | idle
  deriving DecidableEq

inductive ExecutionRunClaimState
  | claimable | heldByLease | blockedAffinity | notReady | idle
  deriving DecidableEq

def ExecutionRunClaimState.text : ExecutionRunClaimState → String
  | claimable => "claimable"
  | heldByLease => "held-by-lease"
  | blockedAffinity => "blocked-affinity"
  | notReady => "not-ready"
  | idle => "idle"

inductive ExecutionRunAffinityStatus
  | notEvaluated | eligible | blockedMismatch
  deriving DecidableEq

def ExecutionRunServiceId.text : ExecutionRunServiceId → String
  | chatgpt => "chatgpt"
  | gemini => "gemini"
  | grok => "grok"

structure ExecutionRunAffinityRecord where
  service : Option ExecutionRunServiceId
  serviceAccountId : Option String
  browserRequired : Bool
  runtimeProfileId : Option String
  browserProfileId : Option String
  sameHost : Bool
  requiredHostId : Option String

structure ExecutionRunAffinityProjection where
  status : ExecutionRunAffinityStatus
  reason : Option String
  requiredService : Option ExecutionRunServiceId
  requiredServiceAccountId : Option String
  browserRequired : Bool
  requiredRuntimeProfileId : Option String
  requiredBrowserProfileId : Option String
  sameHost : Bool
  requiredHostId : Option String

/-- A value in a text, which is not asked for when it is missing. -/
def textOf (value : Option String) : String := value.getD ""

/-- The truthy strings. -/
def truthy (value : Option String) : Option String := value.filter (! ·.isEmpty)

/-- `evaluateRunnerAffinity`: the status and its reason. -/
def evaluateRunnerAffinity (affinity : ExecutionRunAffinityProjection) (runner : ExecutionRunnerRecord) :
    ExecutionRunAffinityStatus × Option String :=
  if runner.status ≠ .active then (.blockedMismatch, some s!"runner {runner.id} heartbeat is not active")
  else if (truthy affinity.requiredHostId).any (· != runner.hostId) then
    (.blockedMismatch,
      some s!"runner host {runner.hostId} does not match required host {textOf affinity.requiredHostId}")
  else if affinity.requiredService.any (! runner.serviceIds.contains ·) then
    (.blockedMismatch,
      some s!"runner {runner.id} does not support service {textOf (affinity.requiredService.map (·.text))}")
  else if (truthy affinity.requiredRuntimeProfileId).any (! runner.runtimeProfileIds.contains ·) then
    (.blockedMismatch,
      some s!"runner {runner.id} does not expose runtime profile {textOf affinity.requiredRuntimeProfileId}")
  else if affinity.browserRequired && !runner.browserCapable then
    (.blockedMismatch, some s!"runner {runner.id} is not browser-capable")
  else if (truthy affinity.requiredBrowserProfileId).any (! runner.browserProfileIds.contains ·) then
    (.blockedMismatch,
      some s!"runner {runner.id} does not expose browser profile {textOf affinity.requiredBrowserProfileId}")
  else if (truthy affinity.requiredServiceAccountId).any (! runner.serviceAccountIds.contains ·) then
    (.blockedMismatch,
      some s!"runner {runner.id} does not expose service account {textOf affinity.requiredServiceAccountId}")
  else if affinity.sameHost && (truthy affinity.requiredHostId).any (· != runner.hostId) then
    (.blockedMismatch, some s!"runner {runner.id} is not on the required host")
  else (.eligible, none)

def createExecutionRunAffinityProjection (plan : ExecutionRunDispatchPlan)
    (affinity : Option ExecutionRunAffinityRecord) (runner : Option ExecutionRunnerRecord) :
    ExecutionRunAffinityProjection :=
  let firstActiveStep := (plan.steps.find? fun step => some step.id == plan.nextRunnableStepId).or
    (plan.steps.find? fun step => plan.runningStepIds.contains step.id)
  let base : ExecutionRunAffinityProjection :=
    { status := .notEvaluated
      reason := none
      requiredService := (affinity.bind (·.service)).or (firstActiveStep.bind (·.service))
      requiredServiceAccountId := affinity.bind (·.serviceAccountId)
      browserRequired := (affinity.map (·.browserRequired)).getD
        (truthy (firstActiveStep.bind (·.browserProfileId))).isSome
      requiredRuntimeProfileId := (affinity.bind (·.runtimeProfileId)).or (firstActiveStep.bind (·.runtimeProfileId))
      requiredBrowserProfileId := (affinity.bind (·.browserProfileId)).or (firstActiveStep.bind (·.browserProfileId))
      sameHost := affinity.any (·.sameHost)
      requiredHostId := affinity.bind (·.requiredHostId) }
  match runner with
  | none => base
  | some runner => { base with
      status := (evaluateRunnerAffinity base runner).1, reason := (evaluateRunnerAffinity base runner).2 }

structure ExecutionRunQueueProjection where
  runId : String
  queueState : ExecutionRunQueueState
  claimState : ExecutionRunClaimState
  affinity : ExecutionRunAffinityProjection

/-- Whether a stranded run can be recovered does not depend on the time. -/
def classifyExecutionRunQueueState (bundle : ExecutionRunRecordBundle) : ExecutionRunQueueState :=
  let plan := createExecutionRunDispatchPlan bundle
  if (getActiveExecutionRunLease bundle).isSome then .activeLease
  else if plan.nextRunnableStepId.isSome then .runnable
  else if plan.runningStepIds.length > 0 then
    if (recoverStrandedRunningExecutionRun bundle fun _ => "").isSome then .recoverableStranded else .stranded
  else if plan.waitingStepIds.length > 0 || plan.blockedStepIds.length > 0 ||
      plan.blockedByFailureStepIds.length > 0 || plan.deferredStepIds.length > 0 then .waiting
  else .idle

def classifyExecutionRunClaimState (queueState : ExecutionRunQueueState) (affinity : ExecutionRunAffinityProjection) :
    ExecutionRunClaimState :=
  match queueState with
  | .activeLease => .heldByLease
  | .runnable | .recoverableStranded => if affinity.status = .blockedMismatch then .blockedAffinity else .claimable
  | .idle => .idle
  | .waiting | .stranded => .notReady

def createExecutionRunQueueProjection (bundle : ExecutionRunRecordBundle)
    (affinity : Option ExecutionRunAffinityRecord) (runner : Option ExecutionRunnerRecord) :
    ExecutionRunQueueProjection :=
  let projection := createExecutionRunAffinityProjection (createExecutionRunDispatchPlan bundle) affinity runner
  let queueState := classifyExecutionRunQueueState bundle
  ⟨bundle.run.id, queueState, classifyExecutionRunClaimState queueState projection, projection⟩

/-! ## Candidates -/

inductive ClaimCandidateStatus
  | eligible | blockedAffinity | staleRunner | notReady
  deriving DecidableEq

/-- `claimCandidateRank`. -/
def ClaimCandidateStatus.rank : ClaimCandidateStatus → Nat
  | eligible => 0
  | blockedAffinity => 1
  | staleRunner => 2
  | notReady => 3

structure ExecutionRunClaimCandidate where
  runnerId : String
  runnerLastHeartbeatAt : String
  status : ClaimCandidateStatus
  reason : Option String

def createExecutionRunClaimCandidate (queue : ExecutionRunQueueProjection) (bundle : ExecutionRunRecordBundle)
    (affinity : Option ExecutionRunAffinityRecord) (runner : ExecutionRunnerRecord) : ExecutionRunClaimCandidate :=
  let projection := createExecutionRunQueueProjection bundle affinity (some runner)
  { runnerId := runner.id
    runnerLastHeartbeatAt := runner.lastHeartbeatAt
    status :=
      if queue.claimState ≠ .claimable then .notReady
      else if runner.status ≠ .active then .staleRunner
      else if projection.claimState = .claimable ∧ projection.affinity.status = .eligible then .eligible
      else .blockedAffinity
    reason :=
      if queue.claimState ≠ .claimable then some s!"run is {queue.claimState.text}"
      else if runner.status ≠ .active then some s!"runner {runner.id} heartbeat is not active"
      else projection.affinity.reason }

/-- `compareExecutionRunClaimCandidates(left, right) <= 0`. -/
def candidateNotAfter (localeCompare : String → String → Int) (left right : ExecutionRunClaimCandidate) : Bool :=
  let rankDifference := (left.status.rank : Int) - right.status.rank
  let heartbeatDifference := localeCompare right.runnerLastHeartbeatAt left.runnerLastHeartbeatAt
  if rankDifference ≠ 0 then rankDifference ≤ 0
  else if heartbeatDifference ≠ 0 then heartbeatDifference ≤ 0
  else localeCompare left.runnerId right.runnerId ≤ 0

def createExecutionRunClaimCandidates (localeCompare : String → String → Int) (queue : ExecutionRunQueueProjection)
    (bundle : ExecutionRunRecordBundle) (affinity : Option ExecutionRunAffinityRecord)
    (runners : List ExecutionRunnerRecord) : List ExecutionRunClaimCandidate :=
  (runners.map (createExecutionRunClaimCandidate queue bundle affinity)).mergeSort (candidateNotAfter localeCompare)

/-! ## The evaluation -/

inductive SchedulerAuthorityDecision
  | noOp | claimableByLocalRunner | claimableByOtherRunner | reassignableAfterExpiredLease | blockedActiveLease
  | blockedAffinity | blockedMissingCapability | notReady
  deriving DecidableEq

def SchedulerAuthorityDecision.text : SchedulerAuthorityDecision → String
  | noOp => "no-op"
  | claimableByLocalRunner => "claimable-by-local-runner"
  | claimableByOtherRunner => "claimable-by-other-runner"
  | reassignableAfterExpiredLease => "reassignable-after-expired-lease"
  | blockedActiveLease => "blocked-active-lease"
  | blockedAffinity => "blocked-affinity"
  | blockedMissingCapability => "blocked-missing-capability"
  | notReady => "not-ready"

inductive FutureMutation
  | none | localClaim | schedulerClaim | schedulerReassignExpiredLease
  deriving DecidableEq

def FutureMutation.text : FutureMutation → String
  | none => "none"
  | localClaim => "local-claim"
  | schedulerClaim => "scheduler-claim"
  | schedulerReassignExpiredLease => "scheduler-reassign-expired-lease"

inductive LeaseOwnerFreshness
  | fresh | expired | stale | missing
  deriving DecidableEq

structure SchedulerAuthorityEvaluation where
  decision : SchedulerAuthorityDecision
  reason : String
  selectedRunnerId : Option String
  futureMutation : FutureMutation

def classifyLeaseOwnerFreshness (leaseOwner : Option ExecutionRunnerRecord) (leaseExpiresAt now : String) :
    LeaseOwnerFreshness :=
  match leaseOwner with
  | none => .missing
  | some owner =>
    if owner.status ≠ .active then .stale else if notAfter leaseExpiresAt now then .expired else .fresh

def createActiveLeaseBlockedReason (leaseId ownerId : String) : LeaseOwnerFreshness → String
  | .fresh => s!"active lease {leaseId} is owned by active runner {ownerId}"
  | .expired => s!"active lease {leaseId} is expired but owner {ownerId} is still active"
  | .stale => s!"active lease {leaseId} owner {ownerId} is stale but the lease is not expired"
  | .missing => s!"active lease {leaseId} owner {ownerId} is missing but the lease is not expired"

/-- The text contains the words. -/
def includesText (text words : String) : Bool := text.toList.tails.any fun rest => words.toList.isPrefixOf rest

def isCapabilityReason (reason : Option String) : Bool :=
  reason.any fun reason => includesText reason "does not support service" ||
    includesText reason "does not expose runtime profile" || includesText reason "does not expose browser profile" ||
    includesText reason "does not expose service account" || includesText reason "is not browser-capable"

/-- The bundle with the lease ended, as the candidates of a reassignment see it. -/
def withoutActiveLease (bundle : ExecutionRunRecordBundle) (activeLeaseId : String) : ExecutionRunRecordBundle :=
  { bundle with leases := bundle.leases.map fun lease =>
      if lease.id == activeLeaseId then { lease with status := .expired } else lease }

structure EvaluationInput where
  now : String
  localRunnerId : String
  affinity : Option ExecutionRunAffinityRecord
  localeCompare : String → String → Int

/-- `evaluateStoredExecutionRunSchedulerAuthority`, of an inspected bundle and the listed runners. -/
def evaluateSchedulerAuthority (input : EvaluationInput) (bundle : ExecutionRunRecordBundle)
    (runners : List ExecutionRunnerRecord) : SchedulerAuthorityEvaluation :=
  let queue := createExecutionRunQueueProjection bundle input.affinity none
  let candidates := createExecutionRunClaimCandidates input.localeCompare queue bundle input.affinity runners
  match getActiveExecutionRunLease bundle with
  | some activeLease =>
    let leaseOwner := runners.find? (·.id == activeLease.ownerId)
    let freshness := classifyLeaseOwnerFreshness leaseOwner activeLease.expiresAt input.now
    if notAfter activeLease.expiresAt input.now && (freshness == .stale || freshness == .missing) then
      let freed := withoutActiveLease bundle activeLease.id
      let reassignmentCandidates := createExecutionRunClaimCandidates input.localeCompare
        (createExecutionRunQueueProjection freed input.affinity none) freed input.affinity runners
      { decision := .reassignableAfterExpiredLease
        reason :=
          if leaseOwner.isSome then s!"active lease {activeLease.id} is expired and owner {activeLease.ownerId} is stale"
          else s!"active lease {activeLease.id} is expired and owner {activeLease.ownerId} is missing"
        selectedRunnerId := (reassignmentCandidates.find? (·.status == .eligible)).map (·.runnerId)
        futureMutation := .schedulerReassignExpiredLease }
    else
      ⟨.blockedActiveLease, createActiveLeaseBlockedReason activeLease.id activeLease.ownerId freshness,
        some activeLease.ownerId, .none⟩
  | none =>
    if queue.claimState = .idle then ⟨.noOp, "run is idle", none, .none⟩
    else if queue.claimState ≠ .claimable then
      ⟨if queue.claimState = .blockedAffinity then .blockedAffinity else .notReady, s!"run is {queue.claimState.text}",
        none, .none⟩
    else match candidates.find? (·.runnerId == input.localRunnerId) with
      | some localCandidate =>
        if localCandidate.status = .eligible then
          ⟨.claimableByLocalRunner, s!"local runner {localCandidate.runnerId} is eligible to claim the run",
            some localCandidate.runnerId, .localClaim⟩
        else evaluateOthers candidates
      | none => evaluateOthers candidates
where
  /-- The local runner may not claim the run. -/
  evaluateOthers (candidates : List ExecutionRunClaimCandidate) : SchedulerAuthorityEvaluation :=
    match candidates.find? (·.status == .eligible) with
    | some eligible =>
      ⟨.claimableByOtherRunner,
        s!"runner {eligible.runnerId} is eligible, but this evaluator has no scheduler authority to assign it",
        some eligible.runnerId, .schedulerClaim⟩
    | none => match candidates.find? (·.status == .blockedAffinity) with
      | some blocked =>
        ⟨if isCapabilityReason blocked.reason then .blockedMissingCapability else .blockedAffinity,
          blocked.reason.getD "no eligible runner satisfies run affinity", none, .none⟩
      | none =>
        ⟨.blockedMissingCapability,
          if candidates.any (·.status == .staleRunner) then "no active eligible runner is available"
          else "no runner candidates are available", none, .none⟩

/-! ## The claim -/

/-- `/[a-z0-9:_-]/i`. -/
def isIdFragmentChar (c : Char) : Bool := c.toNat < 128 && (c.isAlphanum || c == ':' || c == '_' || c == '-')

/-- `value.replace(/[^a-z0-9:_-]+/gi, '-')`: `inRun` when the last character was replaced. -/
def replaceRuns : List Char → Bool → List Char
  | [], _ => []
  | c :: rest, inRun =>
    if isIdFragmentChar c then c :: replaceRuns rest false
    else if inRun then replaceRuns rest true
    else '-' :: replaceRuns rest true

def sanitizeIdFragment (value : String) : String :=
  let sanitized := ((replaceRuns value.toList false).dropWhile (· == '-')).rdropWhile (· == '-')
  if sanitized.isEmpty then "scheduler" else String.ofList sanitized

def activeLeasesMatch : Option ExecutionRunLease → Option ExecutionRunLease → Bool
  | none, none => true
  | some left, some right => left.id == right.id && left.ownerId == right.ownerId && left.status == right.status &&
      left.expiresAt == right.expiresAt
  | _, _ => false

/-- The claim of a scheduler: what the service host is configured with and told, and the runners the registry lists when
the evaluation asks for them. `recordRunnerActivity` is called when the claim has been persisted. -/
structure SchedulerClaimInput where
  runId : String
  schedulerId : String
  localRunnerId : Option String
  claimAt : String
  runners : List ExecutionRunnerRecord
  createRunAffinity : ExecutionRunRecordBundle → Option ExecutionRunAffinityRecord
  localeCompare : String → String → Int
  dates : Dates
  leaseHeartbeatTtlMs : Int := 15000
  recordRunnerActivity : Except RuntimeError Unit := .ok ()

inductive SchedulerClaimStatus
  | blocked | notFound | conflict | claimed | reassigned
  deriving DecidableEq

structure SchedulerClaimResult where
  status : SchedulerClaimStatus
  reason : String
  decision : Option SchedulerAuthorityDecision := none
  selectedRunnerId : Option String := none
  previousLease : Option ExecutionRunLease := none
  newLeaseId : Option String := none
  newLeaseOwnerId : Option String := none

def SchedulerClaimResult.claimed (result : SchedulerClaimResult) : Bool :=
  result.status == .claimed || result.status == .reassigned

def appendExecutionRunSchedulerControlEvent (bundle : ExecutionRunRecordBundle) (input : SchedulerClaimInput)
    (previousLease : Option ExecutionRunLease) (newLease : ExecutionRunLease) (decision : SchedulerAuthorityDecision)
    (futureMutation : FutureMutation) : ExecutionRunRecordBundle :=
  withLeases bundle bundle.leases [
    { id := s!"{bundle.run.id}:event:scheduler:{sanitizeIdFragment input.schedulerId}:{newLease.id}:claim-local-run"
      runId := bundle.run.id
      type := .noteAdded
      createdAt := input.claimAt
      leaseId := some newLease.id
      note := some (if futureMutation = .schedulerReassignExpiredLease then
          s!"scheduler reassigned expired lease to {newLease.ownerId}"
        else s!"scheduler claimed local run for {newLease.ownerId}")
      payload := some [("source", .string "service-host"), ("operatorControl", .string "scheduler-control"),
        ("action", .string "claim-local-run"), ("schedulerId", .string input.schedulerId),
        ("decision", .string decision.text), ("futureMutation", .string futureMutation.text),
        ("previousLeaseId", .ofOption (previousLease.map (·.id))),
        ("previousLeaseOwnerId", .ofOption (previousLease.map (·.ownerId))),
        ("previousLeaseExpiresAt", .ofOption (previousLease.map (·.expiresAt))),
        ("newLeaseId", .string newLease.id), ("newLeaseOwnerId", .string newLease.ownerId),
        ("newLeaseExpiresAt", .string newLease.expiresAt)] }] input.claimAt

/-- The bundle the new lease is added to: the expired leases are ended first, when the claim is a reassignment. An error
is the reason of a conflict. -/
def freeBundle (bundle : ExecutionRunRecordBundle) (runId claimAt : String) (previousLease : Option ExecutionRunLease)
    (futureMutation : FutureMutation) : Except String ExecutionRunRecordBundle :=
  if futureMutation = .schedulerReassignExpiredLease then
    match previousLease with
    | none => .error s!"run {runId} no longer has an expired active lease to reassign"
    | some previousLease =>
      if notAfter previousLease.expiresAt claimAt then
        let expired := expireExecutionRunLeases bundle claimAt
        if expired.expiredLeaseIds.contains previousLease.id then .ok expired.bundle
        else .error (s!"run {runId} active lease {previousLease.id} could not be expired" ++
          " for scheduler reassignment")
      else .error s!"run {runId} no longer has an expired active lease to reassign"
  else .ok bundle

theorem freeBundle_eq_ok {bundle freed : ExecutionRunRecordBundle} {runId claimAt : String}
    {previousLease : Option ExecutionRunLease} {futureMutation : FutureMutation}
    (h : freeBundle bundle runId claimAt previousLease futureMutation = .ok freed) :
    (futureMutation ≠ .schedulerReassignExpiredLease ∧ freed = bundle) ∨
    (futureMutation = .schedulerReassignExpiredLease ∧ freed = (expireExecutionRunLeases bundle claimAt).bundle) := by
  unfold freeBundle at h
  split at h
  · rename_i hm
    cases previousLease with
    | none => cases h
    | some lease =>
      dsimp only at h
      split at h
      · split at h
        · cases h
          exact .inr ⟨hm, rfl⟩
        · cases h
      · cases h
  · rename_i hm
    cases h
    exact .inl ⟨hm, rfl⟩

/-- The bundle a claim persists, with the new lease. -/
def claimBundle (bundle : ExecutionRunRecordBundle) (revision : Nat) (input : SchedulerClaimInput)
    (localRunnerId : String) (previousLease : Option ExecutionRunLease) (decision : SchedulerAuthorityDecision)
    (futureMutation : FutureMutation) : Except RuntimeError (ExecutionRunRecordBundle × ExecutionRunLease) := do
  let acquired ← acquireExecutionRunLease bundle
    { leaseId := s!"{input.runId}:lease:scheduler:{sanitizeIdFragment input.schedulerId}:{revision + 1}"
      ownerId := localRunnerId
      acquiredAt := input.claimAt
      expiresAt := addMillisecondsToIsoTimestamp input.dates input.claimAt input.leaseHeartbeatTtlMs }
  .ok (appendExecutionRunSchedulerControlEvent acquired.bundle input previousLease acquired.lease decision
    futureMutation, acquired.lease)

theorem claimBundle_eq_ok {bundle : ExecutionRunRecordBundle} {revision : Nat} {input : SchedulerClaimInput}
    {localRunnerId : String} {previousLease : Option ExecutionRunLease} {decision : SchedulerAuthorityDecision}
    {futureMutation : FutureMutation} {claim : ExecutionRunRecordBundle × ExecutionRunLease}
    (h : claimBundle bundle revision input localRunnerId previousLease decision futureMutation = .ok claim) :
    ∃ acquireInput acquired, acquireExecutionRunLease bundle acquireInput = .ok acquired ∧
      acquireInput.ownerId = localRunnerId ∧ claim.2 = acquired.lease ∧
      claim.1 = appendExecutionRunSchedulerControlEvent acquired.bundle input previousLease acquired.lease decision
        futureMutation := by
  simp only [claimBundle, bind, Except.bind] at h
  split at h
  · cases h
  · rename_i acquired ha
    cases h
    exact ⟨_, acquired, ha, rfl, rfl, rfl⟩

/-- A result that reports nothing but why the claim was not made. -/
def unclaimed (status : SchedulerClaimStatus) (reason : String) (evaluation : SchedulerAuthorityEvaluation)
    (previousLease : Option ExecutionRunLease) : SchedulerClaimResult :=
  { status, reason, decision := some evaluation.decision, selectedRunnerId := evaluation.selectedRunnerId, previousLease }

/-- The result of a claim that was persisted. -/
def persistedClaim (localRunnerId : String) (evaluation : SchedulerAuthorityEvaluation)
    (previousLease : Option ExecutionRunLease) (newLease : ExecutionRunLease) : SchedulerClaimResult :=
  let reassigned := decide (evaluation.futureMutation = .schedulerReassignExpiredLease)
  let previousLeaseId := (previousLease.map (·.id)).getD "unknown"
  { status := if reassigned then .reassigned else .claimed
    reason :=
      if reassigned then
        s!"scheduler reassigned expired lease {previousLeaseId} to local runner {localRunnerId}"
      else s!"scheduler claimed run for local runner {localRunnerId}"
    decision := some evaluation.decision
    selectedRunnerId := evaluation.selectedRunnerId
    previousLease
    newLeaseId := some newLease.id
    newLeaseOwnerId := some newLease.ownerId }

/-- From the evaluation on: the record is read again, and must be the inspected one. -/
def persistSchedulerClaim (input : SchedulerClaimInput) (localRunnerId : String) (inspected : ExecutionRunStoredRecord)
    (evaluation : SchedulerAuthorityEvaluation) : Call SchedulerClaimResult := do
  let previousLease := getActiveExecutionRunLease inspected.value
  match ← readRun .control with
  | none => return unclaimed .notFound s!"run {input.runId} was not found" evaluation previousLease
  | some latest =>
    if latest.revision ≠ inspected.revision then
      let reason := s!"run {input.runId} changed from revision {inspected.revision} to {latest.revision}" ++
        " before scheduler claim"
      return unclaimed .conflict reason evaluation previousLease
    else if !activeLeasesMatch previousLease (getActiveExecutionRunLease latest.value) then
      let reason := s!"run {input.runId} active lease changed before scheduler claim"
      return unclaimed .conflict reason evaluation previousLease
    else match freeBundle latest.value input.runId input.claimAt previousLease evaluation.futureMutation with
      | .error reason => return unclaimed .conflict reason evaluation previousLease
      | .ok freed =>
        let claim ← Program.ofExcept (claimBundle freed latest.revision input localRunnerId previousLease
          evaluation.decision evaluation.futureMutation)
        match ← (persistRun input.runId claim.1 (some latest.revision)).outcome with
        | .error e => return unclaimed .conflict e.message evaluation previousLease
        | .ok _ =>
          Program.ofExcept input.recordRunnerActivity
          return persistedClaim localRunnerId evaluation previousLease claim.2

/-- Why the evaluation does not let the local runner claim the run. -/
def blockedReason (localRunnerId : String) (evaluation : SchedulerAuthorityEvaluation) : String :=
  match truthy evaluation.selectedRunnerId with
  | some selected =>
    if selected ≠ localRunnerId then
      s!"scheduler authority selected {selected}, but v1 can only claim local runner {localRunnerId}"
    else evaluation.reason
  | none => evaluation.reason

def claimLocalRunWithSchedulerAuthority (input : SchedulerClaimInput) : Call SchedulerClaimResult := do
  match truthy input.localRunnerId with
  | none => return { status := .blocked, reason := "scheduler claim requires a configured server-local runner" }
  | some localRunnerId => match ← readRun .control with
    | none => return { status := .notFound, reason := s!"run {input.runId} was not found" }
    | some inspected => match ← readRun .control with
      | none => return { status := .notFound, reason := s!"run {input.runId} was not found" }
      | some evaluated =>
        let evaluation := evaluateSchedulerAuthority
          { now := input.claimAt, localRunnerId, affinity := input.createRunAffinity inspected.value,
            localeCompare := input.localeCompare } evaluated.value input.runners
        let mutates := evaluation.futureMutation = .localClaim ∨
          evaluation.futureMutation = .schedulerReassignExpiredLease
        if ¬mutates ∨ evaluation.selectedRunnerId ≠ some localRunnerId then
          return unclaimed .blocked (blockedReason localRunnerId evaluation) evaluation
            (getActiveExecutionRunLease inspected.value)
        else persistSchedulerClaim input localRunnerId inspected evaluation

end AuraCall.Runtime
