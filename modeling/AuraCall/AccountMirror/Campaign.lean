import AuraCall.AccountMirror.StoreReaders
import AuraCall.Lib.KeyedMap

/-!
# Reconciliation campaigns

A campaign has targets, and a selected target has a completion as its child. Whenever a campaign is read, it advances:
it attaches running completions and starts children within its budgets.

The completion service and the reader of materialization jobs are parameters (`CampaignServices`): whatever state they
keep, the campaign service only calls them.
-/

namespace AuraCall

namespace AccountMirror

/-! ## Campaigns -/

inductive TargetState
  | eligible | disabled | unconfigured | unsupportedProvider | missingIdentity | identityMismatch | providerGuard
  | cooldownWait | foregroundBackpressure | alreadyActive
  deriving DecidableEq

inductive TargetExecutionStatus
  | notStarted | attached | deferred | queued | running | idleWaiting | paused | completed | blocked | failed
  | cancelled | skipped
  deriving DecidableEq

structure MaterializationMetrics where
  conversations : ℚ
  materialized : ℚ
  skipped : ℚ
  failed : ℚ
  archiveItems : Nat
  checksummedAssets : Nat
  deriving DecidableEq

structure TerminalRouteabilityMetrics where
  notFoundOrUnavailable : Nat
  guarded : Nat
  identityMismatch : Nat
  authConflict : Nat
  failed : Nat
  deriving DecidableEq

structure MaterializedAssetEvidence where
  kind : Option String
  providerConversationId : Option String
  boundIdentityKey : Option String
  providerId : Option String
  title : Option String
  checksumSha256 : Option String
  cacheKey : Option String
  archiveItemId : Option String
  assetRoute : Option String
  status : Option String
  deriving DecidableEq

structure TargetExecution where
  status : TargetExecutionStatus
  reason : String
  updatedAt : Option String
  completionStatus : Option CompletionStatus
  passCount : Option Nat
  materializationJobStatus : Option String
  materializationMetrics : Option MaterializationMetrics
  materializedAssets : List MaterializedAssetEvidence
  terminalRouteability : Option TerminalRouteabilityMetrics
  remainingDetailSurfaces : Json
  nextEligibleAt : Option String

/-- A target, with `childOperations` as two fields of its own. -/
structure Target where
  provider : Provider
  runtimeProfileId : String
  browserProfileId : Option String
  expectedIdentityKey : Option String
  detectedIdentityKey : Option String
  state : TargetState
  selected : Bool
  reason : String
  nextEligibleAt : Option String
  activeCompletionId : Option String
  mirrorCompleteness : JsonRecord
  completionId : Option String
  materializationJobId : Option String
  execution : TargetExecution

structure CampaignPolicy where
  sweepMode : SweepMode
  materializationPolicy : MaterializationPolicy
  materializationAssetKinds : List AssetKind
  materializationMaxItems : Option Nat
  deriving DecidableEq

structure CampaignFilters where
  provider : Option Provider
  runtimeProfileId : Option String
  maxActiveTargets : Option Nat
  deriving DecidableEq

/-! ## The services a campaign uses -/

inductive CompletionAction | pause | resume | cancel
  deriving DecidableEq

/-- The completion service and the reader of materialization jobs, with states of type `σ`. Operations are kept under
their identifiers, which are not empty. -/
structure CampaignServices (σ : Type) where
  /-- `list` of the active operations of a provider and a runtime profile. -/
  list : σ → Option Provider → Option String → List CompletionOperation
  read : σ → String → Option CompletionOperation
  start : σ → CompletionStartRequest → CompletionOperation × σ
  control : σ → String → CompletionAction → σ
  upgradePolicy : Option (σ → String → CompletionStartRequest → Option CompletionOperation × σ)
  /-- `readJob`; a job that cannot be read is none. -/
  readJob : Option (σ → String → Option Json)
  id_of_list : ∀ {s provider runtimeProfileId operation}, operation ∈ list s provider runtimeProfileId →
    operation.id ≠ ""
  id_of_read : ∀ {s id operation}, read s id = some operation → operation.id = id
  id_of_start : ∀ s request, (start s request).1.id ≠ ""
  id_of_upgradePolicy : ∀ {upgrade s id request operation}, upgradePolicy = some upgrade →
    (upgrade s id request).1 = some operation → operation.id = id

/-! ## Statuses -/

/-- `isActiveTargetExecution`. -/
def TargetExecutionStatus.isActive : TargetExecutionStatus → Bool
  | attached | queued | running | idleWaiting | paused => true
  | notStarted | deferred | completed | blocked | failed | cancelled | skipped => false

/-- `isTerminalTargetExecution`. -/
def TargetExecutionStatus.isTerminal : TargetExecutionStatus → Bool
  | completed | blocked | failed | cancelled | skipped => true
  | notStarted | attached | deferred | queued | running | idleWaiting | paused => false

def mapCompletionStatusToTargetExecutionStatus : CompletionStatus → TargetExecutionStatus
  | .queued => .queued
  | .running => .running
  | .idleWaiting => .idleWaiting
  | .paused => .paused
  | .completed => .completed
  | .blocked => .blocked
  | .failed => .failed
  | .cancelled => .cancelled

/-! ## Targets -/

/-- The patch of `withTargetExecution`. -/
structure ExecutionPatch where
  status : TargetExecutionStatus
  reason : String
  updatedAt : String
  operation : Option CompletionOperation

def withTargetExecution (target : Target) (patch : ExecutionPatch) : Target :=
  let cursor := patch.operation.bind (·.materializationCursor)
  let surfaces := (patch.operation.bind (·.mirrorCompleteness)).bind fun completeness =>
    match completeness.field "remainingDetailSurfaces" with
    | .null => none
    | value => some value
  { target with
    execution :=
      { target.execution with
        status := patch.status
        reason := patch.reason
        updatedAt := some patch.updatedAt
        completionStatus := (patch.operation.map (·.status)).or target.execution.completionStatus
        passCount := (patch.operation.map (·.passCount)).or target.execution.passCount
        materializationJobStatus := (cursor.map (·.jobStatus)).or target.execution.materializationJobStatus
        remainingDetailSurfaces := surfaces.getD target.execution.remainingDetailSurfaces
        nextEligibleAt := (patch.operation.bind (·.nextAttemptAt)).or target.nextEligibleAt } }

def readOperationMaterializationPolicy (operation : CompletionOperation) : MaterializationPolicy :=
  operation.materializationPolicy.getD
    (if operation.sweepMode = some .fullSweep then .fullMissingAssets else .metadataOnly)

def completionSatisfiesCampaignPolicy (operation : CompletionOperation) (policy : CampaignPolicy) : Bool :=
  operation.mode == .bounded && operation.maxPasses.isSome &&
    operation.sweepMode.getD .steadyFollow == policy.sweepMode &&
    readOperationMaterializationPolicy operation == policy.materializationPolicy &&
    normalizeMaterializationAssetKinds (some (operation.materializationAssetKinds.getD [.all])) ==
      normalizeMaterializationAssetKinds (some policy.materializationAssetKinds) &&
    operation.materializationMaxItems == policy.materializationMaxItems &&
    (policy.materializationPolicy == .metadataOnly || operation.materializationRefreshSnapshot == some true)

/-- A child that is started or upgraded for a campaign: one pass under the policy of the campaign. -/
def childRequest (policy : CampaignPolicy) : CompletionStartRequest where
  conversationIds := none
  provider := none
  runtimeProfileId := none
  maxPasses := some (some (.ofNat 1))
  sweepMode := some policy.sweepMode
  materializationPolicy := some policy.materializationPolicy
  materializationAssetKinds := some policy.materializationAssetKinds
  materializationMaxItems := policy.materializationMaxItems.map .ofNat
  materializationRefreshSnapshot := some true
  materializationForce := none

section Advancing

variable {σ : Type} (services : CampaignServices σ)

def resetMaterializationEvidenceWhenChildChanges (nextTarget previousTarget : Target)
    (operation : CompletionOperation) : Target :=
  let nextJobId := operation.materializationCursor.map (·.jobId)
  if previousTarget.completionId = some operation.id ∧ previousTarget.materializationJobId = nextJobId then nextTarget
  else
    { nextTarget with
      execution :=
        { nextTarget.execution with
          materializationJobStatus := operation.materializationCursor.map (·.jobStatus)
          materializationMetrics := none
          materializedAssets := []
          terminalRouteability := none } }

/-- `attachOrUpgradeActiveTarget`, during the advancement of a campaign. -/
def attachOrUpgradeActiveTarget (s : σ) (target : Target) (operation : CompletionOperation) (policy : CampaignPolicy)
    (now : String) : Target × σ :=
  let attach (attached : CompletionOperation) (reason : String) : Target :=
    withTargetExecution
      (resetMaterializationEvidenceWhenChildChanges
        { target with
          activeCompletionId := some attached.id
          completionId := some attached.id
          materializationJobId := attached.materializationCursor.map (·.jobId) }
        target attached)
      { status := mapCompletionStatusToTargetExecutionStatus attached.status
        reason
        updatedAt := now
        operation := some attached }
  match services.upgradePolicy with
  | some upgradePolicy =>
    if completionSatisfiesCampaignPolicy operation policy then
      (attach operation "Attached to existing active completion for this target during campaign advancement.", s)
    else
      let (upgraded, s) := upgradePolicy s operation.id (childRequest policy)
      (attach (upgraded.getD operation)
        "Claimed existing active completion for campaign full-sweep materialization policy.", s)
  | none => (attach operation "Attached to existing active completion for this target during campaign advancement.", s)

/-- The active operation of a target: the last one listed. -/
def activeOperation (active : List CompletionOperation) (target : Target) : Option CompletionOperation :=
  active.reverse.find? fun operation =>
    operation.provider == target.provider && operation.runtimeProfileId == target.runtimeProfileId

/-- The first pass of `advanceSelectedTargets` over one target: attach an operation that is active already. -/
def attachTarget (active : List CompletionOperation) (policy : CampaignPolicy) (now : String) (s : σ)
    (target : Target) : Target × σ :=
  if !target.selected then (target, s)
  else
    match target.completionId.filter (· != ""), activeOperation active target with
    | some completionId, operation =>
      if target.execution.status.isTerminal then
        match operation with
        | none => (target, s)
        | some operation =>
          if target.completionId = some operation.id then (target, s)
          else attachOrUpgradeActiveTarget services s target operation policy now
      else
        match operation with
        | none => (target, s)
        | some operation =>
          if operation.id ≠ completionId ∨ completionSatisfiesCampaignPolicy operation policy = true ∨
              services.upgradePolicy.isNone then (target, s)
          else attachOrUpgradeActiveTarget services s target operation policy now
    | none, none => (target, s)
    | none, some operation =>
      if target.completionId = some operation.id then (target, s)
      else attachOrUpgradeActiveTarget services s target operation policy now

/-- Attach the targets one after the other. -/
def attachTargets (active : List CompletionOperation) (policy : CampaignPolicy) (now : String) :
    σ → List Target → List Target × σ
  | s, [] => ([], s)
  | s, target :: targets =>
    let (target, s) := attachTarget services active policy now s target
    let (targets, s) := attachTargets active policy now s targets
    (target :: targets, s)

/-- The budgets that are used up: browser profiles and providers (one entry for each target), and the number of active
targets. -/
structure Budgets where
  activeBrowserProfiles : List String
  activeProviders : List Provider
  activeTargetCount : Nat

/-- A target that runs uses its budgets. -/
def Budgets.use (budgets : Budgets) (target : Target) : Budgets where
  activeBrowserProfiles := (target.browserProfileId.filter (· != "")).toList ++ budgets.activeBrowserProfiles
  activeProviders := target.provider :: budgets.activeProviders
  activeTargetCount := budgets.activeTargetCount + 1

def Budgets.ofTargets (targets : List Target) : Budgets :=
  (targets.filter fun target => target.selected && target.execution.status.isActive).foldl Budgets.use ⟨[], [], 0⟩

def deferTarget (target : Target) (targetReason reason now : String) : Target :=
  withTargetExecution { target with reason := targetReason }
    { status := .deferred, reason, updatedAt := now, operation := none }

/-- What the second pass does with one target. -/
structure StartPass (σ : Type) where
  budgets : Budgets
  service : σ
  started : List String

/-- The second pass of `advanceSelectedTargets` over one target: start a child where the budgets allow it. -/
def startTarget (maxActiveTargets : Option Nat) (policy : CampaignPolicy) (now : String) (pass : StartPass σ)
    (target : Target) : Target × StartPass σ :=
  if !target.selected || target.state != .eligible || (target.completionId.filter (· != "")).isSome then (target, pass)
  else if maxActiveTargets.any (· ≤ pass.budgets.activeTargetCount) then
    (deferTarget target target.reason "Deferred by campaign active-target budget." now, pass)
  else if (target.browserProfileId.filter (· != "")).any pass.budgets.activeBrowserProfiles.contains then
    (deferTarget target
      "Eligible but deferred because another selected target owns this browser profile budget."
      "Deferred by browser profile concurrency budget." now, pass)
  else if pass.budgets.activeProviders.contains target.provider then
    (deferTarget target
      "Eligible but deferred because another selected target owns this provider concurrency budget."
      "Deferred by provider concurrency budget." now, pass)
  else
    let (operation, service) := services.start pass.service
      { childRequest policy with
        provider := some target.provider
        runtimeProfileId := some target.runtimeProfileId }
    (withTargetExecution
      { target with
        activeCompletionId := some operation.id
        completionId := some operation.id
        materializationJobId := operation.materializationCursor.map (·.jobId) }
      { status := mapCompletionStatusToTargetExecutionStatus operation.status
        reason := "Started bounded full-sweep account-mirror completion for this target."
        updatedAt := now
        operation := some operation },
      { budgets := pass.budgets.use target, service, started := pass.started ++ [operation.id] })

def startTargets (maxActiveTargets : Option Nat) (policy : CampaignPolicy) (now : String) :
    StartPass σ → List Target → List Target × StartPass σ
  | pass, [] => ([], pass)
  | pass, target :: targets =>
    let (target, pass) := startTarget services maxActiveTargets policy now pass target
    let (targets, pass) := startTargets maxActiveTargets policy now pass targets
    (target :: targets, pass)

/-- `advanceSelectedTargets`: the targets, the state of the services, and the children that were started. -/
def advanceSelectedTargets (s : σ) (targets : List Target) (policy : CampaignPolicy) (filters : CampaignFilters)
    (now : String) : List Target × σ × List String :=
  let active := services.list s filters.provider filters.runtimeProfileId
  let (attached, s) := attachTargets services active policy now s targets
  let (targets, pass) :=
    startTargets services filters.maxActiveTargets policy now ⟨Budgets.ofTargets attached, s, []⟩ attached
  (targets, pass.service, pass.started)

end Advancing

end AccountMirror

end AuraCall
