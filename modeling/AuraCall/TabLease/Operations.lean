import AuraCall.TabLease.Model

/-!
# The operations of the tab-lease registry

One definition for each method of `InMemoryBrowserTabLeaseRegistry`, in the source's order. A lease operation makes its
checks and ends in one `this.leases.set(…)` of the record it returns; its definition here is the checks and that record,
a function of the registry, and `perform` stores it. A refused or throwing call therefore changes no lease. `reserve`
and `acquireProfileControl` first prune expired controls, which stays when they refuse.
-/

namespace AuraCall.TabLease

/-! ## Profile control -/

/-- Expired controls become released ones, in place. -/
def pruneControl (nowMs : Int) (control : BrowserProfileControlRecord) : BrowserProfileControlRecord :=
  if control.state != .active || control.expiresAt.parse.any (nowMs < ·) then control
  else { control with
    revision := control.revision + 1, state := .released, heartbeatAt := .at nowMs, releasedAt := some (.at nowMs) }

theorem pruneControl_controlId (nowMs : Int) (control : BrowserProfileControlRecord) :
    (pruneControl nowMs control).controlId = control.controlId := by
  unfold pruneControl; split <;> rfl

def pruneExpiredControls (nowMs : Int) (registry : Registry) : Registry :=
  { registry with controls := registry.controls.mapValues (pruneControl nowMs) (pruneControl_controlId nowMs) }

structure AcquireProfileControlInput where
  scope : BrowserProfileControlScope
  kind : BrowserProfileControlKind
  operationId : String
  now : DateString
  ttlMs : JsNumber

/-- `BrowserProfileControlAcquireResult`. -/
inductive BrowserProfileControlAcquireResult
  | acquired (control : BrowserProfileControlRecord)
  | profileControlActive (blockingControl : BrowserProfileControlRecord)
  | tabLeasesActive (blockingTargetIds : List String)

/-- The active control of a profile and service. -/
def blockingControl (scope : BrowserProfileControlScope) (registry : Registry) : Option BrowserProfileControlRecord :=
  registry.controls.values.find? fun control => control.state == .active && sameControlScope control.scope scope

/-- The targets of the fenced leases of a profile and service. -/
def blockingTargetIds (scope : BrowserProfileControlScope) (registry : Registry) : List String :=
  sortStrings ((registry.leases.values.filter fun lease =>
    fenced lease.state && sameControlScope lease.scope.control scope).map (·.targetId))

/-- The part of `acquireProfileControl` after the pruning. -/
def acquirePrunedProfileControl (options : RegistryOptions) (scope : BrowserProfileControlScope) (nowMs : Int)
    (input : AcquireProfileControlInput) (registry : Registry) : Checked BrowserProfileControlAcquireResult := do
  match blockingControl scope registry with
  | some control => return .profileControlActive control
  | none => do
    if blockingTargetIds scope registry ≠ [] then
      return .tabLeasesActive (blockingTargetIds scope registry)
    else do
      let controlId ← requireNonEmpty options.createControlId "controlId"
      throwIf (registry.controls.get? controlId).isSome ("Profile control ID already exists: " ++ controlId)
      let now ← toISOString nowMs
      let ownerOperationId ← requireNonEmpty input.operationId "operationId"
      let ttlMs ← normalizeTtl input.ttlMs "ttlMs"
      let expiresAt ← toISOString (nowMs + ttlMs)
      return .acquired {
        controlId, revision := 1, scope, kind := input.kind, ownerOperationId, state := .active, acquiredAt := now,
        heartbeatAt := now, expiresAt, releasedAt := none }

/-- Store the control an acquisition returns. -/
def storeControl (registry : Registry) : Checked BrowserProfileControlAcquireResult → Registry
  | .ok (.acquired control) => { registry with controls := registry.controls.set control }
  | _ => registry

def acquireProfileControl (table : CaseTable) (options : RegistryOptions) (input : AcquireProfileControlInput)
    (registry : Registry) : Checked BrowserProfileControlAcquireResult × Registry :=
  match normalizeControlScope table input.scope, (parseTimestamp input.now "now" : Checked Int) with
  | .ok scope, .ok nowMs =>
    let pruned := pruneExpiredControls nowMs registry
    let result := acquirePrunedProfileControl options scope nowMs input pruned
    (result, storeControl pruned result)
  | .error stop, _ => (.error stop, registry)
  | _, .error stop => (.error stop, registry)

structure ReleaseProfileControlInput where
  claim : BrowserProfileControlClaim
  releasedAt : DateString

/-- The released record, `none` when the claim does not hold an active control. -/
def releasedControl (input : ReleaseProfileControlInput) (registry : Registry) :
    Checked (Option BrowserProfileControlRecord) := do
  match registry.controls.get? input.claim.controlId with
  | none => return none
  | some existing =>
    if existing.state != .active || existing.revision != input.claim.revision ||
        existing.ownerOperationId != input.claim.operationId then
      return none
    else do
      let releasedAt ← toISOString (← parseTimestamp input.releasedAt "releasedAt")
      return some { existing with
        revision := existing.revision + 1, state := .released, heartbeatAt := releasedAt,
        releasedAt := some releasedAt }

def releaseProfileControl (input : ReleaseProfileControlInput) (registry : Registry) : Checked Bool × Registry :=
  match releasedControl input registry with
  | .ok (some control) => (.ok true, { registry with controls := registry.controls.set control })
  | .ok none => (.ok false, registry)
  | .error stop => (.error stop, registry)

/-! ## Reservation -/

structure ReserveTabLeaseInput where
  scope : TabLeaseScope
  targetId : String
  workload : TabLeaseWorkload
  operationId : String
  now : DateString
  idleTtlMs : JsNumber
  absoluteTtlMs : JsNumber
  targetFingerprint : Option String := none
  exclusiveGroup : Option String := none
  processBound : Bool := false

/-- A reservation request with its fields normalized. -/
structure NormalizedReserveInput where
  scope : TabLeaseScope
  targetId : String
  workload : TabLeaseWorkload
  operationId : String
  now : DateString
  nowMs : Int
  idleTtlMs : Int
  absoluteTtlMs : Int
  targetFingerprint : Option String
  exclusiveGroup : Option String
  processBound : Bool

/-- `input.exclusiveGroup === undefined ? {} : { exclusiveGroup: requireNonEmpty(…) }`. -/
def normalizeExclusiveGroup : Option String → Checked (Option String)
  | none => return none
  | some group => return some (← requireNonEmpty group "exclusiveGroup")

def normalizeReserveInput (table : CaseTable) (input : ReserveTabLeaseInput) : Checked NormalizedReserveInput := do
  let idleTtlMs ← normalizeTtl input.idleTtlMs "idleTtlMs"
  let absoluteTtlMs ← normalizeTtl input.absoluteTtlMs "absoluteTtlMs"
  throwIf (idleTtlMs > absoluteTtlMs) "idleTtlMs cannot exceed absoluteTtlMs"
  let nowMs ← parseTimestamp input.now "now"
  let scope ← normalizeScope table input.scope
  let targetId ← requireNonEmpty input.targetId "targetId"
  let workload ← normalizeWorkload input.workload
  let operationId ← requireNonEmpty input.operationId "operationId"
  let targetFingerprint ← normalizeOptional input.targetFingerprint
  let exclusiveGroup ← normalizeExclusiveGroup input.exclusiveGroup
  return {
    scope, targetId, workload, operationId, now := input.now, nowMs, idleTtlMs, absoluteTtlMs, targetFingerprint,
    exclusiveGroup, processBound := input.processBound }

/-- One round of the reservation's scan: how an existing lease conflicts with the request. -/
def reserveConflict (options : RegistryOptions) (normalized : NormalizedReserveInput) (existing : BrowserTabLease) :
    Option TabLeaseConflict :=
  if !fenced existing.state then none
  else if blocksExclusiveGroupAdmission existing normalized.scope normalized.exclusiveGroup then
    some (.workloadOwned existing)
  else if normalized.processBound && sameOwnershipScope existing.scope normalized.scope &&
      ownsProcessBinding options existing then
    some (.processOwned existing)
  else if sameTargetDomain existing.scope normalized.scope && existing.targetId == normalized.targetId then
    some (.targetOwned existing)
  else if sameOwnershipScope existing.scope normalized.scope &&
      sameWorkload existing.workload normalized.workload then
    some (.workloadOwned existing)
  else none

/-- The part of `reserve` after the pruning: the record it stores. -/
def reservedLease (options : RegistryOptions) (normalized : NormalizedReserveInput) (registry : Registry) :
    Checked BrowserTabLease := do
  refuseFound (blockingControl normalized.scope.control registry) .profileControlled
  refuseFound (registry.leases.values.findSome? (reserveConflict options normalized)) id
  let leaseId ← requireNonEmpty options.createLeaseId "leaseId"
  throwIf (registry.leases.get? leaseId).isSome ("Tab lease ID already exists: " ++ leaseId)
  let idleExpiresAt ← toISOString (normalized.nowMs + normalized.idleTtlMs)
  let absoluteExpiresAt ← toISOString (normalized.nowMs + normalized.absoluteTtlMs)
  return {
    leaseId, revision := 1, scope := normalized.scope, targetId := normalized.targetId,
    workload := normalized.workload, exclusiveGroup := normalized.exclusiveGroup, state := .active,
    ownerOperationId := some normalized.operationId, ownerProcessId := some options.ownerIdentity.processId,
    ownerInstanceId := some options.ownerIdentity.instanceId,
    processBinding := if normalized.processBound then some options.ownerIdentity else none,
    retention := some (match normalized.workload with | .liveFollow _ => .liveFollow | _ => .ttl),
    effectState := .none, effectReconciliations := [], unknownEffectAbandonment := none,
    acquiredAt := normalized.now, heartbeatAt := normalized.now, lastMeaningfulUseAt := normalized.now,
    idleExpiresAt, absoluteExpiresAt, targetFingerprint := normalized.targetFingerprint,
    retirementReason := none, finalDisposition := none, lossReason := none, actionCounts := emptyActionCounts }

/-- Store the lease a call returns; a call that refused or threw stores none. -/
def storeLease (registry : Registry) : Checked BrowserTabLease → Registry
  | .ok lease => { registry with leases := registry.leases.set lease }
  | .error _ => registry

def reserve (table : CaseTable) (options : RegistryOptions) (input : ReserveTabLeaseInput) (registry : Registry) :
    Checked BrowserTabLease × Registry :=
  match normalizeReserveInput table input with
  | .ok normalized =>
    let pruned := pruneExpiredControls normalized.nowMs registry
    let result := reservedLease options normalized pruned
    (result, storeLease pruned result)
  | .error stop => (.error stop, registry)

/-! ## Operations that present a claim or a revision -/

/-- `this.leases.get(leaseId)` at the presented revision. -/
def fencedLease (leaseId : String) (revision : Nat) (registry : Registry) : Checked BrowserTabLease := do
  let existing ← orRefuse (registry.leases.get? leaseId) .notFound
  refuseIf (existing.revision != revision) (.staleClaim existing)
  return existing

/-- `this.leases.get(claim.leaseId)` at the revision and under the owner of the claim. -/
def claimedLease (claim : TabLeaseClaim) (registry : Registry) : Checked BrowserTabLease := do
  let existing ← orRefuse (registry.leases.get? claim.leaseId) .notFound
  refuseIf (existing.revision != claim.revision || existing.ownerOperationId != some claim.operationId)
    (.staleClaim existing)
  return existing

structure AcquireProcessInput where
  leaseId : String
  expectedRevision : Nat
  scope : TabLeaseScope
  workload : TabLeaseWorkload
  operationId : String
  now : DateString
  idleTtlMs : JsNumber
  absoluteTtlMs : JsNumber

/-- Another lease that blocks an admission to the exclusive group of `existing`. -/
def exclusiveGroupConflict (existing : BrowserTabLease) (scope : TabLeaseScope) (registry : Registry) :
    Option BrowserTabLease :=
  registry.leases.values.find? fun candidate => candidate.leaseId != existing.leaseId &&
    blocksExclusiveGroupAdmission candidate scope existing.exclusiveGroup

/-- An exempt lease gets a new absolute expiry, any other keeps its own. -/
def acquiredAbsoluteExpiry (existing : BrowserTabLease) (ms : Int) : Checked DateString :=
  if isTabLeaseTtlExempt existing then toISOString ms else return existing.absoluteExpiresAt

def acquireProcess (table : CaseTable) (options : RegistryOptions) (input : AcquireProcessInput)
    (registry : Registry) : Checked BrowserTabLease := do
  let existing ← fencedLease input.leaseId input.expectedRevision registry
  let scope ← normalizeScope table input.scope
  let workload ← normalizeWorkload input.workload
  let processTab ← findByProcess options table scope registry
  refuseFound (processTab.filter fun tab => tab.leaseId != existing.leaseId && ownsProcessBinding options tab)
    .processOwned
  let nowMs ← parseTimestamp input.now "now"
  let idleTtlMs ← normalizeTtl input.idleTtlMs "idleTtlMs"
  let absoluteTtlMs ← normalizeTtl input.absoluteTtlMs "absoluteTtlMs"
  throwIf (idleTtlMs > absoluteTtlMs) "idleTtlMs cannot exceed absoluteTtlMs"
  refuseIf (!sameOwnershipScope existing.scope scope || !canAdoptProcessBinding options existing ||
      existing.state != .idle || (existing.effectState != .none && existing.effectState != .settled) ||
      (!isTabLeaseTtlExempt existing &&
        (reached nowMs existing.idleExpiresAt || reached nowMs existing.absoluteExpiresAt)))
    (.processOwned existing)
  refuseFound (registry.leases.values.find? fun candidate => candidate.leaseId != existing.leaseId &&
      fenced candidate.state && sameOwnershipScope candidate.scope scope && sameWorkload candidate.workload workload)
    .workloadOwned
  refuseFound (exclusiveGroupConflict existing scope registry) .workloadOwned
  let operationId ← requireNonEmpty input.operationId "operationId"
  let idleExpiresAt ← toISOString (nowMs + idleTtlMs)
  let absoluteExpiresAt ← acquiredAbsoluteExpiry existing (nowMs + absoluteTtlMs)
  return { existing with
    workload, revision := existing.revision + 1, state := .active, ownerOperationId := some operationId,
    ownerProcessId := some options.ownerIdentity.processId,
    ownerInstanceId := some options.ownerIdentity.instanceId, heartbeatAt := input.now,
    processBinding := some options.ownerIdentity,
    retention := some (match workload with
      | .liveFollow _ => .liveFollow
      | _ => if isTabLeaseTtlExempt existing then .liveFollow else .ttl),
    idleExpiresAt, absoluteExpiresAt }

structure BindConversationInput where
  claim : TabLeaseClaim
  conversationId : String
  targetFingerprint : String
  now : DateString

def TabLeaseWorkload.isNewConversation : TabLeaseWorkload → Bool
  | .newConversation _ => true
  | _ => false

def bindConversation (input : BindConversationInput) (registry : Registry) : Checked BrowserTabLease := do
  let existing ← claimedLease input.claim registry
  refuseIf (existing.state != .active || !existing.workload.isNewConversation) (.invalidTransition existing)
  let now ← toISOString (← parseTimestamp input.now "now")
  let conversationId ← requireNonEmpty input.conversationId "conversationId"
  refuseFound (registry.leases.values.find? fun other => other.leaseId != existing.leaseId &&
      fenced other.state && sameOwnershipScope other.scope existing.scope &&
      sameWorkload other.workload (.conversation conversationId))
    .workloadOwned
  let targetFingerprint ← requireNonEmpty input.targetFingerprint "targetFingerprint"
  return { existing with
    revision := existing.revision + 1, workload := .conversation conversationId, heartbeatAt := now,
    lastMeaningfulUseAt := now, targetFingerprint := some targetFingerprint }

/-- `targetFingerprint` and `effectState` are `none` when the caller leaves them out; a `null` fingerprint is
`some none`. -/
structure RecordMeaningfulUseInput where
  claim : TabLeaseClaim
  now : DateString
  idleTtlMs : JsNumber
  targetFingerprint : Option (Option String) := none
  effectState : Option TabLeaseEffectState := none

/-- The renewed idle expiry: the time to live from now, within the absolute expiry unless exempt. -/
def renewedIdleExpiry (existing : BrowserTabLease) (nowMs absoluteExpiresAtMs : Int) (idleTtlMs : JsNumber) :
    Checked DateString := do
  let ttl ← normalizeTtl idleTtlMs "idleTtlMs"
  toISOString (if isTabLeaseTtlExempt existing then nowMs + ttl else min (nowMs + ttl) absoluteExpiresAtMs)

/-- `normalizeOptional(input.targetFingerprint) ?? null`, or the old fingerprint when the input has none. -/
def renewedFingerprint (existing : BrowserTabLease) : Option (Option String) → Checked (Option String)
  | none => return existing.targetFingerprint
  | some value => normalizeOptional value

/-- A heartbeat that is no meaningful use comes too late at the idle or the absolute expiry. -/
def heartbeatTooLate (meaningfulUse : Bool) (existing : BrowserTabLease) (nowMs absoluteExpiresAtMs : Int) :
    Checked Bool :=
  if meaningfulUse then return false
  else do
    let idleExpiresAtMs ← parseTimestamp existing.idleExpiresAt "idleExpiresAt"
    return nowMs ≥ idleExpiresAtMs || (!isTabLeaseTtlExempt existing && nowMs ≥ absoluteExpiresAtMs)

def renewHeartbeat (input : RecordMeaningfulUseInput) (meaningfulUse : Bool) (registry : Registry) :
    Checked BrowserTabLease := do
  let existing ← claimedLease input.claim registry
  refuseIf (existing.state != .active) (.invalidTransition existing)
  let nowMs ← parseTimestamp input.now "now"
  let absoluteExpiresAtMs ← parseTimestamp existing.absoluteExpiresAt "absoluteExpiresAt"
  refuseIf (← heartbeatTooLate meaningfulUse existing nowMs absoluteExpiresAtMs) (.invalidTransition existing)
  refuseIf (nowMs > absoluteExpiresAtMs && !isTabLeaseTtlExempt existing) (.invalidTransition existing)
  let now ← toISOString nowMs
  let idleExpiresAt ← renewedIdleExpiry existing nowMs absoluteExpiresAtMs input.idleTtlMs
  let targetFingerprint ← renewedFingerprint existing input.targetFingerprint
  return { existing with
    revision := existing.revision + 1, heartbeatAt := now,
    lastMeaningfulUseAt := if meaningfulUse then now else existing.lastMeaningfulUseAt, idleExpiresAt,
    targetFingerprint, effectState := input.effectState.getD existing.effectState }

structure HeartbeatInput where
  claim : TabLeaseClaim
  now : DateString
  idleTtlMs : JsNumber

def recordMeaningfulUse (input : RecordMeaningfulUseInput) : Registry → Checked BrowserTabLease :=
  renewHeartbeat input true

def heartbeat (input : HeartbeatInput) : Registry → Checked BrowserTabLease :=
  renewHeartbeat { claim := input.claim, now := input.now, idleTtlMs := input.idleTtlMs } false

structure RecordTargetActionInput where
  claim : TabLeaseClaim
  action : BrowserTabTargetAction
  occurredAt : DateString
  idleTtlMs : JsNumber

def recordTargetAction (input : RecordTargetActionInput) (registry : Registry) : Checked BrowserTabLease := do
  let existing ← claimedLease input.claim registry
  refuseIf (existing.state != .active) (.invalidTransition existing)
  let occurredAtMs ← parseTimestamp input.occurredAt "occurredAt"
  let absoluteExpiresAtMs ← parseTimestamp existing.absoluteExpiresAt "absoluteExpiresAt"
  refuseIf (occurredAtMs > absoluteExpiresAtMs && !isTabLeaseTtlExempt existing) (.invalidTransition existing)
  let occurredAt ← toISOString occurredAtMs
  let idleExpiresAt ← renewedIdleExpiry existing occurredAtMs absoluteExpiresAtMs input.idleTtlMs
  return { existing with
    revision := existing.revision + 1, heartbeatAt := occurredAt, lastMeaningfulUseAt := occurredAt, idleExpiresAt,
    actionCounts := existing.actionCounts.count input.action }

/-- `Exclude<TabLeaseEffectState, 'in-flight'>`. -/
structure IdleInput where
  claim : TabLeaseClaim
  now : DateString
  effectState : TabLeaseEffectState
  notInFlight : effectState ≠ .inFlight := by decide

theorem settled_notInFlight : TabLeaseEffectState.settled ≠ .inFlight := by decide

def idle (input : IdleInput) (registry : Registry) : Checked BrowserTabLease := do
  let existing ← claimedLease input.claim registry
  refuseIf (existing.state != .active) (.invalidTransition existing)
  let now ← toISOString (← parseTimestamp input.now "now")
  return { existing with
    revision := existing.revision + 1, state := .idle, ownerOperationId := none, ownerProcessId := none,
    ownerInstanceId := none, heartbeatAt := now, effectState := input.effectState }

structure AcquireInput where
  scope : TabLeaseScope
  workload : TabLeaseWorkload
  operationId : String
  now : DateString
  processBound : Bool := false

/-- Neither the idle nor the absolute expiry of a lease that is not exempt may have come. -/
def acquireTooLate (existing : BrowserTabLease) (nowMs : Int) : Checked Bool :=
  if isTabLeaseTtlExempt existing then return false
  else do
    let idleExpiresAtMs ← parseTimestamp existing.idleExpiresAt "idleExpiresAt"
    if nowMs ≥ idleExpiresAtMs then return true
    else return nowMs ≥ (← parseTimestamp existing.absoluteExpiresAt "absoluteExpiresAt")

/-- The `if (input.processBound) { … }` block of `acquire`. -/
def acquireProcessBound (table : CaseTable) (options : RegistryOptions) (processBound : Bool)
    (existing : BrowserTabLease) (scope : TabLeaseScope) (registry : Registry) : Checked Unit :=
  if processBound then do
    refuseIf (existing.processBinding.isSome && !canAdoptProcessBinding options existing) (.processOwned existing)
    let other ← findByProcess options table scope registry
    refuseFound (other.filter fun tab => tab.leaseId != existing.leaseId) .processOwned
  else return ()

def acquire (table : CaseTable) (options : RegistryOptions) (input : AcquireInput) (registry : Registry) :
    Checked BrowserTabLease := do
  let scope ← normalizeScope table input.scope
  let workload ← normalizeWorkload input.workload
  let operationId ← requireNonEmpty input.operationId "operationId"
  let nowMs ← parseTimestamp input.now "now"
  let existing ← orRefuse (registry.leases.values.find? fun lease =>
    fenced lease.state && sameOwnershipScope lease.scope scope && sameWorkload lease.workload workload) .notFound
  refuseIf (existing.state == .active) (.workloadOwned existing)
  refuseIf (existing.state != .idle || existing.effectState == .outcomeUnknown) (.invalidTransition existing)
  refuseIf (← acquireTooLate existing nowMs) (.invalidTransition existing)
  refuseFound (exclusiveGroupConflict existing scope registry) .workloadOwned
  acquireProcessBound table options input.processBound existing scope registry
  let heartbeatAt ← toISOString nowMs
  return { existing with
    scope, revision := existing.revision + 1, state := .active, ownerOperationId := some operationId,
    ownerProcessId := some options.ownerIdentity.processId,
    ownerInstanceId := some options.ownerIdentity.instanceId,
    processBinding := if input.processBound then some options.ownerIdentity else existing.processBinding,
    heartbeatAt }

structure BeginRetirementInput where
  leaseId : String
  expectedRevision : Nat
  now : DateString
  reason : TabLeaseRetirementReason

/-- `reasonIsEligible`. -/
def retirementEligible (existing : BrowserTabLease) (nowMs : Int) : TabLeaseRetirementReason → Checked Bool
  | .idleExpired => return nowMs ≥ (← parseTimestamp existing.idleExpiresAt "idleExpiresAt")
  | .absoluteExpired => return nowMs ≥ (← parseTimestamp existing.absoluteExpiresAt "absoluteExpiresAt")
  | .cancelled => return true
  | .operator => return true

def beginRetirement (input : BeginRetirementInput) (registry : Registry) : Checked BrowserTabLease := do
  let existing ← fencedLease input.leaseId input.expectedRevision registry
  let nowMs ← parseTimestamp input.now "now"
  let reasonIsEligible ← retirementEligible existing nowMs input.reason
  refuseIf (existing.state != .idle || existing.ownerOperationId.isSome || existing.effectState == .inFlight ||
    !reasonIsEligible) (.invalidTransition existing)
  let heartbeatAt ← toISOString nowMs
  return { existing with
    revision := existing.revision + 1, state := .retiring, heartbeatAt, retirementReason := some input.reason }

structure FinishRetirementInput where
  leaseId : String
  retirementRevision : Nat
  now : DateString
  disposition : TabLeaseFinalDisposition

def finishRetirement (input : FinishRetirementInput) (registry : Registry) : Checked BrowserTabLease := do
  let existing ← fencedLease input.leaseId input.retirementRevision registry
  refuseIf (existing.state != .retiring) (.invalidTransition existing)
  let heartbeatAt ← toISOString (← parseTimestamp input.now "now")
  return { existing with
    revision := existing.revision + 1, state := if input.disposition = .preserved then .lost else .released,
    heartbeatAt, finalDisposition := some input.disposition,
    actionCounts := existing.actionCounts.countClose (input.disposition == .closed) }

structure MarkLostInput where
  leaseId : String
  expectedRevision : Nat
  now : DateString
  reason : TabLeaseLossReason

def markLost (input : MarkLostInput) (registry : Registry) : Checked BrowserTabLease := do
  let existing ← fencedLease input.leaseId input.expectedRevision registry
  refuseIf (existing.state == .released || existing.state == .lost) (.invalidTransition existing)
  let heartbeatAt ← toISOString (← parseTimestamp input.now "now")
  return { existing with
    revision := existing.revision + 1, state := .lost, ownerOperationId := none, ownerProcessId := none,
    ownerInstanceId := none, heartbeatAt, lossReason := some input.reason, retention := some .ttl }

/-- `Extract<TabLeaseFinalDisposition, 'closed' | 'already-missing'>`. -/
structure ReleaseLostInput where
  leaseId : String
  expectedRevision : Nat
  now : DateString
  disposition : TabLeaseFinalDisposition
  notPreserved : disposition ≠ .preserved := by decide

def releaseLost (input : ReleaseLostInput) (registry : Registry) : Checked BrowserTabLease := do
  let existing ← fencedLease input.leaseId input.expectedRevision registry
  refuseIf (existing.state != .lost) (.invalidTransition existing)
  let now ← toISOString (← parseTimestamp input.now "now")
  return { existing with
    revision := existing.revision + 1, state := .released, heartbeatAt := now,
    finalDisposition := some input.disposition,
    actionCounts := existing.actionCounts.countClose (input.disposition == .closed) }

structure ReconcileEffectInput where
  leaseId : String
  expectedRevision : Nat
  scope : TabLeaseScope
  targetId : String
  now : DateString
  evidence : Evidence

/-- An evidence reference that is too long, holds control characters, or comes without a digest. -/
def unqualifiedEvidence (artifactRef sha256 : String) : Bool :=
  decide ((codeUnits artifactRef).length > 4096) || hasControlCharacter artifactRef || !isHexDigest sha256

/-- A quiescent lease: idle or lost, with no owner. -/
def ownerFree (existing : BrowserTabLease) : Bool :=
  (existing.state == .idle || existing.state == .lost) && existing.ownerOperationId.isNone &&
  existing.ownerProcessId.isNone && existing.ownerInstanceId.isNone

def reconcileEffect (table : CaseTable) (input : ReconcileEffectInput) (registry : Registry) :
    Checked BrowserTabLease := do
  let artifactRef ← requireNonEmpty input.evidence.artifactRef "evidence artifact"
  throwIf (unqualifiedEvidence artifactRef input.evidence.sha256)
    "Qualified immutable reconciliation evidence is required"
  let observedAt ← toISOString (← parseTimestamp input.now "now")
  let existing ← fencedLease input.leaseId input.expectedRevision registry
  let exactScope ← normalizeScope table input.scope
  refuseIf (existing.scope != exactScope || existing.targetId != input.targetId || !ownerFree existing ||
    existing.effectState != .outcomeUnknown) (.invalidTransition existing)
  return { existing with
    revision := existing.revision + 1, effectState := .settled,
    effectReconciliations := existing.effectReconciliations ++
      [⟨observedAt, .outcomeUnknown, ⟨artifactRef, input.evidence.sha256⟩⟩] }

structure AbandonUnknownEffectInput where
  leaseId : String
  expectedRevision : Nat
  scope : TabLeaseScope
  targetId : String
  now : DateString
  acknowledgeUnknownOutcome : Bool
  evidence : Evidence

def abandonUnknownEffect (table : CaseTable) (input : AbandonUnknownEffectInput) (registry : Registry) :
    Checked BrowserTabLease := do
  let artifactRef ← requireNonEmpty input.evidence.artifactRef "operator approval artifact"
  throwIf (unqualifiedEvidence artifactRef input.evidence.sha256) "Immutable operator approval evidence is required"
  let nowMs ← parseTimestamp input.now "now"
  let existing ← fencedLease input.leaseId input.expectedRevision registry
  let scope ← normalizeScope table input.scope
  refuseIf (!input.acknowledgeUnknownOutcome || existing.scope != scope || existing.targetId != input.targetId ||
    !ownerFree existing || existing.processBinding.isSome || existing.effectState != .outcomeUnknown ||
    isTabLeaseTtlExempt existing) (.invalidTransition existing)
  refuseIf (nowMs < (← parseTimestamp existing.absoluteExpiresAt "absolute expiry")) (.invalidTransition existing)
  let now ← toISOString nowMs
  return { existing with
    revision := existing.revision + 1, state := .released, heartbeatAt := now, finalDisposition := some .preserved,
    unknownEffectAbandonment := some ⟨now, true, ⟨artifactRef, input.evidence.sha256⟩⟩ }

structure ReleasePreservedInput where
  leaseId : String
  expectedRevision : Nat
  now : DateString

def releasePreserved (input : ReleasePreservedInput) (registry : Registry) : Checked BrowserTabLease := do
  let existing ← fencedLease input.leaseId input.expectedRevision registry
  refuseIf (!ownerFree existing || existing.effectState == .inFlight || existing.effectState == .outcomeUnknown)
    (.invalidTransition existing)
  let heartbeatAt ← toISOString (← parseTimestamp input.now "now")
  return { existing with
    revision := existing.revision + 1, state := .released, heartbeatAt, finalDisposition := some .preserved }

end AuraCall.TabLease
