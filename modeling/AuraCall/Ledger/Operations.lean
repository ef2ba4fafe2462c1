import Mathlib.Data.Finset.Card
import Mathlib.Data.Finset.Dedup
import AuraCall.Ledger.Evidence

/-!
# The operations of the interaction ledger

One definition for each method of `InMemoryProviderInteractionLedger`, in the source's order, from a ledger to an
outcome and a ledger. A method first expires reservations where the source does, then makes its checks, a function of
the ledger that refuses or throws (`checkAdmission`, `starting`, …), and then stores what they decide. What was stored
before a throw stays.
-/

namespace AuraCall.Ledger

/-! ## Sweeps -/

/-- Rewrite records in place and log an event for each that changes, in the order of the map. -/
def sweep (change : ProviderInteractionRecord → Option ProviderInteractionRecord)
    (hid : ∀ record, ((change record).getD record).reservationId = record.reservationId)
    (event : ProviderInteractionRecord → ProviderInteractionEvent) (ledger : InteractionLedger) : InteractionLedger :=
  { ledger with
    records := ledger.records.mapValues (fun record => (change record).getD record) hid
    events := ledger.events ++ (ledger.records.values.filterMap change).map event }

/-- A reservation that has expired is abandoned. -/
def expired (now : IsoTime) (record : ProviderInteractionRecord) : Option ProviderInteractionRecord :=
  if record.state != .reserved || decide (now.ms < record.reservationExpiresAt.ms) then none
  else some { record with state := .abandoned, settledAt := some now, stopReason := some "reservation-expired" }

theorem expired_reservationId (now : IsoTime) (record : ProviderInteractionRecord) :
    ((expired now record).getD record).reservationId = record.reservationId := by
  unfold expired; split <;> rfl

def expireReservations (now : IsoTime) (ledger : InteractionLedger) : InteractionLedger :=
  sweep (expired now) (expired_reservationId now)
    (fun abandoned => abandoned.event .reservationAbandoned now none none abandoned.stopReason) ledger

/-! ## Counting -/

/-- A live record of the account holds a chat slot for its workload. -/
def holdsChat (account : String) (record : ProviderInteractionRecord) : Bool :=
  record.account == account && (record.state == .reserved || record.state == .started) &&
  (record.interactionClass == .conversationStart || record.interactionClass == .promptContinuation)

/-- `activeConversationWorkloads`. -/
def activeConversationWorkloads (account : String) (ledger : InteractionLedger) : Finset String :=
  ((ledger.records.values.filter (holdsChat account)).map (·.workloadId)).toFinset

/-- One round of `countConversationStarts`. -/
def countsConversationStart (account : String) (cutoffMs : Int) (record : ProviderInteractionRecord) : Bool :=
  record.startsNewConversation && record.account == account &&
  match record.state with
  | .reserved | .started => decide (cutoffMs ≤ record.reservedAt.ms)
  | .settled => record.effectState != .none && record.settledAt.any (cutoffMs ≤ ·.ms)
  | .frozen => record.effectState == .outcomeUnknown && decide (cutoffMs ≤ (record.startedAt.getD record.reservedAt).ms)
  | .abandoned => false

def countConversationStarts (account : String) (cutoffMs : Int) (ledger : InteractionLedger) : Nat :=
  ledger.records.values.countP (countsConversationStart account cutoffMs)

/-- One round of `countInteractions`. -/
def countsInteraction (account : String) (cutoffMs : Int) (backendRequest : Bool) (record : ProviderInteractionRecord) :
    Bool :=
  (record.interactionClass == .backendRequest) == backendRequest && record.account == account &&
  match record.state with
  | .reserved => decide (cutoffMs ≤ record.reservedAt.ms)
  | .started => decide (cutoffMs ≤ (record.startedAt.getD record.reservedAt).ms)
  | .settled | .frozen =>
    record.effectState != .none && decide (cutoffMs ≤ (record.startedAt.getD record.reservedAt).ms)
  | .abandoned => false

def countInteractions (account : String) (cutoffMs : Int) (backendRequest : Bool) (ledger : InteractionLedger) : Nat :=
  ledger.records.values.countP (countsInteraction account cutoffMs backendRequest)

/-! ## Reservation -/

structure ReserveProviderInteractionInput where
  scope : ProviderInteractionScope
  workloadId : String
  operationId : String
  tabLeaseId : Option String := none
  interactionClass : ProviderInteractionClass
  mutability : ProviderInteractionMutability
  startsNewConversation : Bool
  now : DateString
  reservationTtlMs : JsNumber
  policy : ProviderInteractionPolicy
  backendRequestKey : Option String := none

/-- `{ allowed: true, reservation, duplicate }`. -/
structure ProviderInteractionAdmission where
  reservation : ProviderInteractionRecord
  duplicate : Bool

def minuteMs : Int := 60000
def hourMs : Int := 60 * 60000
def dayMs : Int := 24 * 60 * 60000

/-- `/^sha256:[a-f0-9]{64}$/.test(value)`. -/
def isBackendRequestKey (value : String) : Bool :=
  value.toList.take 7 == "sha256:".toList && isHexDigest (String.ofList (value.toList.drop 7))

/-- `input.backendRequestKey?.trim()`, of a backend request. -/
def requestedKey (input : ReserveProviderInteractionInput) : Option String :=
  if input.interactionClass == .backendRequest then input.backendRequestKey.map trim else none

/-- The record that already answers a backend request. -/
def existingBackendRequest (scope : ProviderInteractionScope) (input : ReserveProviderInteractionInput)
    (ledger : InteractionLedger) : Checked (Option ProviderInteractionRecord) :=
  if input.interactionClass != .backendRequest then return none
  else do
    throwIf (!(requestedKey input).any isBackendRequestKey)
      "Backend request admission requires a hashed request identity."
    throwIf ((trimmed input.tabLeaseId).isNone || input.startsNewConversation)
      "Backend request admission requires an owned lease and cannot start a conversation."
    match ledger.records.values.find? fun record => record.interactionClass == .backendRequest &&
        record.account == aggregateScopeKey scope && record.backendRequestKey == requestedKey input with
    | none => return none
    | some existing => do
      refuseIf (existing.scope.managedBrowserProfile != scope.managedBrowserProfile ||
        existing.tabLeaseId != input.tabLeaseId.map trim) (.admission .backendRequestIdentityConflict none)
      refuseIf (existing.state == .abandoned || existing.state == .frozen) (.admission .backendRequestFenced none)
      return some existing

/-- The interactions that need a chat slot. -/
def reservesConversationSlot (interactionClass : ProviderInteractionClass) : Bool :=
  interactionClass == .conversationStart || interactionClass == .promptContinuation

def checkConcurrentChats (account : String) (input : ReserveProviderInteractionInput) (ledger : InteractionLedger) :
    Checked Unit := do
  let maxConcurrent ← normalizeLimit input.policy.maxConcurrentChats "maxConcurrentChats"
  refuseIf (reservesConversationSlot input.interactionClass &&
    maxConcurrent.any (· ≤ ((activeConversationWorkloads account ledger).card : Int)))
    (.admission .concurrentLimit none)

/-- The field a class of interactions is limited by: its name, its limit in a policy, and what a record contributes. -/
structure LimitField where
  name : String
  limit : ProviderInteractionPolicy → Option JsNumber
  contributed : ProviderInteractionRecord → Option Int

def limitField (backendRequest : Bool) : LimitField :=
  if backendRequest then
    ⟨"maxBackendRequestsPerMinute", (·.maxBackendRequestsPerMinute), (·.maxBackendRequestsPerMinute)⟩
  else ⟨"maxInteractionsPerMinute", (·.maxInteractionsPerMinute), (·.maxInteractionsPerMinute)⟩

/-- One round of the scan for the strictest limit of the minute. -/
def stricterLimit (field : LimitField) (account : String) (nowMs : Int) (minuteLimit : Option Int)
    (record : ProviderInteractionRecord) : Checked (Option Int) :=
  if record.account != account || decide ((record.startedAt.getD record.reservedAt).ms < nowMs - minuteMs) then
    return minuteLimit
  else do
    let contributedLimit ← normalizeLimit ((field.contributed record).map fun limit => .finite limit) field.name
    return match minuteLimit, contributedLimit with
      | some limit, some contributed => some (min limit contributed)
      | none, contributed => contributed
      | limit, none => limit

def checkMinuteLimit (account : String) (nowMs : Int) (input : ReserveProviderInteractionInput)
    (ledger : InteractionLedger) : Checked Unit := do
  let backendRequest := input.interactionClass == .backendRequest
  let field := limitField backendRequest
  let own ← normalizeLimit (field.limit input.policy) field.name
  let minuteLimit ← ledger.records.values.foldlM (stricterLimit field account nowMs) own
  refuseIf (minuteLimit.any (· ≤ (countInteractions account (nowMs - minuteMs) backendRequest ledger : Int)))
    (.admission (if backendRequest then .minuteBackendRequestLimit else .minuteInteractionLimit) none)

/-- The limit on the starts within one window. -/
def checkStartLimit (account : String) (cutoffMs : Int) (limit : Option JsNumber) (name : String)
    (reason : ProviderInteractionAdmissionRejectionReason) (ledger : InteractionLedger) : Checked Unit := do
  let startLimit ← normalizeLimit limit name
  refuseIf (startLimit.any (· ≤ (countConversationStarts account cutoffMs ledger : Int))) (.admission reason none)

def checkStartLimits (account : String) (nowMs : Int) (input : ReserveProviderInteractionInput)
    (ledger : InteractionLedger) : Checked Unit :=
  if input.startsNewConversation then do
    checkStartLimit account (nowMs - hourMs) input.policy.maxConversationStartsPerHour "maxConversationStartsPerHour"
      .hourlyLimit ledger
    checkStartLimit account (nowMs - dayMs) input.policy.maxConversationStartsPerDay "maxConversationStartsPerDay"
      .dailyLimit ledger
  else return ()

/-- The record of an admitted reservation. -/
def buildReservation (createReservationId : String) (scope : ProviderInteractionScope) (now : IsoTime)
    (input : ReserveProviderInteractionInput) (ledger : InteractionLedger) : Checked ProviderInteractionRecord := do
  let backendRequest := input.interactionClass == .backendRequest
  let reservationTtlMs ← normalizePositiveInteger input.reservationTtlMs "reservationTtlMs"
  let reservationId ← requireNonEmpty createReservationId "reservationId"
  throwIf (ledger.records.get? reservationId).isSome ("Interaction reservation ID already exists: " ++ reservationId)
  let workloadId ← requireNonEmpty input.workloadId "workloadId"
  let operationId ← requireNonEmpty input.operationId "operationId"
  let tabLeaseId ← normalizeOptional input.tabLeaseId
  let reservationExpiresAt ← isoTime (now.ms + reservationTtlMs)
  let minuteLimit ← normalizeLimit ((limitField backendRequest).limit input.policy) (limitField backendRequest).name
  return {
    reservationId, scope, workloadId, operationId, tabLeaseId, interactionClass := input.interactionClass
    mutability := input.mutability, startsNewConversation := input.startsNewConversation, state := .reserved
    effectState := .none, reservedAt := now, reservationExpiresAt, startedAt := none, settledAt := none
    frozenAt := none, providerWarning := none, stopReason := none, outcome := none
    maxInteractionsPerMinute := if backendRequest then none else minuteLimit
    maxBackendRequestsPerMinute := if backendRequest then minuteLimit else none
    backendRequestKey := requestedKey input }

/-- The active warning of an account. -/
def activeWarning (account : String) (nowMs : Int) (ledger : InteractionLedger) : Option ProviderWarningRecord :=
  (ledger.warnings.get? account).filter (isWarningActive · nowMs)

/-- The checks of `reserve`, after the expiry of reservations. -/
def checkAdmission (createReservationId : String) (scope : ProviderInteractionScope) (now : IsoTime)
    (input : ReserveProviderInteractionInput) (ledger : InteractionLedger) : Checked ProviderInteractionAdmission := do
  let account := aggregateScopeKey scope
  refuseFound (activeWarning account now.ms ledger) fun warning => .admission .providerWarning (some warning)
  match ← existingBackendRequest scope input ledger with
  | some existing => return ⟨existing, true⟩
  | none => do
    checkConcurrentChats account input ledger
    checkMinuteLimit account now.ms input ledger
    checkStartLimits account now.ms input ledger
    let reservation ← buildReservation createReservationId scope now input ledger
    return ⟨reservation, false⟩

/-- The event of `rejectAdmission`. -/
def rejectionEvent (scope : ProviderInteractionScope) (now : IsoTime) (input : ReserveProviderInteractionInput)
    (reason : ProviderInteractionAdmissionRejectionReason) (warning : Option ProviderWarningRecord) :
    ProviderInteractionEvent :=
  { reservationId := none, scope, workloadId := (some input.workloadId).filter (· ≠ "")
    operationId := (some input.operationId).filter (· ≠ ""), tabLeaseId := trimmed input.tabLeaseId
    interactionClass := some input.interactionClass, mutability := some input.mutability
    startsNewConversation := input.startsNewConversation, type := .admissionRejected, occurredAt := now
    effectState := .none, outcome := none, providerWarning := warning.map (·.classification)
    reason := some reason.text }

/-- Store an admitted reservation and log it; log a rejection. -/
def storeAdmission (scope : ProviderInteractionScope) (now : IsoTime) (input : ReserveProviderInteractionInput)
    (ledger : InteractionLedger) : Checked ProviderInteractionAdmission → InteractionLedger
  | .ok ⟨reservation, false⟩ =>
    { ledger with records := ledger.records.set reservation }.appendEvent
      (reservation.event .reservationCreated now none none none)
  | .error (.refused (.admission reason warning)) =>
    ledger.appendEvent (rejectionEvent scope now input reason warning)
  | _ => ledger

def reserve (table : CaseTable) (createReservationId : String) (input : ReserveProviderInteractionInput)
    (ledger : InteractionLedger) : Checked ProviderInteractionAdmission × InteractionLedger :=
  match normalizeScope table input.scope, (parseTime input.now "now" : Checked IsoTime) with
  | .ok scope, .ok now =>
    let current := expireReservations now ledger
    let admission := checkAdmission createReservationId scope now input current
    (admission, storeAdmission scope now input current admission)
  | .error stop, _ => (.error stop, ledger)
  | _, .error stop => (.error stop, ledger)

/-! ## Transitions of one record -/

/-- What `start`, `bindTabLease` and `settle` decide about their record. -/
inductive Transition
  | keep (record : ProviderInteractionRecord)
  | expire (now : IsoTime)
  | abandon (record : ProviderInteractionRecord)
  | store (record : ProviderInteractionRecord) (type : ProviderInteractionEventType) (occurredAt : IsoTime)
      (outcome : Option ProviderInteractionOutcome) (reason : Option String)

/-- Carry out a decision: an expiry is stored, and refused to the caller. -/
def transit (ledger : InteractionLedger) : Checked Transition → Checked ProviderInteractionRecord × InteractionLedger
  | .error stop => (.error stop, ledger)
  | .ok (.keep record) => (.ok record, ledger)
  | .ok (.expire now) => (.error (.refused .reservationExpired), expireReservations now ledger)
  | .ok (.abandon record) =>
    (.error (.refused .reservationExpired), { ledger with records := ledger.records.set record })
  | .ok (.store record type occurredAt outcome reason) =>
    (.ok record, { ledger with records := ledger.records.set record }.appendEvent
      (record.event type occurredAt outcome none reason))

structure StartInput where
  reservationId : String
  startedAt : DateString

def starting (input : StartInput) (ledger : InteractionLedger) : Checked Transition := do
  let record ← orRefuse (ledger.records.get? input.reservationId) .notFound
  refuseIf (record.state != .reserved) .invalidState
  let startedAt ← parseTime input.startedAt "startedAt"
  if record.reservationExpiresAt.ms < startedAt.ms then
    return .abandon {
      record with state := .abandoned, settledAt := some startedAt, stopReason := some "reservation-expired" }
  else
    return .store { record with state := .started, effectState := .inFlight, startedAt := some startedAt }
      .interactionStarted startedAt none none

def start (input : StartInput) (ledger : InteractionLedger) : Checked ProviderInteractionRecord × InteractionLedger :=
  transit ledger (starting input ledger)

structure BindTabLeaseInput where
  reservationId : String
  tabLeaseId : String
  boundAt : DateString

/-- The part of `bindTabLease` for a record that has no lease yet. -/
def bindingUnbound (record : ProviderInteractionRecord) (tabLeaseId : String) (boundAt : IsoTime) :
    Checked Transition := do
  throwIf (boundAt.ms < record.reservedAt.ms) "boundAt cannot be earlier than reservedAt"
  if record.state = .reserved ∧ record.reservationExpiresAt.ms < boundAt.ms then return .expire boundAt
  else return .store { record with tabLeaseId := some tabLeaseId } .tabLeaseBound boundAt none none

def binding (input : BindTabLeaseInput) (ledger : InteractionLedger) : Checked Transition := do
  let record ← orRefuse (ledger.records.get? input.reservationId) .notFound
  refuseIf (record.state != .reserved && record.state != .started) .invalidState
  let tabLeaseId ← requireNonEmpty input.tabLeaseId "tabLeaseId"
  match record.tabLeaseId with
  | some bound => do
    refuseIf (bound != tabLeaseId) .invalidState
    return .keep record
  | none => do
    let boundAt ← parseTime input.boundAt "boundAt"
    bindingUnbound record tabLeaseId boundAt

def bindTabLease (input : BindTabLeaseInput) (ledger : InteractionLedger) :
    Checked ProviderInteractionRecord × InteractionLedger := transit ledger (binding input ledger)

structure SettleInput where
  reservationId : String
  settledAt : DateString
  effectState : ProviderInteractionEffectState
  outcome : ProviderInteractionOutcome
  stopReason : Option String := none
  notInFlight : effectState ≠ .inFlight := by decide

theorem settledEffect_notInFlight : ProviderInteractionEffectState.settled ≠ .inFlight := by decide

def settling (input : SettleInput) (ledger : InteractionLedger) : Checked Transition := do
  let record ← orRefuse (ledger.records.get? input.reservationId) .notFound
  refuseIf (record.state != .started) .invalidState
  let settledAt ← parseTime input.settledAt "settledAt"
  throwIf (record.startedAt.any (settledAt.ms < ·.ms)) "settledAt cannot be earlier than startedAt"
  let stopReason ← normalizeOptionalReason input.stopReason
  return .store { record with
    state := .settled, effectState := input.effectState, settledAt := some settledAt, stopReason
    outcome := some input.outcome } .interactionSettled settledAt (some input.outcome) stopReason

def settle (input : SettleInput) (ledger : InteractionLedger) : Checked ProviderInteractionRecord × InteractionLedger :=
  transit ledger (settling input ledger)

/-! ## Observations and warnings -/

structure ObservePassiveInput where
  scope : ProviderInteractionScope
  workloadId : String
  operationId : String
  tabLeaseId : Option String := none
  observedAt : DateString

def passiveEvent (table : CaseTable) (input : ObservePassiveInput) : Checked ProviderInteractionEvent := do
  let scope ← normalizeScope table input.scope
  let workloadId ← requireNonEmpty input.workloadId "workloadId"
  let operationId ← requireNonEmpty input.operationId "operationId"
  let tabLeaseId ← normalizeOptional input.tabLeaseId
  let occurredAt ← parseTime input.observedAt "observedAt"
  return {
    reservationId := none, scope, workloadId := some workloadId, operationId := some operationId, tabLeaseId
    interactionClass := some .passiveObservation, mutability := some .readOnly, startsNewConversation := false
    type := .passiveObserved, occurredAt, effectState := .none, outcome := none, providerWarning := none
    reason := none }

def observePassive (table : CaseTable) (input : ObservePassiveInput) (ledger : InteractionLedger) :
    Checked ProviderInteractionEvent × InteractionLedger :=
  match passiveEvent table input with
  | .ok event => (.ok event, ledger.appendEvent event)
  | .error stop => (.error stop, ledger)

structure RecordProviderWarningInput where
  scope : ProviderInteractionScope
  classification : ProviderWarningClassification
  reason : String
  observedAt : DateString
  cooldownUntil : Option DateString := none
  evidence : Option ProviderWarningEvidenceInput := none

/-- The end of a cooldown, which must be later than `now`. -/
def parseCooldown (value : Option DateString) (now : IsoTime) (message : String) : Checked (Option IsoTime) := do
  let cooldownUntil ← value.mapM fun time => parseTime time "cooldownUntil"
  throwIf (cooldownUntil.any (·.ms ≤ now.ms)) message
  return cooldownUntil

/-- The warning a call of `recordProviderWarning` stores. -/
def buildWarning (table : CaseTable) (input : RecordProviderWarningInput) (ledger : InteractionLedger) :
    Checked (ProviderInteractionScope × ProviderWarningRecord) := do
  let scope ← normalizeScope table input.scope
  let observedAt ← parseTime input.observedAt "observedAt"
  let cooldownUntil ← parseCooldown input.cooldownUntil observedAt "cooldownUntil must be later than observedAt"
  let reason ← requireNonEmpty input.reason "reason"
  let evidence ← input.evidence.mapM fun evidence => buildProviderWarningEvidence table evidence observedAt
    (ledger.events.filter fun event => aggregateScopeKey event.scope == aggregateScopeKey scope)
  return (scope, {
    provider := scope.provider, tenantKey := scope.tenantKey, classification := input.classification, reason
    observedAt, cooldownUntil, evidence })

/-- A warning freezes the live records of its account. -/
def frozen (warning : ProviderWarningRecord) (record : ProviderInteractionRecord) : Option ProviderInteractionRecord :=
  if record.account != warning.account || (record.state != .reserved && record.state != .started) then none
  else some { record with
    state := .frozen, effectState := if record.state = .started then .outcomeUnknown else record.effectState
    frozenAt := some warning.observedAt, providerWarning := some warning.classification
    stopReason := some warning.reason }

theorem frozen_reservationId (warning : ProviderWarningRecord) (record : ProviderInteractionRecord) :
    ((frozen warning record).getD record).reservationId = record.reservationId := by
  unfold frozen; split <;> rfl

/-- Store a warning, log it, and freeze. -/
def storeWarning (scope : ProviderInteractionScope) (warning : ProviderWarningRecord) (ledger : InteractionLedger) :
    InteractionLedger :=
  sweep (frozen warning) (frozen_reservationId warning)
    (fun record => record.event .interactionFrozen warning.observedAt none (some warning.classification)
      (some warning.reason))
    ({ ledger with warnings := ledger.warnings.set warning }.appendEvent
      (accountEvent scope .providerWarningObserved warning.observedAt (some warning.classification)
        (some warning.reason)))

def recordProviderWarning (table : CaseTable) (input : RecordProviderWarningInput) (ledger : InteractionLedger) :
    Checked (ProviderWarningRecord × List String) × InteractionLedger :=
  match buildWarning table input ledger with
  | .ok (scope, warning) =>
    (.ok (warning, sortStrings ((ledger.records.values.filterMap (frozen warning)).map (·.reservationId))),
      storeWarning scope warning ledger)
  | .error stop => (.error stop, ledger)

structure ClearProviderWarningInput where
  scope : ProviderInteractionScope
  clearedAt : DateString
  cooldownUntil : Option DateString := none
  reason : String

/-- What `clearProviderWarning` checks before it touches the warnings. -/
def checkClear (table : CaseTable) (input : ClearProviderWarningInput) :
    Checked (ProviderInteractionScope × IsoTime × Option IsoTime) := do
  let scope ← normalizeScope table input.scope
  let clearedAt ← parseTime input.clearedAt "clearedAt"
  let cooldownUntil ← parseCooldown input.cooldownUntil clearedAt "cooldownUntil must be later than clearedAt"
  return (scope, clearedAt, cooldownUntil)

/-- The warning that stays: the old one with the new cooldown, when there are both. -/
def cooledWarning (input : ClearProviderWarningInput) (clearedAt : IsoTime) (cooldownUntil : Option IsoTime)
    (previous : Option ProviderWarningRecord) : Checked (Option ProviderWarningRecord) :=
  match cooldownUntil, previous with
  | some time, some warning => do
    let reason ← requireNonEmpty input.reason "reason"
    return some { warning with reason, observedAt := clearedAt, cooldownUntil := some time }
  | _, _ => return none

def clearProviderWarning (table : CaseTable) (input : ClearProviderWarningInput) (ledger : InteractionLedger) :
    Checked (Option ProviderWarningRecord × Option ProviderWarningRecord) × InteractionLedger :=
  match checkClear table input with
  | .error stop => (.error stop, ledger)
  | .ok (scope, clearedAt, cooldownUntil) =>
    let previous := ledger.warnings.get? (aggregateScopeKey scope)
    match cooledWarning input clearedAt cooldownUntil previous with
    | .error stop => (.error stop, ledger)
    | .ok warning =>
      let cleared := match warning with
        | some kept => { ledger with warnings := ledger.warnings.set kept }
        | none => { ledger with warnings := ledger.warnings.delete (aggregateScopeKey scope) }
      match (requireNonEmpty input.reason "reason" : Checked String) with
      -- the warning is gone when the event's reason is found to be empty
      | .error stop => (.error stop, cleared)
      | .ok reason =>
        (.ok (previous, warning), cleared.appendEvent
          (accountEvent scope .providerWarningCleared clearedAt (previous.map (·.classification)) (some reason)))

/-! ## Summaries -/

structure ProviderInteractionUsageSummary where
  activeChats : Nat
  chatsLastHour : Nat
  chatsLastDay : Nat
  interactionsLastMinute : Nat

structure ProviderBackendRequestUsageSummary where
  admittedRequestsLastMinute : Nat
  activeRequests : Nat

/-- A live record that is no backend request. -/
def activeInteraction (record : ProviderInteractionRecord) : Bool :=
  record.interactionClass != .backendRequest && (record.state == .reserved || record.state == .started)

structure SummarizeUsageInput where
  provider : String
  tenantKey : String
  now : DateString

def summarizeUsage (table : CaseTable) (input : SummarizeUsageInput) (ledger : InteractionLedger) :
    Checked ProviderInteractionUsageSummary × InteractionLedger :=
  let checked : Checked (String × IsoTime) := do
    let provider ← normalizeKey table input.provider "provider"
    let tenantKey ← normalizeKey table input.tenantKey "tenantKey"
    let now ← parseTime input.now "now"
    return (aggregateKey provider tenantKey, now)
  match checked with
  | .error stop => (.error stop, ledger)
  | .ok (account, now) =>
    let current := expireReservations now ledger
    (.ok {
      activeChats := ((current.records.values.filter fun record =>
        record.account == account && activeInteraction record).map (·.workloadId)).toFinset.card
      chatsLastHour := countConversationStarts account (now.ms - hourMs) current
      chatsLastDay := countConversationStarts account (now.ms - dayMs) current
      interactionsLastMinute := countInteractions account (now.ms - minuteMs) false current }, current)

/-- The accounts of a list of records, once each. -/
def accounts (records : List ProviderInteractionRecord) : List String := (records.map (·.account)).dedup

def summarizeAggregateUsage (nowInput : DateString) (ledger : InteractionLedger) :
    Checked ProviderInteractionUsageSummary × InteractionLedger :=
  match (parseTime nowInput "now" : Checked IsoTime) with
  | .error stop => (.error stop, ledger)
  | .ok now =>
    let current := expireReservations now ledger
    let scopes := accounts current.records.values
    (.ok {
      activeChats := ((current.records.values.filter activeInteraction).map fun record =>
        record.account ++ "\x00" ++ record.workloadId).toFinset.card
      chatsLastHour := (scopes.map fun account => countConversationStarts account (now.ms - hourMs) current).sum
      chatsLastDay := (scopes.map fun account => countConversationStarts account (now.ms - dayMs) current).sum
      interactionsLastMinute :=
        (scopes.map fun account => countInteractions account (now.ms - minuteMs) false current).sum }, current)

structure SummarizeBackendRequestUsageInput where
  now : DateString
  provider : Option String := none
  tenantKey : Option String := none

/-- `list`, of a provider and a tenant when they are given. -/
def list (table : CaseTable) (provider tenantKey : Option String) (ledger : InteractionLedger) :
    Checked (List ProviderInteractionRecord) := do
  let provider ← provider.mapM fun value => normalizeKey table value "provider"
  let tenantKey ← tenantKey.mapM fun value => normalizeKey table value "tenantKey"
  return ledger.records.values.filter fun record =>
    provider.all (record.scope.provider == ·) && tenantKey.all (record.scope.tenantKey == ·)

def summarizeBackendRequestUsage (table : CaseTable) (input : SummarizeBackendRequestUsageInput)
    (ledger : InteractionLedger) : Checked ProviderBackendRequestUsageSummary × InteractionLedger :=
  match (parseTime input.now "now" : Checked IsoTime) with
  | .error stop => (.error stop, ledger)
  | .ok now =>
    let current := expireReservations now ledger
    match list table input.provider input.tenantKey current with
    | .error stop => (.error stop, current)
    | .ok records =>
      let requests := records.filter fun record => record.interactionClass == .backendRequest
      (.ok {
        admittedRequestsLastMinute :=
          ((accounts requests).map fun account => countInteractions account (now.ms - minuteMs) true current).sum
        activeRequests := requests.countP fun record => record.state == .reserved || record.state == .started },
        current)

end AuraCall.Ledger
