import AuraCall.Lib.KeyedMap
import AuraCall.Js.Builtins

/-!
# The provider interaction ledger: records, warnings and events

The types of `interactionLedger.ts` with its helper functions. `InteractionLedger` is the state of
`InMemoryProviderInteractionLedger`: the record map, the warning of each account, and the event log.

An account is a provider and tenant; the code compares accounts by `aggregateScopeKey`, and so does the model.
-/

namespace AuraCall.Ledger

/-! ## Records -/

inductive ProviderInteractionClass
  | conversationStart | promptContinuation | navigation | reload | conversationRead | listRead | artifactRead
  | selection | providerMutation | backendRequest | passiveObservation
  deriving DecidableEq

inductive ProviderInteractionMutability
  | readOnly | providerMutating
  deriving DecidableEq

inductive ProviderInteractionState
  | reserved | started | settled | abandoned | frozen
  deriving DecidableEq

inductive ProviderInteractionEffectState
  | none | inFlight | settled | outcomeUnknown
  deriving DecidableEq

inductive ProviderWarningClassification
  | rateLimit | captcha | humanVerification | identityConflict | accountMismatch | providerWarning
  deriving DecidableEq

inductive ProviderInteractionOutcome
  | succeeded | failed | cancelled
  deriving DecidableEq

structure ProviderInteractionScope where
  provider : String
  tenantKey : String
  runtimeProfileId : String
  managedBrowserProfile : String
  deriving DecidableEq

/-- Absent limits and `null` ones are `none`. -/
structure ProviderInteractionPolicy where
  maxConcurrentChats : Option JsNumber
  maxConversationStartsPerHour : Option JsNumber
  maxConversationStartsPerDay : Option JsNumber
  maxInteractionsPerMinute : Option JsNumber
  maxBackendRequestsPerMinute : Option JsNumber
  deriving DecidableEq

structure ProviderInteractionRecord where
  reservationId : String
  scope : ProviderInteractionScope
  workloadId : String
  operationId : String
  tabLeaseId : Option String
  interactionClass : ProviderInteractionClass
  mutability : ProviderInteractionMutability
  startsNewConversation : Bool
  state : ProviderInteractionState
  effectState : ProviderInteractionEffectState
  reservedAt : IsoTime
  reservationExpiresAt : IsoTime
  startedAt : Option IsoTime
  settledAt : Option IsoTime
  frozenAt : Option IsoTime
  providerWarning : Option ProviderWarningClassification
  stopReason : Option String
  outcome : Option ProviderInteractionOutcome
  maxInteractionsPerMinute : Option Int
  maxBackendRequestsPerMinute : Option Int
  backendRequestKey : Option String
  deriving DecidableEq

/-! ## Events -/

inductive ProviderInteractionAdmissionRejectionReason
  | providerWarning | concurrentLimit | minuteInteractionLimit | minuteBackendRequestLimit
  | backendRequestIdentityConflict | backendRequestFenced | hourlyLimit | dailyLimit
  deriving DecidableEq

/-- The string of a rejection reason, as the event log has it. -/
def ProviderInteractionAdmissionRejectionReason.text : ProviderInteractionAdmissionRejectionReason → String
  | providerWarning => "provider-warning"
  | concurrentLimit => "concurrent-limit"
  | minuteInteractionLimit => "minute-interaction-limit"
  | minuteBackendRequestLimit => "minute-backend-request-limit"
  | backendRequestIdentityConflict => "backend-request-identity-conflict"
  | backendRequestFenced => "backend-request-fenced"
  | hourlyLimit => "hourly-limit"
  | dailyLimit => "daily-limit"

inductive ProviderInteractionEventType
  | reservationCreated | tabLeaseBound | interactionStarted | interactionSettled | reservationAbandoned
  | interactionFrozen | providerWarningObserved | providerWarningCleared | admissionRejected | passiveObserved
  deriving DecidableEq

structure ProviderInteractionEvent where
  reservationId : Option String
  scope : ProviderInteractionScope
  workloadId : Option String
  operationId : Option String
  tabLeaseId : Option String
  interactionClass : Option ProviderInteractionClass
  mutability : Option ProviderInteractionMutability
  startsNewConversation : Bool
  type : ProviderInteractionEventType
  occurredAt : IsoTime
  effectState : ProviderInteractionEffectState
  outcome : Option ProviderInteractionOutcome
  providerWarning : Option ProviderWarningClassification
  reason : Option String
  deriving DecidableEq

/-- The event of a record: its own fields, under a type and a time. -/
def ProviderInteractionRecord.event (record : ProviderInteractionRecord) (type : ProviderInteractionEventType)
    (occurredAt : IsoTime) (outcome : Option ProviderInteractionOutcome)
    (providerWarning : Option ProviderWarningClassification) (reason : Option String) : ProviderInteractionEvent :=
  { reservationId := some record.reservationId, scope := record.scope, workloadId := some record.workloadId
    operationId := some record.operationId, tabLeaseId := record.tabLeaseId
    interactionClass := some record.interactionClass, mutability := some record.mutability
    startsNewConversation := record.startsNewConversation, type, occurredAt, effectState := record.effectState
    outcome, providerWarning, reason }

/-- The event of an account. -/
def accountEvent (scope : ProviderInteractionScope) (type : ProviderInteractionEventType) (occurredAt : IsoTime)
    (providerWarning : Option ProviderWarningClassification) (reason : Option String) : ProviderInteractionEvent :=
  { reservationId := none, scope, workloadId := none, operationId := none, tabLeaseId := none
    interactionClass := none, mutability := none, startsNewConversation := false, type, occurredAt
    effectState := .none, outcome := none, providerWarning, reason }

/-! ## Warnings -/

structure ProviderWarningInteractionEvidence where
  occurredAt : IsoTime
  deltaMs : Option Int
  interactionClass : Option ProviderInteractionClass
  eventType : ProviderInteractionEventType
  outcome : Option ProviderInteractionOutcome
  deriving DecidableEq

structure CumulativeCounts where
  interactions : Nat
  backendRequests : Option Nat
  navigations : Nat
  reloads : Nat
  conversationReads : Nat
  artifactReads : Nat
  deriving DecidableEq

structure TrafficAdmissionPhase where
  phase : String
  admitted : JsNumber
  limit : JsNumber
  remaining : JsNumber
  deriving DecidableEq

structure TrafficAdmissionBudget extends TrafficAdmissionPhase where
  kind : String
  deriving DecidableEq

structure TrafficAdmissionEffect where
  occurredAt : DateString
  phase : String
  kind : String
  outcome : String
  deriving DecidableEq

structure TrafficAdmission where
  phases : List TrafficAdmissionPhase
  budgets : List TrafficAdmissionBudget
  recentEffects : Option (List TrafficAdmissionEffect)
  deriving DecidableEq

structure ProviderWarningEvidence where
  classifierVersion : String
  visibleSummary : String
  sourceTargetClass : String
  firstObservedAt : IsoTime
  openTargetCount : Option JsNumber
  precedingInteractions : List ProviderWarningInteractionEvidence
  cumulativeCounts : CumulativeCounts
  resourcePathClasses : List String
  trafficAdmission : Option TrafficAdmission
  deriving DecidableEq

structure ProviderWarningRecord where
  provider : String
  tenantKey : String
  classification : ProviderWarningClassification
  reason : String
  observedAt : IsoTime
  cooldownUntil : Option IsoTime
  evidence : Option ProviderWarningEvidence
  deriving DecidableEq

/-! ## Accounts -/

/-- `aggregateScopeKey`, of the provider and tenant it reads. -/
def aggregateKey (provider tenantKey : String) : String := provider ++ "\x00" ++ tenantKey

def aggregateScopeKey (scope : ProviderInteractionScope) : String := aggregateKey scope.provider scope.tenantKey

/-- The account of a warning. -/
def ProviderWarningRecord.account (warning : ProviderWarningRecord) : String :=
  aggregateKey warning.provider warning.tenantKey

/-- The account of a record. -/
def ProviderInteractionRecord.account (record : ProviderInteractionRecord) : String := aggregateScopeKey record.scope

/-! ## State -/

/-- The fields of `InMemoryProviderInteractionLedger`. -/
structure InteractionLedger where
  records : KeyedMap ProviderInteractionRecord.reservationId
  warnings : KeyedMap ProviderWarningRecord.account
  events : List ProviderInteractionEvent

/-- `createInMemoryProviderInteractionLedger()` before any call. -/
def InteractionLedger.empty : InteractionLedger := ⟨.empty, .empty, []⟩

def InteractionLedger.appendEvent (ledger : InteractionLedger) (event : ProviderInteractionEvent) : InteractionLedger :=
  { ledger with events := ledger.events ++ [event] }

/-- Why a call did not do what it was asked to. -/
inductive Refusal
  | admission (reason : ProviderInteractionAdmissionRejectionReason) (warning : Option ProviderWarningRecord)
  | notFound
  | invalidState
  | reservationExpired
  deriving DecidableEq

/-- A call that returns, refuses, or throws. -/
abbrev Checked (α : Type) := Except (Stop Refusal) α

/-! ## Normalization -/

def normalizeKey (table : CaseTable) (value name : String) : Checked String :=
  return table.toLowerCase (← requireNonEmpty value name)

def normalizeScope (table : CaseTable) (scope : ProviderInteractionScope) : Checked ProviderInteractionScope := do
  let provider ← normalizeKey table scope.provider "scope.provider"
  let tenantKey ← normalizeKey table scope.tenantKey "scope.tenantKey"
  let runtimeProfileId ← requireNonEmpty scope.runtimeProfileId "scope.runtimeProfileId"
  let managedBrowserProfile ← requireNonEmpty scope.managedBrowserProfile "scope.managedBrowserProfile"
  return ⟨provider, tenantKey, runtimeProfileId, managedBrowserProfile⟩

def normalizeLimit (value : Option JsNumber) (name : String) : Checked (Option Int) :=
  match value with
  | none => return none
  | some limit => return some (← normalizePositiveInteger limit name)

/-- `normalizeOptional` and `normalizeOptionalReason`, which name different fields. -/
def normalizeOptionalText (value : Option String) (name : String) : Checked (Option String) :=
  match value with
  | none => return none
  | some text => return some (← requireNonEmpty text name)

def normalizeOptional (value : Option String) : Checked (Option String) := normalizeOptionalText value "tabLeaseId"

def normalizeOptionalReason (value : Option String) : Checked (Option String) :=
  normalizeOptionalText value "stopReason"

/-- `value?.trim() || null`. -/
def trimmed (value : Option String) : Option String := (value.map trim).filter (· ≠ "")

def isWarningActive (warning : ProviderWarningRecord) (nowMs : Int) : Bool :=
  warning.cooldownUntil.all (nowMs < ·.ms)

theorem normalizeLimit_nonneg {value : Option JsNumber} {name : String} {limit : Int}
    (h : normalizeLimit value name = .ok (some limit)) : 0 ≤ limit := by
  cases value with
  | none => simp [normalizeLimit] at h
  | some x =>
    simp only [normalizeLimit, bind_eq_ok, pure_eq_ok, Option.some.injEq] at h
    obtain ⟨_, hn, rfl⟩ := h
    exact normalizePositiveInteger_nonneg hn

end AuraCall.Ledger
