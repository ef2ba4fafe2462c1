import AuraCall.Lib.EventTrace
import AuraCall.Lib.Interleaving
import AuraCall.Persistence.Batches
import AuraCall.TabLease.Model

/-!
# The owned backend request authority

`createOwnedBackendRequestAuthority`: `admit` and `reconcileEffectState` as scripts, in which every await is an action
of its own. Any number of authorities share the ledger with its other users; the caller's abort, the tab lease, the
answer of an effect, the clock and failures of the ledger itself are `Surroundings`, which may change at any time.

A script has finitely many rounds for each of its waits. As `rounds` is any number, so is the length of a wait.
-/

namespace AuraCall.BackendRequests

open Script Ledger
open Persistence (Host)
open TabLease (TabLeaseEffectState)

/-! ## Errors -/

/-- The classes of errors that the code tells apart. `waiting` is none of the source's: the rounds are used up. -/
inductive ErrorKind
  | error
  | aggregate
  | ownedRequestCleanup
  | cancelledBeforeDispatch
  | cancelledBeforeSend
  | budgetExceeded
  | waiting
  deriving DecidableEq

/-- What is thrown: an `Error` with its cause and, if it is an `AggregateError`, its errors, or any other value. -/
inductive RequestError
  | raised (kind : ErrorKind) (message : String) (cause : Option RequestError) (errors : List RequestError)
  | value (text : String)

namespace RequestError

def plain (message : String) : RequestError := raised .error message none []

def cancelled (cause : Option RequestError) : RequestError :=
  raised .cancelledBeforeDispatch "Backend request cancelled before dispatch." cause []

def ofKind : RequestError → Option ErrorKind
  | raised kind _ _ _ => some kind
  | value _ => none

/-- `error instanceof Error ? error.message : String(error)`. -/
def message : RequestError → String
  | raised _ message _ _ => message
  | value text => text

def cause : RequestError → Option RequestError
  | raised _ _ cause _ => cause
  | value _ => none

/-- A cancellation, and its cause that the command was not sent. -/
def cancelledUnsent (error : RequestError) : Bool :=
  error.ofKind == some .cancelledBeforeDispatch && (error.cause.bind ofKind) == some .cancelledBeforeSend

/-- `new OwnedBackendRequestCleanupError(error)`. -/
def cleanup : RequestError → RequestError
  | raised kind message cause errors =>
    raised .ownedRequestCleanup message none
      (if kind = .aggregate ∨ kind = .ownedRequestCleanup then errors else [raised kind message cause errors])
  | value text => raised .ownedRequestCleanup "Owned backend request cleanup failed." none [value text]

end RequestError

mutual

def hasUnknownOwnedRequestCleanup : RequestError → Bool
  | .raised kind _ cause errors =>
    kind == .ownedRequestCleanup || (kind == .aggregate && anyUnknownCleanup errors) || causeUnknownCleanup cause
  | .value _ => false

def anyUnknownCleanup : List RequestError → Bool
  | [] => false
  | error :: errors => hasUnknownOwnedRequestCleanup error || anyUnknownCleanup errors

def causeUnknownCleanup : Option RequestError → Bool
  | some error => hasUnknownOwnedRequestCleanup error
  | none => false

end

/-- The reason of a refusal. -/
def refusalText : Refusal → String
  | .admission reason _ => reason.text
  | .notFound => "not-found"
  | .invalidState => "invalid-state"
  | .reservationExpired => "reservation-expired"

/-! ## Authorities -/

/-- `Number.isSafeInteger(value) && value >= bound`. -/
def safeIntegerFrom (bound : Int) : JsNumber → Option Int
  | .finite q => if q.den = 1 ∧ bound ≤ q.num ∧ q.num ≤ 2 ^ 53 - 1 then some q.num else none
  | _ => none

structure AuthorityInput where
  scope : ProviderInteractionScope
  workloadId : String
  operationId : String
  tabLeaseId : String
  backendRequestLimit : Option JsNumber
  observeWithoutLocalCeiling : Bool
  parentReservationId : Option String
  budgetWaitTimeoutMs : Option JsNumber

/-- What was created: the input has passed its checks. -/
structure OwnedBackendRequestAuthority where
  input : AuthorityInput
  budgetWaitTimeoutMs : Int
  limited : input.backendRequestLimit = none → input.observeWithoutLocalCeiling = true
  positive : ∀ limit, input.backendRequestLimit = some limit → (safeIntegerFrom 1 limit).isSome
  waits : safeIntegerFrom 0 (input.budgetWaitTimeoutMs.getD (.finite 0)) = some budgetWaitTimeoutMs

def createOwnedBackendRequestAuthority (input : AuthorityInput) : Except String OwnedBackendRequestAuthority :=
  if hlimited : input.backendRequestLimit = none → input.observeWithoutLocalCeiling = true then
    if hpositive : ∀ limit, input.backendRequestLimit = some limit → (safeIntegerFrom 1 limit).isSome then
      match hwaits : safeIntegerFrom 0 (input.budgetWaitTimeoutMs.getD (.finite 0)) with
      | some budgetWaitTimeoutMs => .ok ⟨input, budgetWaitTimeoutMs, hlimited, hpositive, hwaits⟩
      | none => .error "Backend request budget wait must be a nonnegative safe integer."
    else .error "Backend request limit must be a positive safe integer."
  else .error "Owned backend request authority requires an explicit limit."

/-! ## State -/

/-- A call of the ledger rejects before or after it has been carried out. -/
inductive LedgerFault
  | before (message : String)
  | after (message : String)

/-- What the code is told from outside. An authority has a number, and so has a call. -/
structure Surroundings where
  ledgerFault : Option LedgerFault
  /-- what `assertOwnedLease` throws -/
  leaseFailure : Nat → Option RequestError
  aborted : Nat → Bool
  /-- what the effect throws -/
  effectFailure : Nat → Option RequestError
  clock : Int
  createReservationId : String

/-- What calls have done. -/
inductive AuthorityEvent
  | reserved (call : Nat) (record : ProviderInteractionRecord)
  | started (call : Nat) (reservationId : String)
  | leaseAsserted (call : Nat)
  | dispatched (call : Nat) (authority : Nat) (requestKey : String) (reservationId : String)
  /-- the effect was cancelled before its command was sent -/
  | unsent (call : Nat) (reservationId : String)
  | settled (call : Nat) (reservationId : String) (effectState : ProviderInteractionEffectState)
  | listed (call : Nat) (ledger : InteractionLedger)

def AuthorityEvent.call : AuthorityEvent → Nat
  | reserved call _ | started call _ | leaseAsserted call | dispatched call _ _ _ | unsent call _
  | settled call _ _ | listed call _ => call

structure AuthorityState where
  ledger : InteractionLedger
  surroundings : Surroundings
  /-- the variables of each authority -/
  lastTimestamp : Nat → Option Int
  backendBudgetDenied : Nat → Bool
  trace : List AuthorityEvent

abbrev AuthorityScript (α : Type) := Script AuthorityState RequestError α

section Scripts

variable (host : Host) (authorities : Nat → OwnedBackendRequestAuthority)

/-! ## What a call awaits -/

/-- `now()` in milliseconds, which never goes back. -/
def now (authority : Nat) : AuthorityScript Int :=
  perform fun s =>
    let time := ((s.lastTimestamp authority).getD s.surroundings.clock) ⊔ s.surroundings.clock
    (.ok time, { s with lastTimestamp := fun other => if other = authority then some time else s.lastTimestamp other })

/-- `now().toISOString()`. -/
def nowString (authority : Nat) : AuthorityScript DateString := do
  let time ← now authority
  match (toISOString time : Checked DateString) with
  | .ok text => pure text
  | .error _ => throw (.plain "Invalid time value")

def checkCancellation (call : Nat) : AuthorityScript PUnit :=
  look fun s => if s.surroundings.aborted call then .error (.cancelled none) else .ok ⟨⟩

def assertOwnedLease (call authority : Nat) : AuthorityScript PUnit :=
  perform fun s => match s.surroundings.leaseFailure authority with
    | some error => (.error error, s)
    | none => (.ok ⟨⟩, { s with trace := s.trace ++ [.leaseAsserted call] })

/-- A call of the ledger: a refusal is an answer. What it has done is in the trace. -/
def ledgerCall {α : Type} (action : AuthorityState → Checked α × InteractionLedger)
    (event : α → Option AuthorityEvent) : AuthorityScript (Except Refusal α) :=
  perform fun s => match s.surroundings.ledgerFault with
    | some (.before message) => (.error (.plain message), s)
    | fault => match action s, fault with
      | (.error (.thrown message), ledger), _ => (.error (.plain message), { s with ledger })
      | (.error (.refused _), ledger), some (.after message) => (.error (.plain message), { s with ledger })
      | (.error (.refused refusal), ledger), _ => (.ok (.error refusal), { s with ledger })
      | (.ok a, ledger), some (.after message) =>
        (.error (.plain message), { s with ledger, trace := s.trace ++ (event a).toList })
      | (.ok a, ledger), _ => (.ok (.ok a), { s with ledger, trace := s.trace ++ (event a).toList })

/-- A read of the ledger. -/
def ledgerRead {α : Type} (read : InteractionLedger → Checked α) : AuthorityScript α :=
  look fun s => match s.surroundings.ledgerFault, read s.ledger with
    | some (.before message), _ | some (.after message), _ => .error (.plain message)
    | none, .error (.thrown message) => .error (.plain message)
    | none, .error (.refused refusal) => .error (.plain (refusalText refusal))
    | none, .ok a => .ok a

/-! ## Admission -/

/-- The request that is reserved. -/
def reservationInput (authority : OwnedBackendRequestAuthority) (requestKey : String) (now : DateString) :
    ReserveProviderInteractionInput :=
  { scope := authority.input.scope, workloadId := authority.input.workloadId
    operationId := authority.input.operationId, tabLeaseId := some authority.input.tabLeaseId
    interactionClass := .backendRequest, mutability := .providerMutating, startsNewConversation := false
    backendRequestKey := some requestKey, now, reservationTtlMs := .finite 30000
    policy := ⟨none, none, none, none, authority.input.backendRequestLimit⟩ }

def reserveRequest (call authority : Nat) (requestKey : String) (time : DateString) :
    AuthorityScript (Except Refusal ProviderInteractionAdmission) :=
  ledgerCall
    (fun s => reserve host.table s.surroundings.createReservationId
      (reservationInput (authorities authority) requestKey time) s.ledger)
    fun admission => if admission.duplicate then none else some (.reserved call admission.reservation)

/-- `minute-backend-request-limit`. -/
def overBudget : Except Refusal ProviderInteractionAdmission → Bool
  | .error (.admission .minuteBackendRequestLimit _) => true
  | _ => false

/-- A record takes a place in the budget. -/
def takesBudget (record : ProviderInteractionRecord) : Bool :=
  record.interactionClass == .backendRequest &&
    (record.state == .reserved || record.state == .started ||
      ((record.state == .settled || record.state == .frozen) && record.effectState != .none))

/-- The times of the last minute. -/
def recentTimes (authority : Nat) : List Int → AuthorityScript (List Int)
  | [] => pure []
  | at_ :: rest => do
    let time ← now authority
    let recent ← recentTimes authority rest
    pure (if time - 60000 ≤ at_ then at_ :: recent else recent)

/-- When the budget has room again. -/
def retryTime (authority : Nat) : AuthorityScript Int := do
  let scope := (authorities authority).input.scope
  let records ← ledgerRead (list host.table (some scope.provider) (some scope.tenantKey))
  let recent ← recentTimes authority
    ((records.filter takesBudget).map fun record => (record.startedAt.getD record.reservedAt).ms)
  match recent with
  | [] => do
    let time ← now authority
    pure (time + 1)
  | first :: rest => pure (rest.foldl min first + 60001)

/-- `provider.trim().toLowerCase()` and the tenant likewise are those of the warning. -/
def warnsAccount (scope : ProviderInteractionScope) (warning : ProviderWarningRecord) : Bool :=
  warning.provider == host.table.toLowerCase (trim scope.provider) &&
    warning.tenantKey == host.table.toLowerCase (trim scope.tenantKey)

def checkWarnings (authority : Nat) : AuthorityScript PUnit := do
  let time ← nowString authority
  let warnings ← ledgerRead (Persistence.listActiveProviderWarnings host time)
  if warnings.any (warnsAccount host (authorities authority).input.scope) then
    throw (.plain "Backend request admission denied: provider-warning.")
  else pure ⟨⟩

/-- The timer fires after any time, or the signal aborts it with its own reason. -/
def waitForBackendBudget (call : Nat) (_ms : Int) : AuthorityScript PUnit :=
  (look fun s => if s.surroundings.aborted call then .error (.value "AbortError") else .ok ⟨⟩ : AuthorityScript PUnit).orElse
    fun error => do
      checkCancellation call
      throw error

/-- One round of the wait for the budget. -/
def awaitRoom (call authority : Nat) (retryAt deadlineMs : Int) : AuthorityScript PUnit := do
  checkCancellation call
  assertOwnedLease call authority
  checkWarnings host authorities authority
  let first ← now authority
  let second ← now authority
  waitForBackendBudget call (min 1000 (min (retryAt - first) (deadlineMs - second)))

def awaitBudget (call authority : Nat) (retryAt deadlineMs : Int) : Nat → AuthorityScript PUnit
  | 0 => throw (.raised .waiting "" none [])
  | rounds + 1 => do
    let time ← now authority
    if time < min retryAt deadlineMs then do
      awaitRoom host authorities call authority retryAt deadlineMs
      awaitBudget call authority retryAt deadlineMs rounds
    else pure ⟨⟩

/-- One attempt to reserve. -/
def attemptReservation (call authority : Nat) (requestKey : String) :
    AuthorityScript (Except Refusal ProviderInteractionAdmission) := do
  checkCancellation call
  assertOwnedLease call authority
  let time ← nowString authority
  reserveRequest host authorities call authority requestKey time

/-- After a refusal for the budget: whether there is time to wait for room. -/
def mayRetry (authority : Nat) (deadlineMs : Int) (admission : Except Refusal ProviderInteractionAdmission) :
    AuthorityScript Bool :=
  if overBudget admission then do
    let time ← now authority
    pure (decide (time < deadlineMs))
  else pure false

/-- The loop of `admit`. -/
def reserveWithin (call authority : Nat) (requestKey : String) (deadlineMs : Int) (waits : Nat) :
    Nat → AuthorityScript (Except Refusal ProviderInteractionAdmission)
  | 0 => throw (.raised .waiting "" none [])
  | rounds + 1 => do
    let admission ← attemptReservation host authorities call authority requestKey
    if ← mayRetry authority deadlineMs admission then do
      let retryAt ← retryTime host authorities authority
      awaitBudget host authorities call authority retryAt deadlineMs waits
      reserveWithin call authority requestKey deadlineMs waits rounds
    else pure admission

/-! ## Dispatch -/

def startRequest (call authority : Nat) (reservationId : String) : AuthorityScript PUnit := do
  let time ← nowString authority
  match ← ledgerCall (fun s => start ⟨reservationId, time⟩ s.ledger) fun _ => some (.started call reservationId) with
  | .ok _ => pure ⟨⟩
  | .error refusal => throw (.plain ("Backend request start denied: " ++ refusalText refusal ++ "."))

/-- How an effect is settled. -/
structure EffectSettlement where
  effectState : ProviderInteractionEffectState
  outcome : ProviderInteractionOutcome
  notInFlight : effectState ≠ .inFlight

def settleRequest (call authority : Nat) (reservationId : String) (settlement : EffectSettlement) :
    AuthorityScript PUnit := do
  let time ← nowString authority
  match ← ledgerCall
      (fun s => settle
        { reservationId, settledAt := time, effectState := settlement.effectState, outcome := settlement.outcome
          notInFlight := settlement.notInFlight } s.ledger)
      fun _ => some (.settled call reservationId settlement.effectState) with
  | .ok _ => pure ⟨⟩
  | .error refusal => throw (.plain ("Backend request settlement failed: " ++ refusalText refusal ++ "."))

/-- The effect is called. -/
def callEffect (call authority : Nat) (requestKey reservationId : String) : AuthorityScript PUnit :=
  perform fun s => (.ok ⟨⟩, { s with trace := s.trace ++ [.dispatched call authority requestKey reservationId] })

/-- The effect settles, whenever it does. -/
def awaitEffect (call : Nat) (reservationId : String) : AuthorityScript PUnit :=
  perform fun s => match s.surroundings.effectFailure call with
    | none => (.ok ⟨⟩, s)
    | some error =>
      (.error error, if error.cancelledUnsent then { s with trace := s.trace ++ [.unsent call reservationId] } else s)

def runEffect (call authority : Nat) (requestKey reservationId : String) : AuthorityScript PUnit := do
  callEffect call authority requestKey reservationId
  awaitEffect call reservationId

/-- What a failure says about the effect. -/
def failureSettlement (error : RequestError) (dispatched : Bool) : EffectSettlement :=
  if error.ofKind = some .cancelledBeforeDispatch ∧ (dispatched = false ∨ error.cancelledUnsent) then
    ⟨.none, .failed, by decide⟩
  else ⟨.outcomeUnknown, .failed, by decide⟩

/-- The `catch` of `admit`, once the request has started. -/
def settleFailure (call authority : Nat) (reservationId : String) (dispatched : Bool) (error : RequestError) :
    AuthorityScript PUnit := do
  (settleRequest call authority reservationId (failureSettlement error dispatched)).orElse fun settlementError =>
    throw (.raised .aggregate "Backend dispatch and settlement failed." none [error, settlementError])
  throw error

/-- From the start on, a failure is settled; `dispatched` is set between the two parts. -/
def dispatchRequest (call authority : Nat) (requestKey reservationId : String) : AuthorityScript PUnit := do
  assertOwnedLease call authority
  startRequest call authority reservationId
  (do
    assertOwnedLease call authority
    checkCancellation call : AuthorityScript PUnit).orElse (settleFailure call authority reservationId false)
  (do
    runEffect call authority requestKey reservationId
    settleRequest call authority reservationId ⟨.settled, .succeeded, settledEffect_notInFlight⟩ :
      AuthorityScript PUnit).orElse
    (settleFailure call authority reservationId true)

/-- A refusal is thrown. -/
def denyAdmission (authority : Nat) (refusal : Refusal) : AuthorityScript PUnit :=
  match refusal with
  | .admission .minuteBackendRequestLimit _ => do
    change fun s =>
      { s with backendBudgetDenied := fun other => other == authority || s.backendBudgetDenied other }
    throw (.raised .budgetExceeded "Backend request admission denied: minute-backend-request-limit." none [])
  | refusal => throw (.plain ("Backend request admission denied: " ++ refusalText refusal ++ "."))

/-- What follows an answer of `reserve`. -/
def afterAdmission (call authority : Nat) (requestKey : String) :
    Except Refusal ProviderInteractionAdmission → AuthorityScript PUnit
  | .error refusal => denyAdmission authority refusal
  | .ok ⟨reservation, duplicate⟩ =>
    if duplicate then pure ⟨⟩ else dispatchRequest call authority requestKey reservation.reservationId

def admitRequest (call authority : Nat) (requestKey : String) (waits rounds : Nat) : AuthorityScript PUnit := do
  let time ← now authority
  let admission ← reserveWithin host authorities call authority requestKey
    (time + (authorities authority).budgetWaitTimeoutMs) waits rounds
  afterAdmission call authority requestKey admission

/-! ## Reconciliation -/

/-- A record of the owner's lease and operation, other than the parent's. -/
def reconciles (input : AuthorityInput) (record : ProviderInteractionRecord) : Bool :=
  some record.reservationId != input.parentReservationId && record.tabLeaseId == some input.tabLeaseId &&
    record.operationId == input.operationId

/-- A started record, or one whose outcome is unknown. -/
def mayHaveEffect (record : ProviderInteractionRecord) : Bool :=
  record.state == .started || record.effectState == .outcomeUnknown

/-- `ledger.list`, in the trace with the ledger it has read. -/
def listRecords (call authority : Nat) : AuthorityScript (List ProviderInteractionRecord) := do
  let scope := (authorities authority).input.scope
  match ← ledgerCall (fun s => (list host.table (some scope.provider) (some scope.tenantKey) s.ledger |>.map
      (·, s.ledger), s.ledger)) fun result => some (.listed call result.2) with
  | .ok result => pure result.1
  | .error refusal => throw (.plain (refusalText refusal))

def reconcileEffectState (call authority : Nat) (effectState : TabLeaseEffectState) (failure : RequestError) :
    AuthorityScript TabLeaseEffectState :=
  if hasUnknownOwnedRequestCleanup failure then pure .outcomeUnknown
  else do
    let listed ← listRecords host authorities call authority
    let records := listed.filter (reconciles (authorities authority).input)
    if records.any mayHaveEffect then pure .outcomeUnknown
    else do
      let backendBudgetDenied ← look fun s => .ok (s.backendBudgetDenied authority)
      if backendBudgetDenied ∧ effectState = .none ∧ records.any (·.effectState == .settled) then pure .settled
      else pure effectState

/-! ## All calls -/

inductive AuthorityCall
  | admitRequest (authority : Nat) (requestKey : String) (waits rounds : Nat)
  | reconcile (authority : Nat) (effectState : TabLeaseEffectState) (failure : RequestError)

inductive AuthorityReply
  | admitted
  | reconciled (authority : Nat) (effectState : TabLeaseEffectState)
  deriving DecidableEq

def authorityCall (call : Nat) : AuthorityCall → AuthorityScript AuthorityReply
  | .admitRequest authority requestKey waits rounds => do
    admitRequest host authorities call authority requestKey waits rounds
    pure .admitted
  | .reconcile authority effectState failure => do
    let reported ← reconcileEffectState host authorities call authority effectState failure
    pure (.reconciled authority reported)

/-- What happens besides: the surroundings change, and others call the ledger. -/
inductive Disturbance
  | surroundings (surroundings : Surroundings)
  | ledger (call : Call)

def disturb (s : AuthorityState) : Disturbance → Option AuthorityState
  | .surroundings surroundings => some { s with surroundings }
  | .ledger call => some { s with ledger := (Ledger.perform host.table call s.ledger).2 }

/-- No call has been made yet; the ledger may hold anything. -/
def Fresh (s : AuthorityState) : Prop :=
  s.trace = [] ∧ (∀ authority, s.lastTimestamp authority = none) ∧ ∀ authority, s.backendBudgetDenied authority = false

/-- Any number of admissions and reconciliations of any number of authorities. -/
def authoritySystem :
    TransitionSystem (Threads AuthorityState RequestError AuthorityReply) (Threads.Event AuthorityCall Disturbance) :=
  Threads.system Fresh (authorityCall host authorities) (disturb host)

end Scripts

end AuraCall.BackendRequests
