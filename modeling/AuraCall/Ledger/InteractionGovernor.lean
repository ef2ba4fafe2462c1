import AuraCall.Ledger.System
import AuraCall.Lib.EventLoop
import AuraCall.Traffic.Model

/-!
# The ledger-backed interaction governor

`createLedgerBackedBrowserInteractionGovernor`, with the awaits of `beforeInteraction`, `finish` and `close`. A call of
the ledger is asked for, carried out, and answered in three turns; it may also reject, before or after it has been
carried out. The ledger is shared with its other users, whose calls are turns as well.
-/

namespace AuraCall.Ledger

open Traffic (BrowserInteractionClass)

/-- What the governor is created with. -/
structure InteractionGovernorInput where
  table : CaseTable
  scope : ProviderInteractionScope
  workloadId : String
  operationId : String
  tabLeaseId : String
  policy : ProviderInteractionPolicy
  reservationTtlMs : JsNumber := .finite 30000

/-- The ledger, and the variables of the governor. -/
structure InteractionGovernorState where
  ledger : InteractionLedger
  activeReservationId : Option String := none
  closed : Bool := false
  latestLifecycleTimestampMs : Option Int := none
  /-- the reservations that calls of this governor have created -/
  created : List String := []

/-- How an interaction is settled. -/
structure InteractionSettlement where
  outcome : Option ProviderInteractionOutcome := none
  effectState : Option ProviderInteractionEffectState := none
  reason : Option String := none
  notInFlight : effectState ≠ some .inFlight := by decide

/-- What a call of the governor throws. -/
inductive InteractionGovernorError
  | closed
  | admissionDenied (reason : String)
  | startFailed (refusal : Refusal)
  | settlementFailed (refusal : Refusal)
  | aborted
  | other (message : String)
  deriving DecidableEq

/-- The calls, with the clock where they read it: those of the governor, and those of other users of the ledger. -/
inductive InteractionGovernorCall
  | beforeInteraction (kind : BrowserInteractionClass) (nowMs : Int)
  | finish (settlement : InteractionSettlement) (nowMs : Int)
  | close (settlement : InteractionSettlement) (nowMs : Int)
  | other (call : Call)

/-- How far a call of the ledger is. -/
inductive LedgerStage
  | asked
  | answered (reply : Checked Reply)

/-- Who awaits `finish`. -/
inductive FinishCaller
  | itself
  | before (kind : BrowserInteractionClass)
  | closing

/-- What a call awaits. -/
inductive InteractionPoint
  | settling (caller : FinishCaller) (reservationId : String) (operation : Operation) (stage : LedgerStage)
  | listing (reservationId : String)
  /-- `await finish(…)`, after it has returned -/
  | finished (caller : FinishCaller)
  | paceWarning (kind : BrowserInteractionClass)
  | pacing (kind : BrowserInteractionClass)
  | assertAdmission (kind : BrowserInteractionClass)
  | admissionWarning (kind : BrowserInteractionClass)
  | reserving (kind : BrowserInteractionClass) (operation : Operation) (stage : LedgerStage)
  | waiting (kind : BrowserInteractionClass)
  | starting (reservationId : String) (operation : Operation) (stage : LedgerStage) (closing : Bool)
  | resolved
  | rejected (error : InteractionGovernorError)

/-- How an await is answered. -/
inductive InteractionAnswer
  /-- the ledger carries out the call; a new reservation gets the identifier -/
  | perform (createReservationId : String)
  /-- the await resolves; the clock, and whether the admission may still wait -/
  | ok (nowMs : Int) (timeLeft : Bool)
  /-- the await resolves, and the abort signal is aborted -/
  | aborted
  | error (message : String)
  deriving DecidableEq

/-- `readLifecycleTimestamp`: the later of the clock and the last timestamp. -/
def InteractionGovernorState.tick (s : InteractionGovernorState) (nowMs : Int) : InteractionGovernorState :=
  { s with latestLifecycleTimestampMs := some (s.latestLifecycleTimestampMs.elim nowMs (max nowMs)) }

/-- The timestamp that was read last. -/
def InteractionGovernorState.timestamp (s : InteractionGovernorState) : DateString :=
  .at (s.latestLifecycleTimestampMs.getD 0)

/-- `toLedgerInteractionClass`. -/
def toLedgerInteractionClass : BrowserInteractionClass → ProviderInteractionClass
  | .conversationRead => .conversationRead
  | .pageRefresh => .reload
  | .renavigation => .navigation
  | .uploadSubmit | .providerRecovery => .providerMutation
  | .generic => .listRead

/-- `isMutating`. -/
def isMutating : BrowserInteractionClass → Bool
  | .uploadSubmit | .providerRecovery => true
  | _ => false

/-- The settlement that a call of `finish` asks the ledger for. -/
def InteractionSettlement.operation (settlement : InteractionSettlement) (reservationId : String)
    (settledAt : DateString) : Operation :=
  .settle {
    reservationId, settledAt
    effectState := settlement.effectState.getD .settled
    outcome := settlement.outcome.getD .succeeded
    stopReason := settlement.reason
    notInFlight := by
      have h := settlement.notInFlight
      cases he : settlement.effectState with
      | none => decide
      | some effectState =>
        rw [he] at h
        exact fun e => h (congrArg some e) }

/-- `finish`, up to its first await. -/
def InteractionGovernorState.finish (s : InteractionGovernorState) (caller : FinishCaller)
    (settlement : InteractionSettlement) (nowMs : Int) : InteractionGovernorState × InteractionPoint :=
  match s.activeReservationId with
  | none => (s, .finished caller)
  | some reservationId =>
    let s := { s with activeReservationId := none }.tick nowMs
    (s, .settling caller reservationId (settlement.operation reservationId s.timestamp) .asked)

/-- The settlement of an interaction that was closed while it was admitted. -/
def closedSettlement : InteractionSettlement :=
  { outcome := some .cancelled, effectState := some .none, reason := some "interaction-governor-closed" }

/-- `reserve()`. -/
def reserveOperation (input : InteractionGovernorInput) (kind : BrowserInteractionClass) (now : DateString) : Operation :=
  .reserve {
    scope := input.scope, workloadId := input.workloadId, operationId := input.operationId
    tabLeaseId := some input.tabLeaseId, interactionClass := toLedgerInteractionClass kind
    mutability := if isMutating kind then .providerMutating else .readOnly, startsNewConversation := false, now
    reservationTtlMs := input.reservationTtlMs, policy := input.policy }

/-- A call, up to its first await. -/
def InteractionGovernorState.start (input : InteractionGovernorInput) (s : InteractionGovernorState) :
    InteractionGovernorCall → Option (InteractionGovernorState × InteractionPoint)
  | .beforeInteraction kind nowMs => some (if s.closed then (s, .rejected .closed) else s.finish (.before kind) {} nowMs)
  | .finish settlement nowMs => some (s.finish .itself settlement nowMs)
  | .close settlement nowMs => some ({ s with closed := true }.finish .itself settlement nowMs)
  | .other call => some ({ s with ledger := (perform input.table call s.ledger).2 }, .resolved)

/-- The ledger carries out a call of the governor. -/
def InteractionGovernorState.perform (input : InteractionGovernorInput) (s : InteractionGovernorState)
    (createReservationId : String) (operation : Operation) : InteractionGovernorState × LedgerStage :=
  let out := Ledger.perform input.table ⟨createReservationId, operation⟩ s.ledger
  let created := match out.1 with
    | .ok (.admission ⟨reservation, false⟩) => [reservation.reservationId]
    | _ => []
  ({ s with ledger := out.2, created := s.created ++ created }, .answered out.1)

/-- What `await finish(…)` is followed by. -/
def InteractionGovernorState.finishReturned (s : InteractionGovernorState) (nowMs : Int) :
    FinishCaller → InteractionGovernorState × InteractionPoint
  | .itself => (s, .resolved)
  | .before kind => (s.tick nowMs, .paceWarning kind)
  | .closing => (s, .rejected .closed)

/-- What `finish` throws when the ledger has refused to settle in this state of the record. -/
def settlementError (reservationId : String) (records : List ProviderInteractionRecord) : InteractionGovernorError :=
  match records.find? fun candidate => candidate.reservationId = reservationId with
  | some record =>
    if record.state = .frozen ∧ record.providerWarning.isSome then .admissionDenied "provider-warning"
    else .settlementFailed .invalidState
  | none => .settlementFailed .invalidState

/-- After `await ledger.settle(…)`. -/
def settleAnswered (caller : FinishCaller) (reservationId : String) : Checked Reply → InteractionPoint
  | .ok _ => .finished caller
  | .error (.refused .invalidState) => .listing reservationId
  | .error (.refused refusal) => .rejected (.settlementFailed refusal)
  | .error (.thrown message) => .rejected (.other message)

/-- After `admission = await reserve()`. -/
def InteractionGovernorState.reserveAnswered (s : InteractionGovernorState) (kind : BrowserInteractionClass)
    (nowMs : Int) (timeLeft : Bool) : Checked Reply → InteractionGovernorState × InteractionPoint
  | .ok (.admission admission) =>
    let s := s.tick nowMs
    let reservationId := admission.reservation.reservationId
    (s, .starting reservationId (.start ⟨reservationId, s.timestamp⟩) .asked s.closed)
  | .error (.refused (.admission reason _)) =>
    (s, if reason = .minuteInteractionLimit ∧ timeLeft then .waiting kind else .rejected (.admissionDenied reason.text))
  | .error (.thrown message) => (s, .rejected (.other message))
  | _ => (s, .rejected (.other ""))

/-- After `started = await ledger.start(…)`. -/
def InteractionGovernorState.startAnswered (s : InteractionGovernorState) (reservationId : String) (closing : Bool)
    (nowMs : Int) : Checked Reply → InteractionGovernorState × InteractionPoint
  | .ok _ =>
    let s := { s with activeReservationId := some reservationId }
    if closing || s.closed then s.finish .closing closedSettlement nowMs else (s, .resolved)
  | .error (.refused refusal) => (s, .rejected (if closing then .closed else .startFailed refusal))
  | .error (.thrown message) => (s, .rejected (.other message))

/-- A call, from one await to the next. -/
def InteractionGovernorState.resume (input : InteractionGovernorInput) (s : InteractionGovernorState) :
    InteractionPoint → InteractionAnswer → Option (InteractionGovernorState × InteractionPoint)
  | .settling caller reservationId operation .asked, .perform id =>
    let (s, stage) := s.perform input id operation
    some (s, .settling caller reservationId operation stage)
  | .settling caller reservationId _ (.answered reply), .ok _ _ => some (s, settleAnswered caller reservationId reply)
  | .listing reservationId, .ok _ _ =>
    match list input.table (some input.scope.provider) (some input.scope.tenantKey) s.ledger with
    | .ok records => some (s, .rejected (settlementError reservationId records))
    | .error (.thrown message) => some (s, .rejected (.other message))
    | .error (.refused refusal) => some (s, .rejected (.settlementFailed refusal))
  | .finished caller, .ok nowMs _ => some (s.finishReturned nowMs caller)
  | .paceWarning kind, .ok _ _ => some (s, .pacing kind)
  | .pacing kind, .ok _ _ => some (s, if s.closed then .rejected .closed else .assertAdmission kind)
  | .pacing _, .aborted => some (s, .rejected (if s.closed then .closed else .aborted))
  | .assertAdmission kind, .ok nowMs _ => some (s.tick nowMs, .admissionWarning kind)
  | .admissionWarning kind, .ok nowMs _ =>
    if s.closed then some (s, .rejected .closed)
    else
      let s := s.tick nowMs
      some (s, .reserving kind (reserveOperation input kind s.timestamp) .asked)
  | .reserving kind operation .asked, .perform id =>
    let (s, stage) := s.perform input id operation
    some (s, .reserving kind operation stage)
  | .reserving kind _ (.answered reply), .ok nowMs timeLeft => some (s.reserveAnswered kind nowMs timeLeft reply)
  | .waiting kind, .ok _ _ => some (s, .assertAdmission kind)
  | .waiting _, .aborted => some (s, .rejected .aborted)
  | .starting reservationId operation .asked closing, .perform id =>
    let (s, stage) := s.perform input id operation
    some (s, .starting reservationId operation stage closing)
  | .starting reservationId _ (.answered reply) closing, .ok nowMs _ =>
    some (s.startAnswered reservationId closing nowMs reply)
  | .resolved, _ | .rejected _, _ | .finished _, _ => none
  | _, .error message => some (s, .rejected (.other message))
  | _, _ => none

/-- The governor and the other users of its ledger, as calls that take turns. -/
def interactionGovernor (input : InteractionGovernorInput) :
    EventLoop InteractionGovernorState InteractionGovernorCall InteractionPoint InteractionAnswer :=
  ⟨InteractionGovernorState.start input, InteractionGovernorState.resume input⟩

/-- The runs of a new governor over any ledger. -/
def interactionGovernorSystem (input : InteractionGovernorInput) :
    TransitionSystem (EventLoop.Config InteractionGovernorState InteractionPoint)
      (EventLoop.Turn InteractionGovernorCall InteractionAnswer) :=
  (interactionGovernor input).system fun s => ∃ ledger, s = { ledger }

end AuraCall.Ledger
