import AuraCall.Ledger.Model
import AuraCall.Lib.EventLoop
import AuraCall.Traffic.Model

/-!
# The provider traffic governor

`createProviderTrafficGovernor`, with the awaits of `begin`, `settle`, `checkWarning` and `admitBackendRequest`: the
lease, the pacing, the mutation audit, the probe for a warning, its persistence, and the backend admission are answered
by their owners in any order.
-/

namespace AuraCall.Traffic

open Ledger (ProviderWarningClassification)

/-- `ProviderTrafficWarning`. -/
structure TrafficWarning where
  classification : ProviderWarningClassification
  reason : String
  cooldownUntil : Option DateString
  deriving DecidableEq

/-- What a call of the governor throws. -/
inductive TrafficError
  | warning (warning : TrafficWarning)
  | backendBudgetExceeded
  | cancelledBeforeDispatch
  | persistenceNotConfigured
  | alreadySettled (id : Nat)
  | aborted
  | other (message : String)
  deriving DecidableEq

/-- `recentEffects`, one entry. -/
structure RecentEffect where
  phase : Option ProviderTrafficPhase
  kind : BrowserMutationKind
  outcome : BrowserMutationOutcome
  deriving DecidableEq

/-- Which of the optional functions the governor has been given. -/
structure GovernorInput where
  probeWarning : Bool
  persistWarning : Bool
  admitBackendRequest : Bool

/-- The variables of `createProviderTrafficGovernor`, and what its calls have granted. -/
structure GovernorState (κ : Type) where
  observedWarning : Option TrafficWarning := none
  backendBudgetError : Bool := false
  backendRequestFailure : Option TrafficError := none
  lastProbeContext : Option κ := none
  recentEffects : List RecentEffect := []
  /-- how many action ids have been created -/
  created : Nat := 0
  /-- the actions that `begin` has returned -/
  granted : List (Nat × TrafficActionInput) := []
  /-- the actions on which `settle` has been called -/
  settled : List Nat := []
  /-- the request keys that `admitBackendRequest` has admitted -/
  admitted : List String := []
  deriving DecidableEq

/-- The calls on the governor, with the state of the abort signal where one is read. -/
inductive TrafficCall (κ : Type)
  | begin (input : TrafficActionInput) (aborted : Bool)
  | settle (id : Nat) (details : TrafficSettlement) (probeContext : Option κ)
  | checkWarning (context : Option κ)
  | admitBackendRequest (requestKey : String) (probeContext : Option κ)
  deriving DecidableEq

/-- How an await is answered. -/
inductive TrafficAnswer
  | ok
  /-- it resolves, and the abort signal of the call is aborted -/
  | aborted
  /-- the probe sees a warning -/
  | warned (warning : TrafficWarning)
  | error (error : TrafficError)
  deriving DecidableEq

/-- What `checkWarning` awaits. -/
inductive CheckPoint (κ : Type)
  | lease (context : Option κ)
  | probe
  | persist (warning : TrafficWarning)
  deriving DecidableEq

/-- The call that `checkWarning` is part of. -/
inductive CheckCaller
  | itself
  | settle
  | admission (requestKey : String)
  deriving DecidableEq

/-- What a call awaits. -/
inductive CallPoint (κ : Type)
  | beginLease (input : TrafficActionInput)
  | pacing (input : TrafficActionInput)
  | startAudit (id : Nat) (input : TrafficActionInput)
  | completeAudit (input : TrafficActionInput) (details : TrafficSettlement) (probeContext : Option κ)
  | settleInteraction (probeContext : Option κ)
  | check (caller : CheckCaller) (point : CheckPoint κ)
  /-- `await checkWarning(probeContext)` in `admitBackendRequest`, after it has returned -/
  | checked (requestKey : String)
  | admitting (requestKey : String)
  | resolved
  | rejected (error : TrafficError)
  deriving DecidableEq

section

variable {κ : Type}

/-- `assertBackendRequestState`: what it throws. -/
def GovernorState.backendRequestState (s : GovernorState κ) : Option TrafficError :=
  s.backendRequestFailure.or (if s.backendBudgetError then some .backendBudgetExceeded else none)

/-- `checkWarning`, up to its first await. -/
def GovernorState.checkWarning (s : GovernorState κ) (caller : CheckCaller) (context : Option κ) : CallPoint κ :=
  match s.observedWarning with
  | some warning => .rejected (.warning warning)
  | none => .check caller (.lease context)

/-- `checkWarning` has returned. -/
def CheckCaller.continued : CheckCaller → CallPoint κ
  | itself | settle => .resolved
  | admission requestKey => .checked requestKey

/-- `checkWarning`, from one await to the next. -/
def GovernorState.continueCheck (input : GovernorInput) (s : GovernorState κ) (caller : CheckCaller) :
    CheckPoint κ → TrafficAnswer → Option (GovernorState κ × CallPoint κ)
  | .lease context, .ok =>
    some ({ s with lastProbeContext := context.or s.lastProbeContext },
      if input.probeWarning then .check caller .probe else caller.continued)
  | .probe, .ok => some (s, caller.continued)
  | .probe, .warned warning =>
    -- Freeze first: persistence may be asynchronous or fail.
    some ({ s with observedWarning := some warning },
      if input.persistWarning then .check caller (.persist warning) else .rejected .persistenceNotConfigured)
  | .persist warning, .ok => some (s, .rejected (.warning warning))
  | _, .error error => some (s, .rejected error)
  | _, _ => none

/-- A call, up to its first await. -/
def GovernorState.start (input : GovernorInput) (s : GovernorState κ) :
    TrafficCall κ → Option (GovernorState κ × CallPoint κ)
  | .begin action aborted =>
    match s.observedWarning, s.backendRequestState with
    | some warning, _ => some (s, .rejected (.warning warning))
    | none, some error => some (s, .rejected error)
    | none, none => some (s, if aborted then .rejected .aborted else .beginLease action)
  | .settle id details probeContext =>
    match s.granted.find? fun action => action.1 = id with
    | none => none
    | some (_, action) =>
      if id ∈ s.settled then some (s, .rejected (.alreadySettled id))
      else some ({ s with settled := s.settled ++ [id] }, .completeAudit action details probeContext)
  | .checkWarning context => some (s, s.checkWarning .itself context)
  | .admitBackendRequest requestKey probeContext =>
    if input.admitBackendRequest then some (s, s.checkWarning (.admission requestKey) probeContext) else none

/-- `recentEffects.push(…)`, which keeps the last 20. -/
def pushRecentEffect (effects : List RecentEffect) (effect : RecentEffect) : List RecentEffect :=
  (effects ++ [effect]).drop (effects.length + 1 - 20)

/-- The `catch` of `admitBackendRequest`. -/
def GovernorState.backendRejected (s : GovernorState κ) (error : TrafficError) : GovernorState κ :=
  if error = .backendBudgetExceeded then { s with backendBudgetError := true }
  else if error ≠ .cancelledBeforeDispatch ∧ s.backendRequestFailure = none then
    { s with backendRequestFailure := some error }
  else s

/-- A call, from one await to the next. -/
def GovernorState.resume (input : GovernorInput) (s : GovernorState κ) :
    CallPoint κ → TrafficAnswer → Option (GovernorState κ × CallPoint κ)
  | .beginLease action, .ok => some (s, .pacing action)
  | .pacing action, .ok => some ({ s with created := s.created + 1 }, .startAudit s.created action)
  | .pacing _, .aborted => some (s, .rejected .aborted)
  | .startAudit id action, .ok => some ({ s with granted := s.granted ++ [(id, action)] }, .resolved)
  | .completeAudit action details probeContext, .ok =>
    some ({ s with recentEffects := pushRecentEffect s.recentEffects ⟨action.trafficPhase, action.kind, details.outcome⟩ },
      .settleInteraction probeContext)
  | .settleInteraction probeContext, .ok => some (s, s.checkWarning .settle probeContext)
  | .check caller point, answer => s.continueCheck input caller point answer
  | .checked requestKey, .ok =>
    match s.backendRequestState with
    | some error => some (s, .rejected error)
    | none => some (s, .admitting requestKey)
  | .admitting requestKey, .ok => some ({ s with admitted := s.admitted ++ [requestKey] }, .resolved)
  | .admitting _, .error error => some (s.backendRejected error, .rejected error)
  | .beginLease _, .error error | .pacing _, .error error | .startAudit _ _, .error error
  | .completeAudit _ _ _, .error error | .settleInteraction _, .error error => some (s, .rejected error)
  | _, _ => none

/-- The governor, as calls that take turns. -/
def trafficGovernor (κ : Type) (input : GovernorInput) : EventLoop (GovernorState κ) (TrafficCall κ) (CallPoint κ) TrafficAnswer :=
  ⟨GovernorState.start input, GovernorState.resume input⟩

/-- The runs of a new governor. -/
def governorSystem (κ : Type) (input : GovernorInput) :
    TransitionSystem (EventLoop.Config (GovernorState κ) (CallPoint κ)) (EventLoop.Turn (TrafficCall κ) TrafficAnswer) :=
  (trafficGovernor κ input).system (· = {})

end

end AuraCall.Traffic
