import AuraCall.Js.Builtins

/-!
# Provider traffic: actions and their records

A physical browser action is begun with a `TrafficActionInput` and leaves two records in the mutation audit: one when
it starts, and one when it is settled.
-/

namespace AuraCall.Traffic

/-- `ProviderTrafficPhase`. -/
inductive ProviderTrafficPhase
  | bootstrap
  | index
  | detail
  | materialization
  | cleanup
  deriving DecidableEq

/-- The text of a phase. -/
def ProviderTrafficPhase.text : ProviderTrafficPhase → String
  | bootstrap => "bootstrap"
  | index => "index"
  | detail => "detail"
  | materialization => "materialization"
  | cleanup => "cleanup"

/-- `BrowserMutationKind`. -/
inductive BrowserMutationKind
  | input
  | providerRead
  | navigate
  | reload
  | locationAssign
  | inPageClick
  | targetOpenOrReuse
  deriving DecidableEq

/-- `BrowserInteractionClass`. -/
inductive BrowserInteractionClass
  | conversationRead
  | pageRefresh
  | renavigation
  | uploadSubmit
  | providerRecovery
  | generic
  deriving DecidableEq

/-- `BrowserMutationPhase`. -/
inductive BrowserMutationPhase
  | start
  | complete
  deriving DecidableEq

/-- `BrowserMutationOutcome`. -/
inductive BrowserMutationOutcome
  | succeeded
  | failed
  deriving DecidableEq

/-- `ProviderTrafficActionInput`, less its abort signal. -/
structure TrafficActionInput where
  kind : BrowserMutationKind
  interactionClass : BrowserInteractionClass
  source : String
  trafficPhase : Option ProviderTrafficPhase := none
  workKey : Option String := none
  requestedUrl : Option String := none
  fromUrl : Option String := none
  toUrl : Option String := none
  targetId : Option String := none
  reused : Option Bool := none
  reason : Option String := none
  fallbackUsed : Option Bool := none
  deriving DecidableEq

/-- `ProviderTrafficActionSettlement`, less the state of the effect and the probe context. -/
structure TrafficSettlement where
  outcome : BrowserMutationOutcome
  toUrl : Option String := none
  targetId : Option String := none
  reused : Option Bool := none
  reason : Option String := none
  fallbackUsed : Option Bool := none
  error : Option String := none
  deriving DecidableEq

/-- `BrowserMutationRecord`, less its time. -/
structure BrowserMutationRecord where
  id : String
  phase : BrowserMutationPhase
  kind : BrowserMutationKind
  source : String
  trafficPhase : Option ProviderTrafficPhase
  workKey : Option String
  requestedUrl : Option String
  fromUrl : Option String
  toUrl : Option String
  targetId : Option String
  reused : Option Bool
  reason : Option String
  fallbackUsed : Option Bool
  outcome : Option BrowserMutationOutcome
  error : Option String
  deriving DecidableEq

/-- `started`: the record of an action that is about to start. -/
def startRecord (id : String) (input : TrafficActionInput) : BrowserMutationRecord :=
  { id, phase := .start, kind := input.kind, source := input.source, trafficPhase := input.trafficPhase,
    workKey := input.workKey, requestedUrl := input.requestedUrl, fromUrl := input.fromUrl, toUrl := input.toUrl,
    targetId := input.targetId, reused := input.reused, reason := input.reason, fallbackUsed := input.fallbackUsed,
    outcome := none, error := none }

/-- The record of an action that has been settled. -/
def completeRecord (started : BrowserMutationRecord) (details : TrafficSettlement) : BrowserMutationRecord :=
  { started with
    phase := .complete
    toUrl := details.toUrl.or started.toUrl
    targetId := details.targetId.or started.targetId
    reused := details.reused.or started.reused
    reason := details.reason.or started.reason
    fallbackUsed := details.fallbackUsed.or started.fallbackUsed
    outcome := some details.outcome
    error := details.error }

end AuraCall.Traffic
