import AuraCall.Lib.KeyedMap
import AuraCall.Traffic.Model

/-!
# The provider traffic plan of an account mirror

Budgets for each phase and kind of effect, with or without a work key. The budgeted governor (`reserve`, `rollback`)
counts the actions it admits against the budgets; `reconcile` compares the traffic that was observed with the plan.

A budget without a work key, here a wildcard budget, is open to every work key. A budget with a recovery reason is open
to recovery actions with that reason only.
-/

namespace AuraCall.Traffic

/-- `AccountMirrorProviderTrafficPhase`. -/
inductive MirrorTrafficPhase
  | planned (phase : ProviderTrafficPhase)
  | unattributed
  deriving DecidableEq

/-- `AccountMirrorProviderTrafficEffectKind`. -/
inductive TrafficEffectKind
  | targetCreate
  | routeVisit
  | inPageAction
  | pageNavigate
  | reload
  | topLevelDocument
  | frameNavigation
  | snapshotRefresh
  | artifactResolution
  | downloadAttempt
  | networkRequest
  | chatgptRequest
  | thirdPartyRequest
  deriving DecidableEq

/-- `CONTROLLABLE_EFFECTS.has(kind)`. -/
def TrafficEffectKind.controllable : TrafficEffectKind → Bool
  | targetCreate | routeVisit | inPageAction | pageNavigate | reload | topLevelDocument | snapshotRefresh
  | artifactResolution | downloadAttempt => true
  | frameNavigation | networkRequest | chatgptRequest | thirdPartyRequest => false

/-- `mutationEffectKind`. -/
def mutationEffectKind : BrowserMutationKind → Option TrafficEffectKind
  | .navigate | .locationAssign => some .pageNavigate
  | .reload => some .reload
  | .targetOpenOrReuse => some .targetCreate
  | .inPageClick => some .inPageAction
  | .input | .providerRead => none

/-- `mutation.trafficPhase ?? "unattributed"`. -/
def mirrorPhase : Option ProviderTrafficPhase → MirrorTrafficPhase
  | some phase => .planned phase
  | none => .unattributed

/-- `AccountMirrorProviderTrafficBudget`. -/
structure TrafficBudget where
  phase : ProviderTrafficPhase
  kind : TrafficEffectKind
  workKey : Option String := none
  reason : Option String := none
  limit : JsNumber
  deriving DecidableEq

/-- `Math.max(0, Math.floor(budget.limit))`. -/
def TrafficBudget.allowance (budget : TrafficBudget) : JsNumber := budget.limit.floor.atLeast 0

/-- The recovery reason of a budget: `budget.reason`, where the empty string does not count. -/
def TrafficBudget.recoveryReason (budget : TrafficBudget) : Option String := budget.reason.filter (· ≠ "")

/-- The arguments of `budgetLimit` and `budgetKey`. -/
structure TrafficWork where
  phase : MirrorTrafficPhase
  kind : TrafficEffectKind
  workKey : Option String
  interactionClass : BrowserInteractionClass
  reason : Option String
  deriving DecidableEq

/-- The condition of `budgetLimit`: the budget is open to the work. -/
def TrafficBudget.openTo (budget : TrafficBudget) (work : TrafficWork) : Bool :=
  work.phase = .planned budget.phase && budget.kind = work.kind &&
  (budget.workKey = none || budget.workKey = work.workKey) &&
  match budget.recoveryReason with
  | some reason => work.interactionClass = .providerRecovery && work.reason = some reason
  | none => work.interactionClass ≠ .providerRecovery

/-- `budgetLimit`. -/
def budgetLimit (budgets : List TrafficBudget) (work : TrafficWork) : JsNumber :=
  budgets.foldl (fun total budget => if budget.openTo work then total.add budget.allowance else total) (.ofNat 0)

/-- A key of `admitted`: the text `phase:kind:work`. The texts of phases and kinds have no colon in them, so they can
be read off the key. -/
structure BudgetKey where
  phase : MirrorTrafficPhase
  kind : TrafficEffectKind
  work : String
  deriving DecidableEq

/-- `hasExact`. -/
def hasExact (budgets : List TrafficBudget) (work : TrafficWork) : Bool :=
  budgets.any fun budget =>
    work.phase = .planned budget.phase && budget.kind = work.kind && budget.workKey = work.workKey &&
    budget.reason = if work.interactionClass = .providerRecovery then work.reason else none

/-- `budgetKey`. -/
def budgetKey (budgets : List TrafficBudget) (work : TrafficWork) : BudgetKey :=
  { phase := work.phase
    kind := work.kind
    work :=
      (if hasExact budgets work then work.workKey else none).getD "*" ++ ":" ++
      if work.interactionClass = .providerRecovery then work.reason.getD "missing-reason" else "ordinary" }

/-! ## The controller -/

/-- The variables of `createAccountMirrorProviderTrafficPlanController`. -/
structure TrafficPlan where
  budgets : List TrafficBudget
  frozenPhases : List ProviderTrafficPhase
  /-- `admitted.get(key) ?? 0` -/
  admitted : BudgetKey → Nat

/-- The plan of a new controller. -/
def TrafficPlan.new : TrafficPlan := ⟨[], [], fun _ => 0⟩

/-- What `freezePhase` stores of a budget. -/
def TrafficBudget.normalized (budget : TrafficBudget) : TrafficBudget :=
  { budget with workKey := budget.workKey.map trim, limit := budget.allowance }

/-- The loop of `freezePhase`: the budgets it has stored, and what it threw. -/
def pushBudgets (phase : ProviderTrafficPhase) : List TrafficBudget → List TrafficBudget → List TrafficBudget × Option String
  | budgets, [] => (budgets, none)
  | budgets, budget :: phaseBudgets =>
    if budget.phase ≠ phase then
      (budgets, some ("Provider traffic budget phase " ++ budget.phase.text ++ " does not match frozen phase " ++
        phase.text ++ "."))
    else pushBudgets phase (budgets ++ [budget.normalized]) phaseBudgets

/-- `freezePhase`. What was stored before a throw stays. -/
def TrafficPlan.freezePhase (plan : TrafficPlan) (phase : ProviderTrafficPhase) (phaseBudgets : List TrafficBudget) :
    TrafficPlan × Option String :=
  if phase ∈ plan.frozenPhases then (plan, some ("Provider traffic phase " ++ phase.text ++ " is already frozen."))
  else
    match pushBudgets phase plan.budgets phaseBudgets with
    | (budgets, some error) => ({ plan with budgets }, some error)
    | (budgets, none) => ({ plan with budgets, frozenPhases := plan.frozenPhases ++ [phase] }, none)

/-- `/^sha256:[a-f0-9]{64}$/.test(value)`. -/
def isDigestKey (value : String) : Bool :=
  value.toList.take 7 == "sha256:".toList && isHexDigest (String.ofList (value.toList.drop 7))

/-- `admitRecovery`. -/
def TrafficPlan.admitRecovery (plan : TrafficPlan) (phase : ProviderTrafficPhase) (kind : TrafficEffectKind)
    (workKey reason : String) : TrafficPlan × Option String :=
  if phase ∉ plan.frozenPhases then
    (plan, some ("Provider traffic recovery requires frozen phase " ++ phase.text ++ "."))
  else if !isDigestKey (trim workKey) then
    (plan, some "Provider traffic recovery requires a privacy-bounded sha256 work key.")
  else if trim reason = "" then (plan, some "Provider traffic recovery requires a causal reason.")
  else
    let budget : TrafficBudget :=
      { phase, kind, workKey := some (trim workKey), reason := some (trim reason), limit := .ofNat 1 }
    ({ plan with budgets := plan.budgets ++ [budget] }, none)

/-- `ProviderTrafficBudgetExceededError`. -/
structure BudgetExceeded where
  trafficPhase : MirrorTrafficPhase
  kind : TrafficEffectKind
  limit : JsNumber
  deriving DecidableEq

/-- The work of an action, when it is of a kind that is budgeted. -/
def trafficWork (input : TrafficActionInput) : Option TrafficWork :=
  (mutationEffectKind input.kind).map fun kind =>
    { phase := mirrorPhase input.trafficPhase, kind, workKey := input.workKey,
      interactionClass := input.interactionClass, reason := input.reason }

/-- `admitted.set(key, count)`. -/
def TrafficPlan.setAdmitted (plan : TrafficPlan) (key : BudgetKey) (count : Nat) : TrafficPlan :=
  { plan with admitted := Function.update plan.admitted key count }

/-- `begin`, before it awaits the governor below it: the key, and the count it has stored there. -/
def TrafficPlan.reserve (plan : TrafficPlan) (work : TrafficWork) : Except BudgetExceeded (TrafficPlan × BudgetKey × Nat) :=
  let limit := budgetLimit plan.budgets work
  let key := budgetKey plan.budgets work
  let next := plan.admitted key + 1
  if limit.lt (.ofNat next) then .error ⟨work.phase, work.kind, limit⟩ else .ok (plan.setAdmitted key next, key, next)

/-- `begin`, when the governor below it has rejected. -/
def TrafficPlan.rollback (plan : TrafficPlan) (key : BudgetKey) (next : Nat) : TrafficPlan :=
  plan.setAdmitted key (next - 1)

/-! ## Observation and reconciliation -/

/-- `AccountMirrorProviderTrafficEffect`. -/
structure TrafficEffect where
  phase : MirrorTrafficPhase
  kind : TrafficEffectKind
  count : JsNumber
  deriving DecidableEq

/-- The key `phase:kind` of an effect. -/
def TrafficEffect.key (effect : TrafficEffect) : MirrorTrafficPhase × TrafficEffectKind := (effect.phase, effect.kind)

/-- `normalizeEffect`. -/
def TrafficEffect.normalize (effect : TrafficEffect) : TrafficEffect :=
  { effect with count := effect.count.floor.atLeast 0 }

/-- `aggregated.set(key, { ...effect, count: (previous?.count ?? 0) + effect.count })`. -/
def addEffect (aggregated : KeyedMap TrafficEffect.key) (effect : TrafficEffect) : KeyedMap TrafficEffect.key :=
  let previous := ((aggregated.get? effect.key).map TrafficEffect.count).getD (.ofNat 0)
  aggregated.set { effect with count := previous.add effect.count }

/-- `aggregateEffects`. -/
def aggregateEffects (effects : List TrafficEffect) : List TrafficEffect :=
  ((effects.map TrafficEffect.normalize).foldl addEffect .empty).values

/-- `AccountMirrorProviderTrafficObservation`. -/
structure TrafficObservation where
  observedAt : String
  logicalInteractions : JsNumber
  effects : List TrafficEffect
  requestKinds : Option (List (String × JsNumber))
  warningObserved : Bool

/-- The effect of a mutation record, when it is complete and of a budgeted kind. -/
def mutationEffect (mutation : BrowserMutationRecord) : Option TrafficEffect :=
  if mutation.phase ≠ .complete then none
  else (mutationEffectKind mutation.kind).map fun kind =>
    { phase := mirrorPhase mutation.trafficPhase, kind, count := .ofNat 1 }

/-- `createAccountMirrorProviderTrafficObservation`. -/
def createObservation (observedAt : String) (logicalInteractions : JsNumber) (mutations : List BrowserMutationRecord)
    (cdpEffects : List TrafficEffect) (requestKinds : Option (List (String × JsNumber))) (warningObserved : Bool) :
    TrafficObservation :=
  { observedAt
    logicalInteractions := logicalInteractions.floor.atLeast 0
    effects := aggregateEffects (mutations.filterMap mutationEffect ++ cdpEffects.map TrafficEffect.normalize)
    requestKinds
    warningObserved }

/-- A budget violation of a reconciliation. -/
structure BudgetViolation where
  phase : ProviderTrafficPhase
  kind : TrafficEffectKind
  observed : JsNumber
  limit : JsNumber
  deriving DecidableEq

/-- `limits.get(key) ?? 0`: the limits of all budgets of a phase and kind, added up. -/
def plannedLimit (budgets : List TrafficBudget) (phase : MirrorTrafficPhase) (kind : TrafficEffectKind) : JsNumber :=
  budgets.foldl (fun total budget => if phase = .planned budget.phase ∧ kind = budget.kind then
    total.add budget.allowance else total) (.ofNat 0)

/-- The violation an entry of `observed` reports. -/
def TrafficEffect.violation (budgets : List TrafficBudget) (effect : TrafficEffect) : Option BudgetViolation :=
  let limit := plannedLimit budgets effect.phase effect.kind
  match effect.phase with
  | .planned phase => if limit.lt effect.count then some ⟨phase, effect.kind, effect.count, limit⟩ else none
  | .unattributed => none

/-- `collectBudgetViolations`. -/
def collectBudgetViolations (budgets : List TrafficBudget) (effects : List TrafficEffect) : List BudgetViolation :=
  let governed := effects.filter fun effect => effect.phase ≠ .unattributed ∧ effect.kind.controllable
  (governed.foldl addEffect .empty).values.filterMap (TrafficEffect.violation budgets)

/-- `sumEffects`. -/
def sumEffects (effects : List TrafficEffect) (kind : TrafficEffectKind) : JsNumber :=
  effects.foldl (fun total effect => total.add (if effect.kind = kind then effect.count else .ofNat 0)) (.ofNat 0)

/-- `AccountMirrorProviderTrafficReconciliation`. -/
structure TrafficReconciliation where
  pageNavigations : JsNumber
  topLevelDocuments : JsNumber
  frameNavigations : JsNumber
  networkRequests : JsNumber
  observedEffects : List TrafficEffect
  unattributedControllableEffects : List (TrafficEffectKind × JsNumber)
  budgetViolations : List BudgetViolation

/-- `reconcileAccountMirrorProviderTraffic`. -/
def reconcile (budgets : List TrafficBudget) (observation : TrafficObservation) : TrafficReconciliation :=
  let effects := observation.effects.map TrafficEffect.normalize
  { pageNavigations := sumEffects effects .pageNavigate
    topLevelDocuments := sumEffects effects .topLevelDocument
    frameNavigations := sumEffects effects .frameNavigation
    networkRequests := sumEffects effects .networkRequest
    observedEffects := effects
    unattributedControllableEffects :=
      (effects.filter fun effect => effect.phase = .unattributed ∧ effect.kind.controllable).map
        fun effect => (effect.kind, effect.count)
    budgetViolations := collectBudgetViolations budgets effects }

end AuraCall.Traffic
