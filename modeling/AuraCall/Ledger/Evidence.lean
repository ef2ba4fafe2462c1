import AuraCall.Ledger.Model

/-!
# The evidence of a provider warning

`buildProviderWarningEvidence`: the last interactions before the warning with the time between them, the counts of the
settled ones, and the sanitized report of the classifier.
-/

namespace AuraCall.Ledger

structure ProviderWarningEvidenceInput where
  classifierVersion : String
  visibleSummary : String
  sourceTargetClass : String
  openTargetCount : Option JsNumber
  resourcePathClasses : Option (List String)
  precedingInteractionLimit : Option JsNumber
  trafficAdmission : Option TrafficAdmission

/-- The last `limit` events, where the requested limit is floored into 1 to 50; `slice(-NaN)` keeps all of them. -/
def lastEvents (limit : Option JsNumber) (events : List ProviderInteractionEvent) : List ProviderInteractionEvent :=
  match (((limit.getD (.finite 20)).floor).atLeast 1).atMost 50 with
  | .finite n => events.rtake ⌊n⌋.toNat
  | _ => events

/-- The evidence of each event, with the time since the one before it. -/
def precedingInteractions (previousAt : Option Int) :
    List ProviderInteractionEvent → List ProviderWarningInteractionEvidence
  | [] => []
  | event :: events =>
    { occurredAt := event.occurredAt, deltaMs := previousAt.map fun previous => max 0 (event.occurredAt.ms - previous)
      interactionClass := event.interactionClass, eventType := event.type, outcome := event.outcome } ::
    precedingInteractions (some event.occurredAt.ms) events

/-- How many of the events are of the class. -/
def countClass (interactionClass : ProviderInteractionClass) (events : List ProviderInteractionEvent) : Nat :=
  events.countP fun event => event.interactionClass == some interactionClass

def cumulativeCounts (settled : List ProviderInteractionEvent) : CumulativeCounts where
  interactions := settled.countP fun event => event.interactionClass != some .backendRequest
  backendRequests := if countClass .backendRequest settled > 0 then some (countClass .backendRequest settled) else none
  navigations := countClass .navigation settled
  reloads := countClass .reload settled
  conversationReads := countClass .conversationRead settled
  artifactReads := countClass .artifactRead settled

section Sanitize

variable (table : CaseTable)

def sanitizeTrafficAdmissionEntry (entry : TrafficAdmissionPhase) : Checked TrafficAdmissionPhase := do
  let phase ← requireNonEmpty entry.phase "trafficAdmission.phase"
  return {
    phase := table.toLowerCase phase, admitted := entry.admitted.floor.atLeast 0, limit := entry.limit.floor.atLeast 0
    remaining := entry.remaining.floor.atLeast 0 }

def sanitizeBudget (entry : TrafficAdmissionBudget) : Checked TrafficAdmissionBudget := do
  let sanitized ← sanitizeTrafficAdmissionEntry table entry.toTrafficAdmissionPhase
  return { sanitized with kind := entry.kind }

def sanitizeEffect (entry : TrafficAdmissionEffect) : Checked TrafficAdmissionEffect := do
  let occurredAt ← match entry.occurredAt.parse with
    | some ms => toISOString ms
    | none => .error (.thrown "Invalid time value")
  let phase ← requireNonEmpty entry.phase "trafficAdmission.effect.phase"
  let kind ← requireNonEmpty entry.kind "trafficAdmission.effect.kind"
  let outcome ← requireNonEmpty entry.outcome "trafficAdmission.effect.outcome"
  return ⟨occurredAt, table.toLowerCase phase, table.toLowerCase kind, table.toLowerCase outcome⟩

def sanitizeTrafficAdmission (report : TrafficAdmission) : Checked TrafficAdmission := do
  let phases ← report.phases.mapM (sanitizeTrafficAdmissionEntry table)
  let budgets ← report.budgets.mapM (sanitizeBudget table)
  let recentEffects ← report.recentEffects.mapM fun effects => (effects.rtake 20).mapM (sanitizeEffect table)
  return ⟨phases, budgets, recentEffects⟩

def buildProviderWarningEvidence (input : ProviderWarningEvidenceInput) (observedAt : IsoTime)
    (events : List ProviderInteractionEvent) : Checked ProviderWarningEvidence := do
  let relevant := events.filter fun event =>
    event.type == .interactionStarted || event.type == .interactionSettled || event.type == .passiveObserved
  let classifierVersion ← requireNonEmpty input.classifierVersion "classifierVersion"
  let visibleSummary ← requireNonEmpty input.visibleSummary "visibleSummary"
  let sourceTargetClass ← requireNonEmpty input.sourceTargetClass "sourceTargetClass"
  let trafficAdmission ← input.trafficAdmission.mapM (sanitizeTrafficAdmission table)
  return {
    classifierVersion, visibleSummary, sourceTargetClass, firstObservedAt := observedAt
    openTargetCount := input.openTargetCount.map fun count => count.floor.atLeast 0
    precedingInteractions := precedingInteractions none (lastEvents input.precedingInteractionLimit relevant)
    cumulativeCounts := cumulativeCounts (relevant.filter fun event => event.type == .interactionSettled)
    resourcePathClasses := ((((input.resourcePathClasses.getD []).map fun value =>
      table.toLowerCase (trim value)).filter (· ≠ "")).eraseDups).take 20
    trafficAdmission }

end Sanitize

end AuraCall.Ledger
