import AuraCall.AccountMirror.StoreReaders
import AuraCall.Js.JsonText

/-!
# Politeness of account mirrors

`evaluateAccountMirrorPoliteness`: whether a mirror may go to its provider now, and if not, why and until when. The reasons
are gone through in one order, and each of them only ever ends with time (`applies_antitone`). So a mirror that may go may go
later as well, and a reason that gives a time is over by then (`politeness_monotone`).
-/

namespace AuraCall.AccountMirror

/-! ## Policies -/

/-- The numbers of an `AccountMirrorProviderPolitenessPolicy`. -/
inductive PolicyField
  | minIntervalMs | explicitRefreshMinIntervalMs | jitterMaxMs | failureBaseCooldownMs | failureMaxCooldownMs
  | hardStopCooldownMs | maxBrowserInteractionsPerMinute | maxPageReadsPerCycle | maxConversationRowsPerCycle
  | maxArtifactRowsPerCycle | freshFrontierThreshold | conversationReadCooldownMs | pageRefreshCooldownMs
  | renavigationCooldownMs
  deriving DecidableEq

abbrev PolitenessPolicy := PolicyField → JsNumber

def minuteMs : ℚ := 60000

def hourMs : ℚ := 60 * 60000

def identityMismatchRecheckAfterMs : ℚ := 12 * hourMs

/-- `DEFAULT_POLICIES`. -/
def defaultPolicy : Provider → PolitenessPolicy
  | .chatgpt => fun
    | .minIntervalMs => .finite (6 * hourMs)
    | .explicitRefreshMinIntervalMs => .finite (10 * minuteMs)
    | .jitterMaxMs => .finite (20 * minuteMs)
    | .failureBaseCooldownMs => .finite (2 * minuteMs)
    | .failureMaxCooldownMs => .finite (10 * minuteMs)
    | .hardStopCooldownMs => .finite (12 * hourMs)
    | .maxBrowserInteractionsPerMinute => .finite 30
    | .maxPageReadsPerCycle => .finite 4
    | .maxConversationRowsPerCycle => .finite 30
    | .maxArtifactRowsPerCycle => .finite 24
    | .freshFrontierThreshold => .finite 3
    | .conversationReadCooldownMs | .pageRefreshCooldownMs | .renavigationCooldownMs => .finite 0
  | .gemini => fun
    | .minIntervalMs => .finite (18 * hourMs)
    | .explicitRefreshMinIntervalMs => .finite (2 * minuteMs)
    | .jitterMaxMs => .finite (1 * minuteMs)
    | .failureBaseCooldownMs => .finite (2 * minuteMs)
    | .failureMaxCooldownMs => .finite (10 * minuteMs)
    | .hardStopCooldownMs => .finite (24 * hourMs)
    | .maxBrowserInteractionsPerMinute => .finite 6
    | .maxPageReadsPerCycle => .finite 4
    | .maxConversationRowsPerCycle => .finite 80
    | .maxArtifactRowsPerCycle => .finite 24
    | .freshFrontierThreshold => .finite 3
    | .conversationReadCooldownMs | .pageRefreshCooldownMs | .renavigationCooldownMs => .finite 0
  | .grok => fun
    | .minIntervalMs => .finite (8 * hourMs)
    | .explicitRefreshMinIntervalMs => .finite (20 * minuteMs)
    | .jitterMaxMs => .finite (30 * minuteMs)
    | .failureBaseCooldownMs => .finite (60 * minuteMs)
    | .failureMaxCooldownMs => .finite (12 * hourMs)
    | .hardStopCooldownMs => .finite (12 * hourMs)
    | .maxBrowserInteractionsPerMinute => .finite 12
    | .maxPageReadsPerCycle => .finite 8
    | .maxConversationRowsPerCycle => .finite 160
    | .maxArtifactRowsPerCycle => .finite 80
    | .freshFrontierThreshold => .finite 3
    | .conversationReadCooldownMs | .pageRefreshCooldownMs | .renavigationCooldownMs => .finite 0

/-- `mergePolicy`; a field that the override sets to `undefined` counts as `NaN`. -/
def mergePolicy (provider : Provider) (override : PolicyField → Option JsNumber) : PolitenessPolicy :=
  fun field => (override field).getD (defaultPolicy provider field)

/-! ## Inputs -/

inductive ProviderGuardPosture | manualClearRequired | cooldown
  deriving DecidableEq

/-- The fields of a provider guard that a decision reads; the state is `none` when it is neither of the two. -/
structure PolitenessGuard where
  state : Option ProviderGuardPosture
  cooldownUntilMs : Option JsNumber := none

structure PolitenessInput where
  provider : Provider
  runtimeProfileId : String
  browserProfileId : Option String := none
  expectedIdentityKey : Option String := none
  detectedIdentityKey : Option String := none
  detectedIdentitySource : Option String := none
  detectedIdentityObservedAtMs : Option JsNumber := none
  detectedIdentityConfidence : Option String := none
  lastAttemptAtMs : Option JsNumber := none
  lastSuccessAtMs : Option JsNumber := none
  lastFailureAtMs : Option JsNumber := none
  consecutiveFailureCount : Option JsNumber := none
  providerCooldownUntilMs : Option JsNumber := none
  providerHardStopAtMs : Option JsNumber := none
  providerGuard : Option PolitenessGuard := none
  queued : Bool := false
  running : Bool := false
  explicitRefresh : Bool := false
  ignoreMinimumInterval : Bool := false
  ignoreFailureBackoff : Bool := false
  policy : PolicyField → Option JsNumber := fun _ => none

/-- `normalizeTimestamp`. -/
def normalizePositiveTime : Option JsNumber → Option ℚ
  | some (.finite value) => if 0 < value then some value else none
  | _ => none

/-! ## Identity keys -/

section Identity

variable (cases : CaseTable)

def normalizeAccountMirrorIdentityKey (value : Option String) : Option String :=
  (value.map fun text => cases.toLowerCase (trim text)).filter (· ≠ "")

/-- `/^@[a-z0-9_]{2,30}$/`. -/
def isGrokHandleText (text : String) : Bool :=
  match text.toList with
  | '@' :: name => 2 ≤ name.length && name.length ≤ 30 && name.all fun c => c.isLower || c.isDigit || c = '_'
  | _ => false

/-- A dot with something on both of its sides. -/
def hasInnerDot (text : List Char) : Bool := (text.drop 1).dropLast.contains '.'

/-- `/^[^\s@]+@[^\s@]+\.[^\s@]+$/`. -/
def isEmailText (text : String) : Bool :=
  let name := text.toList.takeWhile (· ≠ '@')
  let domain := (text.toList.dropWhile (· ≠ '@')).drop 1
  text.toList.all (fun c => !isWhiteSpace c) && !name.isEmpty && !domain.contains '@' && hasInnerDot domain

def normalizeAccountMirrorProviderIdentityKey (provider : Provider) (value : Option String) : Option String :=
  (normalizeAccountMirrorIdentityKey cases value).filter fun key =>
    !(provider = .grok && key.toList.head? = some '@' && !isGrokHandleText key)

def providerIdentityComparisonKey (provider : Provider) (value : Option String) : Option String :=
  (normalizeAccountMirrorProviderIdentityKey cases provider value).bind fun key =>
    let scope := "service-account:" ++ provider.text ++ ":"
    if scope.toList.isPrefixOf key.toList then
      (some (trim (String.ofList ((key.toList.drop scope.toList.length).takeWhile (· ≠ '|'))))).filter (· ≠ "")
    else some key

def accountMirrorIdentityKeysComparable (provider : Provider) (expectedIdentityKey detectedIdentityKey : Option String) :
    Bool :=
  match providerIdentityComparisonKey cases provider expectedIdentityKey,
    providerIdentityComparisonKey cases provider detectedIdentityKey with
  | some expected, some detected =>
    if expected = detected then true
    else if provider ≠ .grok then true
    else if isEmailText expected || isEmailText detected then isEmailText expected && isEmailText detected
    else isGrokHandleText expected && isGrokHandleText detected
  | _, _ => false

def accountMirrorIdentityKeysMismatch (provider : Provider) (expectedIdentityKey detectedIdentityKey : Option String) :
    Bool :=
  match providerIdentityComparisonKey cases provider expectedIdentityKey,
    providerIdentityComparisonKey cases provider detectedIdentityKey with
  | some expected, some detected =>
    expected ≠ detected && accountMirrorIdentityKeysComparable cases provider (some expected) (some detected)
  | _, _ => false

inductive IdentityEvidenceSource | providerApp | chromeGoogle | displayNamePlan | configured | legacy | unknown
  deriving DecidableEq

inductive IdentityEvidenceConfidence | authoritative | diagnostic | legacy | unknown
  deriving DecidableEq

def normalizeIdentityEvidenceSource : Option String → IdentityEvidenceSource
  | some "provider-app" => .providerApp
  | some "chrome-google" => .chromeGoogle
  | some "display-name-plan" => .displayNamePlan
  | some "configured" => .configured
  | some "legacy" => .legacy
  | some "unknown" => .unknown
  | some "" | none => .unknown
  | some _ => .legacy

def normalizeIdentityEvidenceConfidence (value : Option String) (source : IdentityEvidenceSource) :
    IdentityEvidenceConfidence :=
  match value, source with
  | some "authoritative", _ => .authoritative
  | some "diagnostic", _ => .diagnostic
  | some "legacy", _ => .legacy
  | some "unknown", _ => .unknown
  | _, .providerApp | _, .configured => .authoritative
  | _, .chromeGoogle | _, .displayNamePlan => .diagnostic
  | _, .legacy => .legacy
  | _, .unknown => .unknown

def isMalformedProviderIdentityKey (provider : Provider) (value : Option String) : Bool :=
  match value with
  | none | some "" => false
  | some key => (provider = .chatgpt || provider = .gemini) && !isEmailText key

inductive IdentityRepairStatus | none | staleMismatchRecheck | currentMismatch
  deriving DecidableEq

structure IdentityEvidence where
  source : IdentityEvidenceSource
  confidence : IdentityEvidenceConfidence
  observedAtMs : Option ℚ
  recheckable : Bool
  repairStatus : IdentityRepairStatus
  previousDetectedIdentityKey : Option String
  currentDetectedIdentityKey : Option String

def classifyIdentityEvidence (input : PolitenessInput) (nowMs : ℚ) : IdentityEvidence :=
  let detected := normalizeAccountMirrorProviderIdentityKey cases input.provider input.detectedIdentityKey
  let source := normalizeIdentityEvidenceSource input.detectedIdentitySource
  let confidence := normalizeIdentityEvidenceConfidence input.detectedIdentityConfidence source
  let observedAtMs := normalizePositiveTime input.detectedIdentityObservedAtMs
  let expected := normalizeAccountMirrorProviderIdentityKey cases input.provider input.expectedIdentityKey
  let mismatch := accountMirrorIdentityKeysMismatch cases input.provider expected detected
  let authoritative := source = .providerApp && confidence = .authoritative
  let stale := observedAtMs.all fun observedAtMs => identityMismatchRecheckAfterMs ≤ nowMs - observedAtMs
  let malformed := isMalformedProviderIdentityKey input.provider detected
  let recheckable := mismatch && (!authoritative || stale || malformed)
  { source, confidence, observedAtMs, recheckable
    repairStatus := if mismatch then if recheckable then .staleMismatchRecheck else .currentMismatch else .none
    previousDetectedIdentityKey := detected
    currentDetectedIdentityKey := detected }

end Identity

/-! ## Delays -/

/-- `a * b`, with a finite positive factor. -/
def scaled (factor : ℚ) : JsNumber → JsNumber
  | .finite value => .finite (value * factor)
  | other => other

/-- `Math.min(a, b)`. -/
def minNumber : JsNumber → JsNumber → JsNumber
  | .finite a, b => b.atMost a
  | .nan, _ => .nan
  | .infinite false, b => b
  | .infinite true, .nan => .nan
  | .infinite true, _ => .infinite true

/-- `number > bound`. -/
def exceeds (number : JsNumber) (bound : ℚ) : Bool := (JsNumber.finite bound).lt number

def getFailureCooldownMs (policy : PolitenessPolicy) (failureCount : JsNumber) : JsNumber :=
  match (failureCount.floor).atLeast 0 with
  | .finite count =>
    if count ≤ 0 then .finite 0
    else minNumber (policy .failureMaxCooldownMs) (scaled (2 ^ (min 8 (count - 1)).floor.toNat) (policy .failureBaseCooldownMs))
  | .infinite _ => minNumber (policy .failureMaxCooldownMs) (scaled (2 ^ 8) (policy .failureBaseCooldownMs))
  | .nan => .nan

/-- `hash * 31 + code`, in 32 bits. -/
def hashForJitter (value : String) : Nat := (codeUnits value).foldl (fun hash code => (hash * 31 + code) % 2 ^ 32) 0

variable (numbers : NumberTexts) (cases : CaseTable)

def getAccountMirrorJitterMs (input : PolitenessInput) (expectedIdentityKey : Option String) (anchorMs : ℚ)
    (jitterMaxMs : JsNumber) : JsNumber :=
  let seed := "|".intercalate [input.provider.text, input.runtimeProfileId, input.browserProfileId.getD "",
    (normalizeAccountMirrorIdentityKey cases expectedIdentityKey).getD "",
    String.ofList (numbers.text ⌊anchorMs / minuteMs⌋)]
  let hash := hashForJitter seed
  match (jitterMaxMs.floor).atLeast 0 with
  | .finite max => if max = 0 then .finite 0 else .finite ((hash % (max.floor.toNat + 1) : Nat) : ℚ)
  | .infinite _ => .finite hash
  | .nan => .nan

inductive DelayReason
  | eligible | alreadyRunning | alreadyQueued | expectedIdentityMissing | identityMismatch
  | providerManualClearRequired | providerGuardCooldown | providerHardStop | providerCooldown | minimumInterval
  | failureBackoff
  deriving DecidableEq

inductive PolitenessPosture | eligible | delay | blocked
  deriving DecidableEq

structure PolitenessLimits where
  policy : PolitenessPolicy
  jitterMs : JsNumber
  failureCooldownMs : JsNumber

structure PolitenessDecision where
  posture : PolitenessPosture
  reason : DelayReason
  provider : Provider
  runtimeProfileId : String
  browserProfileId : Option String
  expectedIdentityKey : Option String
  detectedIdentityKey : Option String
  identityEvidence : IdentityEvidence
  eligibleAtMs : Option JsNumber
  delayMs : JsNumber
  limits : PolitenessLimits

def postureOf : DelayReason → PolitenessPosture
  | .eligible => .eligible
  | .expectedIdentityMissing | .identityMismatch | .providerManualClearRequired => .blocked
  | _ => .delay

def createDecision (input : PolitenessInput) (nowMs : ℚ) (reason : DelayReason) (eligibleAtMs : Option JsNumber)
    (jitterMs : JsNumber) : PolitenessDecision :=
  let policy := mergePolicy input.provider input.policy
  { posture := postureOf reason
    reason
    provider := input.provider
    runtimeProfileId := input.runtimeProfileId
    browserProfileId := input.browserProfileId
    expectedIdentityKey := normalizeAccountMirrorProviderIdentityKey cases input.provider input.expectedIdentityKey
    detectedIdentityKey := normalizeAccountMirrorProviderIdentityKey cases input.provider input.detectedIdentityKey
    identityEvidence := classifyIdentityEvidence cases input nowMs
    eligibleAtMs
    delayMs := eligibleAtMs.elim (.finite 0) fun eligibleAtMs => (eligibleAtMs.add (.finite (-nowMs))).atLeast 0
    limits :=
      { policy, jitterMs
        failureCooldownMs := getFailureCooldownMs policy (input.consecutiveFailureCount.getD (.finite 0)) } }

/-! ## When the delays end -/

def guardPosture (input : PolitenessInput) : Option ProviderGuardPosture := input.providerGuard.bind (·.state)

def guardCooldownUntil (input : PolitenessInput) : Option JsNumber :=
  (input.providerGuard.bind fun held =>
    if held.state = some .cooldown then normalizePositiveTime held.cooldownUntilMs else none).map .finite

def providerCooldownUntil (input : PolitenessInput) : Option JsNumber :=
  (normalizePositiveTime input.providerCooldownUntilMs).map .finite

def hardStopEligibleAt (input : PolitenessInput) : Option JsNumber :=
  (normalizePositiveTime input.providerHardStopAtMs).map fun stoppedAt =>
    (JsNumber.finite stoppedAt).add (mergePolicy input.provider input.policy .hardStopCooldownMs)

/-- `failureCount` is floored before it is used, and again where it is used. -/
def failureEligibleAt (input : PolitenessInput) : Option JsNumber :=
  let failureCount := ((input.consecutiveFailureCount.getD (.finite 0)).floor).atLeast 0
  let failureCooldownMs := getFailureCooldownMs (mergePolicy input.provider input.policy) failureCount
  (normalizePositiveTime input.lastFailureAtMs).bind fun failedAt =>
    if exceeds failureCooldownMs 0 && !input.ignoreFailureBackoff then
      some ((JsNumber.finite failedAt).add failureCooldownMs)
    else none

def intervalAnchor (input : PolitenessInput) : ℚ :=
  max ((normalizePositiveTime input.lastAttemptAtMs).getD 0) ((normalizePositiveTime input.lastSuccessAtMs).getD 0)

def intervalJitter (input : PolitenessInput) : JsNumber :=
  getAccountMirrorJitterMs numbers cases input
    (normalizeAccountMirrorProviderIdentityKey cases input.provider input.expectedIdentityKey) (intervalAnchor input)
    (mergePolicy input.provider input.policy .jitterMaxMs)

def intervalEligibleAt (input : PolitenessInput) : Option JsNumber :=
  if 0 < intervalAnchor input ∧ input.ignoreMinimumInterval = false then
    let policy := mergePolicy input.provider input.policy
    let intervalMs := if input.explicitRefresh then policy .explicitRefreshMinIntervalMs else policy .minIntervalMs
    some (((JsNumber.finite (intervalAnchor input)).add intervalMs).add (intervalJitter numbers cases input))
  else none

/-- `at && at > now`. -/
def isAfter (eligibleAtMs : Option JsNumber) (nowMs : ℚ) : Bool := eligibleAtMs.any (exceeds · nowMs)

def evaluateAccountMirrorPoliteness (input : PolitenessInput) (nowMs : ℚ) : PolitenessDecision :=
  let expected := normalizeAccountMirrorProviderIdentityKey cases input.provider input.expectedIdentityKey
  let detected := normalizeAccountMirrorProviderIdentityKey cases input.provider input.detectedIdentityKey
  let evidence := classifyIdentityEvidence cases input nowMs
  let answer := createDecision cases input nowMs
  if expected.isNone then answer .expectedIdentityMissing none (.finite 0)
  else if detected.isSome && accountMirrorIdentityKeysMismatch cases input.provider expected detected &&
      !evidence.recheckable then
    answer .identityMismatch none (.finite 0)
  else if input.running then answer .alreadyRunning none (.finite 0)
  else if input.queued then answer .alreadyQueued none (.finite 0)
  else if guardPosture input = some .manualClearRequired then answer .providerManualClearRequired none (.finite 0)
  else if isAfter (guardCooldownUntil input) nowMs then
    answer .providerGuardCooldown (guardCooldownUntil input) (.finite 0)
  else if isAfter (providerCooldownUntil input) nowMs then
    answer .providerCooldown (providerCooldownUntil input) (.finite 0)
  else if isAfter (hardStopEligibleAt input) nowMs then answer .providerHardStop (hardStopEligibleAt input) (.finite 0)
  else if isAfter (failureEligibleAt input) nowMs then answer .failureBackoff (failureEligibleAt input) (.finite 0)
  else
    match intervalEligibleAt numbers cases input with
    | none => answer .eligible (some (.finite nowMs)) (.finite 0)
    | some eligibleAtMs =>
      if exceeds eligibleAtMs nowMs then answer .minimumInterval (some eligibleAtMs) (intervalJitter numbers cases input)
      else answer .eligible (some eligibleAtMs) (intervalJitter numbers cases input)

/-! ## The reasons over time -/

section Reasons

variable {numbers cases} {input : PolitenessInput}

/-- The time until which a reason holds, where it holds until a time. -/
def delayUntil (numbers : NumberTexts) (cases : CaseTable) (input : PolitenessInput) : DelayReason → Option JsNumber
  | .providerGuardCooldown => guardCooldownUntil input
  | .providerCooldown => providerCooldownUntil input
  | .providerHardStop => hardStopEligibleAt input
  | .failureBackoff => failureEligibleAt input
  | .minimumInterval => intervalEligibleAt numbers cases input
  | _ => none

/-- Whether there is this reason to wait, whatever other reasons there are. -/
def applies (numbers : NumberTexts) (cases : CaseTable) (input : PolitenessInput) (nowMs : ℚ) : DelayReason → Bool
  | .eligible => false
  | .expectedIdentityMissing =>
    (normalizeAccountMirrorProviderIdentityKey cases input.provider input.expectedIdentityKey).isNone
  | .identityMismatch =>
    let expected := normalizeAccountMirrorProviderIdentityKey cases input.provider input.expectedIdentityKey
    let detected := normalizeAccountMirrorProviderIdentityKey cases input.provider input.detectedIdentityKey
    detected.isSome && accountMirrorIdentityKeysMismatch cases input.provider expected detected &&
      !(classifyIdentityEvidence cases input nowMs).recheckable
  | .alreadyRunning => input.running
  | .alreadyQueued => input.queued
  | .providerManualClearRequired => guardPosture input = some .manualClearRequired
  | reason => isAfter (delayUntil numbers cases input reason) nowMs

/-- What a decision says of its reason: it applies, and the time that comes with it is the one until which it holds. If
there is none, no reason applies. -/
def Explained (numbers : NumberTexts) (cases : CaseTable) (input : PolitenessInput) (nowMs : ℚ)
    (decision : PolitenessDecision) : Prop :=
  if decision.reason = .eligible then ∀ reason, applies numbers cases input nowMs reason = false
  else applies numbers cases input nowMs decision.reason = true ∧
    decision.eligibleAtMs = delayUntil numbers cases input decision.reason

/-- A decision is explained, and its posture is the one of its reason. -/
def Decided (numbers : NumberTexts) (cases : CaseTable) (input : PolitenessInput) (nowMs : ℚ)
    (decision : PolitenessDecision) : Prop :=
  Explained numbers cases input nowMs decision ∧ decision.posture = postureOf decision.reason

theorem decided_evaluate (nowMs : ℚ) :
    Decided numbers cases input nowMs (evaluateAccountMirrorPoliteness numbers cases input nowMs) := by
  unfold evaluateAccountMirrorPoliteness
  dsimp only
  refine iteInduction (motive := Decided numbers cases input nowMs) (fun h => ⟨⟨h, rfl⟩, rfl⟩) fun hexpected => ?_
  refine iteInduction (motive := Decided numbers cases input nowMs) (fun h => ⟨⟨h, rfl⟩, rfl⟩) fun hmismatch => ?_
  refine iteInduction (motive := Decided numbers cases input nowMs) (fun h => ⟨⟨h, rfl⟩, rfl⟩) fun hrunning => ?_
  refine iteInduction (motive := Decided numbers cases input nowMs) (fun h => ⟨⟨h, rfl⟩, rfl⟩) fun hqueued => ?_
  refine iteInduction (motive := Decided numbers cases input nowMs) (fun h => ⟨⟨decide_eq_true h, rfl⟩, rfl⟩)
    fun hmanual => ?_
  refine iteInduction (motive := Decided numbers cases input nowMs) (fun h => ⟨⟨h, rfl⟩, rfl⟩) fun hguard => ?_
  refine iteInduction (motive := Decided numbers cases input nowMs) (fun h => ⟨⟨h, rfl⟩, rfl⟩) fun hcooldown => ?_
  refine iteInduction (motive := Decided numbers cases input nowMs) (fun h => ⟨⟨h, rfl⟩, rfl⟩) fun hstop => ?_
  refine iteInduction (motive := Decided numbers cases input nowMs) (fun h => ⟨⟨h, rfl⟩, rfl⟩) fun hfailure => ?_
  have hothers : isAfter (intervalEligibleAt numbers cases input) nowMs = false →
      ∀ reason, applies numbers cases input nowMs reason = false := by
    intro hinterval reason
    cases reason with
    | eligible => rfl
    | expectedIdentityMissing => exact eq_false_of_ne_true hexpected
    | identityMismatch => exact eq_false_of_ne_true hmismatch
    | alreadyRunning => exact eq_false_of_ne_true hrunning
    | alreadyQueued => exact eq_false_of_ne_true hqueued
    | providerManualClearRequired => exact decide_eq_false hmanual
    | providerGuardCooldown => exact eq_false_of_ne_true hguard
    | providerCooldown => exact eq_false_of_ne_true hcooldown
    | providerHardStop => exact eq_false_of_ne_true hstop
    | failureBackoff => exact eq_false_of_ne_true hfailure
    | minimumInterval => exact hinterval
  cases hinterval : intervalEligibleAt numbers cases input with
  | none => exact ⟨hothers (by rw [hinterval]; rfl), rfl⟩
  | some eligibleAtMs =>
    refine iteInduction (motive := Decided numbers cases input nowMs) (fun h => ⟨⟨?_, hinterval.symm⟩, rfl⟩)
      fun h => ⟨hothers (by rw [hinterval]; exact eq_false_of_ne_true h), rfl⟩
    show isAfter (intervalEligibleAt numbers cases input) nowMs = true
    rw [hinterval]
    exact h

theorem explained_evaluate (nowMs : ℚ) :
    Explained numbers cases input nowMs (evaluateAccountMirrorPoliteness numbers cases input nowMs) :=
  (decided_evaluate nowMs).1

/-- A mirror may go exactly when no reason applies. -/
theorem evaluate_eligible_iff {nowMs : ℚ} :
    (evaluateAccountMirrorPoliteness numbers cases input nowMs).reason = .eligible ↔
      ∀ reason, applies numbers cases input nowMs reason = false := by
  have hexplained := @explained_evaluate numbers cases input nowMs
  unfold Explained at hexplained
  constructor
  · intro h
    rwa [if_pos h] at hexplained
  · intro h
    by_contra hne
    rw [if_neg hne, h] at hexplained
    cases hexplained.1

theorem exceeds_antitone {number : JsNumber} {nowMs laterMs : ℚ} (hle : nowMs ≤ laterMs)
    (h : exceeds number laterMs = true) : exceeds number nowMs = true := by
  cases number with
  | finite value =>
    simp only [exceeds, JsNumber.lt, decide_eq_true_eq] at h ⊢
    exact lt_of_le_of_lt hle h
  | nan => cases h
  | infinite negative =>
    cases negative with
    | true => cases h
    | false => rfl

theorem isAfter_antitone {eligibleAtMs : Option JsNumber} {nowMs laterMs : ℚ} (hle : nowMs ≤ laterMs)
    (h : isAfter eligibleAtMs laterMs = true) : isAfter eligibleAtMs nowMs = true := by
  cases eligibleAtMs with
  | none => cases h
  | some eligibleAtMs => exact exceeds_antitone hle h

/-- An old mismatch stays old. -/
theorem recheckable_monotone {nowMs laterMs : ℚ} (hle : nowMs ≤ laterMs)
    (h : (classifyIdentityEvidence cases input nowMs).recheckable = true) :
    (classifyIdentityEvidence cases input laterMs).recheckable = true := by
  simp only [classifyIdentityEvidence, Bool.and_eq_true, Bool.or_eq_true] at h ⊢
  obtain ⟨hmismatch, (hsource | hstale) | hmalformed⟩ := h
  · exact ⟨hmismatch, .inl (.inl hsource)⟩
  · refine ⟨hmismatch, .inl (.inr ?_)⟩
    cases hobserved : normalizePositiveTime input.detectedIdentityObservedAtMs with
    | none => rfl
    | some observedAtMs =>
      rw [hobserved] at hstale
      have hle' : identityMismatchRecheckAfterMs ≤ nowMs - observedAtMs := of_decide_eq_true hstale
      exact decide_eq_true (by linarith)
  · exact ⟨hmismatch, .inr hmalformed⟩

/-- **A reason that is over does not come back.** -/
theorem applies_antitone {nowMs laterMs : ℚ} (hle : nowMs ≤ laterMs) {reason : DelayReason}
    (h : applies numbers cases input laterMs reason = true) : applies numbers cases input nowMs reason = true := by
  cases reason with
  | identityMismatch =>
    simp only [applies, Bool.and_eq_true, Bool.not_eq_true'] at h ⊢
    refine ⟨h.1, ?_⟩
    by_contra hre
    have hlater := recheckable_monotone hle (eq_true_of_ne_false hre)
    rw [h.2] at hlater
    cases hlater
  | eligible | expectedIdentityMissing | alreadyRunning | alreadyQueued | providerManualClearRequired => exact h
  | providerGuardCooldown | providerCooldown | providerHardStop | failureBackoff | minimumInterval =>
    exact isAfter_antitone hle h

theorem posture_evaluate (nowMs : ℚ) :
    (evaluateAccountMirrorPoliteness numbers cases input nowMs).posture =
      postureOf (evaluateAccountMirrorPoliteness numbers cases input nowMs).reason :=
  (decided_evaluate nowMs).2

theorem posture_eq_eligible_iff {nowMs : ℚ} :
    (evaluateAccountMirrorPoliteness numbers cases input nowMs).posture = .eligible ↔
      (evaluateAccountMirrorPoliteness numbers cases input nowMs).reason = .eligible := by
  rw [posture_evaluate]
  generalize (evaluateAccountMirrorPoliteness numbers cases input nowMs).reason = reason
  cases reason <;> decide

end Reasons

/-- **Politeness is monotone in time.** A mirror that may go may go at every later time, and a reason that comes with a time
is over from then on. -/
theorem politeness_monotone (input : PolitenessInput) :
    (∀ nowMs laterMs : ℚ, nowMs ≤ laterMs →
      (evaluateAccountMirrorPoliteness numbers cases input nowMs).posture = .eligible →
      (evaluateAccountMirrorPoliteness numbers cases input laterMs).posture = .eligible) ∧
    ∀ (nowMs laterMs : ℚ) (eligibleAtMs : JsNumber),
      (evaluateAccountMirrorPoliteness numbers cases input nowMs).posture = .delay →
      (evaluateAccountMirrorPoliteness numbers cases input nowMs).eligibleAtMs = some eligibleAtMs →
      exceeds eligibleAtMs laterMs = false →
      applies numbers cases input laterMs (evaluateAccountMirrorPoliteness numbers cases input nowMs).reason = false ∧
        (evaluateAccountMirrorPoliteness numbers cases input laterMs).reason ≠
          (evaluateAccountMirrorPoliteness numbers cases input nowMs).reason := by
  constructor
  · intro nowMs laterMs hle heligible
    rw [posture_eq_eligible_iff, evaluate_eligible_iff] at heligible ⊢
    intro reason
    by_contra hne
    have happlies := applies_antitone hle (eq_true_of_ne_false hne)
    rw [heligible reason] at happlies
    cases happlies
  · intro nowMs laterMs eligibleAtMs hdelay hat hover
    have hexplained := @explained_evaluate numbers cases input nowMs
    have hne : (evaluateAccountMirrorPoliteness numbers cases input nowMs).reason ≠ .eligible := by
      intro heligible
      rw [posture_eq_eligible_iff.2 heligible] at hdelay
      cases hdelay
    rw [Explained, if_neg hne, hat] at hexplained
    have hend : applies numbers cases input laterMs
        (evaluateAccountMirrorPoliteness numbers cases input nowMs).reason = false := by
      have hisAfter : isAfter (delayUntil numbers cases input
          (evaluateAccountMirrorPoliteness numbers cases input nowMs).reason) laterMs = false := by
        rw [← hexplained.2]
        exact hover
      revert hisAfter hexplained
      generalize (evaluateAccountMirrorPoliteness numbers cases input nowMs).reason = reason
      intro hexplained hisAfter
      cases reason with
      | providerGuardCooldown | providerCooldown | providerHardStop | failureBackoff | minimumInterval =>
        exact hisAfter
      | eligible | expectedIdentityMissing | identityMismatch | alreadyRunning | alreadyQueued
      | providerManualClearRequired => cases hexplained.2
    refine ⟨hend, fun hsame => ?_⟩
    have hlater := @explained_evaluate numbers cases input laterMs
    rw [Explained, if_neg (hsame ▸ hne), hsame, hend] at hlater
    cases hlater.1

/-- A mirror that has succeeded a second after the epoch. -/
def politeSample : PolitenessInput where
  provider := .chatgpt
  runtimeProfileId := "default"
  expectedIdentityKey := some "user@example.com"
  lastSuccessAtMs := some (.finite 1000)

theorem politeSample_monotone :
    (evaluateAccountMirrorPoliteness .fraction .lowered politeSample 90000000).posture = .eligible ∧
      applies .fraction .lowered politeSample 90000000
        (evaluateAccountMirrorPoliteness .fraction .lowered politeSample 2000).reason = false :=
  ⟨(politeness_monotone .fraction .lowered politeSample).1 80000000 90000000 (by decide +kernel) (by decide +kernel),
    ((politeness_monotone .fraction .lowered politeSample).2 2000 90000000
      ((intervalEligibleAt .fraction .lowered politeSample).getD .nan) (by decide +kernel) (by decide +kernel)
      (by decide +kernel)).1⟩

end AuraCall.AccountMirror
