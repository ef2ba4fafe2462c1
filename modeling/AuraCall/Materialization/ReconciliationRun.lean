import AuraCall.Materialization.Reconciliation

/-!
# A run of the reconciliation

The loop over the candidates, the loop over the media generations, and the result of `materializeReconciliation`. What
is thrown ends the run, and the attempts that have been made stay in it.
-/

namespace AuraCall.Materialization

open AccountMirror (Provider)

/-! ## Attempts -/

structure ReconciliationState where
  results : List HistoryMaterializationResult := []
  attempts : List HistoryMaterializationAttemptReceipt := []
  eligibleCandidates : Nat := 0
  selectedCandidates : Nat := 0
  materializedCandidates : Nat := 0
  funnel : Option CandidateFunnel := none
  consumedTargetBudget : Nat := 0
  remainingAssetBudget : Nat
  attemptedAssetFamilySignatures : List String

namespace ReconciliationState

/-- The families count as attempted from now on. -/
def close (s : ReconciliationState) (assetFamilySignatures : List String) : ReconciliationState :=
  { s with attemptedAssetFamilySignatures := s.attemptedAssetFamilySignatures ++ assetFamilySignatures }

def excludeLate (s : ReconciliationState) (reason : PostEligibilityExclusion) (n : Nat) : ReconciliationState :=
  { s with funnel := s.funnel.map (·.excludeLate reason n) }

def select (s : ReconciliationState) : ReconciliationState :=
  { s with funnel := s.funnel.map fun funnel => { funnel with selected := funnel.selected + 1 } }

/-- An attempt has ended. -/
def push (s : ReconciliationState) (result : HistoryMaterializationResult)
    (receipt : HistoryMaterializationAttemptReceipt) : ReconciliationState :=
  { s with
    results := s.results ++ [{ result with attempts := [receipt] }]
    attempts := s.attempts ++ [receipt]
    selectedCandidates := s.selectedCandidates + 1
    materializedCandidates := s.materializedCandidates + if receipt.accounting.candidateMaterialized then 1 else 0 }

/-- The budgets after an attempt. -/
def spend (s : ReconciliationState) (accounting : AttemptAccounting) : ReconciliationState :=
  { s with
    remainingAssetBudget := s.remainingAssetBudget - accounting.assetsAttempted
    consumedTargetBudget := s.consumedTargetBudget + if accounting.targetConsumed then 1 else 0 }

end ReconciliationState

section Candidates

variable (services : ReconciliationServices) (request : NormalizedRequest) (maxTargets : Nat)

/-- The attempt that is made next. -/
def nextAttempt (s : ReconciliationState) (origin : ReceiptOrigin) (target : HistoryMaterializationTarget) :
    HistoryMaterializationAttempt where
  request := { request with maxItems := some s.remainingAssetBudget }
  origin := origin
  index := s.selectedCandidates
  target := target
  excludedAssetFamilySignatures := s.attemptedAssetFamilySignatures
  budgetBefore := ⟨some maxTargets, s.consumedTargetBudget, some s.remainingAssetBudget⟩

/-- `projectHistoryMaterializationAttemptOutcome`. -/
def receiptOf (attempt : HistoryMaterializationAttempt) (result : HistoryMaterializationResult)
    (generatedAt : IsoTime) : HistoryMaterializationAttemptReceipt where
  generatedAt := generatedAt
  origin := attempt.origin
  index := attempt.index
  target := attempt.target
  budgetBefore := attempt.budgetBefore
  accounting := accountingOf result
  status := result.status

/-- An attempt: the state that records it, and its receipt. -/
def attemptCandidate (s : ReconciliationState) (origin : ReceiptOrigin) (target : HistoryMaterializationTarget)
    (assetFamilySignatures : List String) :
    Except Thrown (ReconciliationState × HistoryMaterializationAttemptReceipt) := do
  let attempt := nextAttempt request maxTargets s origin target
  let (result, generatedAt) ← services.materializeAttempt attempt
  let receipt := receiptOf attempt result generatedAt
  return ((s.close assetFamilySignatures).push result receipt, receipt)

/-- The loop over the conversations that the request names. -/
def attemptConversations (targetOf : String → HistoryMaterializationTarget) (familiesOf : String → List String) :
    List String → ReconciliationState → ReconciliationState × Option Thrown
  | [], s => (s, none)
  | conversationId :: rest, s =>
    if maxTargets ≤ s.consumedTargetBudget ∨ s.remainingAssetBudget = 0 then (s, none)
    else if areTerminal (familiesOf conversationId) s.attemptedAssetFamilySignatures then
      attemptConversations targetOf familiesOf rest s
    else
      match attemptCandidate services request maxTargets s .selectedConversationId (targetOf conversationId)
        (familiesOf conversationId) with
      | .error thrown => (s, some thrown)
      | .ok (after, receipt) =>
        if receipt.accounting.providerGuardObserved then (after.spend receipt.accounting, none)
        else attemptConversations targetOf familiesOf rest (after.spend receipt.accounting)

/-- The loop over the candidates of the catalog. -/
def attemptCandidates : List ReconciliationCandidate → ReconciliationState → ReconciliationState × Option Thrown
  | [], s => (s, none)
  | candidate :: rest, s =>
    if maxTargets ≤ s.consumedTargetBudget then (s.excludeLate .targetBudget (rest.length + 1), none)
    else if s.remainingAssetBudget = 0 then (s.excludeLate .assetBudget (rest.length + 1), none)
    else if areTerminal candidate.assetFamilySignatures s.attemptedAssetFamilySignatures then
      attemptCandidates rest (s.excludeLate .duplicateAssetFamilies 1)
    else
      match attemptCandidate services request maxTargets s .reconciliationCandidate candidate.target
        candidate.assetFamilySignatures with
      | .error thrown => (s, some thrown)
      | .ok (after, receipt) =>
        if receipt.accounting.providerGuardObserved then
          (after.select.excludeLate .providerGuard rest.length, none)
        else attemptCandidates rest (after.select.spend receipt.accounting)

end Candidates

/-! ## Media generations -/

/-- A result of the media phase, and whether the provider has been asked for it. -/
structure MediaOutcome where
  result : HistoryMaterializationResult
  isAttempt : Bool

section Media

variable (services : ReconciliationServices)

/-- The entry of a media generation that has not been materialized. -/
def mediaEntry (candidate : MediaGenerationReconciliationCandidate) (status : ManifestEntryStatus) (reason : String) :
    HistoryMaterializationManifestEntry where
  kind := .media
  status := status
  providerId := candidate.artifactId
  remoteUrl := candidate.uri
  reason := some reason
  archiveItemId := some candidate.archiveItemId
  assetRoute := candidate.assetRoute

def skippedMediaGenerationResult (candidate : MediaGenerationReconciliationCandidate) (reason : String) :
    HistoryMaterializationResult where
  generatedAt := services.now
  status := .skipped
  target := none
  entries := [mediaEntry candidate .skipped reason]
  metrics := { conversations := 0, materialized := 0, skipped := 1, failed := 0 }

def failedMediaGenerationResult (candidate : MediaGenerationReconciliationCandidate)
    (target : HistoryMaterializationTarget) (thrown : Thrown) : HistoryMaterializationResult where
  generatedAt := services.now
  status := .skipped
  target := some target
  entries := [mediaEntry candidate .failed (services.failureReason target thrown)]
  metrics := { conversations := 1, materialized := 0, skipped := 0, failed := 1 }

def materializedMediaGenerationResult (target : HistoryMaterializationTarget)
    (entries : List HistoryMaterializationManifestEntry) : HistoryMaterializationResult where
  generatedAt := services.now
  status := if 0 < (summarizeEntries entries 1).materialized then .materialized else .skipped
  target := some target
  entries := entries
  metrics := summarizeEntries entries 1

def unsupportedMediaReconciliationReason (candidate : MediaGenerationReconciliationCandidate) : Option String :=
  if candidate.provider = .grok then
    some ("Grok history media materialization is not supported for media generation " ++
      s!"{candidate.mediaGenerationId}: the Grok resumed image materializer can only inspect the active " ++
      "Imagine/files surface, not a matched historical conversation.")
  else none

/-- One turn of the loop over the media generations. -/
def reconcileMedia (candidate : MediaGenerationReconciliationCandidate) : Except Thrown MediaOutcome :=
  match unsupportedMediaReconciliationReason candidate with
  | some reason => .ok ⟨skippedMediaGenerationResult services candidate reason, false⟩
  | none =>
    match services.matchMediaCandidate candidate with
    | .error reason => .ok ⟨skippedMediaGenerationResult services candidate reason, false⟩
    | .ok found =>
      match services.materializeMedia candidate found with
      | .ok entries => .ok ⟨materializedMediaGenerationResult services found.target entries, true⟩
      | .error thrown =>
        if isProviderAuthPreflightError thrown || isProviderHumanVerificationError thrown then .error thrown
        else .ok ⟨failedMediaGenerationResult services candidate found.target thrown, true⟩

/-- The loop over the media generations, with a target budget of its own. -/
def reconcileMediaGenerations (maxTargets : Nat) :
    List MediaGenerationReconciliationCandidate → Nat → List MediaOutcome × Option Thrown
  | [], _ => ([], none)
  | candidate :: rest, consumed =>
    if maxTargets ≤ consumed then ([], none)
    else
      match reconcileMedia services candidate with
      | .error thrown => ([], some thrown)
      | .ok outcome =>
        let later := reconcileMediaGenerations maxTargets rest
          (consumed + if consumesReconciliationTargetBudget outcome.result then 1 else 0)
        (outcome :: later.1, later.2)

end Media

/-! ## Runs -/

structure ReconciliationRun where
  state : ReconciliationState
  media : List MediaOutcome := []
  mediaCandidates : Nat := 0
  thrown : Option Thrown := none
  /-- an attempt has thrown, and has no outcome -/
  hasUnrecordedAttempt : Bool := false

section Runs

variable (services : ReconciliationServices) (request : NormalizedRequest) (jobs : List HistoryJob)
  (entries : List AccountMirrorCatalogEntry) (evidence : PriorEvidence)

/-- `maxTargets`. -/
def effectiveMaxItems (request : NormalizedRequest) : Nat := request.maxItems.getD 10

def catalogLimit (request : NormalizedRequest) : Nat :=
  if request.selectedKinds.contains .artifacts || request.selectedKinds.contains .files then
    max 500 (effectiveMaxItems request * 20)
  else max 50 (effectiveMaxItems request * 20)

/-- The families that are terminal before an attempt is made. -/
def terminalFamilies : List String :=
  if request.force then []
  else evidence.signatures ++ completeAssetFamilySignatures services.host request entries

def retryAttemptedAt : String → Option IsoTime :=
  if request.force then fun _ => none else reconciliationRetryAttemptedAtByConversationId jobs request

/-- The eligible candidates, and what has been counted on the way to them. -/
def eligibleCandidates : CandidateDiscovery :=
  selectCandidates (terminalFamilies services request entries evidence)
    (discoverCandidates services.host request entries)

/-- The eligible conversations of a request that names conversations. -/
def eligibleConversationIds : List String :=
  request.conversationIds.filter fun conversationId =>
    !areTerminal (((selectedCatalogTarget services.host request entries conversationId).map (·.2)).getD [])
      (terminalFamilies services request entries evidence)

def selectsAssets (request : NormalizedRequest) : Bool :=
  request.selectedKinds.contains .artifacts || request.selectedKinds.contains .files ||
    request.selectedKinds.contains .media

/-- The target of a conversation that the catalog does not have. -/
def namedTarget (provider : Provider) (conversationId : String) : HistoryMaterializationTarget where
  provider := provider
  runtimeProfile := request.runtimeProfile
  browserProfile := request.browserProfile
  boundIdentityKey := request.boundIdentityKey
  conversationId := conversationId
  providerConversationUrl := resolveProviderConversationUrl provider conversationId
  projectId := request.projectId

/-- The state before the first attempt. -/
def startReconciliation (funnel : Option CandidateFunnel) (eligible : Nat) : ReconciliationState where
  eligibleCandidates := eligible
  funnel := funnel
  remainingAssetBudget := effectiveMaxItems request
  attemptedAssetFamilySignatures := terminalFamilies services request entries evidence

/-- The attempts of the run, without the media generations. -/
def reconcileConversations : ReconciliationState × Option Thrown :=
  match request.conversationIds, request.provider with
  | _ :: _, some provider =>
    if selectsAssets request then
      let eligible := eligibleConversationIds services request entries evidence
      let selected := selectedCatalogTarget services.host request entries
      attemptConversations services request (effectiveMaxItems request)
        (fun id => ((selected id).map (·.1)).getD (namedTarget request provider id))
        (fun id => ((selected id).map (·.2)).getD [])
        (orderConversationIds (retryAttemptedAt request jobs) eligible)
        (startReconciliation services request entries evidence none eligible.length)
    else (startReconciliation services request entries evidence none 0, none)
  | ids, _ =>
    if selectsAssets request then
      let eligible := eligibleCandidates services request entries evidence
      attemptCandidates services request (effectiveMaxItems request)
        (orderCandidates (retryAttemptedAt request jobs) eligible.candidates)
        (startReconciliation services request entries evidence eligible.funnel eligible.candidates.length)
    else
      (startReconciliation services request entries evidence (if ids = [] then some {} else none) 0, none)

/-- The media generations are reconciled with the targets that are left. -/
def entersMediaPhase (s : ReconciliationState) : Bool :=
  request.selectedKinds.contains .media && decide (s.consumedTargetBudget < effectiveMaxItems request) &&
    request.conversationIds.isEmpty

def reconcile : ReconciliationRun :=
  let (state, thrown) := reconcileConversations services request jobs entries evidence
  if thrown.isNone ∧ entersMediaPhase request state then
    let maxTargets := effectiveMaxItems request - state.consumedTargetBudget
    match services.mediaCandidates request (max 1 (maxTargets * 10)) with
    | .error thrown => { state, thrown := some thrown }
    | .ok candidates =>
      let (media, thrown) := reconcileMediaGenerations services maxTargets candidates 0
      { state, media, mediaCandidates := candidates.length, thrown, hasUnrecordedAttempt := thrown.isSome }
  else { state, thrown, hasUnrecordedAttempt := thrown.isSome }

/-- `result.selectedFrontier`. -/
def selectedFrontier (s : ReconciliationState) : Option SelectedFrontier :=
  if request.conversationIds = [] then none
  else
    let attempted := s.attempts.map (·.target.conversationId)
    some
      { attemptedConversationIds := attempted
        unattemptedConversationIds := request.conversationIds.filter fun id => !attempted.contains id
        targetLimit := effectiveMaxItems request, targetsConsumed := s.consumedTargetBudget
        assetsRemaining := s.remainingAssetBudget }

/-- The result of a run that has not thrown. -/
def resultOf (run : ReconciliationRun) : HistoryMaterializationResult :=
  let results := run.state.results ++ run.media.map (·.result)
  let entries := evidence.entries ++ results.flatMap (·.entries)
  let conversationIds := evidence.conversationIds ++ results.filterMap fun result =>
    result.target.map (·.conversationId)
  let conversations := max results.length (distinct (conversationIds.filter (· ≠ ""))).length
  let metrics := { summarizeEntries entries conversations with
    eligibleCandidates := some (run.state.eligibleCandidates + run.mediaCandidates)
    selectedCandidates := some (run.state.selectedCandidates + run.media.length)
    materializedCandidates := some run.state.materializedCandidates
    candidateFunnel := run.state.funnel }
  { generatedAt := services.now, status := resolveHistoryMaterializationResultStatus metrics, target := none
    entries, attempts := run.state.attempts, selectedFrontier := selectedFrontier request run.state, metrics }

/-- A forced run does not look at what earlier ones have left. -/
def priorEvidence : Except Thrown PriorEvidence :=
  if request.force then .ok {} else services.readPriorEvidence request jobs

def materializeReconciliation : Except Thrown HistoryMaterializationResult := do
  let entries ← services.readCatalog request.provider request.runtimeProfile (catalogLimit request)
  let evidence ← priorEvidence services request jobs
  let run := reconcile services request jobs entries evidence
  match run.thrown with
  | some thrown => .error thrown
  | none => .ok (resultOf services request evidence run)

end Runs

/-! ## A small catalog -/

section Sample

/-- A host without URLs and asset families, where an identity key matches itself. -/
def namedHost : CatalogHost where
  parseUrl _ := none
  numbers := .fraction
  cases := .lowered
  identityKeysMatch _ key other := other = some key
  assetFamilySignature _ _ := none

def artifactConversation (id : String) : Json := .object [("id", .string id), ("artifactCount", .ofNat 1)]

def catalogOf (conversations : List Json) : AccountMirrorCatalogEntry where
  provider := .chatgpt
  runtimeProfileId := "default"
  manifests := { conversations }

def reconcileRequest (assetKinds : List HistoryAssetKind) (maxItems : Nat) : NormalizedRequest where
  acknowledgeTargetDefaultReset := false
  provider := none
  runtimeProfile := none
  browserProfile := none
  boundIdentityKey := none
  conversationId := none
  conversationIds := []
  providerConversationUrl := none
  projectId := none
  catalogItemId := none
  catalogKind := none
  archiveItemId := none
  reconcile := true
  accountLibrary := false
  refreshSnapshot := false
  reuseSnapshotAfter := none
  reuseSnapshotConversationIds := []
  providerWorkNotBefore := none
  interactionPolicy := none
  assetKinds := some assetKinds
  maxItems := some maxItems
  providerWorkTimeoutMs := none
  force := false

theorem reconciledAt_valid : -maxTime ≤ 0 ∧ 0 ≤ maxTime := by decide

def reconciledAt : IsoTime := ⟨0, reconciledAt_valid⟩

/-- An artifact that the provider has been asked for. -/
def artifactEntry (status : ManifestEntryStatus) (reason : Option String) : HistoryMaterializationManifestEntry where
  kind := .artifact
  status := status
  providerId := some "artifact"
  reason := reason

/-- Services of one catalog entry, where every attempt ends with the same entries. -/
def servicesOf (conversations : List Json) (entries : List HistoryMaterializationManifestEntry) :
    ReconciliationServices where
  host := namedHost
  readCatalog _ _ _ := .ok [catalogOf conversations]
  readPriorEvidence _ _ := .ok {}
  materializeAttempt attempt :=
    let metrics := summarizeEntries entries 1
    .ok (⟨reconciledAt, resolveHistoryMaterializationResultStatus metrics, some attempt.target, entries, [], none, metrics⟩,
      reconciledAt)
  mediaCandidates _ _ := .ok []
  matchMediaCandidate _ := .error "media-conversation-not-found"
  materializeMedia _ _ := .ok []
  failureReason _ thrown := thrown.text
  now := reconciledAt

end Sample

end AuraCall.Materialization
