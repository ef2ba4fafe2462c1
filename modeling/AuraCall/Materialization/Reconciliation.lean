import AuraCall.Lib.Tally
import AuraCall.Materialization.CatalogConversations

/-!
# Reconciliation

`materializeReconciliation`: it finds candidates in the catalog, orders them by the attempts of earlier jobs, attempts
one after the other within two budgets, and then reconciles media generations. What an attempt comes to, and what is
known of the assets beforehand, is left to the services.
-/

namespace AuraCall.Materialization

open AccountMirror (Provider)

/-! ## Results -/

inductive ManifestEntryStatus
  | materialized | duplicate | skipped | failed
  deriving DecidableEq

structure HistoryMaterializationManifestEntry where
  kind : AssetFamilyKind
  status : ManifestEntryStatus
  providerId : Option String := none
  localPath : Option String := none
  remoteUrl : Option String := none
  materializationMethod : Option String := none
  reason : Option String := none
  archiveItemId : Option String := none
  assetRoute : Option String := none
  deriving DecidableEq

inductive MaterializationStatus
  | materialized | skipped | failed
  deriving DecidableEq

/-- `receipt.origin`. -/
inductive ReceiptOrigin
  | direct | catalogItem | archiveItem | selectedConversationId | reconciliationCandidate
  deriving DecidableEq

structure AttemptBudget where
  targetLimit : Option Nat
  targetsConsumed : Nat
  assetsRemaining : Option Nat
  deriving DecidableEq

structure AttemptAccounting where
  targetConsumed : Bool
  assetsAttempted : Nat
  providerGuardObserved : Bool
  candidateMaterialized : Bool
  deriving DecidableEq

structure HistoryMaterializationAttemptReceipt where
  generatedAt : IsoTime
  origin : ReceiptOrigin
  index : Nat
  target : HistoryMaterializationTarget
  budgetBefore : AttemptBudget
  accounting : AttemptAccounting
  status : MaterializationStatus
  deriving DecidableEq

inductive PostEligibilityExclusion
  | duplicateAssetFamilies | targetBudget | assetBudget | providerGuard
  deriving DecidableEq

def PostEligibilityExclusion.all : List PostEligibilityExclusion :=
  [.duplicateAssetFamilies, .targetBudget, .assetBudget, .providerGuard]

/-- `HistoryMaterializationCandidateFunnel`. -/
structure CandidateFunnel where
  discovered : Nat := 0
  preEligibilityExclusions : PreEligibilityExclusion → Nat := fun _ => 0
  eligible : Nat := 0
  postEligibilityExclusions : PostEligibilityExclusion → Nat := fun _ => 0
  selected : Nat := 0

/-- `result.metrics`. -/
structure HistoryMetrics where
  conversations : Nat
  materialized : Nat
  duplicateAliases : Nat := 0
  skipped : Nat
  failed : Nat
  eligibleCandidates : Option Nat := none
  selectedCandidates : Option Nat := none
  materializedCandidates : Option Nat := none
  candidateFunnel : Option CandidateFunnel := none

structure SelectedFrontier where
  attemptedConversationIds : List String
  unattemptedConversationIds : List String
  targetLimit : Nat
  targetsConsumed : Nat
  assetsRemaining : Nat

structure HistoryMaterializationResult where
  generatedAt : IsoTime
  status : MaterializationStatus
  target : Option HistoryMaterializationTarget
  entries : List HistoryMaterializationManifestEntry
  attempts : List HistoryMaterializationAttemptReceipt := []
  selectedFrontier : Option SelectedFrontier := none
  metrics : HistoryMetrics

/-- A job with the request and the source it was created from. -/
abbrev HistoryJob := MaterializationJob AcceptedRequest HistoryMaterializationResult Unit

def summarizeEntries (entries : List HistoryMaterializationManifestEntry) (conversations : Nat) : HistoryMetrics :=
  let count (status : ManifestEntryStatus) := (entries.filter (·.status = status)).length
  { conversations, materialized := count .materialized, duplicateAliases := count .duplicate
    skipped := count .skipped, failed := count .failed }

def resolveHistoryMaterializationResultStatus (metrics : HistoryMetrics) : MaterializationStatus :=
  if 0 < metrics.materialized then .materialized else if 0 < metrics.failed then .failed else .skipped

/-! ## What an attempt counts for -/

def isConversationNotFoundOrUnavailableReason (reason : Option String) : Bool :=
  reason.any fun reason => "conversation-not-found-or-unavailable:".toList.isPrefixOf reason.toList

def isTerminalConversationUnavailableResult (result : HistoryMaterializationResult) : Bool :=
  result.metrics.materialized = 0 && result.entries.any (isConversationNotFoundOrUnavailableReason ·.reason)

def consumesReconciliationTargetBudget (result : HistoryMaterializationResult) : Bool :=
  !isTerminalConversationUnavailableResult result

/-- `/rate limit|requests too quickly|cooldown active|provider guard/i`. -/
def historyMaterializationResultHasProviderGuard (result : HistoryMaterializationResult) : Bool :=
  result.entries.any fun entry =>
    ["rate limit", "requests too quickly", "cooldown active", "provider guard"].any
      (includes (lowerAscii (entry.reason.getD "")))

def historyEntryIdentifiesConcreteAsset (entry : HistoryMaterializationManifestEntry) : Bool :=
  [entry.providerId, entry.remoteUrl, entry.localPath, entry.materializationMethod, entry.archiveItemId,
    entry.assetRoute].any fun field => (field.filter (· ≠ "")).isSome

def isVerifiedCachedHistoryMaterializationEntry (entry : HistoryMaterializationManifestEntry) : Bool :=
  entry.status = .materialized && entry.materializationMethod = some "cached-provider-file"

def countAttemptedReconciliationAssetBudget (result : HistoryMaterializationResult) : Nat :=
  if isTerminalConversationUnavailableResult result then 0
  else (result.entries.filter fun entry => historyEntryIdentifiesConcreteAsset entry &&
    !isVerifiedCachedHistoryMaterializationEntry entry).length

def accountingOf (result : HistoryMaterializationResult) : AttemptAccounting where
  targetConsumed := consumesReconciliationTargetBudget result
  assetsAttempted := countAttemptedReconciliationAssetBudget result
  providerGuardObserved := historyMaterializationResultHasProviderGuard result
  candidateMaterialized := 0 < result.metrics.materialized

/-! ## Services -/

structure HistoryMaterializationAttempt where
  request : NormalizedRequest
  origin : ReceiptOrigin
  index : Nat
  target : HistoryMaterializationTarget
  excludedAssetFamilySignatures : List String
  budgetBefore : AttemptBudget

/-- The assets of a media generation that the archive has no file of. -/
structure MediaGenerationReconciliationCandidate where
  mediaGenerationId : String
  provider : Provider
  archiveItemId : String
  artifactId : Option String
  uri : Option String
  assetRoute : Option String

structure MediaConversationMatch where
  target : HistoryMaterializationTarget
  matchBasis : String

/-- What is known of the assets before an attempt is made: families that are terminal, entries for the result, and the
conversations of these entries. -/
structure PriorEvidence where
  signatures : List String := []
  entries : List HistoryMaterializationManifestEntry := []
  conversationIds : List String := []

structure ReconciliationServices where
  host : CatalogHost
  readCatalog : Option Provider → Option String → Nat → Except Thrown (List AccountMirrorCatalogEntry)
  /-- what the archive and the results of the jobs tell -/
  readPriorEvidence : NormalizedRequest → List HistoryJob → Except Thrown PriorEvidence
  /-- the result of an attempt, and the time of its receipt -/
  materializeAttempt : HistoryMaterializationAttempt → Except Thrown (HistoryMaterializationResult × IsoTime)
  /-- `buildMediaGenerationReconciliationCandidates`, of at most this many archive items -/
  mediaCandidates : NormalizedRequest → Nat → Except Thrown (List MediaGenerationReconciliationCandidate)
  /-- `matchMediaCandidateToConversation`, or the reason why there is none -/
  matchMediaCandidate : MediaGenerationReconciliationCandidate → Except String MediaConversationMatch
  /-- the entries of `materializeMatchedMediaGeneration` -/
  materializeMedia : MediaGenerationReconciliationCandidate → MediaConversationMatch →
    Except Thrown (List HistoryMaterializationManifestEntry)
  /-- `formatHistoryMaterializationFailureReason` -/
  failureReason : HistoryMaterializationTarget → Thrown → String
  now : IsoTime

/-! ## The order of candidates -/

/-- `historyMaterializationJobSharesRetryLane`. -/
def sharesRetryLane (job : HistoryJob) (request : NormalizedRequest) : Bool :=
  let earlier := job.request.request
  job.request.source.type = .reconciliation && !isActiveStatus job.status && earlier.provider = request.provider &&
    earlier.runtimeProfile = request.runtimeProfile && earlier.browserProfile = request.browserProfile &&
    earlier.boundIdentityKey = request.boundIdentityKey &&
    earlier.selectedKinds.length = request.selectedKinds.length &&
    earlier.selectedKinds.all (request.selectedKinds.contains ·)

/-- A skipped attempt of a reconciliation that attempted no asset, materialized nothing and met no guard. -/
def isRetry (attempt : HistoryMaterializationAttemptReceipt) : Bool :=
  (attempt.origin = .reconciliationCandidate || attempt.origin = .selectedConversationId) &&
    attempt.status = .skipped && attempt.accounting.assetsAttempted = 0 && !attempt.accounting.candidateMaterialized &&
      !attempt.accounting.providerGuardObserved

def noteRetry (attemptedAt : String → Option IsoTime) (attempt : HistoryMaterializationAttemptReceipt) :
    String → Option IsoTime :=
  if isRetry attempt && (attemptedAt attempt.target.conversationId).all (·.ms < attempt.generatedAt.ms) then
    Function.update attemptedAt attempt.target.conversationId (some attempt.generatedAt)
  else attemptedAt

def reconciliationRetryAttemptedAtByConversationId (jobs : List HistoryJob) (request : NormalizedRequest) :
    String → Option IsoTime :=
  ((jobs.filter (sharesRetryLane · request)).flatMap fun job => (job.result.map (·.attempts)).getD []).foldl noteRetry
    fun _ => none

/-- Never attempted first, then the one whose last attempt is the oldest, and `tie` among equals. -/
def retryOrder (left right : Option IsoTime) (tie : Bool) : Bool :=
  match left, right with
  | none, some _ => true
  | some _, none => false
  | some left, some right => if left = right then tie else left.ms ≤ right.ms
  | none, none => tie

structure ReconciliationCandidate where
  target : HistoryMaterializationTarget
  assetFamilySignatures : List String
  priority : Nat
  sequence : Nat

def ReconciliationCandidate.le (left right : ReconciliationCandidate) : Bool :=
  left.priority < right.priority || (left.priority = right.priority && left.sequence ≤ right.sequence)

/-- `orderedSelectionCandidates`. -/
def orderCandidates (retryAttemptedAt : String → Option IsoTime) (candidates : List ReconciliationCandidate) :
    List ReconciliationCandidate :=
  candidates.insertionSort fun left right =>
    retryOrder (retryAttemptedAt left.target.conversationId) (retryAttemptedAt right.target.conversationId)
      (left.le right)

/-- `orderedConversationIds`. -/
def orderConversationIds (retryAttemptedAt : String → Option IsoTime) (conversationIds : List String) : List String :=
  conversationIds.insertionSort fun left right => retryOrder (retryAttemptedAt left) (retryAttemptedAt right) true

/-! ## Discovery -/

def CandidateFunnel.excludeEarly (funnel : CandidateFunnel) (reason : PreEligibilityExclusion) (n : Nat) :
    CandidateFunnel :=
  { funnel with preEligibilityExclusions := Tally.add funnel.preEligibilityExclusions reason n }

def CandidateFunnel.excludeLate (funnel : CandidateFunnel) (reason : PostEligibilityExclusion) (n : Nat) :
    CandidateFunnel :=
  { funnel with postEligibilityExclusions := Tally.add funnel.postEligibilityExclusions reason n }

/-- Every family of a conversation that has families has been attempted. -/
def areTerminal (assetFamilySignatures attempted : List String) : Bool :=
  !assetFamilySignatures.isEmpty && assetFamilySignatures.all (attempted.contains ·)

section Discovery

variable (host : CatalogHost) (request : NormalizedRequest) (entries : List AccountMirrorCatalogEntry)

def targetFromCatalogConversation (entry : AccountMirrorCatalogEntry) (item : Json) (conversationId : String) :
    Option HistoryMaterializationTarget :=
  (normalizeProviderConversationTargetFields host.toHistoryHost entry.provider (some conversationId)
    (readRecordString host.numbers item conversationUrlFields)).map fun (conversationId, url) =>
    { provider := entry.provider, runtimeProfile := some entry.runtimeProfileId
      browserProfile := entry.browserProfileId, boundIdentityKey := entry.boundIdentityKey, conversationId
      providerConversationUrl := url <|> resolveProviderConversationUrl entry.provider conversationId
      projectId := readRecordString host.numbers item ["projectId"] }

/-- The candidate that a conversation of a matching entry is, up to its place, or the reason why it is none. -/
def considerConversation (entry : AccountMirrorCatalogEntry) (item : Json) :
    Except (Option PreEligibilityExclusion) (Nat → ReconciliationCandidate) :=
  match readConversationId host.numbers item with
  | none => .error (some .missingConversationId)
  | some conversationId =>
    let assetFamilySignatures := catalogEntriesConversationAssetFamilySignatures host entries conversationId
      request.selectedKinds entry.provider request.boundIdentityKey
    let classification := classifyCatalogConversationMaterialization host item request.selectedKinds entry.provider
      conversationId entry.manifests ⟨request.force, request.refreshSnapshot⟩
    match classification.priority with
    | none => .error classification.exclusionReason
    | some priority =>
      match targetFromCatalogConversation host entry item conversationId with
      | none => .error (some .missingTarget)
      | some target => .ok fun sequence => ⟨target, assetFamilySignatures, priority, sequence⟩

/-- `candidateFunnel` and `candidates`. -/
structure CandidateDiscovery where
  funnel : Option CandidateFunnel
  candidates : List ReconciliationCandidate

def discoverConversation (entry : AccountMirrorCatalogEntry) (found : CandidateDiscovery) (item : Json) :
    CandidateDiscovery :=
  let counted := found.funnel.map fun funnel => { funnel with discovered := funnel.discovered + 1 }
  match considerConversation host request entries entry item with
  | .error (some reason) => { found with funnel := counted.map (·.excludeEarly reason 1) }
  | .error none => { found with funnel := counted }
  | .ok candidate => ⟨counted, found.candidates ++ [candidate found.candidates.length]⟩

def discoverEntry (found : CandidateDiscovery) (entry : AccountMirrorCatalogEntry) : CandidateDiscovery :=
  if catalogEntryMatchesBoundIdentity host entry request.boundIdentityKey then
    entry.manifests.conversations.foldl (discoverConversation host request entries entry) found
  else
    let n := entry.manifests.conversations.length
    { found with funnel := found.funnel.map fun funnel =>
        { funnel.excludeEarly .identityMismatch n with discovered := funnel.discovered + n } }

/-- The candidates, by priority. -/
def discoverCandidates : CandidateDiscovery :=
  let found := entries.foldl (discoverEntry host request entries)
    ⟨if request.conversationIds = [] then some {} else none, []⟩
  { found with candidates := found.candidates.insertionSort fun left right => left.le right }

/-- `selectionCandidates`: the candidates without those whose families are terminal. -/
def selectCandidates (attempted : List String) (found : CandidateDiscovery) : CandidateDiscovery :=
  let selection := found.candidates.filter fun candidate => !areTerminal candidate.assetFamilySignatures attempted
  { funnel := found.funnel.map fun funnel =>
      { funnel.excludeEarly .terminalAssetFamilies (found.candidates.length - selection.length) with
        eligible := funnel.eligible + selection.length }
    candidates := selection }

/-- The conversations of the catalog whose assets are complete count as attempted. -/
def completeAssetFamilySignatures : List String :=
  let matching := entries.filter (catalogEntryMatchesBoundIdentity host · request.boundIdentityKey)
  matching.flatMap fun entry =>
    entry.manifests.conversations.flatMap fun item =>
      match readConversationId host.numbers item with
      | none => []
      | some conversationId =>
        if catalogConversationHasCompleteSelectedAssets host item &&
            (request.conversationIds = [] || request.conversationIds.contains conversationId) then
          catalogEntriesConversationAssetFamilySignatures host entries conversationId request.selectedKinds
            entry.provider request.boundIdentityKey
        else []

/-- `selectedCatalogTargets` and `selectedCatalogAssetFamilySignatures` of a conversation. -/
def selectedCatalogTarget (conversationId : String) : Option (HistoryMaterializationTarget × List String) :=
  let matching := entries.filter (catalogEntryMatchesBoundIdentity host · request.boundIdentityKey)
  matching.findSome? fun entry =>
    entry.manifests.conversations.findSome? fun item =>
      if readConversationId host.numbers item = some conversationId then
        (targetFromCatalogConversation host entry item conversationId).map fun target =>
          (target, catalogEntriesConversationAssetFamilySignatures host entries conversationId request.selectedKinds
            entry.provider request.boundIdentityKey)
      else none

end Discovery

end AuraCall.Materialization
