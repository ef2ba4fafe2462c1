import AuraCall.Js.Json

/-!
# Completion operations

The value of a completion operation, as the completion service holds it and its store persists it, and the requests to
start one. Times are texts here: what a store does with a time depends on the text. The results of the refresh service and of the
status registry that an operation carries along are JSON records.
-/

namespace AuraCall.AccountMirror

/-! ## Words -/

inductive Provider | chatgpt | gemini | grok
  deriving DecidableEq

inductive CompletionMode | liveFollow | bounded
  deriving DecidableEq

inductive SweepMode | steadyFollow | fullSweep
  deriving DecidableEq

inductive CompletionPhase | backfillHistory | steadyFollow
  deriving DecidableEq

inductive CompletionStatus | queued | running | idleWaiting | paused | completed | blocked | failed | cancelled
  deriving DecidableEq

inductive MaterializationPolicy | metadataOnly | recentMissingAssets | fullMissingAssets
  deriving DecidableEq

inductive AssetKind | artifacts | files | media | all
  deriving DecidableEq

inductive LifecycleEventType
  | started | parkedForShutdown | resumedAfterRestart | automaticResumeBlocked
  | operatorPaused | operatorResumed | operatorForcedPass | operatorResumeBlocked | operatorCancelled
  | campaignPolicyUpgraded | liveFollowPolicyUpgraded | liveFollowPhaseDecision
  | foregroundWorkDeferred | providerWorkWaiting | providerWorkAcquired | providerWorkReleased
  | providerGuardBackoff | collectorProgress
  | materializationFromCompleteLedger | materializationFailureBlocked
  | accountLibraryCatchupQueued | accountLibraryCatchupSkipped
  deriving DecidableEq

inductive LiveFollowCyclePhase
  | identity | projects | rootConversations | projectConversations | chatgptLibrary | detailInventory
  | mergePersistedCatalog | complete | materialization | accountLibrary
  deriving DecidableEq

inductive LiveFollowCyclePhaseStatus | pending | running | yielded | complete | skipped | blocked
  deriving DecidableEq

inductive AccountLibraryCursorStatus | queued | reused | skipped
  deriving DecidableEq

/-! ## Operations -/

structure LifecycleEvent where
  /-- `at`. -/
  time : String
  type : LifecycleEventType
  status : CompletionStatus
  previousStatus : Option CompletionStatus
  processPid : Nat
  message : String
  deriving DecidableEq

structure InteractionPolicy where
  maxInteractionsPerMinute : ℚ
  conversationReadCooldownMs : ℚ
  pageRefreshCooldownMs : ℚ
  renavigationCooldownMs : ℚ
  deriving DecidableEq

structure MaterializationRequest where
  provider : Provider
  runtimeProfile : String
  conversationIds : Option (List String)
  refreshSnapshot : Bool
  reuseSnapshotAfter : Option String
  reuseSnapshotConversationIds : Option (List String)
  providerWorkNotBefore : Option String
  interactionPolicy : Option InteractionPolicy
  assetKinds : List AssetKind
  maxItems : Option Nat
  force : Bool
  deriving DecidableEq

structure MaterializationCursor where
  jobId : String
  jobStatus : String
  reused : Bool
  requestedAt : String
  providerWorkSettledAt : Option String
  passCount : Nat
  request : MaterializationRequest
  deriving DecidableEq

/-- The request of an account-library job: the fields of `AccountMirrorHistoryMaterializationCreateRequest` that
`decideAccountLibraryCatchup` fills in. -/
structure AccountLibraryRequest where
  provider : Provider
  runtimeProfile : String
  browserProfile : Option String
  boundIdentityKey : Option String
  /-- `assetSource: 'account-library'`, or none. -/
  fromAccountLibrary : Bool
  refreshSnapshot : Bool
  assetKinds : List AssetKind
  maxItems : Option Nat
  providerWorkTimeoutMs : Option Nat
  force : Bool
  deriving DecidableEq

structure AccountLibraryCursor where
  jobId : Option String
  jobStatus : Option String
  reused : Bool
  requestedAt : String
  passCount : Nat
  status : AccountLibraryCursorStatus
  reason : String
  request : Option AccountLibraryRequest
  deriving DecidableEq

structure MaterializationOutcome where
  jobId : String
  jobStatus : String
  completedAt : Option String
  conversationsAttempted : Nat
  eligibleCandidates : Nat
  selectedCandidates : Nat
  materialized : Nat
  skipped : Nat
  failed : Nat
  checksumCount : Nat
  manifestPaths : List String
  terminalRouteabilityCounts : List (String × Nat)
  dispositionCounts : Option (List (String × Nat))
  message : Option String
  deriving DecidableEq

structure LiveFollowCyclePhaseEntry where
  phase : LiveFollowCyclePhase
  status : LiveFollowCyclePhaseStatus
  reason : String
  updatedAt : String
  passCount : Nat
  deriving DecidableEq

structure LiveFollowCycleLedger where
  cycleId : String
  startedAt : String
  updatedAt : String
  currentPhase : LiveFollowCyclePhase
  nextPhase : LiveFollowCyclePhase
  decisionReason : String
  passCount : Nat
  phases : List LiveFollowCyclePhaseEntry
  deriving DecidableEq

structure CompletionError where
  message : String
  code : Option String
  deriving DecidableEq

structure CompletionOperation where
  conversationIds : Option (List String)
  id : String
  provider : Provider
  runtimeProfileId : String
  mode : CompletionMode
  sweepMode : Option SweepMode
  phase : CompletionPhase
  status : CompletionStatus
  startedAt : String
  completedAt : Option String
  nextAttemptAt : Option String
  maxPasses : Option Nat
  passCount : Nat
  lastRefresh : Option JsonRecord
  materializationPolicy : Option MaterializationPolicy
  materializationAssetKinds : Option (List AssetKind)
  materializationMaxItems : Option Nat
  materializationRefreshSnapshot : Option Bool
  materializationForce : Option Bool
  materializationCursor : Option MaterializationCursor
  materializationOutcome : Option MaterializationOutcome
  accountLibraryCursor : Option AccountLibraryCursor
  liveFollowCycle : Option LiveFollowCycleLedger
  forceRunUntilPassCount : Option Nat
  mirrorCompleteness : Option JsonRecord
  error : Option CompletionError
  lifecycleEvents : Option (List LifecycleEvent)

/-! ## What the service asks of an operation -/

def CompletionStatus.isActive : CompletionStatus → Bool
  | queued | running | idleWaiting | paused => true
  | completed | blocked | failed | cancelled => false

/-! ## Requests -/

structure CompletionStartRequest where
  conversationIds : Option (List String)
  provider : Option Provider
  runtimeProfileId : Option String
  /-- `some none` is `null`, `none` is `undefined`. -/
  maxPasses : Option (Option JsNumber)
  sweepMode : Option SweepMode
  materializationPolicy : Option MaterializationPolicy
  materializationAssetKinds : Option (List AssetKind)
  materializationMaxItems : Option JsNumber
  materializationRefreshSnapshot : Option Bool
  materializationForce : Option Bool

/-- `Array.from(new Set(values))`. -/
def distinct {α : Type} [BEq α] (values : List α) : List α := values.eraseDups

/-- `normalizeMaterializationAssetKinds`, of kinds. -/
def normalizeMaterializationAssetKinds (value : Option (List AssetKind)) : List AssetKind :=
  match value with
  | none | some [] => [.all]
  | some kinds => if .all ∈ kinds then [.all] else distinct kinds

end AuraCall.AccountMirror
