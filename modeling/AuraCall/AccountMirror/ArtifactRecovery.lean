import AuraCall.AccountMirror.StatusEntries
import Mathlib.Data.Finset.Card
import Mathlib.Data.Fintype.Card

/-!
# Planning the recovery of artifacts

The planner takes from the number of assets that are known to be missing those that some evidence classifies: catalog
rows that are unsupported or no assets, and attempts of jobs that found a duplicate, failed or found the asset
unavailable. What is left is the number of missing assets that can be retrieved. The evidence is counted row by row and
attempt by attempt, without the identities of the assets (`plan_counts_assets`).
-/

namespace AuraCall.ArtifactRecovery

open AccountMirror

/-! ## Counts -/

inductive AssetKindField | artifacts | files | media
  deriving DecidableEq

/-- Counts of each family. The total is their sum. -/
abbrev AssetCounts := AssetKindField → Nat

def AssetCounts.total (counts : AssetCounts) : Nat := counts .artifacts + counts .files + counts .media

def zeroAssetCountsWithTotal : AssetCounts := fun _ => 0

def incrementAssetCount (counts : AssetCounts) (field : AssetKindField) : AssetCounts :=
  Function.update counts field (counts field + 1)

/-- The numbers of an inventory. -/
abbrev AssetNumbers := AssetKindField → ℚ

/-- `Math.max(0, Math.floor(value))`, of each number. -/
def totalAssetCounts (value : AssetNumbers) : AssetCounts := fun field => ⌊value field⌋.toNat

def AssetCounts.numbers (counts : AssetCounts) : AssetNumbers := fun field => counts field

def sumAssetCounts (value : AssetNumbers) : Nat := (totalAssetCounts value).total

def maxAssetCounts (left right : AssetNumbers) : AssetCounts := fun field =>
  max (totalAssetCounts left field) (totalAssetCounts right field)

def subtractAssetCounts (left right : AssetNumbers) : AssetCounts := fun field =>
  totalAssetCounts left field - totalAssetCounts right field

def addAssetCounts (left right : AssetCounts) : AssetCounts := fun field => left field + right field

/-! ## What the planner reads -/

inductive AssetInventoryState | observed | complete | inProgress | deferred | unknown
  deriving DecidableEq

structure AssetInventory where
  state : AssetInventoryState
  /-- `detailScannedThisPass.conversations` -/
  scannedConversations : ℚ
  localMaterialized : AssetNumbers
  remoteKnownMissingLocal : AssetNumbers
  unknownOrDeferred : AssetNumbers

structure RecoveryEntry extends StatusEntry where
  tenantKey : Option String
  bindingKey : String
  expectedIdentityKey : Option String
  detectedIdentityKey : Option String
  /-- `mirrorCompleteness.assetInventory ?? metadataEvidence?.assetInventory` -/
  assetInventory : Option AssetInventory

structure SearchProjectionRow where
  source : String
  sourceKind : String
  kind : String
  provider : Option String
  runtimeProfileId : Option String
  tenant : Option String
  itemId : Option String
  /-- `links.catalogItem` -/
  catalogItem : Option String
  metadata : JsonRecord

inductive EntryKind | artifact | file | media
  deriving DecidableEq

inductive EntryOutcome | materialized | duplicate | skipped | failed
  deriving DecidableEq

inductive FailureKind | providerUnavailable | retrievalFailed
  deriving DecidableEq

inductive AssetAvailability | available | unavailable | unknown
  deriving DecidableEq

structure ManifestEntry where
  kind : EntryKind
  providerId : Option String
  status : EntryOutcome
  failureKind : Option FailureKind
  assetAvailability : Option AssetAvailability

structure JobTarget where
  provider : Option String
  runtimeProfile : Option String
  boundIdentityKey : Option String

structure JobResult where
  target : Option JobTarget
  entries : List ManifestEntry

structure HistoryMaterializationJob where
  request : JobTarget
  /-- `source.provider`, where the source is a reconciliation -/
  reconciledProvider : Option String
  result : Option JobResult

structure PlanRequest where
  provider : Option String
  runtimeProfileId : Option String
  tenantKey : Option String

/-! ## Keys -/

/-- What `^service-account:[^:]+:(.+)$` finds. -/
def serviceAccountMatch (text : List Char) : Option (List Char) :=
  let scheme := "service-account:".toList
  if scheme.isPrefixOf text then
    match (text.drop scheme.length).span (· ≠ ':') with
    | (_ :: _, ':' :: account) =>
      let lineTerminators := ['\n', '\r', Char.ofNat 0x2028, Char.ofNat 0x2029]
      if account ≠ [] ∧ account.all (fun c => !lineTerminators.contains c) = true then some account else none
    | _ => none
  else none

def normalizeTenantKey (value : Option String) : String :=
  let trimmed := trim (value.getD "")
  (((serviceAccountMatch trimmed.toList).map fun account => trim (String.ofList account)).filter (· ≠ "")).getD trimmed

def materializedOverlayKey (provider runtimeProfileId tenantKey : Option String) : String :=
  "\n".intercalate [provider.getD "", runtimeProfileId.getD "", normalizeTenantKey tenantKey]

def RecoveryEntry.key (entry : RecoveryEntry) : String :=
  materializedOverlayKey (some entry.provider.text) (some entry.runtimeProfileId)
    (entry.tenantKey <|> entry.expectedIdentityKey <|> entry.detectedIdentityKey)

/-- `Boolean(value)`. -/
def given (value : Option String) : Bool := value.any (· ≠ "")

/-! ## Classification -/

structure ClassificationCounts where
  duplicateAliases : AssetCounts := zeroAssetCountsWithTotal
  unsupportedMetadataOnly : AssetCounts := zeroAssetCountsWithTotal
  staticFalsePositive : AssetCounts := zeroAssetCountsWithTotal
  retrievalFailed : AssetCounts := zeroAssetCountsWithTotal
  failedTerminal : AssetCounts := zeroAssetCountsWithTotal

abbrev ClassificationOverlay := String → Option ClassificationCounts

/-- `getRecoveryClassificationCounts`, with a change of the counts. -/
def changeCounts (overlay : ClassificationOverlay) (key : String)
    (change : ClassificationCounts → ClassificationCounts) : ClassificationOverlay :=
  Function.update overlay key (some (change ((overlay key).getD {})))

def rowField (row : SearchProjectionRow) : Option AssetKindField :=
  if row.kind = "upload" ∨ row.sourceKind = "files" then some .files
  else if row.kind = "artifact" ∨ row.sourceKind = "artifacts" then some .artifacts
  else if row.kind = "media" ∨ row.sourceKind = "media" then some .media
  else none

def readMaterializationEligibilityState (row : SearchProjectionRow) : Option String :=
  ((((row.metadata.record? "raw").bind (·.record? "metadata")).bind (·.record? "materializationEligibility")).bind
    (·.string? "state")).bind fun state => if trim state = "" then none else some (trim state)

/-- What a piece of evidence says of an asset. -/
inductive Mark | duplicateAlias | unsupportedMetadataOnly | staticFalsePositive | retrievalFailed | failedTerminal
  deriving DecidableEq

def rowMark (row : SearchProjectionRow) : Option Mark :=
  match readMaterializationEligibilityState row with
  | some "unsupported_conversation_file" | some "unsupported_account_library_asset" => some .unsupportedMetadataOnly
  | some "static_image_false_positive" => some .staticFalsePositive
  | _ => none

def entryField (entry : ManifestEntry) : AssetKindField :=
  match entry.kind with
  | .file => .files
  | .artifact => .artifacts
  | .media => .media

def entryMark (entry : ManifestEntry) : Option Mark :=
  if entry.status = .duplicate then some .duplicateAlias
  else if entry.status = .failed ∨ entry.status = .skipped then
    if entry.failureKind = some .retrievalFailed then some .retrievalFailed
    else if entry.failureKind = some .providerUnavailable ∨ entry.assetAvailability = some .unavailable then
      -- Only explicit provider unavailability can make a historical failure terminal.
      some .failedTerminal
    else none
  else none

def ClassificationCounts.increment (counts : ClassificationCounts) (field : AssetKindField) :
    Mark → ClassificationCounts
  | .duplicateAlias => { counts with duplicateAliases := incrementAssetCount counts.duplicateAliases field }
  | .unsupportedMetadataOnly =>
    { counts with unsupportedMetadataOnly := incrementAssetCount counts.unsupportedMetadataOnly field }
  | .staticFalsePositive => { counts with staticFalsePositive := incrementAssetCount counts.staticFalsePositive field }
  | .retrievalFailed => { counts with retrievalFailed := incrementAssetCount counts.retrievalFailed field }
  | .failedTerminal => { counts with failedTerminal := incrementAssetCount counts.failedTerminal field }

def addCatalogClassificationRow (overlay : ClassificationOverlay) (row : SearchProjectionRow) : ClassificationOverlay :=
  if row.source ≠ "account_mirror" then overlay
  else if !given row.provider || !given row.runtimeProfileId || !given row.tenant then overlay
  else
    match rowField row, rowMark row with
    | some field, some mark =>
      changeCounts overlay (materializedOverlayKey row.provider row.runtimeProfileId row.tenant)
        (·.increment field mark)
    | _, _ => overlay

/-- The target of a job, by its request or else by its result. -/
def jobTarget (job : HistoryMaterializationJob) (result : JobResult) : JobTarget where
  provider := job.request.provider <|> result.target.bind (·.provider) <|> job.reconciledProvider
  runtimeProfile := job.request.runtimeProfile <|> result.target.bind (·.runtimeProfile)
  boundIdentityKey := job.request.boundIdentityKey <|> result.target.bind (·.boundIdentityKey)

def requestAdmits (request : PlanRequest) (target : JobTarget) : Bool :=
  !(given request.provider && target.provider != request.provider) &&
    !(given request.runtimeProfileId && target.runtimeProfile != request.runtimeProfileId) &&
      !(given request.tenantKey && normalizeTenantKey target.boundIdentityKey != normalizeTenantKey request.tenantKey)

def addEntryClassification (counts : ClassificationCounts) (entry : ManifestEntry) : ClassificationCounts :=
  match entryMark entry with
  | some mark => counts.increment (entryField entry) mark
  | none => counts

def addHistoryMaterializationClassification (request : PlanRequest) (overlay : ClassificationOverlay)
    (job : HistoryMaterializationJob) : ClassificationOverlay :=
  match job.result with
  | none => overlay
  | some result =>
    let target := jobTarget job result
    if requestAdmits request target then
      changeCounts overlay (materializedOverlayKey target.provider target.runtimeProfile target.boundIdentityKey)
        fun counts => result.entries.foldl addEntryClassification counts
    else overlay

/-- `readRecoveryClassificationOverlay`, of the catalog rows and the terminal jobs. -/
def readRecoveryClassificationOverlay (request : PlanRequest) (catalogRows : List SearchProjectionRow)
    (jobs : List HistoryMaterializationJob) : ClassificationOverlay :=
  jobs.foldl (addHistoryMaterializationClassification request)
    (catalogRows.foldl addCatalogClassificationRow fun _ => none)

/-! ### Capping -/

/-- `takeClassificationCounts`: what is taken, and what remains. -/
def takeClassificationCounts (requested remaining : AssetCounts) : AssetCounts × AssetCounts :=
  (fun field => min (requested field) (remaining field),
    fun field => remaining field - min (requested field) (remaining field))

def capRecoveryClassificationCounts (classification : ClassificationCounts) (remoteKnownMissingLocal : AssetNumbers) :
    ClassificationCounts :=
  let (duplicateAliases, remaining) :=
    takeClassificationCounts classification.duplicateAliases (totalAssetCounts remoteKnownMissingLocal)
  let (staticFalsePositive, remaining) := takeClassificationCounts classification.staticFalsePositive remaining
  let (retrievalFailed, remaining) := takeClassificationCounts classification.retrievalFailed remaining
  let (failedTerminal, remaining) := takeClassificationCounts classification.failedTerminal remaining
  let (unsupportedMetadataOnly, _) := takeClassificationCounts classification.unsupportedMetadataOnly remaining
  { duplicateAliases, unsupportedMetadataOnly, staticFalsePositive, retrievalFailed, failedTerminal }

/-- What is classified, of all kinds. -/
def ClassificationCounts.nonActionable (classification : ClassificationCounts) : AssetCounts :=
  addAssetCounts (addAssetCounts classification.duplicateAliases classification.unsupportedMetadataOnly)
    (addAssetCounts (addAssetCounts classification.staticFalsePositive classification.retrievalFailed)
      classification.failedTerminal)

def classifyRetrievableMissing (remoteKnownMissingLocal : AssetNumbers) (classification : ClassificationCounts) :
    AssetCounts :=
  subtractAssetCounts remoteKnownMissingLocal classification.nonActionable.numbers

/-! ## What is stored -/

def normalizeString (value : Option String) : Option String := (value.map trim).filter (· ≠ "")

def catalogAssetKey (row : SearchProjectionRow) : Option String :=
  match normalizeString row.catalogItem with
  | none => none
  | some locator =>
    if !given row.provider || !given row.runtimeProfileId || !given row.tenant then none
    else some ((String.singleton (Char.ofNat 0)).intercalate [row.provider.getD "", row.runtimeProfileId.getD "",
      normalizeTenantKey row.tenant, row.kind, locator])

abbrev MaterializedOverlay := String → Option AssetCounts

def archiveField (row : SearchProjectionRow) : Option AssetKindField :=
  if row.kind = "artifact" then some .artifacts else if row.kind = "upload" then some .files else none

def addMaterializedArchiveRow (overlay : MaterializedOverlay) (row : SearchProjectionRow) (field : AssetKindField) :
    MaterializedOverlay :=
  let key := materializedOverlayKey row.provider row.runtimeProfileId row.tenant
  Function.update overlay key
    (some (incrementAssetCount ((overlay key).getD zeroAssetCountsWithTotal) field))

/-- `readMaterializedArchiveOverlay`: an asset that the catalog still has is counted once. -/
def readMaterializedArchiveOverlay (archiveRows catalogRows : List SearchProjectionRow) : MaterializedOverlay :=
  let currentItems := (catalogRows.filter (·.source = "account_mirror")).filterMap catalogAssetKey
  let counted := archiveRows.foldl (fun (overlay, countedItems) row =>
    match catalogAssetKey row, archiveField row with
    | some key, some field =>
      if row.source ≠ "run_archive" ∨ key ∉ currentItems ∨ key ∈ countedItems then (overlay, countedItems)
      else (addMaterializedArchiveRow overlay row field, key :: countedItems)
    | _, _ => (overlay, countedItems)) ((fun _ => none : MaterializedOverlay), ([] : List String))
  counted.1

def applyMaterializedOverlay (entry : RecoveryEntry) (inventory : AssetInventory) (overlay : MaterializedOverlay) :
    AssetInventory :=
  match overlay entry.key with
  | none => inventory
  | some overlayCounts =>
    if overlayCounts.total = 0 then inventory
    else
      let localMaterialized := maxAssetCounts inventory.localMaterialized overlayCounts.numbers
      let localDelta := subtractAssetCounts localMaterialized.numbers inventory.localMaterialized
      let remoteKnownMissingLocal := subtractAssetCounts inventory.remoteKnownMissingLocal localDelta.numbers
      { inventory with
        state :=
          if remoteKnownMissingLocal.total > 0 ∨ sumAssetCounts inventory.unknownOrDeferred > 0 then inventory.state
          else .complete
        localMaterialized := localMaterialized.numbers
        remoteKnownMissingLocal := remoteKnownMissingLocal.numbers }

/-! ## Candidates -/

inductive CandidateStatus | eligible | needsDetailRefresh | deferred | blocked | unsupported | terminal
  deriving DecidableEq

inductive CandidateAction
  | queueHistoryMaterialization | refreshDetailInventory | startMaterializationPolicyCompletion
  | inspectArchiveMaterialization | none
  deriving DecidableEq

inductive EvidenceConfidence | high | medium | low

structure CandidateCounts where
  remoteKnownMissingLocal : AssetCounts
  retrievableMissingLocal : AssetCounts
  localMaterialized : AssetCounts
  unknownOrDeferred : AssetCounts
  classification : ClassificationCounts

structure RecoveryCreateRequest where
  provider : Provider
  runtimeProfile : String
  boundIdentityKey : Option String
  refreshSnapshot : Bool
  /-- no kind at all is `all` -/
  assetKinds : List AssetKindField
  maxItems : Nat

structure RecoveryCandidate where
  id : String
  provider : Provider
  tenantKey : Option String
  bindingKey : String
  runtimeProfileId : String
  browserProfileId : Option String
  status : CandidateStatus
  action : CandidateAction
  reason : String
  evidenceConfidence : EvidenceConfidence
  materializationPolicy : Option MaterializationPolicy
  assetInventory : Option AssetInventory
  counts : CandidateCounts
  createRequest : Option RecoveryCreateRequest

def recoveryCreateRequestAssetKinds (retrievable unknown : AssetCounts) : List AssetKindField :=
  let source := if retrievable.total > 0 then retrievable else unknown
  [.artifacts, .files, .media].filter fun field => source field > 0

def recoveryConfidence (inventory : AssetInventory) : EvidenceConfidence :=
  if inventory.scannedConversations > 0 then .high
  else if inventory.state = .observed ∨ inventory.state = .complete then .medium
  else .low

def classificationOnlyStatus (classification : ClassificationCounts) : CandidateStatus :=
  if classification.retrievalFailed.total > 0 then .blocked
  else if classification.failedTerminal.total > 0 then .terminal
  else if classification.unsupportedMetadataOnly.total > 0 ∨ classification.staticFalsePositive.total > 0 then
    .unsupported
  else .terminal

section Candidates

variable (entry : RecoveryEntry)

def createStatusCandidate (inventory : Option AssetInventory) (classification : ClassificationCounts)
    (retrievableMissingLocal : Option AssetCounts) (status : CandidateStatus) (action : CandidateAction)
    (reason : String) (confidence : EvidenceConfidence) : RecoveryCandidate :=
  let counted (numbers : AssetInventory → AssetNumbers) : AssetCounts :=
    (inventory.map fun inventory => totalAssetCounts (numbers inventory)).getD zeroAssetCountsWithTotal
  let remote := counted (·.remoteKnownMissingLocal)
  let retrievable := retrievableMissingLocal.getD remote
  let unknown := counted (·.unknownOrDeferred)
  { id := "status:" ++ entry.provider.text ++ ":" ++ entry.runtimeProfileId ++ ":" ++
      entry.tenantKey.getD entry.bindingKey
    provider := entry.provider, tenantKey := entry.tenantKey, bindingKey := entry.bindingKey
    runtimeProfileId := entry.runtimeProfileId, browserProfileId := entry.browserProfileId
    status, action, reason, evidenceConfidence := confidence
    materializationPolicy := entry.liveFollow.materializationPolicy, assetInventory := inventory
    counts :=
      { remoteKnownMissingLocal := remote, retrievableMissingLocal := retrievable
        localMaterialized := counted (·.localMaterialized), unknownOrDeferred := unknown, classification }
    createRequest :=
      if action = .queueHistoryMaterialization ∨ action = .refreshDetailInventory then
        some
          { provider := entry.provider, runtimeProfile := entry.runtimeProfileId
            boundIdentityKey := entry.expectedIdentityKey, refreshSnapshot := action = .refreshDetailInventory
            assetKinds := recoveryCreateRequestAssetKinds retrievable unknown
            maxItems := max 1 (min 25
              (if retrievable.total ≠ 0 then retrievable.total else if unknown.total ≠ 0 then unknown.total else 1)) }
      else none }

def blockedReason : String :=
  if entry.reason = "" then "Account mirror target is blocked before recovery planning." else entry.reason

/-- `candidateFromStatusEntry`, of an entry with an inventory and what is classified of it. -/
def candidateFromInventory (inventory adjustedInventory : AssetInventory) (classification : ClassificationCounts) :
    List RecoveryCandidate :=
  let retrievableMissingLocal :=
    classifyRetrievableMissing adjustedInventory.remoteKnownMissingLocal classification
  let remoteTotal := retrievableMissingLocal.total
  let unknownTotal := sumAssetCounts adjustedInventory.unknownOrDeferred
  let nonActionableTotal := classification.duplicateAliases.total + classification.unsupportedMetadataOnly.total +
    classification.staticFalsePositive.total + classification.retrievalFailed.total +
      classification.failedTerminal.total
  let candidate := createStatusCandidate entry (some adjustedInventory) classification (some retrievableMissingLocal)
  if remoteTotal = 0 ∧ unknownTotal = 0 ∧ nonActionableTotal = 0 then []
  else if entry.status = .blocked then [candidate .blocked .none (blockedReason entry) .low]
  else if remoteTotal > 0 then
    let action : CandidateAction :=
      match entry.liveFollow.materializationPolicy with
      | some .recentMissingAssets | some .fullMissingAssets => .startMaterializationPolicyCompletion
      | _ => .queueHistoryMaterialization
    let reason :=
      match entry.liveFollow.materializationPolicy with
      | some policy =>
        s!"Target has {remoteTotal} retrievable missing local assets and materialization policy " ++ policy.text ++ "."
      | none =>
        s!"Target has {remoteTotal} retrievable missing local assets; " ++
          "live follow is metadata-only until explicit recovery work is queued."
    [candidate .eligible action reason (recoveryConfidence inventory)]
  else if nonActionableTotal > 0 then
    let failed := classification.retrievalFailed.total
    let reason :=
      if failed > 0 then
        s!"Target has no currently retrievable missing local assets; {failed} rows failed retrieval without " ++
          "provider-confirmed unavailability and require diagnosis before retry."
      else
        s!"Target has no currently retrievable missing local assets; {nonActionableTotal} remaining rows are " ++
          "classified as duplicate, unsupported/static, or provider-confirmed terminal work."
    [candidate (classificationOnlyStatus classification) .none reason (recoveryConfidence inventory)]
  else
    [candidate .needsDetailRefresh .refreshDetailInventory
      (s!"Target has {unknownTotal} unknown or deferred asset counts and needs provider detail inventory " ++
        "before materialization.") .medium]

def candidateFromStatusEntry (materializedOverlay : MaterializedOverlay)
    (classificationOverlay : ClassificationOverlay) : List RecoveryCandidate :=
  match entry.assetInventory with
  | none =>
    if entry.status ≠ .blocked then []
    else [createStatusCandidate entry none {} none .blocked .none (blockedReason entry) .low]
  | some inventory =>
    let adjustedInventory := applyMaterializedOverlay entry inventory materializedOverlay
    let rawClassification := (classificationOverlay entry.key).getD {}
    candidateFromInventory entry inventory adjustedInventory
      (capRecoveryClassificationCounts rawClassification adjustedInventory.remoteKnownMissingLocal)

end Candidates

/-! ## Counting marks -/

@[simp] theorem totalAssetCounts_numbers (counts : AssetCounts) : totalAssetCounts counts.numbers = counts := by
  funext field
  simp [totalAssetCounts, AssetCounts.numbers]

theorem sub_taken (available asked : Nat) : available - min asked available = available - asked := by omega

/-- Asking for more of what is left takes as much as asking for both. -/
theorem min_taken (asked more available : Nat) :
    min asked available + min more (available - asked) = min (asked + more) available := by omega

/-- Capping takes as much as there is. -/
theorem nonActionable_cap (raw : ClassificationCounts) (missing : AssetNumbers) (field : AssetKindField) :
    (capRecoveryClassificationCounts raw missing).nonActionable field =
      min (raw.nonActionable field) (totalAssetCounts missing field) := by
  -- the kinds in the order in which they are taken
  have horder : (raw.nonActionable field) = raw.duplicateAliases field + raw.staticFalsePositive field +
      raw.retrievalFailed field + raw.failedTerminal field + raw.unsupportedMetadataOnly field := by
    unfold ClassificationCounts.nonActionable addAssetCounts
    omega
  rw [horder, ← min_taken, ← min_taken, ← min_taken, ← min_taken]
  unfold capRecoveryClassificationCounts takeClassificationCounts ClassificationCounts.nonActionable addAssetCounts
  dsimp only
  simp only [sub_taken, Nat.sub_sub]
  ac_rfl

theorem nonActionable_increment (counts : ClassificationCounts) (field other : AssetKindField) (mark : Mark) :
    (counts.increment field mark).nonActionable other =
      counts.nonActionable other + if other = field then 1 else 0 := by
  cases mark <;> simp only [ClassificationCounts.increment, ClassificationCounts.nonActionable, addAssetCounts,
    incrementAssetCount, Function.update_apply] <;> split_ifs <;> simp_all <;> omega

theorem changeCounts_getD (overlay : ClassificationOverlay) (key other : String)
    (change : ClassificationCounts → ClassificationCounts) :
    (changeCounts overlay key change other).getD {} =
      if other = key then change ((overlay key).getD {}) else (overlay other).getD {} := by
  unfold changeCounts
  rw [Function.update_apply]
  split <;> rfl

section Marks

variable (key : String) (field : AssetKindField)

/-- The row classifies an asset of the target. -/
def rowClassifies (row : SearchProjectionRow) : Bool :=
  row.source = "account_mirror" && given row.provider && given row.runtimeProfileId && given row.tenant &&
    rowField row = some field && (rowMark row).isSome &&
      materializedOverlayKey row.provider row.runtimeProfileId row.tenant = key

def entryClassifies (entry : ManifestEntry) : Bool := entryField entry = field && (entryMark entry).isSome

/-- The entries of a job for the target. -/
def targetEntries (request : PlanRequest) (job : HistoryMaterializationJob) : List ManifestEntry :=
  match job.result with
  | none => []
  | some result =>
    let target := jobTarget job result
    if requestAdmits request target ∧
        materializedOverlayKey target.provider target.runtimeProfile target.boundIdentityKey = key then
      result.entries
    else []

theorem addCatalogClassificationRow_count (overlay : ClassificationOverlay) (row : SearchProjectionRow) :
    ((addCatalogClassificationRow overlay row key).getD {}).nonActionable field =
      ((overlay key).getD {}).nonActionable field + if rowClassifies key field row then 1 else 0 := by
  unfold addCatalogClassificationRow rowClassifies
  by_cases hs : row.source = "account_mirror"
  · rw [if_neg (not_not.mpr hs)]
    by_cases hg : (!given row.provider || !given row.runtimeProfileId || !given row.tenant) = true
    · rw [if_pos hg]
      simp only [Bool.or_eq_true, Bool.not_eq_true'] at hg
      rcases hg with (hg | hg) | hg <;> simp [hg]
    · rw [if_neg hg]
      simp only [Bool.or_eq_true, Bool.not_eq_true', not_or, Bool.not_eq_false] at hg
      cases hf : rowField row with
      | none => simp
      | some found =>
        cases hm : rowMark row with
        | none => simp
        | some mark =>
          dsimp only
          rw [changeCounts_getD]
          by_cases hk : key = materializedOverlayKey row.provider row.runtimeProfileId row.tenant
          · rw [if_pos hk, nonActionable_increment, ← hk]
            simp [hs, hg, eq_comm]
          · rw [if_neg hk]
            simp [Ne.symm hk]
  · rw [if_pos hs]
    simp [hs]

theorem catalogRows_count (rows : List SearchProjectionRow) : ∀ overlay : ClassificationOverlay,
    ((rows.foldl addCatalogClassificationRow overlay key).getD {}).nonActionable field =
      ((overlay key).getD {}).nonActionable field + (rows.filter (rowClassifies key field)).length := by
  induction rows with
  | nil => exact fun _ => rfl
  | cons row rows ih =>
    intro overlay
    rw [List.foldl_cons, ih, addCatalogClassificationRow_count, List.filter_cons]
    by_cases h : rowClassifies key field row
    · rw [if_pos h, if_pos h, List.length_cons]
      omega
    · rw [if_neg h, if_neg h, Nat.add_zero]

theorem entries_count (entries : List ManifestEntry) : ∀ counts : ClassificationCounts,
    (entries.foldl addEntryClassification counts).nonActionable field =
      counts.nonActionable field + (entries.filter (entryClassifies field)).length := by
  induction entries with
  | nil => exact fun _ => rfl
  | cons entry entries ih =>
    intro counts
    have hone : (addEntryClassification counts entry).nonActionable field =
        counts.nonActionable field + if entryClassifies field entry then 1 else 0 := by
      unfold addEntryClassification entryClassifies
      cases entryMark entry with
      | none => simp
      | some mark =>
        rw [nonActionable_increment]
        simp [eq_comm]
    rw [List.foldl_cons, ih, hone, List.filter_cons]
    by_cases h : entryClassifies field entry
    · rw [if_pos h, if_pos h, List.length_cons]
      omega
    · rw [if_neg h, if_neg h, Nat.add_zero]

theorem job_count (request : PlanRequest) (overlay : ClassificationOverlay) (job : HistoryMaterializationJob) :
    ((addHistoryMaterializationClassification request overlay job key).getD {}).nonActionable field =
      ((overlay key).getD {}).nonActionable field +
        ((targetEntries key request job).filter (entryClassifies field)).length := by
  unfold addHistoryMaterializationClassification targetEntries
  cases job.result with
  | none => rfl
  | some result =>
    dsimp only
    by_cases ha : requestAdmits request (jobTarget job result) = true
    · rw [if_pos ha, changeCounts_getD]
      split
      · rename_i hk
        rw [entries_count, ← hk, if_pos ⟨ha, rfl⟩]
      · rename_i hk
        rw [if_neg fun h => hk h.2.symm]
        rfl
    · rw [if_neg ha, if_neg fun h => ha h.1]
      rfl

theorem jobs_count (request : PlanRequest) (jobs : List HistoryMaterializationJob) :
    ∀ overlay : ClassificationOverlay,
      ((jobs.foldl (addHistoryMaterializationClassification request) overlay key).getD {}).nonActionable field =
        ((overlay key).getD {}).nonActionable field +
          ((jobs.flatMap (targetEntries key request)).filter (entryClassifies field)).length := by
  induction jobs with
  | nil => exact fun _ => rfl
  | cons job jobs ih =>
    intro overlay
    rw [List.foldl_cons, ih, job_count, List.flatMap_cons, List.filter_append, List.length_append]
    omega

section Assets

variable {α : Type} (assetOfRow : SearchProjectionRow → α) (assetOfEntry : ManifestEntry → α)

/-- The assets of a family that the evidence of a target classifies, once for each piece of evidence. -/
def marked (request : PlanRequest) (catalogRows : List SearchProjectionRow) (jobs : List HistoryMaterializationJob) :
    List α :=
  (catalogRows.filter (rowClassifies key field)).map assetOfRow ++
    ((jobs.flatMap (targetEntries key request)).filter (entryClassifies field)).map assetOfEntry

/-- **What is classified is the number of the pieces of evidence.** -/
theorem nonActionable_eq_length_marked (request : PlanRequest) (catalogRows : List SearchProjectionRow)
    (jobs : List HistoryMaterializationJob) :
    ((readRecoveryClassificationOverlay request catalogRows jobs key).getD {}).nonActionable field =
      (marked key field assetOfRow assetOfEntry request catalogRows jobs).length := by
  unfold readRecoveryClassificationOverlay marked
  rw [jobs_count, catalogRows_count, List.length_append, List.length_map, List.length_map]
  exact congrArg (· + _) (Nat.zero_add _)

end Assets

end Marks

/-! ## Counting assets -/

/-- Taking away the number of marks leaves enough for the assets without one, only if all assets are marked or the marks
are one each of different assets. -/
theorem unmarked_le_iff {α : Type} [DecidableEq α] (s : Finset α) (marks : List α) :
    (s.filter (· ∉ marks)).card ≤ s.card - min marks.length s.card ↔
      (∀ a ∈ s, a ∈ marks) ∨ (marks.Nodup ∧ ∀ a ∈ marks, a ∈ s) := by
  have hsplit : (s.filter (· ∈ marks)).card + (s.filter (· ∉ marks)).card = s.card :=
    Finset.card_filter_add_card_filter_not (s := s) (· ∈ marks)
  have hsub : s.filter (· ∈ marks) ⊆ marks.toFinset := fun a ha => by
    rw [List.mem_toFinset]
    exact (Finset.mem_filter.mp ha).2
  have hle := Finset.card_le_card hsub
  have hlen := marks.toFinset_card_le
  constructor
  · intro h
    by_cases hall : ∀ a ∈ s, a ∈ marks
    · exact .inl hall
    push Not at hall
    obtain ⟨a, ha, hnot⟩ := hall
    have hpos : 0 < (s.filter (· ∉ marks)).card := Finset.card_pos.mpr ⟨a, Finset.mem_filter.mpr ⟨ha, hnot⟩⟩
    have hcard : marks.toFinset.card = marks.length := by omega
    have heq : s.filter (· ∈ marks) = marks.toFinset := Finset.eq_of_subset_of_card_le hsub (by omega)
    refine .inr ⟨Multiset.toFinset_card_eq_card_iff_nodup.mp hcard, fun b hb => ?_⟩
    have : b ∈ s.filter (· ∈ marks) := heq ▸ List.mem_toFinset.mpr hb
    exact (Finset.mem_filter.mp this).1
  · rintro (hall | ⟨hnodup, hmem⟩)
    · rw [Finset.filter_false_of_mem fun a ha => not_not.mpr (hall a ha)]
      exact Nat.zero_le _
    · have heq : s.filter (· ∈ marks) = marks.toFinset :=
        hsub.antisymm fun a ha => Finset.mem_filter.mpr ⟨hmem a (List.mem_toFinset.mp ha), List.mem_toFinset.mp ha⟩
      rw [heq, List.toFinset_card_of_nodup hnodup] at hsplit
      omega

/-- What the candidate of a target says, if there is one. -/
def retrievableOf (candidates : List RecoveryCandidate) : AssetCounts :=
  (candidates.head?.map (·.counts.retrievableMissingLocal)).getD zeroAssetCountsWithTotal

def classifiedOf (candidates : List RecoveryCandidate) : AssetCounts :=
  (candidates.head?.map (·.counts.classification.nonActionable)).getD zeroAssetCountsWithTotal

/-- Every candidate has the counts, and without one there is nothing to count. -/
theorem candidateFromInventory_counts (entry : RecoveryEntry) (inventory adjusted : AssetInventory)
    (classification : ClassificationCounts) :
    retrievableOf (candidateFromInventory entry inventory adjusted classification) =
        classifyRetrievableMissing adjusted.remoteKnownMissingLocal classification ∧
      classifiedOf (candidateFromInventory entry inventory adjusted classification) = classification.nonActionable := by
  unfold candidateFromInventory
  dsimp only
  split
  · rename_i hnone
    obtain ⟨hretrievable, -, hclassified⟩ := hnone
    unfold AssetCounts.total at hretrievable hclassified
    constructor <;> funext field <;> symm
    · change _ = 0
      cases field <;> omega
    · change _ = 0
      unfold ClassificationCounts.nonActionable addAssetCounts
      cases field <;> omega
  · split
    · exact ⟨rfl, rfl⟩
    · split
      · exact ⟨rfl, rfl⟩
      · split <;> exact ⟨rfl, rfl⟩

/-- How many assets of each family are known to be missing, after what is stored. -/
def knownMissing (entry : RecoveryEntry) (overlay : MaterializedOverlay) : AssetCounts :=
  (entry.assetInventory.map fun inventory =>
    totalAssetCounts (applyMaterializedOverlay entry inventory overlay).remoteKnownMissingLocal).getD
      zeroAssetCountsWithTotal

/-- **The plan counts assets**: what it calls retrievable is at least the number of missing assets that no evidence
classifies, and what it classifies adds up with it to all that are missing. -/
structure CountsAssets {α : Type} [DecidableEq α] (candidates : List RecoveryCandidate)
    (missing : AssetKindField → Finset α) (marked : AssetKindField → List α) : Prop where
  unmarked : ∀ field, ((missing field).filter (· ∉ marked field)).card ≤ retrievableOf candidates field
  addsUp : ∀ field, classifiedOf candidates field + retrievableOf candidates field = (missing field).card

theorem candidateFromStatusEntry_counts (entry : RecoveryEntry) (materialized : MaterializedOverlay)
    (classified : ClassificationOverlay) (field : AssetKindField) :
    let candidates := candidateFromStatusEntry entry materialized classified
    let raw := ((classified entry.key).getD {}).nonActionable field
    let missing := knownMissing entry materialized field
    retrievableOf candidates field = missing - min raw missing ∧ classifiedOf candidates field = min raw missing := by
  dsimp only
  unfold candidateFromStatusEntry knownMissing
  cases hi : entry.assetInventory with
  | none =>
    dsimp only
    split
    · exact ⟨(Nat.zero_sub _).symm, (Nat.min_zero _).symm⟩
    · exact ⟨(Nat.zero_sub _).symm, (Nat.min_zero _).symm⟩
  | some inventory =>
    dsimp only
    rw [(candidateFromInventory_counts ..).1, (candidateFromInventory_counts ..).2]
    refine ⟨?_, nonActionable_cap _ _ field⟩
    unfold classifyRetrievableMissing subtractAssetCounts
    rw [totalAssetCounts_numbers, nonActionable_cap]
    rfl

/-- **When the plan counts assets**: in each family all missing assets are classified, or each piece of evidence is
about another one of them. -/
theorem plan_counts_assets {α : Type} [DecidableEq α] (assetOfRow : SearchProjectionRow → α)
    (assetOfEntry : ManifestEntry → α) (request : PlanRequest) (entry : RecoveryEntry)
    (archiveRows catalogRows : List SearchProjectionRow) (jobs : List HistoryMaterializationJob)
    (missing : AssetKindField → Finset α)
    (hmissing : ∀ field,
      (missing field).card = knownMissing entry (readMaterializedArchiveOverlay archiveRows catalogRows) field) :
    CountsAssets
        (candidateFromStatusEntry entry (readMaterializedArchiveOverlay archiveRows catalogRows)
          (readRecoveryClassificationOverlay request catalogRows jobs))
        missing (fun field => marked entry.key field assetOfRow assetOfEntry request catalogRows jobs) ↔
      ∀ field, (∀ a ∈ missing field, a ∈ marked entry.key field assetOfRow assetOfEntry request catalogRows jobs) ∨
        (marked entry.key field assetOfRow assetOfEntry request catalogRows jobs).Nodup ∧
          ∀ a ∈ marked entry.key field assetOfRow assetOfEntry request catalogRows jobs, a ∈ missing field := by
  have hcounts := candidateFromStatusEntry_counts entry (readMaterializedArchiveOverlay archiveRows catalogRows)
    (readRecoveryClassificationOverlay request catalogRows jobs)
  have hretrievable : ∀ field, retrievableOf (candidateFromStatusEntry entry
      (readMaterializedArchiveOverlay archiveRows catalogRows)
      (readRecoveryClassificationOverlay request catalogRows jobs)) field =
        (missing field).card - min (marked entry.key field assetOfRow assetOfEntry request catalogRows jobs).length
          (missing field).card := fun field => by
    rw [(hcounts field).1, nonActionable_eq_length_marked entry.key field assetOfRow assetOfEntry, ← hmissing]
  constructor
  · intro h field
    exact (unmarked_le_iff _ _).mp (hretrievable field ▸ h.unmarked field)
  · intro h
    refine ⟨fun field => ?_, fun field => ?_⟩
    · rw [hretrievable]
      exact (unmarked_le_iff _ _).mpr (h field)
    · rw [(hcounts field).1, (hcounts field).2, hmissing]
      omega

/-! ## Two missing files -/

def twoFilesMissing : AssetNumbers
  | .files => 2
  | .artifacts | .media => 0

def targetOfUser : RecoveryEntry where
  provider := .chatgpt
  runtimeProfileId := "default"
  browserProfileId := none
  status := .eligible
  reason := "eligible"
  eligibleAt := none
  mirrorCompleteness := ⟨.complete, none⟩
  liveFollow := ⟨.enabled, "liveFollow.enabled is true", none, none, none, none, none, none⟩
  tenantKey := some "user"
  bindingKey := "chatgpt:default"
  expectedIdentityKey := none
  detectedIdentityKey := none
  assetInventory := some
    { state := .observed, scannedConversations := 1, localMaterialized := fun _ => 0
      remoteKnownMissingLocal := twoFilesMissing, unknownOrDeferred := fun _ => 0 }

def failedAttempt (providerId : String) : ManifestEntry :=
  ⟨.file, some providerId, .failed, some .retrievalFailed, none⟩

/-- A job of the user that has attempted some files in vain. -/
def failedJob (providerIds : List String) : HistoryMaterializationJob where
  request := ⟨some "chatgpt", some "default", some "user"⟩
  reconciledProvider := none
  result := some ⟨none, providerIds.map failedAttempt⟩

def anyTarget : PlanRequest := ⟨none, none, none⟩

def missingFiles : AssetKindField → Finset (Option String)
  | .files => {some "f1", some "f2"}
  | .artifacts | .media => ∅

theorem missingFiles_card (field : AssetKindField) :
    (missingFiles field).card = knownMissing targetOfUser (readMaterializedArchiveOverlay [] []) field := by
  cases field <;> rfl

/-- One attempt on one of two files. -/
theorem one_attempt_counts_assets :
    CountsAssets (candidateFromStatusEntry targetOfUser (readMaterializedArchiveOverlay [] [])
        (readRecoveryClassificationOverlay anyTarget [] [failedJob ["f1"]])) missingFiles
      (fun field => marked targetOfUser.key field (·.itemId) (·.providerId) anyTarget [] [failedJob ["f1"]]) := by
  refine (plan_counts_assets (·.itemId) (·.providerId) anyTarget targetOfUser [] [] [failedJob ["f1"]] missingFiles
    missingFiles_card).mpr fun field => .inr ?_
  cases field <;> decide

/-- Two attempts on one of two files hide the other. -/
theorem repeated_attempts_hide_asset :
    ¬∀ (assetOfRow : SearchProjectionRow → Option String) (assetOfEntry : ManifestEntry → Option String)
      (request : PlanRequest) (entry : RecoveryEntry) (archiveRows catalogRows : List SearchProjectionRow)
      (jobs : List HistoryMaterializationJob) (missing : AssetKindField → Finset (Option String)),
      (∀ field,
        (missing field).card = knownMissing entry (readMaterializedArchiveOverlay archiveRows catalogRows) field) →
      CountsAssets
        (candidateFromStatusEntry entry (readMaterializedArchiveOverlay archiveRows catalogRows)
          (readRecoveryClassificationOverlay request catalogRows jobs))
        missing (fun field => marked entry.key field assetOfRow assetOfEntry request catalogRows jobs) := by
  intro h
  have hfiles := (h (·.itemId) (·.providerId) anyTarget targetOfUser [] [] [failedJob ["f1", "f1"]] missingFiles
    missingFiles_card).unmarked .files
  exact absurd hfiles (by decide)

end AuraCall.ArtifactRecovery
