import AuraCall.Materialization.HistoryWork

/-!
# Conversations of the catalog

How `materializeReconciliation` reads the account mirror catalog: the asset families of a conversation, and
`classifyCatalogConversationMaterialization`, which gives a conversation a priority or a reason to leave it out.

What makes two identity keys match, and the family of an asset, is left to the host.
-/

namespace AuraCall.Materialization

open AccountMirror (Provider readNumber)

/-! ## The catalog -/

structure CatalogManifests where
  conversations : List Json
  artifacts : List Json := []
  files : List Json := []
  media : List Json := []

structure AccountMirrorCatalogEntry where
  provider : Provider
  runtimeProfileId : String
  browserProfileId : Option String := none
  boundIdentityKey : Option String := none
  manifests : CatalogManifests

/-- `"artifact" | "file" | "media"`. -/
inductive AssetFamilyKind
  | artifact | file | media
  deriving DecidableEq

structure CatalogHost extends HistoryHost where
  cases : CaseTable
  /-- `accountMirrorIdentityKeysMatch` -/
  identityKeysMatch : Provider → String → Option String → Bool
  /-- `catalogManifestAssetFamilySignature` -/
  assetFamilySignature : AssetFamilyKind → Json → Option String

/-! ## Fields -/

/-- `readRecordValue`. -/
def readRecordValue (value : Json) (keys : List String) : Option Json :=
  keys.findSome? ((value.record?.getD []).get ·)

/-- `readNumber` of a field. -/
def readNumberField (value : Json) (key : String) : Option ℚ := (readRecordValue value [key]).bind readNumber

/-- `maxKnownCount`. -/
def maxKnownCount (values : List (Option ℚ)) : ℚ := values.foldl (fun known value => max known (value.getD known)) 0

/-- `isRecord(item.metadata) ? item.metadata : {}`, as a record. -/
def catalogItemMetadata (item : Json) : Json := .object ((itemMetadata item).record?.getD [])

/-- `readConversationFreshnessRecord(record, metadata)`, as a record. -/
def conversationFreshness (item : Json) : Json :=
  let keys := ["conversationFreshness", "freshness"]
  let direct := (readRecordValue item keys).filter (·.record?.isSome)
  (direct <|> (readRecordValue (catalogItemMetadata item) keys).filter (·.record?.isSome)).getD .null

/-- `readConversationFreshnessRecord(record, metadata, "assetCounts")`. -/
def freshnessAssetCounts (item : Json) : Json :=
  (readRecordValue (conversationFreshness item) ["assetCounts"]).getD .null

section Fields

variable (numbers : NumberTexts)

/-- A field of the freshness, of the item under another name, or of its metadata. -/
def readFreshnessField (item : Json) (field itemField : String) : Option String :=
  readRecordString numbers (conversationFreshness item) [field] <|>
    readRecordString numbers (catalogItemMetadata item) [field] <|>
      readRecordString numbers item [itemField] <|> readRecordString numbers (catalogItemMetadata item) [itemField]

def readConversationId (item : Json) : Option String := readRecordString numbers item ["id", "conversationId"]

end Fields

/-! ## Asset families -/

def locationFields : List String :=
  ["uri", "remoteUrl", "url", "href", "downloadUrl", "sourceUrl", "cacheKey", "fileId", "providerFileId"]

section Families

variable (host : CatalogHost)

def readMaterializableAssetLocation (item : Json) : Option String :=
  readRecordString host.numbers item locationFields <|> readRecordString host.numbers (itemMetadata item) locationFields

def isStaticChromeImageUrl (value : String) : Bool :=
  let normalized := host.cases.toLowerCase (trim value)
  if normalized = "" then true
  else if ["blob:", "chatgpt://", "sandbox:", "sediment://"].any fun scheme =>
      scheme.toList.isPrefixOf normalized.toList then false
  else (host.parseUrl normalized).any fun parsed =>
    (parsed.hostname = "www.google.com" && parsed.pathname = "/s2/favicons") || includes parsed.pathname "/favicon"

def isUnsupportedChatgptConversationFileManifestItem (item : Json) : Bool :=
  item.record?.isSome &&
    readRecordString host.numbers (itemMetadata item) ["source", "fileSource"] != some "chatgpt-library" &&
    (readMaterializableAssetLocation host item).isNone &&
    (readItemString host.numbers item ["conversationId"] ["conversationId"]).isSome

def isChatgptStaticImageFalsePositiveManifestItem (item : Json) : Bool :=
  let id := (readRecordString host.numbers item ["id", "providerId", "artifactId"]).getD ""
  let extraction := readRecordString host.numbers (itemMetadata item) ["extraction"]
  item.record?.isSome && ("image-dom:".toList.isPrefixOf id.toList || extraction = some "dom-imagegen-image") &&
    (readMaterializableAssetLocation host item).all (isStaticChromeImageUrl host)

def catalogManifestAssetIsEligibleForMaterialization (kind : AssetFamilyKind) (item : Json) (provider : Provider) :
    Bool :=
  provider ≠ .chatgpt ||
    !(kind = .file && isUnsupportedChatgptConversationFileManifestItem host item) &&
      !(kind = .artifact && isChatgptStaticImageFalsePositiveManifestItem host item)

def manifestItemBelongsToConversation (item : Json) (conversationId : String) : Bool :=
  readRecordString host.numbers item ["conversationId"] = some conversationId ||
    readRecordString host.numbers (itemMetadata item) ["conversationId"] = some conversationId

/-- The families of assets that can be materialized. -/
def assetFamiliesOf (kind : AssetFamilyKind) (provider : Provider) (items : List Json) : List String :=
  (items.filter (catalogManifestAssetIsEligibleForMaterialization host kind · provider)).filterMap
    (host.assetFamilySignature kind)

/-- The families of three lists of assets, as far as their kinds are selected. -/
def selectedFamilies (selectedKinds : List HistoryAssetKind) (provider : Provider) (artifacts files media : List Json) :
    List String :=
  (if selectedKinds.contains .artifacts || selectedKinds.contains .media then
    assetFamiliesOf host .artifact provider artifacts else []) ++
  (if selectedKinds.contains .files then assetFamiliesOf host .file provider files else []) ++
  if selectedKinds.contains .media then assetFamiliesOf host .media provider media else []

def catalogConversationAssetFamilySignatures (manifests : CatalogManifests) (conversationId : String)
    (selectedKinds : List HistoryAssetKind) (provider : Provider) : List String :=
  let belonging (items : List Json) := items.filter (manifestItemBelongsToConversation host · conversationId)
  distinct (selectedFamilies host selectedKinds provider (belonging manifests.artifacts) (belonging manifests.files)
    (belonging manifests.media))

/-- `Array.isArray(item[key]) ? item[key] : []`. -/
def itemArray (item : Json) (key : String) : List Json := ((readRecordValue item [key]).bind (·.array?)).getD []

def catalogConversationItemAssetFamilySignatures (item : Json) (selectedKinds : List HistoryAssetKind)
    (provider : Provider) : List String :=
  distinct (selectedFamilies host selectedKinds provider (itemArray item "artifacts") (itemArray item "files")
    (itemArray item "media"))

def catalogEntryMatchesBoundIdentity (entry : AccountMirrorCatalogEntry) (boundIdentityKey : Option String) : Bool :=
  match boundIdentityKey with
  | none => true
  | some key => key = "" || host.identityKeysMatch entry.provider key entry.boundIdentityKey

def catalogEntriesConversationAssetFamilySignatures (entries : List AccountMirrorCatalogEntry)
    (conversationId : String) (selectedKinds : List HistoryAssetKind) (provider : Provider)
    (boundIdentityKey : Option String) : List String :=
  let matching := entries.filter fun entry =>
    entry.provider = provider && catalogEntryMatchesBoundIdentity host entry boundIdentityKey
  distinct (matching.flatMap fun entry =>
    catalogConversationAssetFamilySignatures host entry.manifests conversationId selectedKinds provider ++
      (entry.manifests.conversations.filter (readConversationId host.numbers · = some conversationId)).flatMap
        (catalogConversationItemAssetFamilySignatures host · selectedKinds provider))

end Families

/-! ## Classification -/

inductive PreEligibilityExclusion
  | identityMismatch
  | missingConversationId
  | ignoredProviderRoute
  | terminalConversationEvidence
  | ineligibleSelectedManifest
  | noSelectedAssetEvidence
  | assetsAlreadyComplete
  | missingTarget
  | terminalAssetFamilies
  deriving DecidableEq

def PreEligibilityExclusion.all : List PreEligibilityExclusion :=
  [.identityMismatch, .missingConversationId, .ignoredProviderRoute, .terminalConversationEvidence,
    .ineligibleSelectedManifest, .noSelectedAssetEvidence, .assetsAlreadyComplete, .missingTarget,
    .terminalAssetFamilies]

structure ConversationClassification where
  priority : Option Nat
  exclusionReason : Option PreEligibilityExclusion

/-- `{ artifacts, files, media }`. -/
structure AssetCounts where
  artifacts : Nat
  files : Nat
  media : Nat

/-- The counts of the selected kinds, added up. -/
def AssetCounts.selected (counts : AssetCounts) (selectedKinds : List HistoryAssetKind) : Nat :=
  (if selectedKinds.contains .artifacts then counts.artifacts else 0) +
    (if selectedKinds.contains .files then counts.files else 0) +
      if selectedKinds.contains .media then counts.media else 0

section Classification

variable (host : CatalogHost)

def countManifestAssetsForConversation (manifests : CatalogManifests) (conversationId : String) : AssetCounts :=
  let count (items : List Json) := (items.filter (manifestItemBelongsToConversation host · conversationId)).length
  ⟨count manifests.artifacts, count manifests.files, count manifests.media⟩

def countEligibleManifestAssetsForConversation (manifests : CatalogManifests) (conversationId : String)
    (provider : Provider) : AssetCounts :=
  let count (kind : AssetFamilyKind) (items : List Json) :=
    (items.filter fun item => manifestItemBelongsToConversation host item conversationId &&
      catalogManifestAssetIsEligibleForMaterialization host kind item provider).length
  ⟨count .artifact manifests.artifacts, count .file manifests.files, count .media manifests.media⟩

/-- `/^\/app\/([^/?#]+)$/i`, with an id that is ignored. -/
def isIgnoredGeminiConversationPath (pathname : String) : Bool :=
  (stripWord "/app/" pathname.toList).any fun segment =>
    !segment.isEmpty && !(segment.any fun c => c = '/' || c = '?' || c = '#') &&
      isIgnoredGeminiConversationId (String.ofList segment)

def conversationUrlFields : List String := ["url", "href", "providerConversationUrl"]

def catalogConversationHasIgnoredProviderRoute (provider : Provider) (conversationId : String) (item : Json) : Bool :=
  provider = .gemini &&
    (isIgnoredGeminiConversationId conversationId ||
      ((readItemString host.numbers item conversationUrlFields conversationUrlFields).bind host.parseUrl).any fun
        parsed => parsed.hostname = "gemini.google.com" && isIgnoredGeminiConversationPath parsed.pathname)

def freshnessState (item : Json) : Option String := readFreshnessField host.numbers item "state" "freshnessState"

def assetCompleteness (item : Json) : Option String :=
  readFreshnessField host.numbers item "assetCompleteness" "assetCompleteness"

def catalogConversationHasTerminalEvidence (item : Json) : Bool :=
  let routeabilityState := readFreshnessField host.numbers item "routeabilityState" "routeabilityState"
  [some "terminal_unavailable", some "guarded"].contains (freshnessState host item) ||
    [some "not_found_or_unavailable", some "identity_mismatch", some "guarded"].contains routeabilityState

def catalogConversationAssetsAlreadyComplete (item : Json) : Bool :=
  (freshnessState host item).all (["fresh", "unknown"].contains ·) && assetCompleteness host item = some "complete" &&
    (readNumberField (freshnessAssetCounts item) "missingLocal").all (· ≤ 0)

/-- `catalogConversationHasCompleteSelectedAssets`, which asks for a record. -/
def catalogConversationHasCompleteSelectedAssets (item : Json) : Bool :=
  item.record?.isSome && catalogConversationAssetsAlreadyComplete host item

/-- What is known of the assets of a conversation, besides what has been materialized. -/
def conversationHasSelectedAssets (item : Json) (selectedKinds : List HistoryAssetKind) (manifestCounts : AssetCounts) :
    Bool :=
  let field (key : String) := readNumberField item key
  let metadataField (key : String) := readNumberField (catalogItemMetadata item) key
  let rowArtifactCount := maxKnownCount
    [field "cachedArtifactCount", field "artifactCount", metadataField "artifactCount"]
  let artifactCount := max rowArtifactCount manifestCounts.artifacts
  let fileCount := maxKnownCount
    [field "cachedFileCount", field "fileCount", metadataField "fileCount", some manifestCounts.files]
  let rowMediaCount := maxKnownCount [field "cachedMediaCount", field "mediaCount", metadataField "mediaCount"]
  let mediaCount := max rowMediaCount manifestCounts.media
  (selectedKinds.contains .artifacts && decide (0 < artifactCount)) ||
    (selectedKinds.contains .files && decide (0 < fileCount)) ||
      (selectedKinds.contains .media &&
        if selectedKinds = [.media] then decide (0 < rowMediaCount) || decide (0 < rowArtifactCount)
        else decide (0 < mediaCount) || decide (0 < artifactCount))

/-- `{ force, refreshSnapshot }`. -/
structure ClassificationOptions where
  force : Bool
  refreshSnapshot : Bool

def classifyCatalogConversationMaterialization (item : Json) (selectedKinds : List HistoryAssetKind)
    (provider : Provider) (conversationId : String) (manifests : CatalogManifests) (options : ClassificationOptions) :
    ConversationClassification :=
  if catalogConversationHasIgnoredProviderRoute host provider conversationId item then
    ⟨none, some .ignoredProviderRoute⟩
  else if !options.force && catalogConversationHasTerminalEvidence host item then
    ⟨none, some .terminalConversationEvidence⟩
  else if options.force && options.refreshSnapshot then ⟨some 0, none⟩
  else
    let freshnessState := freshnessState host item
    let manifestCounts := countEligibleManifestAssetsForConversation host manifests conversationId provider
    let rawManifestCounts := countManifestAssetsForConversation host manifests conversationId
    let freshnessKnownCount := (readNumberField (freshnessAssetCounts item) "known").getD 0
    let freshnessMissingLocalCount := (readNumberField (freshnessAssetCounts item) "missingLocal").getD 0
    let hasFreshnessAssetEvidence := decide (0 < freshnessKnownCount) || decide (0 < freshnessMissingLocalCount)
    let refreshOnlyCandidate :=
      options.refreshSnapshot && [some "stale", some "partial", some "missing_assets"].contains freshnessState
    let hasSelectedAssets :=
      conversationHasSelectedAssets item selectedKinds manifestCounts || hasFreshnessAssetEvidence
    let hasMissingLocalAssetEvidence := decide (0 < freshnessMissingLocalCount) ||
      ((assetCompleteness host item = some "partial" || freshnessState = some "missing_assets") &&
        hasFreshnessAssetEvidence)
    if 0 < rawManifestCounts.selected selectedKinds ∧ manifestCounts.selected selectedKinds = 0 then
      ⟨none, some .ineligibleSelectedManifest⟩
    else if !hasSelectedAssets then
      if refreshOnlyCandidate then ⟨some 2, none⟩ else ⟨none, some .noSelectedAssetEvidence⟩
    else if !options.force && catalogConversationAssetsAlreadyComplete host item then
      ⟨none, some .assetsAlreadyComplete⟩
    else if hasMissingLocalAssetEvidence then ⟨some 0, none⟩
    else ⟨some 1, none⟩

/-- A conversation has a priority, or a reason why it has none. -/
theorem classification_cases (item : Json) (selectedKinds : List HistoryAssetKind) (provider : Provider)
    (conversationId : String) (manifests : CatalogManifests) (options : ClassificationOptions) :
    (∃ priority, classifyCatalogConversationMaterialization host item selectedKinds provider conversationId manifests
      options = ⟨some priority, none⟩) ∨
    ∃ reason, classifyCatalogConversationMaterialization host item selectedKinds provider conversationId manifests
      options = ⟨none, some reason⟩ := by
  unfold classifyCatalogConversationMaterialization
  dsimp only
  split_ifs
  all_goals first
    | exact .inr ⟨_, rfl⟩
    | exact .inl ⟨_, rfl⟩

end Classification

end AuraCall.Materialization
