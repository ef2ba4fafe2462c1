import AuraCall.Archive.FileMetadata

/-!
# The items of the archive

What `archiveService.ts` builds from the records of the stores: runs with their uploads, artifacts and conversations,
batches, media generations, the assets of a materialized conversation, and evidence.

The response of a run is the one that `createExecutionResponseForStoredRecord` gives for its bundle.
-/

namespace AuraCall.Archive

open Materialization (RunArchiveItemKind)

/-! ## Records -/

structure InputArtifact where
  id : String
  kind : String
  title : Option String
  path : Option String
  uri : Option String
  metadata : JsonRecord := []

structure ExecutionRunStep where
  id : String
  order : Int
  service : Option String
  agentId : Option String
  runtimeProfileId : Option String
  /-- `step.output.structuredData.browserRun`, if it is a record -/
  browserRun : Option JsonRecord
  artifacts : List InputArtifact := []

/-- An artifact of the output of a response. -/
structure OutputArtifact where
  id : String
  title : Option String
  mimeType : Option String
  uri : Option String
  artifactType : String
  disposition : Option String
  metadata : JsonRecord := []

structure ExecutionResponse where
  runtimeState : Option String
  outputItemCount : Nat
  requestedOutputCount : Nat
  artifacts : List OutputArtifact

structure ExecutionRunStoredRecord where
  runId : String
  sourceKind : String
  sourceId : Option String
  createdAt : String
  entryPrompt : String
  status : String
  initialInputs : JsonRecord
  steps : List ExecutionRunStep
  response : ExecutionResponse

structure ResponseBatchRecord where
  id : String
  createdAt : String
  jobCount : Nat
  limits : Json
  metadata : JsonRecord

structure MediaArtifact where
  id : String
  type : String
  fileName : Option String
  mimeType : Option String
  path : Option String
  uri : Option String
  width : Option ℚ
  height : Option ℚ
  durationSeconds : Option ℚ
  metadata : JsonRecord := []

structure MediaGenerationStoredRecord where
  id : String
  createdAt : String
  prompt : String
  status : String
  provider : String
  model : Option String
  mediaType : String
  metadata : JsonRecord
  artifacts : List MediaArtifact
  /-- `resolveMediaGenerationConversation` of the response -/
  conversationId : Option String
  conversationUrl : Option String

inductive HistoryAssetKind
  | artifact | file | media
  deriving DecidableEq

structure FileRef where
  id : String
  name : String
  source : String
  mimeType : Option String := none
  remoteUrl : Option String := none
  localPath : Option String := none
  checksumSha256 : Option String := none
  metadata : JsonRecord := []

structure RunArchiveHistoryMaterializationAsset where
  kind : HistoryAssetKind
  file : FileRef
  artifactId : Option String := none
  title : Option String := none
  manifestPath : Option String := none
  materializationMethod : Option String := none

structure RunArchiveHistoryMaterializationUpsertInput where
  provider : String
  runtimeProfile : Option String
  browserProfile : Option String
  projectId : Option String
  boundIdentityKey : Option String
  providerConversationId : String
  providerConversationUrl : Option String
  materializationJobId : Option String
  assets : List RunArchiveHistoryMaterializationAsset

structure RunArchiveEvidenceRecord where
  id : String
  createdAt : String
  producer : String
  schema : String
  status : String
  title : Option String
  summary : Option String
  responseId : Option String
  batchId : Option String
  archiveItemId : Option String
  providerConversationId : Option String
  data : Json
  metadata : JsonRecord

/-! ## Building items -/

structure ItemsHost where
  cases : CaseTable
  encodeURIComponent : String → String
  /-- `URLSearchParams` with these fields, as text -/
  searchParams : List (String × String) → String

/-- `{ ...record }`. -/
def Metadata.ofRecord (record : JsonRecord) : Metadata := fun key => record.get key

def Links.ofList (links : List (String × String)) : Links := fun key => links.lookup key

section Build

variable (host : ItemsHost)

def readRecord (record : JsonRecord) (keys : List String) : Option String :=
  readRecordString (Metadata.ofRecord record) keys

def responsePath (runId : String) : String := "/v1/responses/" ++ host.encodeURIComponent runId

def catalogItemPath (provider conversationId : String) (runtimeProfile : Option String) : String :=
  let profile := (present runtimeProfile).map fun profile => ("runtimeProfile", profile)
  "/v1/account-mirrors/catalog/items/" ++ host.encodeURIComponent conversationId ++ "?" ++
    host.searchParams ([("provider", provider), ("kind", "conversations")] ++ profile.toList)

def createBaseRunItem (record : ExecutionRunStoredRecord) : ArchiveItem :=
  let firstStep := (record.steps.insertionSort fun left right => left.order ≤ right.order).head?
  let browserRun := (firstStep.bind (·.browserRun)).getD []
  { id := "response:" ++ record.runId, kind := .response, source := .runtime, createdAt := record.createdAt
    provider := readRecord browserRun ["provider", "service"] <|> firstStep.bind (·.service)
    runtimeProfile := firstStep.bind (·.runtimeProfileId) <|> readRecord record.initialInputs ["runtimeProfile"]
    projectId := readRecord browserRun ["projectId", "project"]
    boundIdentityKey := readRecord browserRun ["boundIdentityKey", "identityKey", "serviceAccountId"]
    responseId := some record.runId, batchId := none, mediaGenerationId := none
    providerConversationId := readRecord browserRun ["conversationId", "conversation_id"]
    file :=
      { title := some record.entryPrompt, status := some record.status, runtimeState := record.response.runtimeState
        agentId := firstStep.bind (·.agentId)
        teamId :=
          if record.sourceKind = "team-run" then record.sourceId else readRecord record.initialInputs ["team"] } }

structure ProviderConversationRef where
  stepId : String
  provider : String
  runtimeProfileId : Option String
  projectId : Option String
  boundIdentityKey : Option String
  conversationId : String

/-- The conversation of a step. -/
def stepConversationRef (step : ExecutionRunStep) : Option ProviderConversationRef :=
  step.browserRun.bind fun browserRun =>
    match (readRecord browserRun ["provider", "service"] <|> step.service).filter (· ∈ ["chatgpt", "gemini", "grok"]),
      readRecord browserRun ["conversationId", "conversation_id"] with
    | some provider, some conversationId => some
      { stepId := step.id, provider
        runtimeProfileId := readRecord browserRun ["runtimeProfileId", "runtimeProfile"] <|> step.runtimeProfileId
        projectId := readRecord browserRun ["projectId", "project"]
        boundIdentityKey := readRecord browserRun ["boundIdentityKey", "identityKey", "serviceAccountId"]
        conversationId }
    | _, _ => none

def ProviderConversationRef.key (ref : ProviderConversationRef) : String :=
  ":".intercalate [ref.provider, ref.runtimeProfileId.getD "", ref.conversationId]

/-- The first of each that has a key, after the keys in `seen`. -/
def firstOfEach {α κ : Type} [DecidableEq κ] (key : α → κ) : List κ → List α → List α
  | _, [] => []
  | seen, a :: rest =>
    if key a ∈ seen then firstOfEach key seen rest else a :: firstOfEach key (key a :: seen) rest

def listProviderConversationRefs (record : ExecutionRunStoredRecord) : List ProviderConversationRef :=
  firstOfEach ProviderConversationRef.key [] (record.steps.filterMap stepConversationRef)

def readBatchId (record : ExecutionRunStoredRecord) : Option String :=
  readRecord ((record.initialInputs.record? "metadata").getD []) ["batchId"]

def runKind (record : ExecutionRunStoredRecord) : RunArchiveItemKind :=
  if record.sourceKind = "team-run" then .teamRun else .response

def runItem (record : ExecutionRunStoredRecord) : ArchiveItem :=
  let base := createBaseRunItem record
  { base with
    id := (if runKind record = .teamRun then "team_run:" else "response:") ++ record.runId, kind := runKind record
    batchId := readBatchId record
    file := { base.file with
      metadata := .ofRecord
        [("sourceKind", .string record.sourceKind), ("outputItemCount", .ofNat record.response.outputItemCount),
          ("stepCount", .ofNat record.steps.length),
          ("requestedOutputCount", .ofNat record.response.requestedOutputCount)]
      links := .ofList [("response", responsePath host record.runId),
        ("runtimeRun", "/v1/runtime-runs/inspect?runtimeRunId=" ++ host.encodeURIComponent record.runId)] } }

def uploadItem (record : ExecutionRunStoredRecord) (stepId : String) (artifact : InputArtifact) : ArchiveItem :=
  let base := createBaseRunItem record
  { base with
    id := "upload:" ++ record.runId ++ ":" ++ stepId ++ ":" ++ artifact.id, kind := .upload
    batchId := readBatchId record
    file := { base.file with
      title := artifact.title, artifactId := some artifact.id, fileName := artifact.title, localPath := artifact.path
      uri := artifact.uri
      metadata := Metadata.spread (.ofRecord [("stepId", .string stepId), ("artifactKind", .string artifact.kind)])
        artifact.metadata
      links := .ofList [("response", responsePath host record.runId)] } }

def runArtifactItem (record : ExecutionRunStoredRecord) (artifact : OutputArtifact) : ArchiveItem :=
  let base := createBaseRunItem record
  { base with
    id := "generated-artifact:" ++ record.runId ++ ":" ++ artifact.id, kind := .generatedArtifact
    batchId := readBatchId record
    file := { base.file with
      title := artifact.title <|> some artifact.id, artifactId := some artifact.id
      fileName := readRecord artifact.metadata ["fileName", "name"] <|> artifact.title, mimeType := artifact.mimeType
      localPath := readRecord artifact.metadata ["localPath", "path"], uri := artifact.uri
      metadata := Metadata.spread (.ofRecord
        [("artifactType", .string artifact.artifactType), ("disposition", .ofOption artifact.disposition)])
        artifact.metadata
      links := .ofList [("response", responsePath host record.runId)] } }

def conversationItem (record : ExecutionRunStoredRecord) (ref : ProviderConversationRef) : ArchiveItem :=
  let base := createBaseRunItem record
  { base with
    id := "provider-conversation:" ++ record.runId ++ ":" ++ ref.provider ++ ":" ++ ref.conversationId
    kind := .providerConversation, provider := some ref.provider, runtimeProfile := ref.runtimeProfileId
    projectId := ref.projectId, boundIdentityKey := ref.boundIdentityKey, batchId := readBatchId record
    providerConversationId := some ref.conversationId
    file := { base.file with
      title := some ref.conversationId, metadata := .ofRecord [("stepId", .string ref.stepId)]
      links := .ofList [("response", responsePath host record.runId),
        ("catalogItem", catalogItemPath host ref.provider ref.conversationId ref.runtimeProfileId)] } }

/-- `buildRunArchiveItems` of one record. -/
def buildRunArchiveItems (record : ExecutionRunStoredRecord) : List ArchiveItem :=
  [runItem host record] ++
    (record.steps.flatMap fun step => step.artifacts.map (uploadItem host record step.id)) ++
      record.response.artifacts.map (runArtifactItem host record) ++
        (listProviderConversationRefs record).map (conversationItem host record)

/-- `buildBatchArchiveItems` of one record. -/
def buildBatchArchiveItem (record : ResponseBatchRecord) : ArchiveItem where
  id := "response-batch:" ++ record.id
  kind := .responseBatch
  source := .responseBatch
  createdAt := record.createdAt
  provider := none
  runtimeProfile := none
  projectId := none
  boundIdentityKey := none
  responseId := none
  batchId := some record.id
  mediaGenerationId := none
  providerConversationId := none
  file :=
    { title := some record.id
      metadata := Metadata.spread (.ofRecord [("jobCount", .ofNat record.jobCount), ("limits", record.limits)])
        record.metadata
      links := .ofList [("batch", "/v1/response-batches/" ++ host.encodeURIComponent record.id)] }

/-! ### Media generations -/

def mediaItem (record : MediaGenerationStoredRecord) : ArchiveItem where
  id := "media-generation:" ++ record.id
  kind := .mediaGeneration
  source := .mediaGeneration
  createdAt := record.createdAt
  provider := some record.provider
  runtimeProfile := readRecord record.metadata ["runtimeProfileId", "runtimeProfile"]
  projectId := readRecord record.metadata ["projectId", "project"]
  boundIdentityKey := readRecord record.metadata ["boundIdentityKey", "identityKey", "serviceAccountId"]
  responseId := none
  batchId := none
  mediaGenerationId := some record.id
  providerConversationId := record.conversationId
  file :=
    { title := some record.prompt, status := some record.status
      metadata := .ofRecord ([("mediaType", .string record.mediaType),
        ("artifactCount", .ofNat record.artifacts.length), ("model", .ofOption record.model)] ++
          ((present record.conversationId).map fun id => ("providerConversationId", Json.string id)).toList ++
            ((present record.conversationUrl).map fun url => ("providerConversationUrl", Json.string url)).toList)
      links := .ofList [("mediaGeneration", "/v1/media-generations/" ++ host.encodeURIComponent record.id)] }

def numberOrNull (number : Option ℚ) : Json := number.elim .null fun number => .number (.finite number)

def mediaArtifactItem (record : MediaGenerationStoredRecord) (artifact : MediaArtifact) : ArchiveItem :=
  let base := mediaItem host record
  { base with
    id := "generated-artifact:" ++ record.id ++ ":" ++ artifact.id, kind := .generatedArtifact
    file := { base.file with
      title := artifact.fileName <|> some artifact.id, artifactId := some artifact.id, fileName := artifact.fileName
      mimeType := artifact.mimeType, localPath := artifact.path, uri := artifact.uri
      metadata := Metadata.spread (.ofRecord
        [("mediaType", .string artifact.type), ("width", numberOrNull artifact.width),
          ("height", numberOrNull artifact.height), ("durationSeconds", numberOrNull artifact.durationSeconds)])
        artifact.metadata } }

def mediaConversationItem (record : MediaGenerationStoredRecord) (conversationId : String) : ArchiveItem :=
  let base := mediaItem host record
  { base with
    id := "provider-conversation:" ++ record.id ++ ":" ++ record.provider ++ ":" ++ conversationId
    kind := .providerConversation
    file := { base.file with
      title := some conversationId
      links := fun key =>
        ((present record.conversationUrl).bind fun url => if key = "conversation" then some url else none) <|>
          base.file.links key } }

/-- `buildMediaArchiveItems` of one record. -/
def buildMediaArchiveItems (record : MediaGenerationStoredRecord) : List ArchiveItem :=
  [mediaItem host record] ++ record.artifacts.map (mediaArtifactItem host record) ++
    (present record.conversationId).toList.map (mediaConversationItem host record)

/-! ### Materialized conversations -/

/-- `[a-zA-Z0-9._=-]`. -/
def isHistorySegmentChar (c : Char) : Bool := c.isAlphanum || c = '.' || c = '_' || c = '=' || c = '-'

def sanitizeHistoryArchiveIdSegment (value : String) : String :=
  let normalized := (replaceRuns isHistorySegmentChar (trim value).toList).take 140
  if normalized.isEmpty then "unknown" else String.ofList normalized

def historyPrefix : HistoryAssetKind → String
  | .file => "history-file"
  | .media => "history-media"
  | .artifact => "history-generated-artifact"

def historyIdentity (input : RunArchiveHistoryMaterializationUpsertInput) : String :=
  (input.boundIdentityKey <|> input.runtimeProfile <|> input.browserProfile).getD "unknown-identity"

/-- The id of an asset. A file has an id, so its name and its position are not asked for. -/
def historyAssetId (asset : RunArchiveHistoryMaterializationAsset) : String := asset.artifactId.getD asset.file.id

def buildHistoryMaterializationArchiveItemId (input : RunArchiveHistoryMaterializationUpsertInput)
    (asset : RunArchiveHistoryMaterializationAsset) : String :=
  ":".intercalate [historyPrefix asset.kind, input.provider, sanitizeHistoryArchiveIdSegment (historyIdentity input),
    sanitizeHistoryArchiveIdSegment input.providerConversationId,
    sanitizeHistoryArchiveIdSegment (historyAssetId asset)]

def historyItem (input : RunArchiveHistoryMaterializationUpsertInput) (timestamp : String)
    (asset : RunArchiveHistoryMaterializationAsset) : ArchiveItem :=
  let file := asset.file
  let fileName := present (some file.name) <|> present asset.title <|> present (some file.id)
  let method := asset.materializationMethod <|> readRecord file.metadata ["materialization", "materializationSource"]
  let providerFileId := ((file.metadata.get "providerFileId").bind (·.string?)).filter (trim · ≠ "")
  { id := buildHistoryMaterializationArchiveItemId input asset
    kind := if asset.kind = .file then .upload else .generatedArtifact
    source := .accountMirror, createdAt := timestamp, provider := some input.provider
    runtimeProfile := input.runtimeProfile, projectId := input.projectId, boundIdentityKey := input.boundIdentityKey
    responseId := none, batchId := none, mediaGenerationId := none
    providerConversationId := some input.providerConversationId
    file :=
      { title := asset.title <|> some file.name, status := some "materialized"
        artifactId := some (historyAssetId asset), fileName
        mimeType := file.mimeType <|> fileName.map
          (inferArchiveAssetMimeType { cases := host.cases, grokReceipt := fun _ _ _ => none })
        localPath := file.localPath, uri := file.remoteUrl
        cacheKey := (present file.checksumSha256).map ("sha256:" ++ ·), checksumSha256 := file.checksumSha256
        fileAvailable := if (present file.localPath).isSome then none else some false
        metadata := Metadata.spread (.ofRecord file.metadata)
          [("providerFileId", .string (providerFileId.getD file.id)), ("providerFileSource", .string file.source),
            ("historyAssetKind", .string (match asset.kind with
              | .artifact => "artifact"
              | .file => "file"
              | .media => "media")),
            ("historyMaterializationJobId", .ofOption input.materializationJobId),
            ("manifestPath", .ofOption asset.manifestPath),
            ("materialization", .object
              [("status", .string (if (present file.localPath).isSome then "materialized" else "unavailable")),
                ("source", .string "history-materialization"), ("method", .ofOption method)])]
        links := .ofList (
          [("catalogItem", catalogItemPath host input.provider input.providerConversationId input.runtimeProfile)] ++
            ((present input.providerConversationUrl).map fun url => ("conversation", url)).toList) } }

def buildHistoryMaterializationArchiveItems (input : RunArchiveHistoryMaterializationUpsertInput) (timestamp : String) :
    List ArchiveItem :=
  (firstOfEach (buildHistoryMaterializationArchiveItemId input) [] input.assets).map (historyItem host input timestamp)

/-! ### Evidence -/

def buildEvidenceArchiveItem (record : RunArchiveEvidenceRecord) : ArchiveItem where
  id := "evidence:" ++ record.id
  kind := .evidence
  source := .evidence
  createdAt := record.createdAt
  provider := none
  runtimeProfile := none
  projectId := none
  boundIdentityKey := none
  responseId := record.responseId
  batchId := record.batchId
  mediaGenerationId := none
  providerConversationId := record.providerConversationId
  file :=
    { title := record.title <|> record.summary <|> some record.schema, status := some record.status
      artifactId := record.archiveItemId
      metadata := Metadata.spread (.ofRecord
        [("producer", .string record.producer), ("schema", .string record.schema),
          ("summary", .ofOption record.summary), ("archiveItemId", .ofOption record.archiveItemId),
          ("evidenceId", .string record.id), ("data", record.data)])
        record.metadata
      links := .ofList
        (((present record.responseId).map fun id => ("response", responsePath host id)).toList ++
          ((present record.batchId).map fun id =>
            ("batch", "/v1/response-batches/" ++ host.encodeURIComponent id)).toList ++
            ((present record.archiveItemId).map fun id => ("archiveItem", "/v1/archive/items/" ++ id)).toList) }

end Build

end AuraCall.Archive
