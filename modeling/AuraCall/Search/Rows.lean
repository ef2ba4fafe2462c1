import AuraCall.Archive.Listing
import AuraCall.Lib.Base64url
import AuraCall.Lib.FilteredView
import AuraCall.Materialization.HistoryWork

/-!
# Search rows

The rows of `searchProjectionService.ts`: one for each item of the account mirror catalog and one for each item of the run
archive. The row of a conversation also says what the archive holds of it, read off the latest of the archived uploads and
artifacts of that conversation (`latestArchiveFreshnessByConversation`).
-/

namespace AuraCall.Search

open AccountMirror (Provider)
open Archive (ArchiveItem present)
open FilteredView
open Materialization (JobStatus RunArchiveItemKind encodeURIComponent readRecordString readWord wordOrNull)

/-! ## The catalog and the archive -/

/-- The manifests of a catalog entry, in the order in which a search goes through them. -/
inductive ManifestKind | projects | conversations | artifacts | files | media
  deriving DecidableEq

def ManifestKind.text : ManifestKind → String
  | projects => "projects"
  | conversations => "conversations"
  | artifacts => "artifacts"
  | files => "files"
  | media => "media"

structure CatalogEntry where
  provider : Provider
  runtimeProfileId : String
  browserProfileId : Option String := none
  boundIdentityKey : Option String := none
  status : String
  reason : Json := .null
  mirrorCompleteness : Json := .null
  manifests : ManifestKind → List Json

def archiveKindText : RunArchiveItemKind → String
  | .response => "response"
  | .responseBatch => "response_batch"
  | .teamRun => "team_run"
  | .mediaGeneration => "media_generation"
  | .upload => "upload"
  | .generatedArtifact => "generated_artifact"
  | .providerConversation => "provider_conversation"
  | .evidence => "evidence"

/-- An item of the archive, with its metadata as it is written. -/
structure ArchiveRecord where
  item : ArchiveItem
  updatedAt : Option String
  browserProfile : Option String := none
  metadata : JsonRecord
  links : JsonRecord := []
  metadata_eq : item.file.metadata = metadata.get
  links_eq : item.file.links = links.string?

/-- The items of the archive, no two with one id. -/
structure RunArchive where
  records : List ArchiveRecord
  nodup : (records.map (·.item.id)).Nodup

structure ArchiveMaterializationJob where
  id : String
  archiveItemId : String
  status : JobStatus
  createdAt : String
  updatedAt : String
  startedAt : Option String := none
  completedAt : Option String := none
  attemptCount : Nat := 0
  result : Json := .null
  error : Json := .null
  message : String := ""

/-! ## The host -/

structure SearchHost extends Archive.FileMetadataHost where
  numbers : NumberTexts
  localeCompare : String → String → Ordering
  /-- `Number(text)`, where that is finite -/
  toNumber : String → Option ℚ
  /-- `Date.parse`, where the text is a date -/
  parseDate : String → Option Int
  toIsoString : Int → String
  /-- `new URLSearchParams(fields).toString()` -/
  searchParams : List (String × String) → String
  /-- `JSON.parse`, where it does not throw -/
  parseJson : String → Option Json
  /-- the text of bytes that are not UTF-8 -/
  repairUtf8 : List UInt8 → String
  /-- `Date.now()` -/
  now : Int

variable (host : SearchHost)

/-- The bytes of a text. -/
def utf8Bytes (text : String) : List UInt8 := text.toUTF8.data.toList

def toBase64url (text : String) : String := String.ofList (Base64url.encode (utf8Bytes text))

/-! ## Fields of items -/

def readNumber (item : Json) (fields : List String) : Option ℚ :=
  fields.findSome? fun field =>
    match (item.record?.getD []).get field with
    | some (.number (.finite q)) => some q
    | some (.string text) => if trim text = "" then none else host.toNumber text
    | _ => none

def readItemId (item : Json) : String :=
  (readRecordString host.numbers item
    ["id", "conversationId", "projectId", "artifactId", "fileId", "mediaId", "url", "href"]).getD "unknown"

def isHexChar (c : Char) : Bool := c.isDigit || ('a' ≤ c.toLower && c.toLower ≤ 'f')

/-- The number in the eight hexadecimal digits that the id begins with, if a hyphen follows them. -/
def timestampSeconds (itemId : String) : Option Nat :=
  let digits := itemId.toList.take 8
  if digits.length = 8 && digits.all isHexChar && itemId.toList.getD 8 ' ' = '-' then
    some (digits.foldl (fun value c => value * 16 + hexValue c.toLower) 0)
  else none

/-- `Date.UTC(2022, 0, 1)`. -/
def earliestTimestamp : Int := 1640995200000

def readItemTime (item : Json) (provider itemId : String) : Option String :=
  readRecordString host.numbers item
      ["updatedAt", "lastMessageAt", "createdAt", "createTime", "timestamp", "time"] <|>
    if provider = "chatgpt" then
      (timestampSeconds itemId).bind fun seconds =>
        let timestamp : Int := seconds * 1000
        if earliestTimestamp ≤ timestamp ∧ timestamp ≤ host.now + 24 * 60 * 60 * 1000 then
          some (host.toIsoString timestamp)
        else none
    else none

def freshnessStates : List String :=
  ["fresh", "stale", "partial", "missing_assets", "terminal_unavailable", "guarded", "unknown"]

def isConversationFreshness (value : JsonRecord) : Bool :=
  value.string? "object" = some "account_mirror_conversation_freshness" &&
    (readRecordString host.numbers (.object value) ["state"]).any freshnessStates.contains

def readAccountMirrorConversationFreshness (item : Json) : Option JsonRecord :=
  ((item.record?.getD []).record? "conversationFreshness").filter (isConversationFreshness host)

def isArchiveMaterializationStatus : Option String → Option JobStatus :=
  readWord [.queued, .running, .succeeded, .skipped, .failed, .cancelled] JobStatus.text

/-! ## What the archive holds of a conversation -/

def ArchiveRecord.time (record : ArchiveRecord) : String := record.updatedAt.getD record.item.createdAt

def materializationStatusFromArchiveItem (record : ArchiveRecord) : Option JobStatus :=
  let status := readRecordString host.numbers (record.metadata.field "materialization") ["status"]
  if status = some "materialized" then some .succeeded else isArchiveMaterializationStatus status

def historyMaterializationJobIdFromArchiveItem (record : ArchiveRecord) : Option String :=
  readRecordString host.numbers (.object record.metadata) ["historyMaterializationJobId"]

def boolOrNull (value : Option Bool) : Json := value.elim .null .bool

def availabilityText : Option Bool → String
  | some true => "available"
  | some false => "unavailable"
  | none => "pending"

def assetFreshnessFromArchiveItem (record : ArchiveRecord) (job : Option ArchiveMaterializationJob)
    (status : Option JobStatus) : JsonRecord :=
  let fileAvailable := record.item.file.fileAvailable
  let historyJobId := historyMaterializationJobIdFromArchiveItem host record
  let materializedAt := job.bind (·.completedAt) <|>
    if status = some .succeeded ∧ fileAvailable = some true then some record.time else none
  [("availability", .string (availabilityText fileAvailable)),
    ("fileAvailable", boolOrNull fileAvailable),
    ("status", wordOrNull JobStatus.text status),
    ("source", .string (if job.isSome then "materialization_job"
      else if historyJobId.isSome then "history_materialization" else "archive_item")),
    ("materializationJobId", .ofOption (job.map (·.id) <|> historyJobId)),
    ("materializedAt", .ofOption materializedAt),
    ("evidenceUpdatedAt", .string ((job.map (·.updatedAt)).getD record.time))]

structure ConversationMaterializationFreshness where
  archiveItemId : String
  fileAvailable : Option Bool
  materializationStatus : Option JobStatus
  assetFreshness : JsonRecord
  updatedAt : String

def conversationMaterializationKey (provider runtimeProfile conversationId : Option String) : String :=
  "\u0000".intercalate [provider.getD "", runtimeProfile.getD "", conversationId.getD ""]

def compareNullableIso (left right : String) : Ordering :=
  if left ≠ "" ∧ right ≠ "" then host.localeCompare left right
  else if left ≠ "" then .gt else if right ≠ "" then .lt else .eq

def latestMaterializationJobsByArchiveItemId (jobs : List ArchiveMaterializationJob) :
    String → Option ArchiveMaterializationJob :=
  latestBy (fun left right => host.localeCompare left.updatedAt right.updatedAt) (·.archiveItemId) jobs

/-- What an item says of its conversation, and which conversation that is. -/
def conversationFreshnessOf (jobs : String → Option ArchiveMaterializationJob) (record : ArchiveRecord) :
    Option (String × ConversationMaterializationFreshness) :=
  let item := record.item
  if item.source ≠ .accountMirror then none
  else if (present item.provider).isNone || (present item.providerConversationId).isNone then none
  else if item.kind ≠ .generatedArtifact ∧ item.kind ≠ .upload then none
  else
    let job := jobs item.id
    let status := job.map (·.status) <|> materializationStatusFromArchiveItem host record
    if status = none ∧ item.file.fileAvailable ≠ some true then none
    else some (conversationMaterializationKey item.provider item.runtimeProfile item.providerConversationId,
      { archiveItemId := item.id
        fileAvailable := item.file.fileAvailable
        materializationStatus := status
        assetFreshness := assetFreshnessFromArchiveItem host record job status
        updatedAt := (job.map (·.updatedAt)).getD record.time })

def latestArchiveFreshnessByConversation (records : List ArchiveRecord)
    (jobs : String → Option ArchiveMaterializationJob) (conversation : String) :
    Option ConversationMaterializationFreshness :=
  (latestBy (fun left right => compareNullableIso host left.2.updatedAt right.2.updatedAt) Prod.fst
    (records.filterMap (conversationFreshnessOf host jobs)) conversation).map Prod.snd

/-! ## Rows -/

inductive SearchProjectionSource | accountMirror | runArchive
  deriving DecidableEq

structure RowCounts where
  messages : Option ℚ
  files : ℚ
  artifacts : ℚ

structure SearchProjectionRow where
  id : String
  source : SearchProjectionSource
  sourceKind : String
  kind : String
  title : Option String
  summary : Option String
  provider : Option String
  runtimeProfileId : Option String
  browserProfileId : Option String
  tenant : Option String
  projectId : Option String
  status : Option String
  runtimeState : Option String
  sortTime : Option String
  updatedAt : Option String
  itemId : String
  counts : RowCounts
  links : JsonRecord
  metadata : JsonRecord

def catalogKindToSearchKind : ManifestKind → String
  | .conversations => "conversation"
  | .artifacts => "artifact"
  | .files => "upload"
  | .projects => "project"
  | .media => "media"

/-- `["response", "response_batch", "team_run", "media_generation"]`. -/
def runKinds : List String := ["response", "response_batch", "team_run", "media_generation"]

def archiveKindToSearchKind (kind : String) : String :=
  if kind = "provider_conversation" then "conversation"
  else if kind = "generated_artifact" then "artifact"
  else if runKinds.contains kind then "run" else kind

def catalogFreshnessMetadata (item : Json) : JsonRecord :=
  match readAccountMirrorConversationFreshness host item with
  | none => []
  | some freshness =>
    [("conversationFreshness", .object freshness), ("freshnessState", freshness.field "state")] ++
      (freshness.get "routeabilityState").toList.map ("routeabilityState", ·)

/-- What a row says of the archived assets of its conversation. -/
def materializationFreshnessMetadata : Option ConversationMaterializationFreshness → JsonRecord
  | none => []
  | some freshness =>
    [("fileAvailable", boolOrNull freshness.fileAvailable),
      ("materializationStatus", wordOrNull JobStatus.text freshness.materializationStatus),
      ("assetFreshness", .object freshness.assetFreshness),
      ("materializedArchiveItemId", .string freshness.archiveItemId)]

/-- `readString(item, ['provider']) ?? entry.provider`. -/
def catalogItemProvider (entry : CatalogEntry) (item : Json) : String :=
  (readRecordString host.numbers item ["provider"]).getD entry.provider.text

/-- The key under which a row of the catalog looks for its archived assets. -/
def catalogConversationKey (entry : CatalogEntry) (item : Json) : String :=
  conversationMaterializationKey (some (catalogItemProvider host entry item)) (some entry.runtimeProfileId)
    (some (readItemId host item))

def rowFromCatalogItem (archiveFreshness : String → Option ConversationMaterializationFreshness)
    (entry : CatalogEntry) (sourceKind : ManifestKind) (item : Json) : SearchProjectionRow :=
  let itemId := readItemId host item
  let provider := catalogItemProvider host entry item
  let sortTime := readItemTime host item provider itemId
  let params := [("provider", provider), ("runtimeProfile", entry.runtimeProfileId), ("kind", sourceKind.text)]
  let read := readRecordString host.numbers item
  { id := "catalog:" ++ sourceKind.text ++ ":" ++ provider ++ ":" ++ entry.runtimeProfileId ++ ":" ++ itemId
    source := .accountMirror
    sourceKind := sourceKind.text
    kind := catalogKindToSearchKind sourceKind
    title := some ((read ["title", "name", "fileName", "prompt", "summary"]).getD itemId)
    summary := read ["summary", "description", "snippet"]
    provider := some provider
    runtimeProfileId := some entry.runtimeProfileId
    browserProfileId := entry.browserProfileId
    tenant := entry.boundIdentityKey
    projectId := read ["projectId", "projectName", "projectTitle", "workspaceName"]
    status := some ((read ["status", "state"]).getD entry.status)
    runtimeState := none
    sortTime
    updatedAt := sortTime
    itemId
    counts :=
      { messages := readNumber host item ["messageCount", "messagesCount", "turnCount"]
        files := (readNumber host item
          ["fileCount", "filesCount", "cachedFileCount", "attachmentCount", "attachmentsCount"]).getD 0
        artifacts := (readNumber host item ["artifactCount", "artifactsCount", "cachedArtifactCount"]).getD 0 }
    links :=
      ("catalogItem", .string ("/v1/account-mirrors/catalog/items/" ++ encodeURIComponent itemId ++ "?" ++
        host.searchParams params)) ::
        (read ["url", "providerUrl", "conversationUrl", "href"]).toList.map fun url => ("provider", .string url)
    metadata :=
      [("mirrorReason", entry.reason), ("mirrorCompleteness", entry.mirrorCompleteness)] ++
        (if sourceKind = .conversations then
          catalogFreshnessMetadata host item ++
            materializationFreshnessMetadata (archiveFreshness (catalogConversationKey host entry item))
        else []) ++
        [("raw", item)] }

/-- The items of an entry, each with the entry and the manifest it is in. -/
def entryItems (entry : CatalogEntry) : List (CatalogEntry × ManifestKind × Json) :=
  [ManifestKind.projects, .conversations, .artifacts, .files, .media].flatMap fun kind =>
    (entry.manifests kind).map fun item => (entry, kind, item)

def catalogItems (entries : List CatalogEntry) : List (CatalogEntry × ManifestKind × Json) := entries.flatMap entryItems

def displayStatusFromArchiveItem (status runtimeState : Option String) : Option String :=
  match present runtimeState with
  | none => status
  | some state => if state = "terminal" then status else some state

def materializationJobMetadata (job : ArchiveMaterializationJob) : JsonRecord :=
  [("id", .string job.id), ("archiveItemId", .string job.archiveItemId), ("status", .string job.status.text),
    ("createdAt", .string job.createdAt), ("updatedAt", .string job.updatedAt), ("startedAt", .ofOption job.startedAt),
    ("completedAt", .ofOption job.completedAt), ("attemptCount", .ofNat job.attemptCount),
    ("message", .string job.message), ("error", job.error), ("result", job.result)]

def rowFromArchiveItem (jobs : String → Option ArchiveMaterializationJob) (record : ArchiveRecord) :
    SearchProjectionRow :=
  let item := record.item
  let job := jobs item.id
  let status := job.map (·.status) <|> materializationStatusFromArchiveItem host record
  { id := "archive:" ++ item.id
    source := .runArchive
    sourceKind := archiveKindText item.kind
    kind := archiveKindToSearchKind (archiveKindText item.kind)
    title := some ((item.file.title <|> item.file.fileName <|> item.file.artifactId).getD item.id)
    summary := none
    provider := item.provider
    runtimeProfileId := item.runtimeProfile
    browserProfileId := record.browserProfile
    tenant := item.boundIdentityKey
    projectId := item.projectId
    status := displayStatusFromArchiveItem item.file.status item.file.runtimeState
    runtimeState := item.file.runtimeState
    sortTime := some record.time
    updatedAt := some record.time
    itemId := item.id
    counts :=
      { messages := none
        files := if item.kind = .upload then 1 else 0
        artifacts := if item.kind = .generatedArtifact then 1 else 0 }
    links := record.links.foldl (fun links link => links.set link.1 link.2)
      [("archiveItem", .string ("/v1/archive/items/b64/" ++ toBase64url item.id))]
    metadata :=
      [("responseId", .ofOption item.responseId), ("batchId", .ofOption item.batchId),
        ("agentId", .ofOption item.file.agentId), ("teamId", .ofOption item.file.teamId),
        ("rawStatus", .ofOption item.file.status), ("runtimeState", .ofOption item.file.runtimeState),
        ("localPath", .ofOption item.file.localPath), ("fileAvailable", boolOrNull item.file.fileAvailable),
        ("materializationStatus", wordOrNull JobStatus.text status),
        ("assetFreshness", .object (assetFreshnessFromArchiveItem host record job status))] ++
        job.toList.map (fun job => ("materializationJob", .object (materializationJobMetadata job))) ++
        [("raw", .object record.metadata)] }

end AuraCall.Search
