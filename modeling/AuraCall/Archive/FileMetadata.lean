import AuraCall.Js.Json
import AuraCall.Materialization.ArchiveIndex

/-!
# File metadata of archive items

`enrichFileMetadata` of `archiveService.ts`: what the local files say of an item is written into it, over what it says
already. The metadata and the links of an item are read by their keys; the order of the fields is left out.

The files, the attachment cache, and the receipts that the Grok archives accept are the surroundings.
-/

namespace AuraCall.Archive

open Materialization (RunArchiveItem RunArchiveItemKind)

/-! ## Items -/

/-- `Record<string, unknown>`, by its keys. -/
abbrev Metadata := String → Option Json

/-- `Record<string, string>`, by its keys. -/
abbrev Links := String → Option String

namespace Metadata

/-- `{ ...metadata, [key]: value }`, where there is a value. -/
def setIf (metadata : Metadata) (key : String) (value : Option Json) : Metadata :=
  match value with
  | none => metadata
  | some value => Function.update metadata key (some value)

/-- `delete metadata[key]`. -/
def delete (metadata : Metadata) (key : String) : Metadata := Function.update metadata key none

/-- `{ ...metadata, ...record }`. -/
def spread (metadata : Metadata) (record : JsonRecord) : Metadata := fun key => record.get key <|> metadata key

theorem setIf_of_ne {metadata : Metadata} {key other : String} (h : other ≠ key) (value : Option Json) :
    metadata.setIf key value other = metadata other := by
  cases value with
  | none => rfl
  | some value => exact Function.update_of_ne h _ _

theorem setIf_self (metadata : Metadata) (key : String) (value : Option Json) :
    metadata.setIf key value key = (value <|> metadata key) := by
  cases value with
  | none => rfl
  | some value => exact Function.update_self _ _ _

theorem delete_of_ne {metadata : Metadata} {key other : String} (h : other ≠ key) :
    metadata.delete key other = metadata other := Function.update_of_ne h _ _

theorem delete_self (metadata : Metadata) (key : String) : metadata.delete key key = none := Function.update_self _ _ _

theorem spread_of_none {metadata : Metadata} {record : JsonRecord} {key : String} (h : record.get key = none) :
    metadata.spread record key = metadata key := by
  simp [spread, h]

theorem spread_of_some {metadata : Metadata} {record : JsonRecord} {key : String} {value : Json}
    (h : record.get key = some value) : metadata.spread record key = some value := by
  simp [spread, h]

end Metadata

structure ItemDetails where
  title : Option String := none
  status : Option String := none
  runtimeState : Option String := none
  agentId : Option String := none
  teamId : Option String := none
  artifactId : Option String := none
  fileName : Option String := none
  mimeType : Option String := none
  localPath : Option String := none
  uri : Option String := none
  cacheKey : Option String := none
  checksumSha256 : Option String := none
  fileAvailable : Option Bool := none
  metadata : Metadata := fun _ => none
  links : Links := fun _ => none

abbrev ArchiveItem := RunArchiveItem ItemDetails

def readRecordString (metadata : Metadata) (keys : List String) : Option String :=
  keys.findSome? fun key => (((metadata key).bind (·.string?)).map trim).filter (· ≠ "")

def readRecordNumber (metadata : Metadata) (keys : List String) : Option ℚ :=
  keys.findSome? fun key =>
    match (metadata key).bind (·.number?) with
    | some (.finite q) => if 0 ≤ q then some q else none
    | _ => none

/-- A text that counts as true. -/
def present (text : Option String) : Option String := text.filter (· ≠ "")

/-- `Boolean(value)`. -/
def truthy : Option Json → Bool
  | none | some .null => false
  | some (.bool value) => value
  | some (.number (.finite q)) => q ≠ 0
  | some (.number number) => number != .nan
  | some (.string value) => value ≠ ""
  | some (.array _) | some (.object _) => true

/-! ## Paths -/

/-- `path.basename`. -/
def basename (path : String) : String :=
  String.ofList ((path.toList.reverse.dropWhile (· = '/')).takeWhile (· ≠ '/')).reverse

/-- Every run of characters that do not belong is one underscore. -/
def replaceRuns (belongs : Char → Bool) : List Char → List Char
  | [] => []
  | c :: rest =>
    if belongs c then c :: replaceRuns belongs rest
    else
      match rest with
      | next :: _ => if belongs next then '_' :: replaceRuns belongs rest else replaceRuns belongs rest
      | [] => ['_']

/-- `[a-zA-Z0-9._-]`. -/
def isPathSegmentChar (c : Char) : Bool := c.isAlphanum || c = '.' || c = '_' || c = '-'

def sanitizeArchiveMaterializedPathSegment (value : String) : String :=
  let segment := (replaceRuns isPathSegmentChar value.toList).take 180
  if segment.isEmpty then "archive-item" else String.ofList segment

def archiveAssetMimeTypes : List (List String × String) :=
  [([".avif"], "image/avif"), ([".gif"], "image/gif"), ([".jpg", ".jpeg"], "image/jpeg"), ([".png"], "image/png"),
    ([".svg"], "image/svg+xml"), ([".webp"], "image/webp"), ([".mp4", ".m4v"], "video/mp4"),
    ([".mov"], "video/quicktime"), ([".webm"], "video/webm"), ([".mp3"], "audio/mpeg"), ([".m4a"], "audio/mp4"),
    ([".ogg"], "audio/ogg"), ([".wav"], "audio/wav"), ([".pdf"], "application/pdf"),
    ([".md", ".markdown"], "text/markdown; charset=utf-8"), ([".txt"], "text/plain; charset=utf-8"),
    ([".json"], "application/json; charset=utf-8")]

/-! ## The surroundings -/

/-- What reading a file gives. -/
inductive FileRead
  /-- its checksum, and its size if it is a regular file -/
  | content (checksumSha256 : String) (size : Option Nat)
  | missing
  /-- one of `ENODEV`, `ESTALE`, `EIO`, `EACCES` and `EPERM` -/
  | unavailable (errorCode : String)
  /-- another error, which is thrown -/
  | fails (errorCode : String)
  deriving DecidableEq

/-- The fields by which an attachment is looked up. -/
structure AttachmentQuery where
  id : String
  kind : RunArchiveItemKind
  provider : Option String
  projectId : Option String
  providerConversationId : Option String
  artifactId : Option String
  title : Option String
  fileName : Option String
  uri : Option String

structure CachedConversationAttachment where
  name : String
  localPath : String
  remoteUrl : Option String
  mimeType : Option String
  status : String
  sourceArtifactId : Option String
  sourceFileId : Option String
  deriving DecidableEq

structure CachedConversationAttachmentUnavailableEvidence where
  status : String
  reason : String
  sourceArtifactId : Option String
  sourceFileId : Option String
  manifestPath : String
  manifestConversationId : Option String
  manifestProjectId : Option String
  deriving DecidableEq

/-- `CachedConversationAttachmentEvidence`: a file, or why there is none. -/
inductive CachedConversationAttachmentEvidence
  | empty
  | file (file : CachedConversationAttachment)
  | unavailable (evidence : CachedConversationAttachmentUnavailableEvidence)
  deriving DecidableEq

structure LocalFiles where
  read : String → FileRead
  /-- the size of what is a regular file and no symbolic link -/
  plainSize : String → Option Nat
  /-- `listRegularArchiveFiles` of a directory of materialized files -/
  materialized : String → List String
  findCachedConversationAttachmentEvidence : AttachmentQuery → CachedConversationAttachmentEvidence

inductive GrokRetainedKind
  | buildArchive | workspaceFile | referencedFile
  deriving DecidableEq

/-- The fields that a receipt is checked against. -/
structure GrokReceiptFields where
  kind : RunArchiveItemKind
  providerConversationId : Option String
  responseId : Option String
  artifactId : Option String
  fileName : Option String
  checksumSha256 : Option String

structure GrokReceipt where
  sizeBytes : Nat
  sha256 : String

structure FileMetadataHost where
  cases : CaseTable
  /-- `grokBuildArchiveProvenance`, `grokWorkspaceFileReceipt` and `grokReferencedFileReceipt` -/
  grokReceipt : GrokRetainedKind → Json → GrokReceiptFields → Option GrokReceipt

section Enrich

variable (host : FileMetadataHost) (files : LocalFiles)

def normalizeArchiveComparableString (value : Option String) : Option String :=
  (value.map fun value => host.cases.toLowerCase (trim value)).filter (· ≠ "")

def inferArchiveAssetMimeType (fileName : String) : String :=
  let lower := (host.cases.toLowerCase fileName).toList
  (archiveAssetMimeTypes.findSome? fun (suffixes, mimeType) =>
    if suffixes.any fun suffix => suffix.toList.isSuffixOf lower then some mimeType else none).getD
      "application/octet-stream"

/-- `${runArchiveItemRoute(id)}/asset`. The route is a text with the encoded id. -/
def assetRoute (id : String) : String := s!"/v1/archive/items/{id}/asset"

/-! ## Retained files of Grok -/

def grokRetainedKind (item : ArchiveItem) : Option GrokRetainedKind :=
  if item.provider = some "grok" then
    if truthy (item.file.metadata "grokReferencedFile") then some .referencedFile
    else if truthy (item.file.metadata "grokWorkspaceFile") then some .workspaceFile
    else if truthy (item.file.metadata "grokBuildArchive") then some .buildArchive
    else none
  else none

def GrokRetainedKind.key : GrokRetainedKind → String
  | buildArchive => "grokBuildArchive"
  | workspaceFile => "grokWorkspaceFile"
  | referencedFile => "grokReferencedFile"

def grokReceiptOf (kind : GrokRetainedKind) (item : ArchiveItem) : Option GrokReceipt :=
  (item.file.metadata kind.key).bind fun receipt => host.grokReceipt kind receipt
    { kind := item.kind, providerConversationId := item.providerConversationId, responseId := item.responseId
      artifactId := item.file.artifactId, fileName := item.file.fileName, checksumSha256 := item.file.checksumSha256 }

/-- The retained file is there, with the size of its receipt, and with its checksum if that is asked for. -/
def grokRetainedFileAvailable (includeChecksum : Bool) (kind : GrokRetainedKind) (item : ArchiveItem) : Bool :=
  match grokReceiptOf host kind item, present item.file.localPath with
  | some receipt, some localPath =>
    files.plainSize localPath = some receipt.sizeBytes &&
      (!includeChecksum ||
        match files.read localPath with
        | .content checksumSha256 _ => checksumSha256 = receipt.sha256
        | _ => false)
  | _, _ => false

def withoutAsset (links : Links) : Links := Function.update links "asset" none

def withAsset (links : Links) (id : String) : Links := Function.update links "asset" (some (assetRoute id))

/-- A file that has been selected and never been retained. -/
def grokUnretained (kind : GrokRetainedKind) (item : ArchiveItem) : Bool :=
  kind ≠ .buildArchive && (present item.file.localPath).isNone && (present item.file.checksumSha256).isNone

def enrichGrokRetainedItem (includeChecksum : Bool) (kind : GrokRetainedKind) (item : ArchiveItem) : ArchiveItem :=
  if grokUnretained kind item then
    let source := if kind = .referencedFile then "grok-conversation-reference" else "grok-workspace-selection"
    { item with file := { item.file with
        status := some "metadata-only", fileAvailable := some false, links := withoutAsset item.file.links
        metadata := item.file.metadata.spread [("fileAvailable", .bool false),
          ("materialization", .object [("status", .string "not_materialized"), ("source", .string source)])] } }
  else
    let available := grokRetainedFileAvailable host files includeChecksum kind item
    let reason :=
      if available then
        if includeChecksum then "verified_retained_bytes" else "retained_file_present_checksum_pending"
      else "retained_bytes_unqualified"
    { item with file := { item.file with
        status := some (if available then "materialized" else "unavailable"), fileAvailable := some available
        links := if available then withAsset item.file.links item.id else withoutAsset item.file.links
        metadata := item.file.metadata.spread [("fileAvailable", .bool available),
          ("materialization", .object
            [("status", .string (if available then "materialized" else "unavailable")),
              ("source", .string "grok-archive-integrity-check"), ("reason", .string reason)])] } }

/-! ## Local files -/

structure LocalFile where
  checksumSha256 : Option String
  pathExists : Option Bool
  fileSizeBytes : Option Nat
  unavailableErrorCode : Option String
  deriving DecidableEq

def inspectArchiveLocalFile (localPath : Option String) (includeChecksum : Bool) : Except String LocalFile :=
  match present localPath with
  | none => .ok ⟨none, none, none, none⟩
  | some localPath =>
    match files.read localPath with
    | .content checksumSha256 size => .ok ⟨if includeChecksum then some checksumSha256 else none, some true, size, none⟩
    | .missing => .ok ⟨none, some false, none, none⟩
    | .unavailable errorCode => .ok ⟨none, some false, none, some errorCode⟩
    | .fails errorCode => .error errorCode

def attachmentQuery (item : ArchiveItem) : AttachmentQuery where
  id := item.id
  kind := item.kind
  provider := item.provider
  projectId := item.projectId
  providerConversationId := item.providerConversationId
  artifactId := item.file.artifactId
  title := item.file.title
  fileName := item.file.fileName
  uri := item.file.uri

def cachedConversationEvidence (item : ArchiveItem) : CachedConversationAttachmentEvidence :=
  if (present item.file.localPath).isSome then .empty
  else files.findCachedConversationAttachmentEvidence (attachmentQuery item)

def findExistingMaterializedArchiveFile (item : ArchiveItem) : Option String :=
  if item.kind ≠ .generatedArtifact then none
  else
    let found := files.materialized (sanitizeArchiveMaterializedPathSegment item.id)
    let expectedFileName := normalizeArchiveComparableString host (item.file.fileName <|> item.file.title)
    let named := expectedFileName.bind fun expected =>
      found.find? fun file => normalizeArchiveComparableString host (some (basename file)) = some expected
    named <|>
      match found with
      | [file] => some file
      | _ => none

def CachedConversationAttachmentEvidence.asset : CachedConversationAttachmentEvidence → Option CachedConversationAttachment
  | .file attachment => some attachment
  | _ => none

/-- The path of the file, and what the attachment cache knows of it. -/
def discoveredLocalPath (item : ArchiveItem) : Option String :=
  item.file.localPath <|> (cachedConversationEvidence files item).asset.map (·.localPath) <|>
    findExistingMaterializedArchiveFile host files item

def CachedConversationAttachment.metadata (file : CachedConversationAttachment) : JsonRecord :=
  [("materialization", .string "cached-conversation-attachment"), ("sourceArtifactFetchManifest", .bool true),
    ("sourceArtifactFetchStatus", .string file.status), ("sourceArtifactId", .ofOption file.sourceArtifactId),
    ("sourceFileId", .ofOption file.sourceFileId)]

/-! ## Evidence -/

def CachedConversationAttachmentUnavailableEvidence.record
    (evidence : CachedConversationAttachmentUnavailableEvidence) : JsonRecord :=
  [("sourceArtifactFetchManifest", .bool true), ("sourceArtifactFetchStatus", .string evidence.status),
    ("sourceArtifactFetchReason", .string evidence.reason), ("sourceArtifactId", .ofOption evidence.sourceArtifactId),
    ("sourceFileId", .ofOption evidence.sourceFileId), ("sourceManifestPath", .string evidence.manifestPath),
    ("sourceManifestConversationId", .ofOption evidence.manifestConversationId),
    ("sourceManifestProjectId", .ofOption evidence.manifestProjectId)]

def buildUnavailableLocalFileEvidence (localPath errorCode : String) : JsonRecord :=
  [("unavailableReason", .string "local-file-unavailable"), ("unavailableLocalPath", .string localPath),
    ("unavailableErrorCode", .string errorCode)]

def buildMissingLocalFileEvidence (item : ArchiveItem) (localPath : String) : Option JsonRecord :=
  if item.kind = .generatedArtifact ∨ item.kind = .upload then
    let reason :=
      if (present item.mediaGenerationId).isSome then "media-artifact-local-file-missing" else "local-file-missing"
    some [("unavailableReason", .string reason), ("missingLocalPath", .string localPath)]
  else none

def buildGeneratedArtifactUnavailableEvidence (item : ArchiveItem) : Option JsonRecord :=
  if item.kind ≠ .generatedArtifact then none
  else if (present item.file.localPath).isSome ||
      (readRecordString item.file.metadata ["localPath", "path"]).isSome then none
  else if (present item.mediaGenerationId).isSome then
    some [("unavailableReason", .string "media-artifact-missing-local-path")]
  else if (present item.providerConversationId).isSome then none
  else some [("unavailableReason", .string "missing-provider-conversation")]

def unavailableEvidence (item : ArchiveItem) (localFile : LocalFile) : Option JsonRecord :=
  let path := discoveredLocalPath host files item
  match localFile.unavailableErrorCode with
  | some errorCode => some (buildUnavailableLocalFileEvidence (path.getD "") errorCode)
  | none =>
    if localFile.pathExists = some false then buildMissingLocalFileEvidence item (path.getD "")
    else if (present path).isNone then
      match cachedConversationEvidence files item with
      | .unavailable evidence => some evidence.record
      | _ => buildGeneratedArtifactUnavailableEvidence item
    else none

def readUnavailableEvidenceReason (evidence : JsonRecord) : String :=
  (readRecordString (fun key => evidence.get key) ["sourceArtifactFetchReason", "unavailableReason"]).getD "unavailable"

/-- The fields that say that there is no file. -/
def unavailableFields (evidence : JsonRecord) : JsonRecord :=
  evidence ++ [("fileAvailable", .bool false),
    ("materialization", .object
      [("status", .string "unavailable"), ("source", .string "archive-read-refresh"),
        ("method", .string (readUnavailableEvidenceReason evidence))])]

/-- The materialization that a refresh has written. -/
def isRefreshOwned (materialization : Option Json) : Bool :=
  match materialization.bind (·.record?) with
  | some record => record.string? "status" = some "unavailable" && record.string? "source" = some "archive-read-refresh"
  | none => false

def clearRefreshOwnedUnavailableMetadata (metadata : Metadata) : Metadata :=
  let normalized := (((metadata.delete "unavailableReason").delete "missingLocalPath").delete
    "unavailableLocalPath").delete "unavailableErrorCode"
  if isRefreshOwned (metadata "materialization") then normalized.delete "materialization" else normalized

/-! ## Enriching -/

/-- The item with what its file says. -/
def enrichWith (item : ArchiveItem) (localFile : LocalFile) : ArchiveItem :=
  let asset := (cachedConversationEvidence files item).asset
  let path := discoveredLocalPath host files item
  let checksumSha256 := localFile.checksumSha256 <|> item.file.checksumSha256 <|>
    readRecordString item.file.metadata ["checksumSha256"]
  let evidence := unavailableEvidence host files item localFile
  let fileAvailable := localFile.pathExists <|> if evidence.isSome then some false else none
  let fileSizeBytes := localFile.fileSizeBytes.map (fun (size : Nat) => (size : ℚ)) <|>
    readRecordNumber item.file.metadata ["fileSizeBytes", "size"]
  let cacheKey := (present checksumSha256).map ("sha256:" ++ ·) <|> (present path).map ("path:" ++ ·)
  let fileName := item.file.fileName <|> asset.map (·.name) <|> (present path).map basename
  let mimeType := item.file.mimeType <|> asset.bind (·.mimeType) <|>
    (present fileName).map (inferArchiveAssetMimeType host)
  let current := item.file.metadata.spread ((asset.map (·.metadata)).getD [])
  let normalized := if fileAvailable = some true then clearRefreshOwnedUnavailableMetadata current else current
  let remoteUrl := asset.bind (·.remoteUrl)
  let text (value : Option String) : Option Json := (present value).map .string
  let marked := normalized.spread ((evidence.map unavailableFields).getD [])
  let located := (((marked.setIf "localPath" (text path)).setIf "path" (text path)).setIf "remoteUrl"
    (text remoteUrl)).setIf "fileName" (text fileName)
  let measured := ((located.setIf "mimeType" (text mimeType)).setIf "checksumSha256" (text checksumSha256)).setIf
    "fileSizeBytes" (fileSizeBytes.map fun size => .number (.finite size))
  { item with file := { item.file with
      fileName, mimeType, localPath := path, cacheKey := cacheKey <|> item.file.cacheKey, checksumSha256, fileAvailable
      uri := remoteUrl <|> item.file.uri
      links := if fileAvailable = some true then withAsset item.file.links item.id else item.file.links
      metadata := measured.setIf "fileAvailable" (fileAvailable.map .bool) } }

/-- `enrichFileMetadata` of one item. -/
def enrichFileMetadata (includeChecksum : Bool) (item : ArchiveItem) : Except String ArchiveItem :=
  match grokRetainedKind item with
  | some kind => .ok (enrichGrokRetainedItem host files includeChecksum kind item)
  | none =>
    match inspectArchiveLocalFile files (discoveredLocalPath host files item) includeChecksum with
    | .error errorCode => .error errorCode
    | .ok localFile => .ok (enrichWith host files item localFile)

end Enrich

end AuraCall.Archive
