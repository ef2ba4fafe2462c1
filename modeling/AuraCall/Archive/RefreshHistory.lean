import AuraCall.Archive.FileMetadata

/-!
# Refreshing an item again and again

`refreshIndexedFileMetadata` of one item of the index, over a sequence of states of the local files. Every refresh reads
what the ones before it have written: the path, the checksum, the asset link and the metadata. `Forgets` says when the
past does not show (`refresh_forgets`).
-/

namespace AuraCall.Archive

open Materialization (IndexedItem normalizeRunArchiveItem)

/-! ## The refresh of an item -/

/-- The surroundings of one refresh: full, or of the availability only. -/
structure Refresh where
  files : LocalFiles
  includeChecksum : Bool := true

/-- `===` of two values of which neither is new. -/
def sameValue : Option Json → Option Json → Bool
  | some (.string left), some (.string right) => left = right
  | some (.number left), some (.number right) => left = right && left ≠ .nan
  | some (.bool left), some (.bool right) => left = right
  | some (.array _), some (.array _) => true
  | some (.object _), some (.object _) => true
  | some .null, some .null => true
  | none, none => true
  | _, _ => false

def comparedMetadata : List String :=
  ["localPath", "path", "remoteUrl", "unavailableReason", "sourceArtifactFetchStatus", "sourceArtifactFetchReason",
    "fileName", "mimeType", "checksumSha256", "fileSizeBytes", "fileAvailable"]

def fileMetadataChanged (stringify : Json → String) (previous next : ItemDetails) : Bool :=
  previous.cacheKey ≠ next.cacheKey || previous.checksumSha256 ≠ next.checksumSha256 ||
    previous.fileAvailable ≠ next.fileAvailable || previous.localPath ≠ next.localPath || previous.uri ≠ next.uri ||
    previous.fileName ≠ next.fileName || previous.mimeType ≠ next.mimeType ||
    comparedMetadata.any (fun key => !sameValue (previous.metadata key) (next.metadata key)) ||
    stringify ((previous.metadata "materialization").getD .null) ≠
      stringify ((next.metadata "materialization").getD .null) ||
    previous.links "asset" ≠ next.links "asset"

section Refresh

variable (host : FileMetadataHost) (stringify : Json → String)

def Refresh.enrich (refresh : Refresh) (item : ArchiveItem) : Except String ArchiveItem :=
  enrichFileMetadata host refresh.files refresh.includeChecksum item

/-- The item that stands in the index after a refresh. A refresh that throws writes nothing. -/
def refreshIndexedFileMetadata (stored : IndexedItem ItemDetails) (refresh : Refresh) : IndexedItem ItemDetails :=
  match refresh.enrich host stored.item with
  | .error _ => stored
  | .ok refreshed =>
    if fileMetadataChanged stringify stored.item.file refreshed.file then .normalize refreshed else stored

/-! ## What a refresh says of an item -/

/-- What an item says of its file. -/
structure RecordedFile where
  fileAvailable : Option Bool
  asset : Option String
  checksumSha256 : Option String
  cacheKey : Option String
  materialization : Option Json

def recordedFile (item : ArchiveItem) : RecordedFile where
  fileAvailable := item.file.fileAvailable
  asset := item.file.links "asset"
  checksumSha256 := item.file.checksumSha256
  cacheKey := item.file.cacheKey
  materialization := item.file.metadata "materialization"

/-! ## When the past does not show -/

def recordedChecksum (item : ArchiveItem) : Option String :=
  item.file.checksumSha256 <|> readRecordString item.file.metadata ["checksumSha256"]

namespace Refresh

def path (refresh : Refresh) (item : ArchiveItem) : Option String := discoveredLocalPath host refresh.files item

def asset (refresh : Refresh) (item : ArchiveItem) : Option CachedConversationAttachment :=
  (cachedConversationEvidence refresh.files item).asset

def localFile (refresh : Refresh) (item : ArchiveItem) : Except String LocalFile :=
  inspectArchiveLocalFile refresh.files (refresh.path host item) refresh.includeChecksum

/-- The materialization of an item before a refresh says anything of its file. -/
def materialization (refresh : Refresh) (item : ArchiveItem) : Option Json :=
  item.file.metadata.spread (((refresh.asset item).map (·.metadata)).getD []) "materialization"

/-- The refresh leaves the record that the file is unavailable. -/
def marks (refresh : Refresh) (item : ArchiveItem) (localFile : LocalFile) : Bool :=
  (unavailableEvidence host refresh.files item localFile).isSome

/-- The refresh has no path but the empty one that the item may have, and the attachment cache has no file. -/
def FindsNothing (refresh : Refresh) (item : ArchiveItem) : Prop :=
  present (refresh.path host item) = none ∧ refresh.path host item = item.file.localPath ∧ refresh.asset item = none

/-- The earlier one finds nothing, or both find a file at one path, both by the attachment cache or neither. -/
def FindsSame (item : ArchiveItem) (earlier later : Refresh) : Prop :=
  earlier.FindsNothing host item ∨
    (present (earlier.path host item) ≠ none ∧ later.path host item = earlier.path host item ∧
      (later.asset item).isSome = (earlier.asset item).isSome)

/-- The marks of the earlier refresh are written over, or were written over nothing. -/
def Unmarks (item : ArchiveItem) (earlier later : Refresh) (laterFile : LocalFile) : Prop :=
  later.marks host item laterFile ∨
    (laterFile.pathExists = some true ∧
      (later.materialization item = none ∨ isRefreshOwned (later.materialization item))) ∨
    (present (earlier.path host item) = none ∧ (later.asset item).isSome)

/-- What the earlier refresh has seen does not show after the later one: the later one finds the same file; it is still
available, if it was; and the earlier one has written no mark over a materialization that is to come back. -/
def ForgetsOne (item : ArchiveItem) (earlier later : Refresh) : Prop :=
  ∀ earlierFile, earlier.localFile host item = .ok earlierFile →
    FindsSame host item earlier later ∧
      ∀ laterFile, later.localFile host item = .ok laterFile →
        (earlierFile.pathExists = some true → laterFile.pathExists = some true) ∧
          (earlier.marks host item earlierFile → Unmarks host item earlier later laterFile)

/-- The checksum that was read last. -/
def lastChecksum (item : ArchiveItem) (past : List Refresh) : Option String :=
  past.foldl (fun checksum refresh =>
    match refresh.localFile host item with
    | .ok localFile => localFile.checksumSha256 <|> checksum
    | .error _ => checksum) none

/-- **The past does not show after the later refresh**: nothing that an earlier one has seen does, and the checksum is
read anew, if the last one that was read is not the recorded one. -/
def Forgets (item : ArchiveItem) (past : List Refresh) (later : Refresh) : Prop :=
  (∀ earlier ∈ past, ForgetsOne host item earlier later) ∧
    ∀ laterFile, later.localFile host item = .ok laterFile →
      laterFile.checksumSha256.isSome ∨ lastChecksum host item past = none ∨
        lastChecksum host item past = recordedChecksum item

/-- Every refresh of the sequence forgets the ones before it. -/
def Forgetful (item : ArchiveItem) (refreshes : List Refresh) : Prop :=
  ∀ past later, past ++ [later] <+: refreshes → Forgets host item past later

end Refresh

/-! ## The fields of a refreshed item -/

section Fields

variable {files : LocalFiles} {item : ArchiveItem} {localFile : LocalFile}

/-- The keys of the records that say that there is no file. -/
def evidenceKeys : List String :=
  ["unavailableReason", "missingLocalPath", "unavailableLocalPath", "unavailableErrorCode",
    "sourceArtifactFetchManifest", "sourceArtifactFetchStatus", "sourceArtifactFetchReason", "sourceArtifactId",
    "sourceFileId", "sourceManifestPath", "sourceManifestConversationId", "sourceManifestProjectId"]

theorem lookup_eq_none {record : JsonRecord} {keys : List String} {key : String} (h : key ∉ keys)
    (hk : ∀ field ∈ record, field.1 ∈ keys) : record.get key = none := by
  refine List.lookup_eq_none_iff.mpr fun field hf => ?_
  simp only [bne_iff_ne, ne_eq]
  rintro rfl
  exact h (hk field hf)

theorem unavailableEvidence_keys {evidence : JsonRecord}
    (h : unavailableEvidence host files item localFile = some evidence) :
    ∀ field ∈ evidence, field.1 ∈ evidenceKeys := by
  have generated : ∀ {record : JsonRecord}, buildGeneratedArtifactUnavailableEvidence item = some record →
      ∀ field ∈ record, field.1 ∈ evidenceKeys := by
    intro record hr
    unfold buildGeneratedArtifactUnavailableEvidence at hr
    split_ifs at hr <;> cases hr <;> simp [evidenceKeys]
  unfold unavailableEvidence at h
  dsimp only at h
  split at h
  · cases h
    simp [buildUnavailableLocalFileEvidence, evidenceKeys]
  · split_ifs at h with hm hp
    · unfold buildMissingLocalFileEvidence at h
      dsimp only at h
      split at h
      · cases h
        simp [evidenceKeys]
      · cases h
    · split at h
      · cases h
        simp [CachedConversationAttachmentUnavailableEvidence.record, evidenceKeys]
      · exact generated h

/-- The keys of the marks of a refresh. -/
def markKeys : List String := "fileAvailable" :: "materialization" :: evidenceKeys

/-- The mark that a refresh leaves as materialization. -/
def refreshMark (evidence : JsonRecord) : Json :=
  .object [("status", .string "unavailable"), ("source", .string "archive-read-refresh"),
    ("method", .string (readUnavailableEvidenceReason evidence))]

theorem isRefreshOwned_refreshMark (evidence : JsonRecord) : isRefreshOwned (some (refreshMark evidence)) := rfl

theorem unavailableFields_materialization {evidence : JsonRecord} (h : ∀ field ∈ evidence, field.1 ∈ evidenceKeys) :
    (unavailableFields evidence).get "materialization" = some (refreshMark evidence) := by
  have hn : evidence.lookup "materialization" = none := lookup_eq_none (by decide) h
  unfold unavailableFields JsonRecord.get
  rw [List.lookup_append, hn]
  rfl

theorem unavailableFields_other {evidence : JsonRecord} (h : ∀ field ∈ evidence, field.1 ∈ evidenceKeys) {key : String}
    (hk : key ∉ markKeys) : (unavailableFields evidence).get key = none := by
  refine lookup_eq_none hk fun field hf => ?_
  rcases List.mem_append.mp hf with hf | hf
  · exact List.mem_cons_of_mem _ (List.mem_cons_of_mem _ (h field hf))
  · simp only [List.mem_cons, List.not_mem_nil, or_false] at hf
    rcases hf with rfl | rfl <;> simp [markKeys]

theorem clearRefreshOwnedUnavailableMetadata_other (metadata : Metadata) {key : String} (hk : key ∉ markKeys) :
    clearRefreshOwnedUnavailableMetadata metadata key = metadata key := by
  simp only [markKeys, evidenceKeys, List.mem_cons, not_or] at hk
  obtain ⟨-, hm, h1, h2, h3, h4, -⟩ := hk
  unfold clearRefreshOwnedUnavailableMetadata
  split_ifs
  · rw [Metadata.delete_of_ne hm, Metadata.delete_of_ne h4, Metadata.delete_of_ne h3, Metadata.delete_of_ne h2,
      Metadata.delete_of_ne h1]
  · rw [Metadata.delete_of_ne h4, Metadata.delete_of_ne h3, Metadata.delete_of_ne h2, Metadata.delete_of_ne h1]

/-- The materialization after clearing: a mark is taken off. -/
def unmarked (materialization : Option Json) : Option Json :=
  if isRefreshOwned materialization then none else materialization

theorem unmarked_unmarked (materialization : Option Json) :
    unmarked (unmarked materialization) = unmarked materialization := by
  unfold unmarked
  split_ifs <;> simp_all

theorem clearRefreshOwnedUnavailableMetadata_materialization (metadata : Metadata) :
    clearRefreshOwnedUnavailableMetadata metadata "materialization" = unmarked (metadata "materialization") := by
  unfold clearRefreshOwnedUnavailableMetadata unmarked
  split_ifs with h
  · exact Metadata.delete_self _ _
  · rw [Metadata.delete_of_ne (by decide), Metadata.delete_of_ne (by decide), Metadata.delete_of_ne (by decide),
      Metadata.delete_of_ne (by decide)]

theorem CachedConversationAttachment.metadata_keys (file : CachedConversationAttachment) :
    ∀ field ∈ file.metadata, field.1 ∈ markKeys := by
  simp [CachedConversationAttachment.metadata, markKeys, evidenceKeys]

/-- The metadata before the fields on the file are written. -/
def markedMetadata (files : LocalFiles) (item : ArchiveItem) (localFile : LocalFile) : Metadata :=
  let current := item.file.metadata.spread (((cachedConversationEvidence files item).asset.map (·.metadata)).getD [])
  let evidence := unavailableEvidence host files item localFile
  (if (localFile.pathExists <|> if evidence.isSome then some false else none) = some true then
      clearRefreshOwnedUnavailableMetadata current
    else current).spread ((evidence.map unavailableFields).getD [])

theorem markedMetadata_other {key : String} (hk : key ∉ markKeys) :
    markedMetadata host files item localFile key = item.file.metadata key := by
  have current : item.file.metadata.spread
      (((cachedConversationEvidence files item).asset.map (·.metadata)).getD []) key = item.file.metadata key := by
    refine Metadata.spread_of_none ?_
    cases (cachedConversationEvidence files item).asset with
    | none => rfl
    | some file => exact lookup_eq_none hk file.metadata_keys
  unfold markedMetadata
  rw [Metadata.spread_of_none]
  · rw [ite_apply, clearRefreshOwnedUnavailableMetadata_other _ hk, current, ite_self]
  · cases he : unavailableEvidence host files item localFile with
    | none => rfl
    | some evidence => exact unavailableFields_other (unavailableEvidence_keys host he) hk

theorem markedMetadata_materialization_of_evidence {evidence : JsonRecord}
    (h : unavailableEvidence host files item localFile = some evidence) :
    markedMetadata host files item localFile "materialization" = some (refreshMark evidence) := by
  unfold markedMetadata
  rw [h]
  exact Metadata.spread_of_some (unavailableFields_materialization (unavailableEvidence_keys host h))

theorem markedMetadata_materialization (h : unavailableEvidence host files item localFile = none) :
    markedMetadata host files item localFile "materialization" =
      if localFile.pathExists = some true then
        unmarked (item.file.metadata.spread
          (((cachedConversationEvidence files item).asset.map (·.metadata)).getD []) "materialization")
      else item.file.metadata.spread
        (((cachedConversationEvidence files item).asset.map (·.metadata)).getD []) "materialization" := by
  unfold markedMetadata
  rw [h, Metadata.spread_of_none (by rfl)]
  simp only [Option.isSome_none, Bool.false_eq_true, if_false, Option.orElse_eq_orElse, Option.orElse_eq_or, Option.or_none]
  split
  · exact clearRefreshOwnedUnavailableMetadata_materialization _
  · rfl

theorem enrichWith_localPath :
    (enrichWith host files item localFile).file.localPath = discoveredLocalPath host files item := rfl

theorem enrichWith_checksumSha256 :
    (enrichWith host files item localFile).file.checksumSha256 =
      (localFile.checksumSha256 <|> recordedChecksum item) := rfl

theorem enrichWith_materialization :
    (enrichWith host files item localFile).file.metadata "materialization" =
      markedMetadata host files item localFile "materialization" := by
  unfold enrichWith markedMetadata
  dsimp only
  iterate 8 rw [Metadata.setIf_of_ne (by decide)]

/-- A key that is neither a mark nor a field on the file. -/
theorem enrichWith_metadata_other {key : String} (hk : key ∉ markKeys)
    (hf : key ∉ ["localPath", "path", "remoteUrl", "fileName", "mimeType", "checksumSha256", "fileSizeBytes"]) :
    (enrichWith host files item localFile).file.metadata key = item.file.metadata key := by
  have hm : markedMetadata host files item localFile key = item.file.metadata key := markedMetadata_other host hk
  have ha : key ≠ "fileAvailable" := fun h => hk (h ▸ List.mem_cons_self ..)
  simp only [List.mem_cons, List.not_mem_nil, or_false, not_or] at hf
  obtain ⟨h1, h2, h3, h4, h5, h6, h7⟩ := hf
  unfold enrichWith
  dsimp only
  rw [Metadata.setIf_of_ne ha, Metadata.setIf_of_ne h7, Metadata.setIf_of_ne h6, Metadata.setIf_of_ne h5,
    Metadata.setIf_of_ne h4, Metadata.setIf_of_ne h3, Metadata.setIf_of_ne h2, Metadata.setIf_of_ne h1]
  exact hm

theorem enrichWith_metadata_path (h : present (discoveredLocalPath host files item) = none) {key : String}
    (hk : key = "localPath" ∨ key = "path") :
    (enrichWith host files item localFile).file.metadata key = item.file.metadata key := by
  have hm : markedMetadata host files item localFile key = item.file.metadata key :=
    markedMetadata_other host (by rcases hk with rfl | rfl <;> decide)
  unfold enrichWith
  dsimp only
  rw [h]
  rcases hk with rfl | rfl
  · iterate 6 rw [Metadata.setIf_of_ne (by decide)]
    exact hm
  · iterate 6 rw [Metadata.setIf_of_ne (by decide)]
    exact hm

theorem enrichWith_recordedChecksum :
    recordedChecksum (enrichWith host files item localFile) =
      (localFile.checksumSha256 <|> recordedChecksum item) := by
  unfold recordedChecksum
  rw [enrichWith_checksumSha256]
  cases hc : localFile.checksumSha256 <|> recordedChecksum item with
  | some checksum =>
    unfold recordedChecksum at hc
    rw [hc]
    rfl
  | none =>
    -- Without a checksum the metadata keep what they say, which is none either.
    have hn : readRecordString item.file.metadata ["checksumSha256"] = none := by
      unfold recordedChecksum at hc
      cases h1 : localFile.checksumSha256 <;> cases h2 : item.file.checksumSha256 <;> simp_all
    have hm : (enrichWith host files item localFile).file.metadata "checksumSha256" =
        item.file.metadata "checksumSha256" := by
      have hp : markedMetadata host files item localFile "checksumSha256" = item.file.metadata "checksumSha256" :=
        markedMetadata_other host (by decide)
      unfold recordedChecksum at hc
      unfold enrichWith
      dsimp only
      rw [hc]
      iterate 2 rw [Metadata.setIf_of_ne (by decide)]
      rw [Metadata.setIf_self]
      iterate 5 rw [Metadata.setIf_of_ne (by decide)]
      exact hp
    unfold recordedChecksum at hc
    rw [hc]
    simp only [readRecordString, List.findSome?_cons] at hn ⊢
    rw [hm]
    exact hn

theorem enrichWith_fileAvailable :
    (enrichWith host files item localFile).file.fileAvailable =
      (localFile.pathExists <|>
        if (unavailableEvidence host files item localFile).isSome then some false else none) := rfl

theorem fileAvailable_eq_true :
    (enrichWith host files item localFile).file.fileAvailable = some true ↔ localFile.pathExists = some true := by
  rw [enrichWith_fileAvailable]
  cases localFile.pathExists with
  | some found => simp
  | none =>
    simp only [Option.orElse_eq_orElse, Option.orElse_eq_or, Option.none_or]
    split <;> simp

theorem enrichWith_asset :
    (enrichWith host files item localFile).file.links "asset" =
      if localFile.pathExists = some true then some (assetRoute item.id) else item.file.links "asset" := by
  have hl : (enrichWith host files item localFile).file.links =
      if (enrichWith host files item localFile).file.fileAvailable = some true then
        withAsset item.file.links item.id
      else item.file.links := rfl
  rw [hl]
  simp only [fileAvailable_eq_true]
  split
  · exact Function.update_self _ _ _
  · rfl

theorem enrichWith_cacheKey :
    (enrichWith host files item localFile).file.cacheKey =
      ((present (localFile.checksumSha256 <|> recordedChecksum item)).map ("sha256:" ++ ·) <|>
        (present (discoveredLocalPath host files item)).map ("path:" ++ ·) <|> item.file.cacheKey) := by
  unfold enrichWith recordedChecksum
  simp only [Option.orElse_eq_orElse, Option.orElse_eq_or, Option.or_assoc]

end Fields

/-! ## What refreshes leave -/

def withFile (item : ArchiveItem) (file : ItemDetails) : ArchiveItem := { item with file := file }

section Left

variable (item : ArchiveItem) (past : List Refresh) (file : ItemDetails)

/-- One of the refreshes has seen a file like this. -/
def Saw (what : Refresh → LocalFile → Prop) : Prop :=
  ∃ earlier ∈ past, ∃ localFile, earlier.localFile host item = .ok localFile ∧ what earlier localFile

/-- No refresh has found a file, and the next one asks for it as the first one did. -/
structure Unfound : Prop where
  localPath : file.localPath = item.file.localPath
  fileName : file.fileName = item.file.fileName
  uri : file.uri = item.file.uri
  paths : ∀ key, key = "localPath" ∨ key = "path" → file.metadata key = item.file.metadata key
  cacheKey : present (recordedChecksum item) = none → file.cacheKey = item.file.cacheKey
  materialization : file.metadata "materialization" = item.file.metadata "materialization" ∨
    isRefreshOwned (file.metadata "materialization") ∧
      Saw host item past fun earlier localFile => earlier.marks host item localFile

/-- A refresh has found the path at which all the later ones find the file. -/
def Found : Prop :=
  Saw host item past fun finder _ =>
    present (finder.path host item) ≠ none ∧ file.localPath = finder.path host item ∧
      (file.metadata "materialization" = finder.materialization item ∨
        file.metadata "materialization" = unmarked (finder.materialization item) ∧
          Saw host item past (fun _ localFile => localFile.pathExists = some true) ∨
        isRefreshOwned (file.metadata "materialization") ∧
          Saw host item past fun earlier localFile =>
            present (earlier.path host item) ≠ none ∧ earlier.marks host item localFile)

/-- What the refreshes so far have left of the item as it was first built. -/
structure LeftBy : Prop where
  title : file.title = item.file.title
  artifactId : file.artifactId = item.file.artifactId
  retained : ∀ kind : GrokRetainedKind, file.metadata kind.key = item.file.metadata kind.key
  checksum : recordedChecksum (withFile item file) =
    (Refresh.lastChecksum host item past <|> recordedChecksum item)
  asset : file.links "asset" = item.file.links "asset" ∨
    Saw host item past fun _ localFile => localFile.pathExists = some true
  place : Unfound host item past file ∨ Found host item past file

end Left

section Agree

variable {host} {item : ArchiveItem} {past : List Refresh} {file : ItemDetails} {later : Refresh}

theorem Saw.append {what : Refresh → LocalFile → Prop} (h : Saw host item past what) (refreshes : List Refresh) :
    Saw host item (past ++ refreshes) what := by
  obtain ⟨earlier, he, localFile, hl, hw⟩ := h
  exact ⟨earlier, List.mem_append_left _ he, localFile, hl, hw⟩

theorem Saw.last {what : Refresh → LocalFile → Prop} {localFile : LocalFile} (hl : later.localFile host item = .ok localFile)
    (hw : what later localFile) : Saw host item (past ++ [later]) what :=
  ⟨later, List.mem_append_right _ (List.mem_singleton_self _), localFile, hl, hw⟩

/-- Nothing has been done yet. -/
theorem leftBy_nil : LeftBy host item [] item.file where
  title := rfl
  artifactId := rfl
  retained _ := rfl
  checksum := rfl
  asset := .inl rfl
  place := .inl ⟨rfl, rfl, rfl, fun _ _ => rfl, fun _ => rfl, .inl rfl⟩

theorem LeftBy.not_retained (h : LeftBy host item past file) (hg : grokRetainedKind item = none) :
    grokRetainedKind (withFile item file) = none := by
  rw [← hg]
  unfold grokRetainedKind
  simp only [withFile, show file.metadata "grokReferencedFile" = _ from h.retained .referencedFile,
    show file.metadata "grokWorkspaceFile" = _ from h.retained .workspaceFile,
    show file.metadata "grokBuildArchive" = _ from h.retained .buildArchive]
  rfl

theorem Unfound.evidence (h : LeftBy host item past file) (hu : Unfound host item past file) (files : LocalFiles) :
    cachedConversationEvidence files (withFile item file) = cachedConversationEvidence files item := by
  unfold cachedConversationEvidence attachmentQuery
  simp only [withFile, hu.localPath, h.artifactId, h.title, hu.fileName, hu.uri]

theorem Unfound.path (h : LeftBy host item past file) (hu : Unfound host item past file) :
    later.path host (withFile item file) = later.path host item := by
  unfold Refresh.path discoveredLocalPath
  rw [hu.evidence h]
  unfold findExistingMaterializedArchiveFile
  simp only [withFile, hu.localPath, hu.fileName, h.title]

/-- After a file has been found, its path is looked up no more. -/
theorem Found.evidence (hf : Found host item past file) (files : LocalFiles) :
    cachedConversationEvidence files (withFile item file) = .empty := by
  obtain ⟨finder, -, -, -, hp, hl, -⟩ := hf
  unfold cachedConversationEvidence
  rw [if_pos]
  exact Option.isSome_iff_ne_none.mpr (by rw [← hl] at hp; exact hp)

theorem Found.path (hf : Found host item past file)
    (hl : Refresh.Forgets host item past later) :
    later.path host (withFile item file) = later.path host item := by
  obtain ⟨finder, hm, localFile, hs, hp, hlp, -⟩ := hf
  rcases (hl.1 finder hm localFile hs).1 with hn | ⟨-, he, -⟩
  · exact absurd hn.1 hp
  · rw [he, ← hlp]
    unfold Refresh.path discoveredLocalPath
    rw [← hlp] at hp
    cases hlo : file.localPath with
    | none => rw [hlo] at hp; exact absurd rfl hp
    | some path => simp [withFile, hlo]

theorem LeftBy.path (h : LeftBy host item past file)
    (hl : Refresh.Forgets host item past later) :
    later.path host (withFile item file) = later.path host item := by
  rcases h.place with hu | hf
  · exact hu.path h
  · exact hf.path hl

theorem LeftBy.localFile (h : LeftBy host item past file)
    (hl : Refresh.Forgets host item past later) :
    later.localFile host (withFile item file) = later.localFile host item := by
  unfold Refresh.localFile
  rw [h.path hl]

theorem Found.present_path (hf : Found host item past file)
    (hl : Refresh.Forgets host item past later) : present (later.path host item) ≠ none := by
  obtain ⟨finder, hm, localFile, hs, hp, -, -⟩ := hf
  rcases (hl.1 finder hm localFile hs).1 with hn | ⟨-, he, -⟩
  · exact absurd hn.1 hp
  · rw [he]
    exact hp

theorem Unfound.generated (hu : Unfound host item past file) :
    buildGeneratedArtifactUnavailableEvidence (withFile item file) = buildGeneratedArtifactUnavailableEvidence item := by
  unfold buildGeneratedArtifactUnavailableEvidence readRecordString
  simp only [withFile, hu.localPath, List.findSome?_cons, hu.paths "localPath" (.inl rfl), hu.paths "path" (.inr rfl)]
  rfl

theorem LeftBy.unavailableEvidence (h : LeftBy host item past file)
    (hl : Refresh.Forgets host item past later) (localFile : LocalFile) :
    unavailableEvidence host later.files (withFile item file) localFile =
      unavailableEvidence host later.files item localFile := by
  have hp : discoveredLocalPath host later.files (withFile item file) = discoveredLocalPath host later.files item :=
    h.path hl
  unfold Archive.unavailableEvidence
  dsimp only
  rw [hp]
  rcases h.place with hu | hf
  · rw [hu.evidence h, hu.generated]
    rfl
  · have hn : ¬(present (discoveredLocalPath host later.files item)).isNone := by
      rw [Option.isNone_iff_eq_none]
      exact hf.present_path hl
    rw [if_neg hn, if_neg hn]
    rfl

theorem Refresh.materialization_eq (refresh : Refresh) (item : ArchiveItem) :
    refresh.materialization item =
      if (refresh.asset item).isSome then some (.string "cached-conversation-attachment")
      else item.file.metadata "materialization" := by
  unfold Refresh.materialization
  cases refresh.asset item <;> rfl

theorem unmarked_eq_none {materialization : Option Json} (h : materialization = none ∨ isRefreshOwned materialization) :
    unmarked materialization = none := by
  unfold unmarked
  rcases h with rfl | h
  · rfl
  · rw [if_pos h]

theorem Found.materialization (hf : Found host item past file) :
    later.materialization (withFile item file) = file.metadata "materialization" := by
  rw [Refresh.materialization_eq, Refresh.asset, hf.evidence]
  rfl

/-- A checksum that was read once is the recorded one, or is read anew. -/
theorem LeftBy.checksum_eq (h : LeftBy host item past file)
    (hl : Refresh.Forgets host item past later) {localFile : LocalFile}
    (hs : later.localFile host item = .ok localFile) :
    (localFile.checksumSha256 <|> recordedChecksum (withFile item file)) =
      (localFile.checksumSha256 <|> recordedChecksum item) := by
  rw [h.checksum]
  rcases hl.2 localFile hs with hsome | hnone | heq
  · obtain ⟨checksum, hc⟩ := Option.isSome_iff_exists.mp hsome
    rw [hc]
    rfl
  · rw [hnone]
    rfl
  · rw [heq]
    cases recordedChecksum item <;> rfl

theorem lastChecksum_append {localFile : LocalFile} (hs : later.localFile host item = .ok localFile) :
    Refresh.lastChecksum host item (past ++ [later]) =
      (localFile.checksumSha256 <|> Refresh.lastChecksum host item past) := by
  unfold Refresh.lastChecksum
  rw [List.foldl_append]
  simp only [List.foldl_cons, List.foldl_nil, hs]

theorem localFile_of_no_path {refresh : Refresh} {localFile : LocalFile} (h : refresh.localFile host item = .ok localFile)
    (hp : present (refresh.path host item) = none) : localFile = ⟨none, none, none, none⟩ := by
  unfold Refresh.localFile inspectArchiveLocalFile at h
  rw [hp] at h
  cases h
  rfl

theorem LeftBy.cacheKey_eq (h : LeftBy host item past file)
    (hl : Refresh.Forgets host item past later) {localFile : LocalFile}
    (hs : later.localFile host item = .ok localFile) :
    (enrichWith host later.files (withFile item file) localFile).file.cacheKey =
      (enrichWith host later.files item localFile).file.cacheKey := by
  have hpath : discoveredLocalPath host later.files (withFile item file) = discoveredLocalPath host later.files item :=
    h.path hl
  rw [enrichWith_cacheKey, enrichWith_cacheKey, h.checksum_eq hl hs, hpath]
  cases hc : present (localFile.checksumSha256 <|> recordedChecksum item) with
  | some checksum => rfl
  | none =>
    cases hp : present (discoveredLocalPath host later.files item) with
    | some path => rfl
    | none =>
      rcases h.place with hu | hf
      · rw [localFile_of_no_path hs hp] at hc
        exact hu.cacheKey hc
      · exact absurd hp (hf.present_path hl)

theorem LeftBy.asset_eq (h : LeftBy host item past file)
    (hl : Refresh.Forgets host item past later) {localFile : LocalFile}
    (hs : later.localFile host item = .ok localFile) (ha : localFile.pathExists ≠ some true) :
    file.links "asset" = item.file.links "asset" := by
  rcases h.asset with hc | ⟨earlier, he, seen, hseen, hp⟩
  · exact hc
  · exact absurd (((hl.1 earlier he seen hseen).2 localFile hs).1 hp) ha

/-- The materialization before the refresh has an effect, where the refresh leaves no mark. -/
theorem LeftBy.materialization (h : LeftBy host item past file)
    (hl : Refresh.Forgets host item past later) {localFile : LocalFile}
    (hs : later.localFile host item = .ok localFile) (hm : ¬later.marks host item localFile) :
    (later.materialization (withFile item file) = later.materialization item) ∨
      localFile.pathExists = some true ∧
        unmarked (later.materialization (withFile item file)) = unmarked (later.materialization item) := by
  rcases h.place with hu | hf
  · have ha : later.asset (withFile item file) = later.asset item := by
      unfold Refresh.asset
      rw [hu.evidence h]
    rw [Refresh.materialization_eq later (withFile item file), ha]
    cases hasset : (later.asset item).isSome with
    | true => exact .inl (by rw [Refresh.materialization_eq, hasset]; rfl)
    | false =>
      have hbase : later.materialization item = item.file.metadata "materialization" := by
        rw [Refresh.materialization_eq, hasset]
        rfl
      rcases hu.materialization with heq | ⟨howned, earlier, he, seen, hseen, hmark⟩
      · exact .inl (by rw [hbase]; exact heq)
      · rcases ((hl.1 earlier he seen hseen).2 localFile hs).2 hmark with hm' | ⟨hp, hb⟩ | ⟨-, hsome⟩
        · exact absurd hm' hm
        · exact .inr ⟨hp, by rw [unmarked_eq_none hb]; exact unmarked_eq_none (.inr howned)⟩
        · rw [hasset] at hsome
          cases hsome
  · rw [hf.materialization]
    obtain ⟨finder, hfm, found, hfound, hp, -, hmat⟩ := hf
    have hbase : later.materialization item = finder.materialization item := by
      rcases (hl.1 finder hfm found hfound).1 with hn | ⟨-, -, ha⟩
      · exact absurd hn.1 hp
      · rw [Refresh.materialization_eq, Refresh.materialization_eq, ha]
    rcases hmat with heq | ⟨heq, earlier, he, seen, hseen, hav⟩ | ⟨howned, earlier, he, seen, hseen, hpe, hmark⟩
    · exact .inl (by rw [heq, hbase])
    · exact .inr ⟨((hl.1 earlier he seen hseen).2 localFile hs).1 hav, by rw [heq, hbase, unmarked_unmarked]⟩
    · rcases ((hl.1 earlier he seen hseen).2 localFile hs).2 hmark with hm' | ⟨hav, hb⟩ | ⟨hn, -⟩
      · exact absurd hm' hm
      · exact .inr ⟨hav, by rw [unmarked_eq_none hb, unmarked_eq_none (.inr howned)]⟩
      · exact absurd hn hpe

/-- **The past does not show** in the fields on the file. -/
theorem LeftBy.recordedFile (h : LeftBy host item past file)
    (hl : Refresh.Forgets host item past later) {localFile : LocalFile}
    (hs : later.localFile host item = .ok localFile) :
    recordedFile (enrichWith host later.files (withFile item file) localFile) =
      recordedFile (enrichWith host later.files item localFile) := by
  have hpath : discoveredLocalPath host later.files (withFile item file) = discoveredLocalPath host later.files item :=
    h.path hl
  have hchecksum := h.checksum_eq hl hs
  have hevidence := h.unavailableEvidence hl localFile
  unfold Archive.recordedFile
  congr 1
  · rw [enrichWith_fileAvailable, enrichWith_fileAvailable, hevidence]
  · rw [enrichWith_asset, enrichWith_asset]
    split
    · rfl
    · exact h.asset_eq hl hs ‹_›
  · exact h.cacheKey_eq hl hs
  · rw [enrichWith_materialization, enrichWith_materialization]
    cases he : Archive.unavailableEvidence host later.files item localFile with
    | some evidence =>
      rw [markedMetadata_materialization_of_evidence host he,
        markedMetadata_materialization_of_evidence host (hevidence.trans he)]
    | none =>
      rw [markedMetadata_materialization host he, markedMetadata_materialization host (hevidence.trans he)]
      have hm : ¬later.marks host item localFile := by
        unfold Refresh.marks
        rw [he]
        exact Bool.false_ne_true
      rcases h.materialization hl hs hm with heq | ⟨hav, heq⟩
      · exact congrArg₂ (if localFile.pathExists = some true then · else ·) (congrArg unmarked heq) heq
      · rw [if_pos hav, if_pos hav]
        exact heq

theorem enrichWith_left_materialization (h : LeftBy host item past file)
    (hl : Refresh.Forgets host item past later) (localFile : LocalFile) :
    later.marks host item localFile ∧
        isRefreshOwned ((enrichWith host later.files (withFile item file) localFile).file.metadata "materialization") ∨
      ¬later.marks host item localFile ∧
        (enrichWith host later.files (withFile item file) localFile).file.metadata "materialization" =
          if localFile.pathExists = some true then unmarked (later.materialization (withFile item file))
          else later.materialization (withFile item file) := by
  have hevidence := h.unavailableEvidence hl localFile
  unfold Refresh.marks
  cases he : Archive.unavailableEvidence host later.files item localFile with
  | some evidence =>
    refine .inl ⟨rfl, ?_⟩
    rw [enrichWith_materialization, markedMetadata_materialization_of_evidence host (hevidence.trans he)]
    exact isRefreshOwned_refreshMark evidence
  | none =>
    refine .inr ⟨Bool.false_ne_true, ?_⟩
    rw [enrichWith_materialization, markedMetadata_materialization host (hevidence.trans he)]
    rfl

theorem LeftBy.unfound (h : LeftBy host item past file)
    (hl : Refresh.Forgets host item past later) {localFile : LocalFile}
    (hs : later.localFile host item = .ok localFile) (hn : later.FindsNothing host item) :
    Unfound host item (past ++ [later]) (enrichWith host later.files (withFile item file) localFile).file := by
  obtain ⟨hp, hlp, ha⟩ := hn
  rcases h.place with hu | hf
  swap
  · exact absurd hp (hf.present_path hl)
  have hpath : discoveredLocalPath host later.files (withFile item file) = later.path host item := h.path hl
  have hasset : (cachedConversationEvidence later.files (withFile item file)).asset = none := by
    rw [hu.evidence h]
    exact ha
  have hnone := localFile_of_no_path hs hp
  refine ⟨?_, ?_, ?_, ?_, ?_, ?_⟩
  · rw [enrichWith_localPath, hpath, hlp]
  · unfold enrichWith
    dsimp only
    rw [hasset, hpath, hp]
    simp only [withFile, hu.fileName, Option.map_none, Option.orElse_eq_orElse, Option.orElse_eq_or, Option.or_none]
  · unfold enrichWith
    dsimp only
    rw [hasset]
    exact hu.uri
  · intro key hk
    rw [enrichWith_metadata_path host (by rw [hpath, hp]) hk]
    exact hu.paths key hk
  · intro hc
    have heq := h.checksum_eq hl hs
    rw [hnone] at heq ⊢
    rw [enrichWith_cacheKey, hpath, hp, heq]
    change ((present (recordedChecksum item)).map ("sha256:" ++ ·) <|> none <|> file.cacheKey) = _
    rw [hc]
    exact hu.cacheKey hc
  · rcases enrichWith_left_materialization h hl localFile with ⟨hm, howned⟩ | ⟨-, heq⟩
    · exact .inr ⟨howned, Saw.last hs hm⟩
    · rw [heq, hnone, if_neg (by simp), Refresh.materialization_eq, Refresh.asset, hasset]
      rcases hu.materialization with hsame | ⟨howned, hsaw⟩
      · exact .inl hsame
      · exact .inr ⟨howned, hsaw.append _⟩

theorem LeftBy.found (h : LeftBy host item past file)
    (hl : Refresh.Forgets host item past later) {localFile : LocalFile}
    (hs : later.localFile host item = .ok localFile) (hp : present (later.path host item) ≠ none) :
    Found host item (past ++ [later]) (enrichWith host later.files (withFile item file) localFile).file := by
  refine Saw.last hs ⟨hp, h.path hl, ?_⟩
  rcases enrichWith_left_materialization h hl localFile with ⟨hm, howned⟩ | ⟨hm, heq⟩
  · exact .inr (.inr ⟨howned, Saw.last hs ⟨hp, hm⟩⟩)
  · rw [heq]
    rcases h.materialization hl hs hm with hbase | ⟨hav, hbase⟩
    · split
      · exact .inr (.inl ⟨by rw [hbase], Saw.last hs ‹_›⟩)
      · exact .inl hbase
    · rw [if_pos hav]
      exact .inr (.inl ⟨hbase, Saw.last hs hav⟩)

/-- **A refresh leaves the item as the refreshes so far may leave it.** -/
theorem LeftBy.next (h : LeftBy host item past file)
    (hl : Refresh.Forgets host item past later) {localFile : LocalFile}
    (hs : later.localFile host item = .ok localFile)
    (hn : later.FindsNothing host item ∨ present (later.path host item) ≠ none) :
    LeftBy host item (past ++ [later]) (enrichWith host later.files (withFile item file) localFile).file where
  title := h.title
  artifactId := h.artifactId
  retained kind := by
    rw [enrichWith_metadata_other host (by cases kind <;> decide) (by cases kind <;> decide)]
    exact h.retained kind
  checksum := by
    have hr : recordedChecksum (withFile item (enrichWith host later.files (withFile item file) localFile).file) =
        (localFile.checksumSha256 <|> recordedChecksum (withFile item file)) := enrichWith_recordedChecksum host
    rw [hr, h.checksum, lastChecksum_append hs]
    simp only [Option.orElse_eq_orElse, Option.orElse_eq_or, Option.or_assoc]
  asset := by
    rw [enrichWith_asset]
    split
    · exact .inr (Saw.last hs ‹_›)
    · rcases h.asset with hsame | hsaw
      · exact .inl hsame
      · exact .inr (hsaw.append _)
  place := by
    rcases hn with hn | hp
    · exact .inl (h.unfound hl hs hn)
    · exact .inr (h.found hl hs hp)

/-! ## Runs -/

theorem Refresh.enrich_of_not_retained {stored : ArchiveItem} (hg : grokRetainedKind stored = none) (refresh : Refresh) :
    refresh.enrich host stored =
      (refresh.localFile host stored).map fun localFile => enrichWith host refresh.files stored localFile := by
  unfold Refresh.enrich enrichFileMetadata Refresh.localFile Refresh.path
  rw [hg]
  dsimp only
  cases inspectArchiveLocalFile refresh.files (discoveredLocalPath host refresh.files stored) refresh.includeChecksum <;>
    rfl

theorem normalize_withFile {stored : IndexedItem ItemDetails} (file : ItemDetails) :
    (IndexedItem.normalize (withFile stored.item file)).item = withFile stored.item file := by
  have h := congrArg Materialization.RunArchiveItem.projectId stored.normalized
  unfold IndexedItem.normalize normalizeRunArchiveItem withFile at *
  dsimp only at h ⊢
  rw [h]

/-- A refresh after which the stored item stays as it is. -/
theorem LeftBy.stay (h : LeftBy host item past file)
    (hc : recordedChecksum (withFile item file) =
      (Refresh.lastChecksum host item (past ++ [later]) <|> recordedChecksum item)) :
    LeftBy host item (past ++ [later]) file where
  title := h.title
  artifactId := h.artifactId
  retained := h.retained
  checksum := hc
  asset := h.asset.imp_right fun hs => hs.append _
  place := h.place.imp
    (fun hu => { hu with materialization := hu.materialization.imp_right fun hm => ⟨hm.1, hm.2.append _⟩ })
    fun hf => by
      obtain ⟨finder, hm, seen, hs, hp, hl, hmat⟩ := hf
      exact ⟨finder, List.mem_append_left _ hm, seen, hs, hp, hl,
        hmat.imp_right (Or.imp (fun hu => ⟨hu.1, hu.2.append _⟩) fun ho => ⟨ho.1, ho.2.append _⟩)⟩

/-- A refresh that throws reads no checksum. -/
theorem LeftBy.stay_of_error (h : LeftBy host item past file) {errorCode : String}
    (hs : later.localFile host item = .error errorCode) : LeftBy host item (past ++ [later]) file := by
  refine h.stay ?_
  rw [h.checksum]
  unfold Refresh.lastChecksum
  rw [List.foldl_append]
  simp only [List.foldl_cons, List.foldl_nil, hs]

/-- A refresh that changes nothing has read the checksum that is there. -/
theorem LeftBy.stay_of_same (h : LeftBy host item past file) {localFile : LocalFile}
    (hs : later.localFile host item = .ok localFile)
    (hc : file.checksumSha256 = (localFile.checksumSha256 <|> recordedChecksum (withFile item file))) :
    LeftBy host item (past ++ [later]) file := by
  refine h.stay ?_
  rw [lastChecksum_append hs]
  cases hl : localFile.checksumSha256 with
  | some checksum =>
    rw [hl] at hc
    unfold recordedChecksum
    simp only [withFile, hc]
    rfl
  | none => exact h.checksum

end Agree

theorem fileMetadataChanged_checksum {previous next : ItemDetails}
    (h : ¬fileMetadataChanged stringify previous next) : previous.checksumSha256 = next.checksumSha256 := by
  simp only [fileMetadataChanged, Bool.or_eq_true, not_or] at h
  simpa using h.1.1.1.1.1.1.1.1.2

/-- **One refresh of the stored item** leaves it as the refreshes so far may leave it. -/
theorem refreshIndexedFileMetadata_left {item stored : IndexedItem ItemDetails} {past : List Refresh}
    {file : ItemDetails} {later : Refresh} (hg : grokRetainedKind item.item = none)
    (hi : stored.item = withFile item.item file) (h : LeftBy host item.item past file)
    (hl : Refresh.Forgets host item.item past later)
    (hn : ∀ seen, later.localFile host item.item = .ok seen →
      later.FindsNothing host item.item ∨ present (later.path host item.item) ≠ none) :
    ∃ left, (refreshIndexedFileMetadata host stringify stored later).item = withFile item.item left ∧
      LeftBy host item.item (past ++ [later]) left := by
  unfold refreshIndexedFileMetadata
  rw [hi, Refresh.enrich_of_not_retained (h.not_retained hg), h.localFile hl]
  cases hs : later.localFile host item.item with
  | error errorCode => exact ⟨file, hi, h.stay_of_error hs⟩
  | ok seen =>
    simp only [Except.map]
    split
    · exact ⟨_, normalize_withFile _, h.next hl hs (hn seen hs)⟩
    · rename_i hc
      exact ⟨file, hi, h.stay_of_same hs (fileMetadataChanged_checksum stringify hc)⟩

theorem stored_left (item : IndexedItem ItemDetails) (hg : grokRetainedKind item.item = none) (past : List Refresh)
    (hp : Refresh.Forgetful host item.item past)
    (hn : ∀ refresh ∈ past, ∀ seen, refresh.localFile host item.item = .ok seen →
      refresh.FindsNothing host item.item ∨ present (refresh.path host item.item) ≠ none) :
    ∃ file, (past.foldl (refreshIndexedFileMetadata host stringify) item).item = withFile item.item file ∧
      LeftBy host item.item past file := by
  induction past using List.reverseRecOn with
  | nil => exact ⟨_, rfl, leftBy_nil⟩
  | append_singleton past later ih =>
    obtain ⟨file, hi, h⟩ := ih (fun before next hb => hp before next (hb.trans (List.prefix_append _ _)))
      fun refresh hr => hn refresh (List.mem_append_left _ hr)
    rw [List.foldl_append]
    exact refreshIndexedFileMetadata_left host stringify hg hi h (hp past later (List.prefix_refl _))
      (hn later (List.mem_append_right _ (List.mem_singleton_self _)))

/-- **A refresh forgets the past**: where every refresh of a sequence forgets the ones before it, the item says of its
file what the last refresh of the item as first built says, and has an asset link exactly when the file is available. -/
theorem refresh_forgets (item : IndexedItem ItemDetails) (past : List Refresh) (last : Refresh)
    (hg : grokRetainedKind item.item = none) (hb : item.item.file.links "asset" = none)
    (hp : Refresh.Forgetful host item.item (past ++ [last])) :
    (last.enrich host (past.foldl (refreshIndexedFileMetadata host stringify) item).item).map recordedFile =
        (last.enrich host item.item).map recordedFile ∧
      ∀ refreshed, last.enrich host (past.foldl (refreshIndexedFileMetadata host stringify) item).item = .ok refreshed →
        ((refreshed.file.links "asset").isSome ↔ refreshed.file.fileAvailable = some true) := by
  have hl : Refresh.Forgets host item.item past last := hp past last (List.prefix_refl _)
  obtain ⟨file, hi, h⟩ := stored_left host stringify item hg past
    (fun before next hb => hp before next (hb.trans (List.prefix_append _ _)))
    fun refresh hr seen hs => (hl.1 refresh hr seen hs).1.imp_right (·.1)
  rw [hi, Refresh.enrich_of_not_retained (h.not_retained hg), Refresh.enrich_of_not_retained hg, h.localFile hl]
  cases hs : last.localFile host item.item with
  | error errorCode => exact ⟨rfl, fun refreshed hr => by cases hr⟩
  | ok seen =>
    have hr := h.recordedFile hl hs
    refine ⟨congrArg Except.ok hr, ?_⟩
    rintro refreshed ⟨⟩
    rw [fileAvailable_eq_true, enrichWith_asset]
    split
    · simp [*]
    · have ha : (withFile item.item file).file.links "asset" = none := (h.asset_eq hl hs ‹_›).trans hb
      rw [ha]
      simp [*]

end Refresh

/-! ## A plot that is deleted and comes back -/

def plainHost : FileMetadataHost where
  cases := .lowered
  grokReceipt _ _ _ := none

def plot : IndexedItem ItemDetails := .normalize
  { id := "generated-artifact:run:plot", kind := .generatedArtifact, source := .runtime, createdAt := ""
    provider := some "chatgpt", runtimeProfile := none, projectId := none, boundIdentityKey := none, responseId := none
    batchId := none, mediaGenerationId := none, providerConversationId := none
    file := { fileName := some "plot.png", mimeType := some "image/png", localPath := some "/plots/plot.png" } }

/-- The files when every path reads the same. -/
def filesReading (file : FileRead) : LocalFiles where
  read _ := file
  plainSize _ := none
  materialized _ := []
  findCachedConversationAttachmentEvidence _ := .empty

def plotThere : Refresh := { files := filesReading (.content "aa" (some 3)) }

def plotGone : Refresh := { files := filesReading .missing }

theorem plot_forgetful : Refresh.Forgetful plainHost plot.item [plotGone, plotThere] := by
  rintro past later ⟨rest, h⟩
  match past with
  | [] =>
    refine ⟨fun earlier he => absurd he (List.not_mem_nil), fun _ _ => .inr (.inl rfl)⟩
  | [earlier] =>
    simp only [List.cons_append, List.nil_append, List.cons.injEq] at h
    obtain ⟨rfl, rfl, -⟩ := h
    refine ⟨fun earlier he earlierFile hs => ?_, fun _ _ => .inr (.inl rfl)⟩
    cases List.mem_singleton.mp he
    cases hs
    refine ⟨.inr ⟨by decide, rfl, rfl⟩, fun laterFile hl => ?_⟩
    cases hl
    refine ⟨fun hp => ?_, fun _ => .inr (.inl ⟨rfl, .inl rfl⟩)⟩
    cases hp
  | first :: second :: others =>
    have := congrArg List.length h
    simp at this

/-- The plot was deleted before its first refresh, and has come back. -/
theorem returned_plot_forgets :
    (plotThere.enrich plainHost ([plotGone].foldl (refreshIndexedFileMetadata plainHost fun _ => "") plot).item).map
          recordedFile =
        (plotThere.enrich plainHost plot.item).map recordedFile ∧
      ∀ refreshed,
        plotThere.enrich plainHost ([plotGone].foldl (refreshIndexedFileMetadata plainHost fun _ => "") plot).item =
            .ok refreshed →
          ((refreshed.file.links "asset").isSome ↔ refreshed.file.fileAvailable = some true) :=
  refresh_forgets plainHost (fun _ => "") plot [plotGone] plotThere rfl rfl plot_forgetful

/-- A deleted plot keeps its asset link, although it is known that there is no file. -/
theorem asset_link_outlives_file :
    ¬∀ (item : IndexedItem ItemDetails) (past : List Refresh) (last : Refresh) (refreshed : ArchiveItem),
      grokRetainedKind item.item = none → item.item.file.links "asset" = none →
      last.enrich plainHost (past.foldl (refreshIndexedFileMetadata plainHost fun _ => "") item).item = .ok refreshed →
        ((refreshed.file.links "asset").isSome ↔ refreshed.file.fileAvailable = some true) := by
  intro h
  have hp := h plot [plotThere] plotGone _ rfl rfl rfl
  exact absurd (hp.mp rfl) (by decide)

end AuraCall.Archive
