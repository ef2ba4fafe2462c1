import AuraCall.Archive.Listing

/-!
# Refreshing an item twice

With the same files, an item that is refreshed twice is refreshed once (`enrichFileMetadata_idem`): the second refresh
finds the path that the first one has written, reads the same checksum and the same size, and writes the marks that are
there.
-/

namespace AuraCall.Archive

/-! ## Fields that are written again -/

namespace Metadata

theorem setIf_apply (metadata : Metadata) (key other : String) (value : Option Json) :
    metadata.setIf key value other = if other = key then value <|> metadata other else metadata other := by
  split
  · rename_i h
    subst h
    exact setIf_self _ _ _
  · exact setIf_of_ne ‹_› _

/-- Fields with different keys, one after the other. -/
theorem foldl_setIf : ∀ {fields : List (String × Option Json)} (metadata : Metadata) (key : String),
    (fields.map (·.1)).Nodup → fields.foldl (fun metadata field => metadata.setIf field.1 field.2) metadata key =
      ((fields.lookup key).join <|> metadata key)
  | [], _, _, _ => rfl
  | (name, value) :: rest, metadata, key, h => by
    rw [List.map_cons, List.nodup_cons] at h
    rw [List.foldl_cons, foldl_setIf _ _ h.2, setIf_apply, List.lookup_cons]
    by_cases hk : key = name
    · subst hk
      have hrest : rest.lookup key = none := List.lookup_eq_none_iff.mpr fun field hf => by
        simp only [bne_iff_ne, ne_eq]
        intro he
        exact h.1 (List.mem_map.mpr ⟨field, hf, he.symm⟩)
      rw [if_pos rfl, hrest, beq_self_eq_true]
      rfl
    · rw [if_neg hk, beq_false_of_ne hk]

theorem spread_spread (metadata : Metadata) (record : JsonRecord) :
    (metadata.spread record).spread record = metadata.spread record := by
  funext key
  unfold spread
  cases record.get key <;> rfl

end Metadata

section Idem

variable {host : FileMetadataHost} {files : LocalFiles} {item : ArchiveItem} {localFile : LocalFile}

/-- A file of Grok that was selected and never retained. -/
def grokMetadataOnly (kind : GrokRetainedKind) (item : ArchiveItem) : ArchiveItem :=
  withFile item { item.file with
    status := some "metadata-only", fileAvailable := some false, links := withoutAsset item.file.links
    metadata := item.file.metadata.spread [("fileAvailable", .bool false),
      ("materialization", .object [("status", .string "not_materialized"),
        ("source", .string (if kind = .referencedFile then "grok-conversation-reference"
          else "grok-workspace-selection"))])] }

def grokCheckedMaterialization (includeChecksum available : Bool) : Json :=
  let reason :=
    if available then
      if includeChecksum then "verified_retained_bytes" else "retained_file_present_checksum_pending"
    else "retained_bytes_unqualified"
  .object [("status", .string (if available then "materialized" else "unavailable")),
    ("source", .string "grok-archive-integrity-check"), ("reason", .string reason)]

/-- A file of Grok whose retained bytes were checked. -/
def grokChecked (includeChecksum available : Bool) (item : ArchiveItem) : ArchiveItem :=
  withFile item { item.file with
    status := some (if available then "materialized" else "unavailable"), fileAvailable := some available
    links := if available then withAsset item.file.links item.id else withoutAsset item.file.links
    metadata := item.file.metadata.spread [("fileAvailable", .bool available),
      ("materialization", grokCheckedMaterialization includeChecksum available)] }

theorem enrichGrokRetainedItem_eq (includeChecksum : Bool) (kind : GrokRetainedKind) (item : ArchiveItem) :
    enrichGrokRetainedItem host files includeChecksum kind item =
      if grokUnretained kind item then grokMetadataOnly kind item
      else grokChecked includeChecksum (grokRetainedFileAvailable host files includeChecksum kind item) item := rfl

theorem grokMetadataOnly_idem (kind : GrokRetainedKind) (item : ArchiveItem) :
    grokMetadataOnly kind (grokMetadataOnly kind item) = grokMetadataOnly kind item := by
  unfold grokMetadataOnly withFile
  dsimp only
  rw [Metadata.spread_spread, show withoutAsset (withoutAsset item.file.links) = _ from Function.update_idem _ _ _]
  rfl

theorem grokChecked_idem (includeChecksum available : Bool) (item : ArchiveItem) :
    grokChecked includeChecksum available (grokChecked includeChecksum available item) =
      grokChecked includeChecksum available item := by
  unfold grokChecked withFile
  dsimp only
  rw [Metadata.spread_spread]
  cases available with
  | true =>
    congr 2
    exact Function.update_idem _ _ _
  | false =>
    congr 2
    exact Function.update_idem _ _ _

/-- The receipt of a retained item reads nothing that a refresh writes. -/
theorem grokRetainedFileAvailable_grokChecked (includeChecksum available : Bool) (kind : GrokRetainedKind)
    (item : ArchiveItem) :
    grokRetainedFileAvailable host files includeChecksum kind (grokChecked includeChecksum available item) =
      grokRetainedFileAvailable host files includeChecksum kind item := by
  have hr : grokReceiptOf host kind (grokChecked includeChecksum available item) = grokReceiptOf host kind item := by
    cases kind <;> rfl
  unfold grokRetainedFileAvailable
  rw [hr]
  rfl

theorem enrichGrokRetainedItem_idem (includeChecksum : Bool) (kind : GrokRetainedKind) (item : ArchiveItem) :
    enrichGrokRetainedItem host files includeChecksum kind
        (enrichGrokRetainedItem host files includeChecksum kind item) =
      enrichGrokRetainedItem host files includeChecksum kind item := by
  rw [enrichGrokRetainedItem_eq includeChecksum kind item]
  by_cases hu : grokUnretained kind item
  · have hu' : grokUnretained kind (grokMetadataOnly kind item) := hu
    rw [if_pos hu, enrichGrokRetainedItem_eq, if_pos hu', grokMetadataOnly_idem]
  · have hu' : ¬grokUnretained kind
        (grokChecked includeChecksum (grokRetainedFileAvailable host files includeChecksum kind item) item) := hu
    rw [if_neg hu, enrichGrokRetainedItem_eq, if_neg hu', grokRetainedFileAvailable_grokChecked, grokChecked_idem]

/-! ### Files that are no retained files -/

/-- The fields on the file, in the metadata. -/
def fileFields (host : FileMetadataHost) (item : ArchiveItem) (files : LocalFiles) (localFile : LocalFile) :
    List (String × Option Json) :=
  let after := (enrichWith host files item localFile).file
  let text (value : Option String) : Option Json := (present value).map .string
  [("localPath", text after.localPath), ("path", text after.localPath),
    ("remoteUrl", text ((cachedConversationEvidence files item).asset.bind (·.remoteUrl))),
    ("fileName", text after.fileName), ("mimeType", text after.mimeType),
    ("checksumSha256", text after.checksumSha256),
    ("fileSizeBytes", (localFile.fileSizeBytes.map (fun (size : Nat) => (size : ℚ)) <|>
      readRecordNumber item.file.metadata ["fileSizeBytes", "size"]).map fun size => .number (.finite size)),
    ("fileAvailable", after.fileAvailable.map .bool)]

theorem enrichWith_metadata (key : String) :
    (enrichWith host files item localFile).file.metadata key =
      ((((fileFields host item files localFile).lookup key).join) <|>
        markedMetadata host files item localFile key) := by
  have hm : (enrichWith host files item localFile).file.metadata =
      (fileFields host item files localFile).foldl (fun metadata field => metadata.setIf field.1 field.2)
        (markedMetadata host files item localFile) := rfl
  rw [hm]
  exact Metadata.foldl_setIf _ _ (by simp [fileFields])

/-- The fields that are read again are the ones that are there. -/
theorem readRecordNumber_nonneg {metadata : Metadata} {keys : List String} {size : ℚ}
    (h : readRecordNumber metadata keys = some size) : 0 ≤ size := by
  unfold readRecordNumber at h
  obtain ⟨key, -, hk⟩ := List.exists_of_findSome?_eq_some h
  split at hk
  · split at hk
    · cases hk
      assumption
    · cases hk
  · cases hk

theorem readRecordNumber_found {metadata : Metadata} {size : ℚ}
    (h : metadata "fileSizeBytes" = some (.number (.finite size))) (h0 : 0 ≤ size) :
    readRecordNumber metadata ["fileSizeBytes", "size"] = some size := by
  unfold readRecordNumber
  rw [List.findSome?_cons, h]
  simp [Json.number?, h0]

/-- After a refresh with a path there is none to look up, and without one it is looked up as before. -/
theorem cachedConversationEvidence_refreshed (hp : discoveredLocalPath host files item ≠ some "") :
    cachedConversationEvidence files (enrichWith host files item localFile) =
      if (discoveredLocalPath host files item).isSome then .empty else cachedConversationEvidence files item := by
  cases hd : discoveredLocalPath host files item with
  | some path =>
    have hpath : present (enrichWith host files item localFile).file.localPath = some path := by
      rw [enrichWith_localPath, hd]
      rw [hd] at hp
      have hne : path ≠ "" := fun h => hp (congrArg some h)
      simp [present, Option.filter, hne]
    unfold cachedConversationEvidence
    rw [hpath]
    rfl
  | none =>
    have hnone := hd
    unfold discoveredLocalPath at hnone
    simp only [Option.orElse_eq_orElse, Option.orElse_eq_or, Option.or_eq_none_iff, Option.map_eq_none_iff] at hnone
    have hquery : attachmentQuery (enrichWith host files item localFile) = attachmentQuery item := by
      unfold attachmentQuery enrichWith
      dsimp only
      rw [hd, hnone.2.1]
      simp [present]
    unfold cachedConversationEvidence at hnone ⊢
    rw [hquery, enrichWith_localPath, hd, hnone.1]
    rfl

theorem asset_refreshed (hp : discoveredLocalPath host files item ≠ some "") :
    (cachedConversationEvidence files (enrichWith host files item localFile)).asset = none := by
  rw [cachedConversationEvidence_refreshed hp]
  split
  · rfl
  · rename_i hd
    simp only [Option.not_isSome_iff_eq_none] at hd
    unfold discoveredLocalPath at hd
    simp only [Option.orElse_eq_orElse, Option.orElse_eq_or, Option.or_eq_none_iff, Option.map_eq_none_iff] at hd
    exact hd.2.1

theorem asset_of_no_path (hd : discoveredLocalPath host files item = none) :
    item.file.localPath = none ∧ (cachedConversationEvidence files item).asset = none := by
  unfold discoveredLocalPath at hd
  simp only [Option.orElse_eq_orElse, Option.orElse_eq_or, Option.or_eq_none_iff, Option.map_eq_none_iff] at hd
  exact ⟨hd.1, hd.2.1⟩

theorem fileName_refreshed :
    (enrichWith host files item localFile).file.fileName =
      (item.file.fileName <|> (cachedConversationEvidence files item).asset.map (·.name) <|>
        (present (discoveredLocalPath host files item)).map basename) := rfl

theorem discoveredLocalPath_refreshed (hp : discoveredLocalPath host files item ≠ some "") :
    discoveredLocalPath host files (enrichWith host files item localFile) = discoveredLocalPath host files item := by
  cases hd : discoveredLocalPath host files item with
  | some path =>
    unfold discoveredLocalPath
    rw [enrichWith_localPath, hd]
    rfl
  | none =>
    have hfind : findExistingMaterializedArchiveFile host files (enrichWith host files item localFile) =
        findExistingMaterializedArchiveFile host files item := by
      unfold findExistingMaterializedArchiveFile
      rw [fileName_refreshed, hd, (asset_of_no_path hd).2]
      simp only [present, Option.filter_none, Option.map_none, Option.orElse_eq_orElse, Option.orElse_eq_or,
        Option.or_none]
      rfl
    have hd' := hd
    unfold discoveredLocalPath at hd' ⊢
    rw [asset_refreshed hp, enrichWith_localPath, hd, hfind]
    simp only [Option.orElse_eq_orElse, Option.orElse_eq_or, Option.or_eq_none_iff, Option.map_none, Option.none_or]
      at hd' ⊢
    exact hd'.2.2

theorem unavailableEvidence_refreshed (hp : discoveredLocalPath host files item ≠ some "") :
    unavailableEvidence host files (enrichWith host files item localFile) localFile =
      unavailableEvidence host files item localFile := by
  unfold unavailableEvidence
  dsimp only
  rw [discoveredLocalPath_refreshed hp, cachedConversationEvidence_refreshed hp]
  cases hd : discoveredLocalPath host files item with
  | some path =>
    have hpresent : (present (some path)).isNone = false := by
      have hne : path ≠ "" := fun h => hp (by rw [hd, h])
      simp [present, Option.filter, hne]
    rw [hpresent]
    rfl
  | none =>
    have hgenerated : buildGeneratedArtifactUnavailableEvidence (enrichWith host files item localFile) =
        buildGeneratedArtifactUnavailableEvidence item := by
      unfold buildGeneratedArtifactUnavailableEvidence readRecordString
      simp only [List.findSome?_cons, enrichWith_localPath, hd, (asset_of_no_path hd).1,
        enrichWith_metadata_path host (by rw [hd]; rfl) (.inl rfl),
        enrichWith_metadata_path host (by rw [hd]; rfl) (.inr rfl)]
      rfl
    rw [hgenerated]
    rfl

theorem clear_apply (metadata : Metadata) (key : String) :
    clearRefreshOwnedUnavailableMetadata metadata key =
      if key ∈ ["unavailableReason", "missingLocalPath", "unavailableLocalPath", "unavailableErrorCode"] then none
      else if key = "materialization" then unmarked (metadata key)
      else metadata key := by
  by_cases hm : key = "materialization"
  · subst hm
    rw [if_neg (by decide), if_pos rfl, clearRefreshOwnedUnavailableMetadata_materialization]
  · rw [if_neg hm]
    unfold clearRefreshOwnedUnavailableMetadata Metadata.delete
    by_cases h : key ∈ ["unavailableReason", "missingLocalPath", "unavailableLocalPath", "unavailableErrorCode"]
    · rw [if_pos h]
      simp only [List.mem_cons, List.not_mem_nil, or_false] at h
      split_ifs <;> rcases h with rfl | rfl | rfl | rfl <;> simp
    · rw [if_neg h]
      simp only [List.mem_cons, List.not_mem_nil, or_false, not_or] at h
      split_ifs <;> simp [h, hm]

theorem clear_clear {metadata metadata' : Metadata} {key : String}
    (h : metadata' key = clearRefreshOwnedUnavailableMetadata metadata key) :
    clearRefreshOwnedUnavailableMetadata metadata' key = clearRefreshOwnedUnavailableMetadata metadata key := by
  rw [clear_apply metadata', h, clear_apply]
  split_ifs
  · rfl
  · exact unmarked_unmarked _
  · rfl

/-- A file that is there leaves no evidence. -/
theorem unavailableEvidence_of_there
    (hl : inspectArchiveLocalFile files (discoveredLocalPath host files item) true = .ok localFile)
    (ht : localFile.pathExists = some true) : unavailableEvidence host files item localFile = none := by
  unfold inspectArchiveLocalFile at hl
  cases hp : present (discoveredLocalPath host files item) with
  | none =>
    rw [hp] at hl
    cases hl
    cases ht
  | some path =>
    rw [hp] at hl
    dsimp only at hl
    split at hl
    · cases hl
      unfold unavailableEvidence
      dsimp only
      rw [hp]
      rfl
    · cases hl
      cases ht
    · cases hl
      cases ht
    · cases hl

/-- The marks of a second refresh are those of the first. -/
theorem markedMetadata_refreshed (hp : discoveredLocalPath host files item ≠ some "")
    (hl : inspectArchiveLocalFile files (discoveredLocalPath host files item) true = .ok localFile) {key : String}
    (hk : (enrichWith host files item localFile).file.metadata key = markedMetadata host files item localFile key) :
    markedMetadata host files (enrichWith host files item localFile) localFile key =
      markedMetadata host files item localFile key := by
  have hcurrent : ∀ metadata : Metadata, metadata.spread [] = metadata := fun metadata => rfl
  have hmarked : markedMetadata host files (enrichWith host files item localFile) localFile =
      (if (localFile.pathExists <|>
            if (unavailableEvidence host files item localFile).isSome then some false else none) = some true then
          clearRefreshOwnedUnavailableMetadata (enrichWith host files item localFile).file.metadata
        else (enrichWith host files item localFile).file.metadata).spread
          (((unavailableEvidence host files item localFile).map unavailableFields).getD []) := by
    unfold markedMetadata
    rw [unavailableEvidence_refreshed hp, asset_refreshed hp]
    rfl
  rw [hmarked]
  cases he : unavailableEvidence host files item localFile with
  | some evidence =>
    have hn : localFile.pathExists ≠ some true := fun ht => by
      rw [unavailableEvidence_of_there hl ht] at he
      cases he
    have hfalse : ¬(localFile.pathExists <|> if (some evidence).isSome then some false else none) = some true := by
      cases hpe : localFile.pathExists with
      | none => simp
      | some found => rw [hpe] at hn; simpa using hn
    rw [if_neg hfalse]
    cases hg : (unavailableFields evidence).get key with
    | some value =>
      rw [show ((some evidence).map unavailableFields).getD [] = unavailableFields evidence from rfl,
        Metadata.spread_of_some hg]
      unfold markedMetadata
      rw [he]
      exact (Metadata.spread_of_some hg).symm
    | none =>
      rw [show ((some evidence).map unavailableFields).getD [] = unavailableFields evidence from rfl,
        Metadata.spread_of_none hg]
      exact hk
  | none =>
    rw [show ((none : Option JsonRecord).map unavailableFields).getD [] = [] from rfl, hcurrent]
    by_cases hav : (localFile.pathExists <|> if (none : Option JsonRecord).isSome then some false else none) = some true
    · have hcl : markedMetadata host files item localFile key = clearRefreshOwnedUnavailableMetadata
          (item.file.metadata.spread
            (((cachedConversationEvidence files item).asset.map (·.metadata)).getD [])) key := by
        unfold markedMetadata
        rw [he, if_pos hav]
        rfl
      rw [if_pos hav]
      rw [hcl] at hk ⊢
      exact clear_clear hk
    · rw [if_neg hav]
      exact hk

theorem fileName_refreshed_twice (hp : discoveredLocalPath host files item ≠ some "") :
    (enrichWith host files (enrichWith host files item localFile) localFile).file.fileName =
      (enrichWith host files item localFile).file.fileName := by
  rw [fileName_refreshed, asset_refreshed hp, discoveredLocalPath_refreshed hp, fileName_refreshed]
  simp only [Option.orElse_eq_orElse, Option.orElse_eq_or, Option.map_none, Option.none_or, Option.or_assoc,
    Option.or_self]

theorem mimeType_refreshed :
    (enrichWith host files item localFile).file.mimeType =
      (item.file.mimeType <|> (cachedConversationEvidence files item).asset.bind (·.mimeType) <|>
        (present (enrichWith host files item localFile).file.fileName).map (inferArchiveAssetMimeType host)) := rfl

theorem mimeType_refreshed_twice (hp : discoveredLocalPath host files item ≠ some "") :
    (enrichWith host files (enrichWith host files item localFile) localFile).file.mimeType =
      (enrichWith host files item localFile).file.mimeType := by
  rw [mimeType_refreshed, asset_refreshed hp, fileName_refreshed_twice hp, mimeType_refreshed]
  simp only [Option.orElse_eq_orElse, Option.orElse_eq_or, Option.bind_none, Option.none_or, Option.or_assoc,
    Option.or_self]

theorem checksum_refreshed_twice :
    (enrichWith host files (enrichWith host files item localFile) localFile).file.checksumSha256 =
      (enrichWith host files item localFile).file.checksumSha256 := by
  rw [enrichWith_checksumSha256, enrichWith_recordedChecksum, enrichWith_checksumSha256]
  cases localFile.checksumSha256 <;> rfl

theorem fileAvailable_refreshed_twice (hp : discoveredLocalPath host files item ≠ some "") :
    (enrichWith host files (enrichWith host files item localFile) localFile).file.fileAvailable =
      (enrichWith host files item localFile).file.fileAvailable := by
  rw [enrichWith_fileAvailable, enrichWith_fileAvailable, unavailableEvidence_refreshed hp]

/-- The size of a file, as it is written. -/
def fileSize (item : ArchiveItem) (localFile : LocalFile) : Option ℚ :=
  localFile.fileSizeBytes.map (fun (size : Nat) => (size : ℚ)) <|>
    readRecordNumber item.file.metadata ["fileSizeBytes", "size"]

theorem fileSize_refreshed : fileSize (enrichWith host files item localFile) localFile = fileSize item localFile := by
  have hsizeBytes : (enrichWith host files item localFile).file.metadata "fileSizeBytes" =
      ((fileSize item localFile).map (fun size => Json.number (.finite size)) <|>
        item.file.metadata "fileSizeBytes") := by
    rw [enrichWith_metadata, markedMetadata_other host (by decide)]
    rfl
  have hsize : (enrichWith host files item localFile).file.metadata "size" = item.file.metadata "size" :=
    enrichWith_metadata_other host (by decide) (by decide)
  cases hl : localFile.fileSizeBytes with
  | some size =>
    unfold fileSize
    rw [hl]
    rfl
  | none =>
    unfold fileSize at hsizeBytes ⊢
    rw [hl] at hsizeBytes ⊢
    simp only [Option.map_none, Option.orElse_eq_orElse, Option.orElse_eq_or, Option.none_or] at hsizeBytes ⊢
    cases hr : readRecordNumber item.file.metadata ["fileSizeBytes", "size"] with
    | some size =>
      rw [hr] at hsizeBytes
      exact readRecordNumber_found hsizeBytes (readRecordNumber_nonneg hr)
    | none =>
      rw [hr] at hsizeBytes
      rw [← hr]
      simp only [readRecordNumber, List.findSome?_cons, hsizeBytes, hsize, Option.map_none, Option.none_or]
      rfl

/-- The fields on the file are found again, but for the address, which is there already. -/
theorem fileFields_refreshed (hp : discoveredLocalPath host files item ≠ some "") (key : String)
    (hk : key ≠ "remoteUrl") :
    (fileFields host (enrichWith host files item localFile) files localFile).lookup key =
      (fileFields host item files localFile).lookup key := by
  have hs : fileSize (enrichWith host files item localFile) localFile = fileSize item localFile := fileSize_refreshed
  unfold fileSize at hs
  unfold fileFields
  dsimp only
  rw [fileName_refreshed_twice hp, mimeType_refreshed_twice hp, checksum_refreshed_twice,
    fileAvailable_refreshed_twice hp, enrichWith_localPath, discoveredLocalPath_refreshed hp, hs]
  simp only [List.lookup_cons, beq_false_of_ne hk]
  rfl

theorem metadata_refreshed_twice (hp : discoveredLocalPath host files item ≠ some "")
    (hl : inspectArchiveLocalFile files (discoveredLocalPath host files item) true = .ok localFile) :
    (enrichWith host files (enrichWith host files item localFile) localFile).file.metadata =
      (enrichWith host files item localFile).file.metadata := by
  funext key
  rw [enrichWith_metadata]
  by_cases hr : key = "remoteUrl"
  · subst hr
    have hnone : ((fileFields host (enrichWith host files item localFile) files localFile).lookup
        "remoteUrl").join = none := by
      unfold fileFields
      rw [asset_refreshed hp]
      rfl
    rw [hnone, markedMetadata_other host (by decide)]
    rfl
  · rw [fileFields_refreshed hp key hr, enrichWith_metadata]
    cases hf : ((fileFields host item files localFile).lookup key).join with
    | some value => rfl
    | none => exact markedMetadata_refreshed hp hl (by rw [enrichWith_metadata, hf]; rfl)

theorem orElse_twice {α : Type} (a b c : Option α) :
    (a.orElse fun _ => b.orElse fun _ => a.orElse fun _ => b.orElse fun _ => c) =
      a.orElse fun _ => b.orElse fun _ => c := by
  cases a <;> cases b <;> rfl

attribute [ext] ItemDetails

/-- **A file that is refreshed twice is refreshed once.** -/
theorem enrichWith_idem (hp : discoveredLocalPath host files item ≠ some "")
    (hl : inspectArchiveLocalFile files (discoveredLocalPath host files item) true = .ok localFile) :
    enrichWith host files (enrichWith host files item localFile) localFile = enrichWith host files item localFile := by
  have hchecksum : (localFile.checksumSha256 <|> recordedChecksum (enrichWith host files item localFile)) =
      (localFile.checksumSha256 <|> recordedChecksum item) := by
    rw [enrichWith_recordedChecksum]
    cases localFile.checksumSha256 <;> rfl
  have hfile : (enrichWith host files (enrichWith host files item localFile) localFile).file =
      (enrichWith host files item localFile).file := by
    refine ItemDetails.ext rfl rfl rfl rfl rfl rfl (fileName_refreshed_twice hp) (mimeType_refreshed_twice hp)
      (discoveredLocalPath_refreshed hp) ?_ ?_ checksum_refreshed_twice (fileAvailable_refreshed_twice hp)
      (metadata_refreshed_twice hp hl) ?_
    · change ((cachedConversationEvidence files (enrichWith host files item localFile)).asset.bind (·.remoteUrl) <|>
        (enrichWith host files item localFile).file.uri) = _
      rw [asset_refreshed hp]
      rfl
    · rw [enrichWith_cacheKey, hchecksum, discoveredLocalPath_refreshed hp, enrichWith_cacheKey]
      exact orElse_twice _ _ _
    · have hlinks : ∀ other, (enrichWith host files other localFile).file.links =
          if (enrichWith host files other localFile).file.fileAvailable = some true then
            withAsset other.file.links other.id
          else other.file.links := fun _ => rfl
      rw [hlinks, fileAvailable_refreshed_twice hp, hlinks]
      split
      · exact Function.update_idem _ _ _
      · rfl
  exact congrArg (withFile item) hfile

theorem enrichFileMetadata_idem {after : ArchiveItem}
    (hp : grokRetainedKind item = none → discoveredLocalPath host files item ≠ some "")
    (h : enrichFileMetadata host files true item = .ok after) :
    enrichFileMetadata host files true after = .ok after := by
  unfold enrichFileMetadata at h
  cases hk : grokRetainedKind item with
  | some kind =>
    rw [hk] at h
    cases h
    unfold enrichFileMetadata
    rw [grokRetainedKind_enrichGrok, hk]
    exact congrArg Except.ok (enrichGrokRetainedItem_idem true kind item)
  | none =>
    rw [hk] at h
    dsimp only at h
    cases hl : inspectArchiveLocalFile files (discoveredLocalPath host files item) true with
    | error errorCode =>
      rw [hl] at h
      cases h
    | ok localFile =>
      rw [hl] at h
      cases h
      unfold enrichFileMetadata
      rw [grokRetainedKind_enrichWith, hk]
      dsimp only
      rw [discoveredLocalPath_refreshed (hp hk), hl]
      exact congrArg Except.ok (enrichWith_idem (hp hk) hl)

end Idem

end AuraCall.Archive
