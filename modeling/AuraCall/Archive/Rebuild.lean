import AuraCall.Archive.Items
import AuraCall.Archive.RefreshTwice
import Mathlib.Algebra.Order.Group.Multiset
import Mathlib.Tactic.Abel

/-!
# The index and its rebuilding

A change of a store is followed by an upsert of the items of what has changed; `backfillIndex` builds the whole index
from the stores. The items of runs, media generations and materialized conversations are upserted refreshed, as they are
rebuilt. The items of batches and of evidence are upserted as they are built, and rebuilt refreshed; and an upsert
removes whatever has an id of its items (`index_is_rebuilt`).
-/

namespace AuraCall.Archive

open Materialization (IndexedItem RunArchiveItemKind normalizeRunArchiveItem indexOrder removeExisting)

/-! ## The stores -/

/-- What the store of history items holds was built of materialized conversations. -/
def IsHistoryItem (item : ArchiveItem) : Prop := item.source = .accountMirror ∧ item.kind ≠ .responseBatch

instance (item : ArchiveItem) : Decidable (IsHistoryItem item) :=
  inferInstanceAs (Decidable (item.source = .accountMirror ∧ item.kind ≠ .responseBatch))

structure ArchiveStores where
  runs : List ExecutionRunStoredRecord := []
  batches : List ResponseBatchRecord := []
  media : List MediaGenerationStoredRecord := []
  history : List { item : ArchiveItem // IsHistoryItem item } := []
  evidence : List RunArchiveEvidenceRecord := []

def ArchiveStores.append (left right : ArchiveStores) : ArchiveStores where
  runs := left.runs ++ right.runs
  batches := left.batches ++ right.batches
  media := left.media ++ right.media
  history := left.history ++ right.history
  evidence := left.evidence ++ right.evidence

structure IndexHost extends FileMetadataHost where
  encodeURIComponent : String → String
  searchParams : List (String × String) → String
  localeCompare : String → String → Ordering

def IndexHost.items (host : IndexHost) : ItemsHost := ⟨host.cases, host.encodeURIComponent, host.searchParams⟩

/-- A change of a store, with the call that follows it. -/
inductive StoreChange
  | run (record : ExecutionRunStoredRecord)
  | runRemoved (runId : String)
  | batch (record : ResponseBatchRecord)
  | batchRemoved (batchId : String)
  | media (record : MediaGenerationStoredRecord)
  | mediaRemoved (id : String)
  | history (input : RunArchiveHistoryMaterializationUpsertInput) (timestamp : String)
  | evidence (record : RunArchiveEvidenceRecord)

section System

variable (host : IndexHost) (files : LocalFiles)

/-! ## Rebuilding -/

/-- `collectArchiveItems`, before the file metadata are read. -/
def collectArchiveItems (stores : ArchiveStores) : List ArchiveItem :=
  stores.runs.flatMap (buildRunArchiveItems host.items) ++ stores.batches.map (buildBatchArchiveItem host.items) ++
    stores.media.flatMap (buildMediaArchiveItems host.items) ++ stores.history.map (·.val) ++
      stores.evidence.map (buildEvidenceArchiveItem host.items)

def enrich : ArchiveItem → Except String ArchiveItem := enrichFileMetadata host.toFileMetadataHost files true

/-- The index that is written from items. -/
def written (items : List ArchiveItem) : List (IndexedItem ItemDetails) :=
  (indexOrder (φ := ItemDetails) ⟨host.localeCompare, fun _ _ => true⟩).place [] (items.map .normalize)

def backfillIndex (stores : ArchiveStores) : Except String (List (IndexedItem ItemDetails)) :=
  ((collectArchiveItems host stores).mapM (enrich host files)).map (written host)

/-! ## Upserts -/

def upsertRunArchiveIndexedItems (index : List (IndexedItem ItemDetails)) (items : List ArchiveItem)
    (remove : ArchiveItem → Bool) : List (IndexedItem ItemDetails) :=
  (indexOrder (φ := ItemDetails) ⟨host.localeCompare, fun _ _ => true⟩).place
    (index.filter fun indexed => !items.any (·.id == indexed.item.id) && !remove indexed.item) (items.map .normalize)

namespace StoreChange

variable (change : StoreChange)

/-- What is built of the records that have been written. -/
def built : List ArchiveItem :=
  match change with
  | run record => buildRunArchiveItems host.items record
  | batch record => [buildBatchArchiveItem host.items record]
  | media record => buildMediaArchiveItems host.items record
  | history input timestamp => buildHistoryMaterializationArchiveItems host.items input timestamp
  | evidence record => [buildEvidenceArchiveItem host.items record]
  | runRemoved _ | batchRemoved _ | mediaRemoved _ => []

/-- The items that are upserted. Those of batches and evidence are not refreshed. -/
def upserted : Except String (List ArchiveItem) :=
  match change with
  | batch _ | evidence _ => .ok (change.built host)
  | _ => (change.built host).mapM (enrich host files)

/-- What the upsert removes besides the items with its ids. -/
def removes (items : List ArchiveItem) : ArchiveItem → Bool :=
  match change with
  | run record => removeExisting items (.upsertResponseItems record.runId)
  | runRemoved runId => removeExisting items (.upsertResponseItems runId)
  | batch record => removeExisting items (.upsertBatchItems record.id)
  | batchRemoved batchId => removeExisting items (.upsertBatchItems batchId)
  | media record => removeExisting items (.upsertMediaGenerationItems record.id)
  | mediaRemoved id => removeExisting items (.upsertMediaGenerationItems id)
  | history input _ => removeExisting items (.upsertHistoryMaterializationItems
      ⟨some input.provider, input.runtimeProfile, input.boundIdentityKey, some input.providerConversationId⟩)
  | evidence _ => removeExisting items .attachEvidence

/-- The stores without the records that the change writes over or removes. -/
def without (stores : ArchiveStores) : ArchiveStores :=
  match change with
  | run record => { stores with runs := stores.runs.filter (·.runId ≠ record.runId) }
  | runRemoved runId => { stores with runs := stores.runs.filter (·.runId ≠ runId) }
  | batch record => { stores with batches := stores.batches.filter (·.id ≠ record.id) }
  | batchRemoved batchId => { stores with batches := stores.batches.filter (·.id ≠ batchId) }
  | media record => { stores with media := stores.media.filter (·.id ≠ record.id) }
  | mediaRemoved id => { stores with media := stores.media.filter (·.id ≠ id) }
  | history _ _ =>
    { stores with history := stores.history.filter fun item => !(change.built host).any (·.id == item.val.id) }
  | evidence record => { stores with evidence := stores.evidence.filter (·.id ≠ record.id) }

/-- The records that the change writes; history items are kept as they are upserted. -/
def records (items : List ArchiveItem) : ArchiveStores :=
  match change with
  | run record => { runs := [record] }
  | batch record => { batches := [record] }
  | media record => { media := [record] }
  | history _ _ =>
    { history := items.filterMap fun item => if h : IsHistoryItem item then some ⟨item, h⟩ else none }
  | evidence record => { evidence := [record] }
  | runRemoved _ | batchRemoved _ | mediaRemoved _ => {}

def apply (items : List ArchiveItem) (stores : ArchiveStores) : ArchiveStores :=
  (change.without host stores).append (change.records items)

end StoreChange

structure ArchiveSystem where
  stores : ArchiveStores
  index : Option (List (IndexedItem ItemDetails))

def ensureArchiveIndex (s : ArchiveSystem) : Except String (List (IndexedItem ItemDetails)) :=
  match s.index with
  | some index => .ok index
  | none => backfillIndex host files s.stores

/-- A change and its upsert. -/
def applyChange (s : ArchiveSystem) (change : StoreChange) : Except String ArchiveSystem :=
  match change.upserted host files with
  | .error errorCode => .error errorCode
  | .ok items =>
    let stores := change.apply host items s.stores
    match ensureArchiveIndex host files ⟨stores, s.index⟩ with
    | .error errorCode => .error errorCode
    | .ok index => .ok ⟨stores, some (upsertRunArchiveIndexedItems host index items (change.removes items))⟩

/-- **The index holds what a rebuild would build**, in some order. -/
def UpToDate (s : ArchiveSystem) : Prop :=
  ∀ index, s.index = some index → ∃ rebuilt, backfillIndex host files s.stores = .ok rebuilt ∧ index.Perm rebuilt

/-! ## Refreshing a list -/

section Values

variable {α ε : Type}

/-- What is made of an element, if anything is. -/
def value (f : α → Except ε α) (a : α) : α :=
  match f a with
  | .ok b => b
  | .error _ => a

theorem value_of_ok {f : α → Except ε α} {a b : α} (h : f a = .ok b) : value f a = b := by
  unfold value
  rw [h]

theorem mapM_eq_ok {f : α → Except ε α} : ∀ {l bs : List α},
    l.mapM f = .ok bs ↔ (∀ a ∈ l, f a = .ok (value f a)) ∧ bs = l.map (value f)
  | [], bs => by
    constructor
    · intro h
      cases h
      exact ⟨fun _ ha => absurd ha List.not_mem_nil, rfl⟩
    · rintro ⟨-, rfl⟩
      rfl
  | a :: l, bs => by
    rw [mapM_cons_eq_ok]
    constructor
    · rintro ⟨b, rest, hb, hrest, rfl⟩
      obtain ⟨hall, rfl⟩ := mapM_eq_ok.mp hrest
      rw [List.map_cons, value_of_ok hb]
      refine ⟨fun a' ha' => ?_, rfl⟩
      rcases List.mem_cons.mp ha' with rfl | ha'
      · rw [value_of_ok hb, hb]
      · exact hall a' ha'
    · rintro ⟨hall, rfl⟩
      exact ⟨value f a, l.map (value f), hall a (List.mem_cons_self ..),
        mapM_eq_ok.mpr ⟨fun a' ha' => hall a' (List.mem_cons_of_mem _ ha'), rfl⟩, rfl⟩

end Values

section Perms

variable {host files}

theorem collectArchiveItems_perm {stores left right : ArchiveStores} (hr : stores.runs.Perm (left.runs ++ right.runs))
    (hb : stores.batches.Perm (left.batches ++ right.batches)) (hm : stores.media.Perm (left.media ++ right.media))
    (hh : stores.history.Perm (left.history ++ right.history))
    (he : stores.evidence.Perm (left.evidence ++ right.evidence)) :
    (collectArchiveItems host stores).Perm (collectArchiveItems host left ++ collectArchiveItems host right) := by
  have hsum := ((((hr.flatMap_right (buildRunArchiveItems host.items)).append
    (hb.map (buildBatchArchiveItem host.items))).append (hm.flatMap_right (buildMediaArchiveItems host.items))).append
      (hh.map (·.val))).append (he.map (buildEvidenceArchiveItem host.items))
  refine hsum.trans ?_
  unfold collectArchiveItems
  rw [← Multiset.coe_eq_coe]
  simp only [List.flatMap_append, List.map_append, ← Multiset.coe_add]
  abel

theorem written_perm (items : List ArchiveItem) : (written host items).Perm (items.map .normalize) :=
  (indexOrder _).perm [] _

theorem backfillIndex_eq_ok {stores : ArchiveStores} {index : List (IndexedItem ItemDetails)} :
    (∃ rebuilt, backfillIndex host files stores = .ok rebuilt ∧ index.Perm rebuilt) ↔
      (∀ item ∈ collectArchiveItems host stores, enrich host files item = .ok (value (enrich host files) item)) ∧
        index.Perm (((collectArchiveItems host stores).map (value (enrich host files))).map .normalize) := by
  unfold backfillIndex
  constructor
  · rintro ⟨rebuilt, hr, hp⟩
    cases hm : (collectArchiveItems host stores).mapM (enrich host files) with
    | error errorCode =>
      rw [hm] at hr
      cases hr
    | ok items =>
      rw [hm] at hr
      cases hr
      obtain ⟨hall, rfl⟩ := mapM_eq_ok.mp hm
      exact ⟨hall, hp.trans (written_perm _)⟩
  · rintro ⟨hall, hp⟩
    rw [mapM_eq_ok.mpr ⟨hall, rfl⟩]
    exact ⟨_, rfl, hp.trans (written_perm _).symm⟩

/-- **An upsert** keeps the rest, drops the old items, and adds its own. -/
theorem upsert_perm {index : List (IndexedItem ItemDetails)} {rest old items : List ArchiveItem}
    {remove : ArchiveItem → Bool} (h : index.Perm ((rest ++ old).map .normalize))
    (hrest : ∀ item ∈ rest, (∀ other ∈ items, other.id ≠ item.id) ∧ remove (normalizeRunArchiveItem item) = false)
    (hold : ∀ item ∈ old, (∃ other ∈ items, other.id = item.id) ∨ remove (normalizeRunArchiveItem item) = true) :
    (upsertRunArchiveIndexedItems host index items remove).Perm ((rest ++ items).map .normalize) := by
  unfold upsertRunArchiveIndexedItems
  refine ((indexOrder _).perm _ _).trans ?_
  rw [List.map_append]
  refine List.Perm.append_right _ ((h.filter _).trans ?_)
  rw [List.map_append, List.filter_append, List.filter_eq_self.mpr, List.filter_eq_nil_iff.mpr, List.append_nil]
  · intro indexed hi
    obtain ⟨item, hitem, rfl⟩ := List.mem_map.mp hi
    rcases hold item hitem with ⟨other, ho, hid⟩ | hr
    · have hany : items.any (·.id == (IndexedItem.normalize item).item.id) :=
        List.any_eq_true.mpr ⟨other, ho, beq_iff_eq.mpr hid⟩
      simp [hany]
    · have : remove (IndexedItem.normalize item).item = true := hr
      simp [this]
  · intro indexed hi
    obtain ⟨item, hitem, rfl⟩ := List.mem_map.mp hi
    obtain ⟨hid, hr⟩ := hrest item hitem
    have hany : items.any (·.id == (IndexedItem.normalize item).item.id) = false :=
      List.any_eq_false.mpr fun other ho he => hid other ho (beq_iff_eq.mp he)
    have : remove (IndexedItem.normalize item).item = false := hr
    simp [hany, this]

end Perms

/-! ## When a change meets the rebuild -/

/-- `findCachedConversationAttachmentEvidence` returns at once for an item that is no generated artifact. -/
def CachedForArtifacts : Prop :=
  ∀ query, query.kind ≠ .generatedArtifact → files.findCachedConversationAttachmentEvidence query = .empty

/-- A refresh has nothing to add to an item without a file. -/
structure NothingToAdd (item : ArchiveItem) : Prop where
  checksum : readRecordString item.file.metadata ["checksumSha256"] = none
  size : ∀ size, readRecordNumber item.file.metadata ["fileSizeBytes", "size"] = some size →
    item.file.metadata "fileSizeBytes" = some (.number (.finite size))

/-- What the items of a change are to be like, so that a rebuild gives them as they were upserted. -/
def RebuildsAlike (change : StoreChange) : Prop :=
  match change with
  | .batch _ | .evidence _ => ∀ item ∈ change.built host, NothingToAdd item
  | .history _ _ => ∀ item ∈ change.built host, grokRetainedKind item = none →
      discoveredLocalPath host.toFileMetadataHost files item ≠ some ""
  | _ => True

/-- No other item has an id of the items of the change, and a rebuild gives them as they were upserted. -/
def Meets (s : ArchiveSystem) (change : StoreChange) : Prop :=
  (∀ item ∈ change.built host, ∀ other ∈ collectArchiveItems host (change.without host s.stores), item.id ≠ other.id) ∧
    RebuildsAlike host files change

section Meets

variable {host files}

/-- An item of a record that has no file. -/
structure Fileless (item : ArchiveItem) : Prop where
  kind : item.kind ≠ .generatedArtifact
  provider : item.provider = none
  fileName : item.file.fileName = none
  mimeType : item.file.mimeType = none
  localPath : item.file.localPath = none
  checksumSha256 : item.file.checksumSha256 = none
  fileAvailable : item.file.fileAvailable = none

theorem fileless_batch (record : ResponseBatchRecord) : Fileless (buildBatchArchiveItem host.items record) :=
  ⟨by simp [buildBatchArchiveItem], rfl, rfl, rfl, rfl, rfl, rfl⟩

theorem fileless_evidence (record : RunArchiveEvidenceRecord) : Fileless (buildEvidenceArchiveItem host.items record) :=
  ⟨by simp [buildEvidenceArchiveItem], rfl, rfl, rfl, rfl, rfl, rfl⟩

/-- Fields that say nothing, or what the metadata say. -/
theorem lookup_or_self {metadata : Metadata} {key : String} : ∀ {fields : List (String × Option Json)},
    (∀ field ∈ fields, field.2 = none ∨ field.2 = metadata field.1) →
      ((fields.lookup key).join <|> metadata key) = metadata key
  | [], _ => rfl
  | (name, found) :: rest, h => by
    rw [List.lookup_cons]
    by_cases hk : key = name
    · subst hk
      rw [beq_self_eq_true]
      rcases h _ (List.mem_cons_self ..) with hf | hf
      · change (found <|> metadata key) = _
        rw [show found = none from hf]
        rfl
      · change (found <|> metadata key) = _
        rw [show found = metadata key from hf]
        cases metadata key <;> rfl
    · rw [beq_false_of_ne hk]
      exact lookup_or_self fun field hf => h field (List.mem_cons_of_mem _ hf)

/-- Nothing is found for an item. -/
structure NothingFound (host : IndexHost) (files : LocalFiles) (item : ArchiveItem) : Prop where
  evidence : cachedConversationEvidence files item = .empty
  path : discoveredLocalPath host.toFileMetadataHost files item = none
  unavailable : unavailableEvidence host.toFileMetadataHost files item ⟨none, none, none, none⟩ = none

theorem nothingFound {item : ArchiveItem} (hc : CachedForArtifacts files) (hb : Fileless item) :
    NothingFound host files item := by
  have hnone : cachedConversationEvidence files item = .empty := by
    unfold cachedConversationEvidence
    rw [hb.localPath]
    exact hc _ hb.kind
  have hpath : discoveredLocalPath host.toFileMetadataHost files item = none := by
    unfold discoveredLocalPath findExistingMaterializedArchiveFile
    rw [hnone, hb.localPath, if_pos hb.kind]
    rfl
  refine ⟨hnone, hpath, ?_⟩
  unfold unavailableEvidence buildGeneratedArtifactUnavailableEvidence
  dsimp only
  rw [hpath, hnone, if_pos hb.kind]
  rfl

theorem NothingFound.asset {item : ArchiveItem} (h : NothingFound host files item) :
    (cachedConversationEvidence files item).asset = none := by
  rw [h.evidence]
  rfl

theorem NothingFound.fileAvailable {item : ArchiveItem} (h : NothingFound host files item) :
    (enrichWith host.toFileMetadataHost files item ⟨none, none, none, none⟩).file.fileAvailable = none := by
  rw [enrichWith_fileAvailable, h.unavailable]
  rfl

theorem NothingFound.fileName {item : ArchiveItem} (h : NothingFound host files item) (hb : Fileless item) :
    (enrichWith host.toFileMetadataHost files item ⟨none, none, none, none⟩).file.fileName = none := by
  rw [fileName_refreshed, hb.fileName, h.evidence, h.path]
  rfl

theorem NothingFound.mimeType {item : ArchiveItem} (h : NothingFound host files item) (hb : Fileless item) :
    (enrichWith host.toFileMetadataHost files item ⟨none, none, none, none⟩).file.mimeType = none := by
  rw [mimeType_refreshed, hb.mimeType, h.asset, h.fileName hb]
  rfl

theorem recordedChecksum_fileless {item : ArchiveItem} (hb : Fileless item) (hn : NothingToAdd item) :
    recordedChecksum item = none := by
  unfold recordedChecksum
  rw [hb.checksumSha256, hn.checksum]
  rfl

/-- The fields of the file say nothing that the metadata do not say. -/
theorem NothingFound.fields {item : ArchiveItem} (h : NothingFound host files item) (hb : Fileless item)
    (hn : NothingToAdd item) : ∀ field ∈ fileFields host.toFileMetadataHost item files ⟨none, none, none, none⟩,
      field.2 = none ∨ field.2 = item.file.metadata field.1 := by
  unfold fileFields
  dsimp only
  rw [h.fileName hb, h.mimeType hb, h.fileAvailable, enrichWith_localPath, h.path, enrichWith_checksumSha256,
    recordedChecksum_fileless hb hn, h.asset]
  intro field hf
  simp only [List.mem_cons, List.not_mem_nil, or_false] at hf
  rcases hf with rfl | rfl | rfl | rfl | rfl | rfl | rfl | rfl
  all_goals first | exact .inl rfl | skip
  cases hr : readRecordNumber item.file.metadata ["fileSizeBytes", "size"] with
  | none => exact .inl rfl
  | some size => exact .inr (hn.size size hr).symm

theorem NothingFound.file {item : ArchiveItem} (h : NothingFound host files item) (hb : Fileless item)
    (hn : NothingToAdd item) :
    (enrichWith host.toFileMetadataHost files item ⟨none, none, none, none⟩).file = item.file := by
  have hchecksum := recordedChecksum_fileless hb hn
  refine ItemDetails.ext rfl rfl rfl rfl rfl rfl ((h.fileName hb).trans hb.fileName.symm)
    ((h.mimeType hb).trans hb.mimeType.symm) ?_ ?_ ?_ ?_ (h.fileAvailable.trans hb.fileAvailable.symm) ?_ ?_
  · rw [enrichWith_localPath, h.path, hb.localPath]
  · change ((cachedConversationEvidence files item).asset.bind (·.remoteUrl) <|> item.file.uri) = _
    rw [h.asset]
    rfl
  · rw [enrichWith_cacheKey, hchecksum, h.path]
    rfl
  · rw [enrichWith_checksumSha256, hchecksum, hb.checksumSha256]
    rfl
  · funext key
    have hmarked : markedMetadata host.toFileMetadataHost files item ⟨none, none, none, none⟩ = item.file.metadata := by
      unfold markedMetadata
      rw [h.unavailable, h.asset]
      rfl
    rw [enrichWith_metadata, hmarked]
    exact lookup_or_self (h.fields hb hn)
  · have hl : (enrichWith host.toFileMetadataHost files item ⟨none, none, none, none⟩).file.links =
        if (enrichWith host.toFileMetadataHost files item ⟨none, none, none, none⟩).file.fileAvailable = some true then
          withAsset item.file.links item.id
        else item.file.links := rfl
    rw [hl, h.fileAvailable]
    rfl

theorem enrich_fileless {item : ArchiveItem} (hc : CachedForArtifacts files) (hb : Fileless item)
    (hn : NothingToAdd item) : enrich host files item = .ok item := by
  have h : NothingFound host files item := nothingFound hc hb
  have hgrok : grokRetainedKind item = none := by
    unfold grokRetainedKind
    rw [hb.provider]
    rfl
  unfold enrich enrichFileMetadata
  rw [hgrok, h.path]
  exact congrArg (fun file => Except.ok (withFile item file)) (h.file hb hn)

end Meets

/-! ## Whose an item is -/

section Owners

variable {host}

theorem mem_collectArchiveItems {stores : ArchiveStores} {item : ArchiveItem} :
    item ∈ collectArchiveItems host stores ↔
      (∃ record ∈ stores.runs, item ∈ buildRunArchiveItems host.items record) ∨
        (∃ record ∈ stores.batches, buildBatchArchiveItem host.items record = item) ∨
          (∃ record ∈ stores.media, item ∈ buildMediaArchiveItems host.items record) ∨
            (∃ kept ∈ stores.history, kept.val = item) ∨
              ∃ record ∈ stores.evidence, buildEvidenceArchiveItem host.items record = item := by
  unfold collectArchiveItems
  simp only [List.mem_append, List.mem_flatMap, List.mem_map, or_assoc]

theorem run_owner {record : ExecutionRunStoredRecord} {item : ArchiveItem}
    (h : item ∈ buildRunArchiveItems host.items record) :
    item.source = .runtime ∧ item.responseId = some record.runId ∧ item.kind ≠ .responseBatch := by
  unfold buildRunArchiveItems at h
  simp only [List.mem_append, List.mem_singleton, List.mem_flatMap, List.mem_map] at h
  rcases h with ((rfl | ⟨step, -, artifact, -, rfl⟩) | ⟨artifact, -, rfl⟩) | ⟨ref, -, rfl⟩
  · refine ⟨rfl, rfl, ?_⟩
    change runKind record ≠ _
    unfold runKind
    split <;> simp
  all_goals exact ⟨rfl, rfl, fun he => RunArchiveItemKind.noConfusion he⟩

theorem media_owner {record : MediaGenerationStoredRecord} {item : ArchiveItem}
    (h : item ∈ buildMediaArchiveItems host.items record) :
    item.source = .mediaGeneration ∧ item.mediaGenerationId = some record.id ∧ item.kind ≠ .responseBatch := by
  unfold buildMediaArchiveItems at h
  simp only [List.mem_append, List.mem_singleton, List.mem_map] at h
  rcases h with (rfl | ⟨artifact, -, rfl⟩) | ⟨conversationId, -, rfl⟩
  all_goals exact ⟨rfl, rfl, fun he => RunArchiveItemKind.noConfusion he⟩

theorem history_owner {input : RunArchiveHistoryMaterializationUpsertInput} {timestamp : String} {item : ArchiveItem}
    (h : item ∈ buildHistoryMaterializationArchiveItems host.items input timestamp) : IsHistoryItem item := by
  unfold buildHistoryMaterializationArchiveItems at h
  obtain ⟨asset, -, rfl⟩ := List.mem_map.mp h
  refine ⟨rfl, ?_⟩
  change (if asset.kind = .file then RunArchiveItemKind.upload else .generatedArtifact) ≠ _
  split <;> simp

end Owners

/-! ## What a change writes over -/

/-- The records that a change writes over or removes. -/
def StoreChange.overwritten (change : StoreChange) (stores : ArchiveStores) : ArchiveStores :=
  match change with
  | .run record => { runs := stores.runs.filter fun kept => !decide (kept.runId ≠ record.runId) }
  | .runRemoved runId => { runs := stores.runs.filter fun kept => !decide (kept.runId ≠ runId) }
  | .batch record => { batches := stores.batches.filter fun kept => !decide (kept.id ≠ record.id) }
  | .batchRemoved batchId => { batches := stores.batches.filter fun kept => !decide (kept.id ≠ batchId) }
  | .media record => { media := stores.media.filter fun kept => !decide (kept.id ≠ record.id) }
  | .mediaRemoved id => { media := stores.media.filter fun kept => !decide (kept.id ≠ id) }
  | .history _ _ =>
    { history := stores.history.filter fun item => !!(change.built host).any (·.id == item.val.id) }
  | .evidence record => { evidence := stores.evidence.filter fun kept => !decide (kept.id ≠ record.id) }

section Split

variable {host files}

theorem perm_split (change : StoreChange) (stores : ArchiveStores) :
    (collectArchiveItems host stores).Perm (collectArchiveItems host (change.without host stores) ++
      collectArchiveItems host (change.overwritten host stores)) := by
  have hall : ∀ {α : Type} (l : List α), l.Perm (l ++ []) := fun l => by rw [List.append_nil]
  cases change with
  | run record => exact collectArchiveItems_perm (List.filter_append_perm _ _).symm (hall _) (hall _) (hall _) (hall _)
  | runRemoved runId =>
    exact collectArchiveItems_perm (List.filter_append_perm _ _).symm (hall _) (hall _) (hall _) (hall _)
  | batch record =>
    exact collectArchiveItems_perm (hall _) (List.filter_append_perm _ _).symm (hall _) (hall _) (hall _)
  | batchRemoved batchId =>
    exact collectArchiveItems_perm (hall _) (List.filter_append_perm _ _).symm (hall _) (hall _) (hall _)
  | media record =>
    exact collectArchiveItems_perm (hall _) (hall _) (List.filter_append_perm _ _).symm (hall _) (hall _)
  | mediaRemoved id =>
    exact collectArchiveItems_perm (hall _) (hall _) (List.filter_append_perm _ _).symm (hall _) (hall _)
  | history input timestamp =>
    exact collectArchiveItems_perm (hall _) (hall _) (hall _) (List.filter_append_perm _ _).symm (hall _)
  | evidence record =>
    exact collectArchiveItems_perm (hall _) (hall _) (hall _) (hall _) (List.filter_append_perm _ _).symm

theorem perm_apply (change : StoreChange) (items : List ArchiveItem) (stores : ArchiveStores) :
    (collectArchiveItems host (change.apply host items stores)).Perm
      (collectArchiveItems host (change.without host stores) ++ collectArchiveItems host (change.records items)) :=
  collectArchiveItems_perm (.refl _) (.refl _) (.refl _) (.refl _) (.refl _)

/-- What the change removes besides its ids is nothing that stays in the stores. -/
theorem kept {change : StoreChange} {stores : ArchiveStores} {items : List ArchiveItem} {item : ArchiveItem}
    (h : item ∈ collectArchiveItems host (change.without host stores)) (hid : ∀ other ∈ items, other.id ≠ item.id) :
    change.removes items item = false := by
  have howners := mem_collectArchiveItems.mp h
  cases change with
  | run record | runRemoved runId =>
    refine decide_eq_false ?_
    rintro ⟨hs, hr⟩
    rcases howners with ⟨kept, hk, hi⟩ | ⟨_, _, rfl⟩ | ⟨_, _, hi⟩ | ⟨kept, _, rfl⟩ | ⟨_, _, rfl⟩
    · rw [(run_owner hi).2.1] at hr
      exact of_decide_eq_true (List.mem_filter.mp hk).2 (Option.some.inj hr)
    · cases hs
    · rw [(media_owner hi).1] at hs
      cases hs
    · rw [kept.property.1] at hs
      cases hs
    · cases hs
  | batch record | batchRemoved batchId =>
    refine decide_eq_false ?_
    rintro ⟨hb, hk⟩
    rcases howners with ⟨_, _, hi⟩ | ⟨kept, hkept, rfl⟩ | ⟨_, _, hi⟩ | ⟨kept, _, rfl⟩ | ⟨_, _, rfl⟩
    · exact (run_owner hi).2.2 hk
    · exact of_decide_eq_true (List.mem_filter.mp hkept).2 (Option.some.inj hb)
    · exact (media_owner hi).2.2 hk
    · exact kept.property.2 hk
    · cases hk
  | media record | mediaRemoved id =>
    refine decide_eq_false ?_
    rintro ⟨hs, hm⟩
    rcases howners with ⟨_, _, hi⟩ | ⟨_, _, rfl⟩ | ⟨kept, hk, hi⟩ | ⟨kept, _, rfl⟩ | ⟨_, _, rfl⟩
    · rw [(run_owner hi).1] at hs
      cases hs
    · cases hs
    · rw [(media_owner hi).2.1] at hm
      exact of_decide_eq_true (List.mem_filter.mp hk).2 (Option.some.inj hm)
    · rw [kept.property.1] at hs
      cases hs
    · cases hs
  | history input timestamp =>
    refine decide_eq_false ?_
    rintro ⟨-, -, -, -, -, hany⟩
    obtain ⟨other, ho, he⟩ := List.any_eq_true.mp hany
    exact hid other ho (beq_iff_eq.mp he)
  | evidence record => rfl

/-- What the change writes over has an id of its items, or is removed besides. -/
theorem dropped {change : StoreChange} {stores : ArchiveStores} {items : List ArchiveItem} {item : ArchiveItem}
    (h : item ∈ collectArchiveItems host (change.overwritten host stores)) :
    (∃ other ∈ change.built host, other.id = item.id) ∨ change.removes items item = true := by
  have howners := mem_collectArchiveItems.mp h
  cases change with
  | run record | runRemoved runId =>
    rcases howners with ⟨kept, hk, hi⟩ | ⟨_, hk, _⟩ | ⟨_, hk, _⟩ | ⟨_, hk, _⟩ | ⟨_, hk, _⟩
    · have hid := (List.mem_filter.mp hk).2
      simp only [ne_eq, decide_not, Bool.not_not, decide_eq_true_eq] at hid
      exact .inr (decide_eq_true ⟨(run_owner hi).1, (run_owner hi).2.1.trans (congrArg some hid)⟩)
    all_goals cases hk
  | batch record | batchRemoved batchId =>
    rcases howners with ⟨_, hk, _⟩ | ⟨kept, hk, rfl⟩ | ⟨_, hk, _⟩ | ⟨_, hk, _⟩ | ⟨_, hk, _⟩
    · cases hk
    · have hid := (List.mem_filter.mp hk).2
      simp only [ne_eq, decide_not, Bool.not_not, decide_eq_true_eq] at hid
      exact .inr (decide_eq_true ⟨congrArg some hid, rfl⟩)
    all_goals cases hk
  | media record | mediaRemoved id =>
    rcases howners with ⟨_, hk, _⟩ | ⟨_, hk, _⟩ | ⟨kept, hk, hi⟩ | ⟨_, hk, _⟩ | ⟨_, hk, _⟩
    · cases hk
    · cases hk
    · have hid := (List.mem_filter.mp hk).2
      simp only [ne_eq, decide_not, Bool.not_not, decide_eq_true_eq] at hid
      exact .inr (decide_eq_true ⟨(media_owner hi).1, (media_owner hi).2.1.trans (congrArg some hid)⟩)
    all_goals cases hk
  | history input timestamp =>
    rcases howners with ⟨_, hk, _⟩ | ⟨_, hk, _⟩ | ⟨_, hk, _⟩ | ⟨kept, hk, rfl⟩ | ⟨_, hk, _⟩
    · cases hk
    · cases hk
    · cases hk
    · have hany := (List.mem_filter.mp hk).2
      rw [Bool.not_not] at hany
      obtain ⟨other, ho, he⟩ := List.any_eq_true.mp hany
      exact .inl ⟨other, ho, beq_iff_eq.mp he⟩
    · cases hk
  | evidence record =>
    rcases howners with ⟨_, hk, _⟩ | ⟨_, hk, _⟩ | ⟨_, hk, _⟩ | ⟨_, hk, _⟩ | ⟨kept, hk, rfl⟩
    · cases hk
    · cases hk
    · cases hk
    · cases hk
    · have hid := (List.mem_filter.mp hk).2
      simp only [ne_eq, decide_not, Bool.not_not, decide_eq_true_eq] at hid
      exact .inl ⟨_, List.mem_singleton_self _, congrArg ("evidence:" ++ ·) hid.symm⟩

/-! ## Refreshed items -/

variable (host files) in
theorem value_withFile (item : ArchiveItem) : ∃ file, value (enrich host files) item = withFile item file := by
  cases h : enrich host files item with
  | ok after => exact ⟨after.file, by rw [value_of_ok h]; exact (enrichFileMetadata_same h).1⟩
  | error errorCode =>
    refine ⟨item.file, ?_⟩
    unfold value
    rw [h]
    rfl

theorem value_id (item : ArchiveItem) : (value (enrich host files) item).id = item.id := by
  obtain ⟨file, h⟩ := value_withFile host files item
  rw [h]
  rfl

/-- Removing reads nothing that a refresh or the index changes. -/
theorem removes_value (change : StoreChange) (items : List ArchiveItem) (item : ArchiveItem) :
    change.removes items (normalizeRunArchiveItem (value (enrich host files) item)) = change.removes items item := by
  obtain ⟨file, h⟩ := value_withFile host files item
  rw [h]
  cases change <;> rfl

variable (host files) in
/-- The items of some records are rebuilt as they were upserted, with the ids of what was built. -/
structure Rebuilt (collected upserted built : List ArchiveItem) : Prop where
  enriched : ∀ item ∈ collected, enrich host files item = .ok (value (enrich host files) item)
  values : collected.map (value (enrich host files)) = upserted
  ids : upserted.map (·.id) = built.map (·.id)

theorem map_value_id (l : List ArchiveItem) :
    (l.map (value (enrich host files))).map (·.id) = l.map (·.id) := by
  rw [List.map_map]
  exact List.map_congr_left fun item _ => value_id item

/-- Items that are refreshed with the change are refreshed with the rebuild. -/
theorem rebuilt_refreshed {l items : List ArchiveItem} (h : l.mapM (enrich host files) = .ok items) :
    Rebuilt host files l items l := by
  obtain ⟨hall, rfl⟩ := mapM_eq_ok.mp h
  exact ⟨hall, rfl, map_value_id l⟩

/-- An item that a refresh leaves as it is. -/
theorem rebuilt_same {item : ArchiveItem} (h : enrich host files item = .ok item) :
    Rebuilt host files [item] [item] [item] :=
  rebuilt_refreshed (mapM_cons_eq_ok.mpr ⟨item, [], h, rfl, rfl⟩)

/-- Items of history are kept refreshed, and refreshed again with the rebuild. -/
theorem rebuilt_history {input : RunArchiveHistoryMaterializationUpsertInput} {timestamp : String}
    {items : List ArchiveItem} (hr : RebuildsAlike host files (.history input timestamp))
    (h : (buildHistoryMaterializationArchiveItems host.items input timestamp).mapM (enrich host files) = .ok items) :
    collectArchiveItems host (StoreChange.records (.history input timestamp) items) = items ∧
      Rebuilt host files items items (buildHistoryMaterializationArchiveItems host.items input timestamp) := by
  obtain ⟨hall, rfl⟩ := mapM_eq_ok.mp h
  have hkept : ∀ item ∈ (buildHistoryMaterializationArchiveItems host.items input timestamp).map
      (value (enrich host files)), IsHistoryItem item := fun item hi => by
    obtain ⟨before, hb, rfl⟩ := List.mem_map.mp hi
    obtain ⟨file, hf⟩ := value_withFile host files before
    rw [hf]
    exact (history_owner hb : IsHistoryItem before)
  have hagain : ∀ item ∈ (buildHistoryMaterializationArchiveItems host.items input timestamp).map
      (value (enrich host files)), enrich host files item = .ok item := fun item hi => by
    obtain ⟨before, hb, rfl⟩ := List.mem_map.mp hi
    exact enrichFileMetadata_idem (hr before hb) (hall before hb)
  refine ⟨?_, fun item hi => ?_, ?_, map_value_id _⟩
  · unfold collectArchiveItems StoreChange.records
    simp only [List.flatMap_nil, List.map_nil, List.append_nil, List.nil_append, List.map_filterMap]
    refine (List.filterMap_congr fun item hi => ?_).trans List.filterMap_some
    rw [dif_pos (hkept item hi)]
    rfl
  · rw [value_of_ok (hagain item hi)]
    exact hagain item hi
  · exact (List.map_congr_left fun item hi => value_of_ok (hagain item hi)).trans (List.map_id _)

/-- **What a change writes is rebuilt as it is upserted.** -/
theorem records_rebuilt {change : StoreChange} {items : List ArchiveItem} (hc : CachedForArtifacts files)
    (hr : RebuildsAlike host files change) (h : change.upserted host files = .ok items) :
    Rebuilt host files (collectArchiveItems host (change.records items)) items (change.built host) := by
  cases change with
  | run record =>
    rw [show collectArchiveItems host _ = buildRunArchiveItems host.items record by
      simp [collectArchiveItems, StoreChange.records]]
    exact rebuilt_refreshed h
  | media record =>
    rw [show collectArchiveItems host _ = buildMediaArchiveItems host.items record by
      simp [collectArchiveItems, StoreChange.records]]
    exact rebuilt_refreshed h
  | runRemoved _ | batchRemoved _ | mediaRemoved _ => exact rebuilt_refreshed h
  | batch record =>
    cases h
    exact rebuilt_same (enrich_fileless hc (fileless_batch record) (hr _ (List.mem_singleton_self _)))
  | evidence record =>
    cases h
    exact rebuilt_same (enrich_fileless hc (fileless_evidence record) (hr _ (List.mem_singleton_self _)))
  | history input timestamp =>
    obtain ⟨hcollect, hrebuilt⟩ := rebuilt_history hr h
    rw [hcollect]
    exact hrebuilt

/-! ## One change -/

theorem collected_apply (change : StoreChange) {items : List ArchiveItem} (stores : ArchiveStores)
    (hr : Rebuilt host files (collectArchiveItems host (change.records items)) items (change.built host)) :
    ((collectArchiveItems host (change.apply host items stores)).map (value (enrich host files))).Perm
      ((collectArchiveItems host (change.without host stores)).map (value (enrich host files)) ++ items) := by
  have : ((collectArchiveItems host (change.apply host items stores)).map (value (enrich host files))).Perm _ :=
    (perm_apply change items stores).map _
  rwa [List.map_append, hr.values] at this

theorem Rebuilt.mem_ids {collected upserted built : List ArchiveItem} (h : Rebuilt host files collected upserted built)
    (id : String) : (∃ item ∈ upserted, item.id = id) ↔ ∃ item ∈ built, item.id = id := by
  rw [← List.mem_map, h.ids, List.mem_map]

/-- An upsert into what stays in the stores and some old items. -/
theorem upsert_rebuilt {change : StoreChange} {stores : ArchiveStores} {items old : List ArchiveItem}
    {index : List (IndexedItem ItemDetails)}
    (hr : Rebuilt host files (collectArchiveItems host (change.records items)) items (change.built host))
    (hapart : ∀ item ∈ change.built host, ∀ other ∈ collectArchiveItems host (change.without host stores),
      item.id ≠ other.id)
    (hindex : index.Perm
      (((collectArchiveItems host (change.without host stores)).map (value (enrich host files)) ++ old).map .normalize))
    (hold : ∀ item ∈ old,
      (∃ other ∈ items, other.id = item.id) ∨ change.removes items (normalizeRunArchiveItem item) = true) :
    (upsertRunArchiveIndexedItems host index items (change.removes items)).Perm
      (((collectArchiveItems host (change.apply host items stores)).map (value (enrich host files))).map
        .normalize) := by
  refine (upsert_perm hindex (fun item hi => ?_) hold).trans ((collected_apply change stores hr).symm.map _)
  obtain ⟨before, hb, rfl⟩ := List.mem_map.mp hi
  rw [value_id, removes_value]
  have hids : ∀ other ∈ items, other.id ≠ before.id := fun other ho he => by
    obtain ⟨built, hbuilt, hid⟩ := (hr.mem_ids before.id).mp ⟨other, ho, he⟩
    exact hapart built hbuilt before hb hid
  exact ⟨hids, kept hb hids⟩

/-- The items that stay are refreshed, whether the index was there or is built from the changed stores. -/
theorem without_enriched {s : ArchiveSystem} {change : StoreChange} {items : List ArchiveItem}
    {index : List (IndexedItem ItemDetails)} (hs : UpToDate host files s)
    (h : ensureArchiveIndex host files ⟨change.apply host items s.stores, s.index⟩ = .ok index) :
    ∀ item ∈ collectArchiveItems host (change.without host s.stores),
      enrich host files item = .ok (value (enrich host files) item) := by
  intro item hi
  unfold ensureArchiveIndex at h
  cases hindex : s.index with
  | some before =>
    exact (backfillIndex_eq_ok.mp (hs before hindex)).1 item
      ((perm_split change s.stores).mem_iff.mpr (List.mem_append_left _ hi))
  | none =>
    rw [hindex] at h
    exact (backfillIndex_eq_ok.mp ⟨index, h, .refl _⟩).1 item
      ((perm_apply change items s.stores).mem_iff.mpr (List.mem_append_left _ hi))

/-- **A change that meets the rebuild** leaves the index that would be built. -/
theorem applyChange_rebuilt {s s' : ArchiveSystem} {change : StoreChange} (hc : CachedForArtifacts files)
    (hm : Meets host files s change) (hs : UpToDate host files s) (h : applyChange host files s change = .ok s') :
    ∃ index, s'.index = some index ∧
      ∃ rebuilt, backfillIndex host files s'.stores = .ok rebuilt ∧ index.Perm rebuilt := by
  unfold applyChange at h
  cases hu : change.upserted host files with
  | error errorCode =>
    rw [hu] at h
    cases h
  | ok items =>
    rw [hu] at h
    dsimp only at h
    have hr := records_rebuilt hc hm.2 hu
    cases he : ensureArchiveIndex host files ⟨change.apply host items s.stores, s.index⟩ with
    | error errorCode =>
      rw [he] at h
      cases h
    | ok index =>
      rw [he] at h
      cases h
      refine ⟨_, rfl, backfillIndex_eq_ok.mpr ⟨fun item hi => ?_, ?_⟩⟩
      · rcases List.mem_append.mp ((perm_apply change items s.stores).mem_iff.mp hi) with hw | hrecords
        · exact without_enriched hs he item hw
        · exact hr.enriched item hrecords
      · unfold ensureArchiveIndex at he
        cases hindex : s.index with
        | some before =>
          -- The index was there, with the items that the change writes over.
          rw [hindex] at he
          cases he
          have hsplit : ((collectArchiveItems host s.stores).map (value (enrich host files))).Perm _ :=
            (perm_split change s.stores).map _
          rw [List.map_append] at hsplit
          refine upsert_rebuilt hr hm.1 ((backfillIndex_eq_ok.mp (hs _ hindex)).2.trans (hsplit.map _))
            fun item hi => ?_
          obtain ⟨before, hb, rfl⟩ := List.mem_map.mp hi
          rw [value_id, removes_value, hr.mem_ids]
          exact dropped hb
        | none =>
          -- The index is built from the changed stores, with the items that are upserted again.
          rw [hindex] at he
          exact upsert_rebuilt hr hm.1 ((backfillIndex_eq_ok.mp ⟨index, he, .refl _⟩).2.trans
            ((collected_apply change s.stores hr).map _)) fun item hi => .inl ⟨item, hi, rfl⟩

end Split

/-! ## Runs -/

/-- Changes one at a time, each with its upsert, from stores with an index that is up to date, or with none. -/
def archiveSystem : TransitionSystem ArchiveSystem StoreChange where
  Init := UpToDate host files
  Step s change s' := applyChange host files s change = .ok s'

variable {host files}

/-- **The index that is upserted is the one that would be rebuilt**, after every change of a run of changes that meet the
rebuild. -/
theorem index_is_rebuilt (hc : CachedForArtifacts files) {s s' : ArchiveSystem} {change : StoreChange}
    (hr : ((archiveSystem host files).restrict (Meets host files)).Reachable s) (hm : Meets host files s change)
    (h : applyChange host files s change = .ok s') :
    ∃ index, s'.index = some index ∧
      ∃ rebuilt, backfillIndex host files s'.stores = .ok rebuilt ∧ index.Perm rebuilt := by
  refine applyChange_rebuilt hc hm (hr.invariant (I := UpToDate host files) (fun _ h0 => h0)
    fun s change s' _ hs hstep => ?_) h
  obtain ⟨hmeets, hstep⟩ := hstep
  obtain ⟨index, hindex, hrebuilt⟩ := applyChange_rebuilt hc hmeets hs hstep
  intro other hother
  rw [hindex] at hother
  cases hother
  exact hrebuilt

end System

/-! ## Evidence with a checksum -/

def plainIndexHost : IndexHost :=
  { plainHost with encodeURIComponent := id, searchParams := fun _ => "", localeCompare := compare }

def noFiles : LocalFiles := filesReading .missing

def evidenceWith (metadata : JsonRecord) : RunArchiveEvidenceRecord where
  id := "e1"
  createdAt := "2026-01-01T00:00:00.000Z"
  producer := "tests"
  schema := "report"
  status := "passed"
  title := none
  summary := none
  responseId := some "run"
  batchId := none
  archiveItemId := none
  providerConversationId := none
  data := .null
  metadata

def finishedRun : ExecutionRunStoredRecord where
  runId := "run"
  sourceKind := "direct"
  sourceId := none
  createdAt := "2026-01-01T00:00:00.000Z"
  entryPrompt := "hello"
  status := "succeeded"
  initialInputs := []
  steps := []
  response := { runtimeState := none, outputItemCount := 1, requestedOutputCount := 1, artifacts := [] }

/-- No index, and no records. -/
def emptyArchive : ArchiveSystem := ⟨{}, none⟩

def archiveOfRun : ArchiveSystem where
  stores := { runs := [finishedRun] }
  index := some (upsertRunArchiveIndexedItems plainIndexHost
    (written plainIndexHost ([runItem plainIndexHost.items finishedRun].map (value (enrich plainIndexHost noFiles))))
    ([runItem plainIndexHost.items finishedRun].map (value (enrich plainIndexHost noFiles)))
    (StoreChange.removes (.run finishedRun)
      ([runItem plainIndexHost.items finishedRun].map (value (enrich plainIndexHost noFiles)))))

theorem archiveOfRun_reachable :
    ((archiveSystem plainIndexHost noFiles).restrict (Meets plainIndexHost noFiles)).Reachable archiveOfRun :=
  .step (a := .run finishedRun) (s := emptyArchive) (.init fun index h => by cases h)
    ⟨⟨fun item _ other ho => absurd ho List.not_mem_nil, trivial⟩, rfl⟩

/-- A run and then its evidence, with the index that is rebuilt. -/
theorem evidence_is_rebuilt :
    ∃ s', applyChange plainIndexHost noFiles archiveOfRun (.evidence (evidenceWith [])) = .ok s' ∧
      ∃ index, s'.index = some index ∧
        ∃ rebuilt, backfillIndex plainIndexHost noFiles s'.stores = .ok rebuilt ∧ index.Perm rebuilt := by
  have hm : Meets plainIndexHost noFiles archiveOfRun (.evidence (evidenceWith [])) := by
    constructor
    · intro item hi other ho
      cases List.mem_singleton.mp hi
      obtain rfl : other = runItem plainIndexHost.items finishedRun := List.mem_singleton.mp ho
      decide
    · intro item hi
      cases List.mem_singleton.mp hi
      exact ⟨rfl, fun size h => by cases h⟩
  exact ⟨_, rfl, index_is_rebuilt (fun _ _ => rfl) archiveOfRun_reachable hm rfl⟩

/-- Evidence whose metadata have a checksum is indexed without it, and rebuilt with it. -/
theorem evidence_checksum_rebuilt :
    ¬∀ (host : IndexHost) (files : LocalFiles), CachedForArtifacts files → ∀ s change s',
      (archiveSystem host files).Reachable s → applyChange host files s change = .ok s' →
        ∃ index, s'.index = some index ∧
          ∃ rebuilt, backfillIndex host files s'.stores = .ok rebuilt ∧ index.Perm rebuilt := by
  intro h
  obtain ⟨index, hi, rebuilt, hr, hp⟩ := h plainIndexHost noFiles (fun _ _ => rfl) emptyArchive
    (.evidence (evidenceWith [("checksumSha256", .string "aa")])) _ (.init fun index h => by cases h) rfl
  cases hi
  cases hr
  have hchecksums : ([none] : List (Option String)).Perm [some "aa"] :=
    hp.map fun indexed : IndexedItem ItemDetails => indexed.item.file.checksumSha256
  exact absurd (List.perm_singleton.mp hchecksums) (by simp)

end AuraCall.Archive
