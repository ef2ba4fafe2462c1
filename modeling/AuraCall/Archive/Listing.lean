import AuraCall.Archive.RefreshHistory
import Mathlib.Data.List.Infix

/-!
# Listing the archive

`listItems`, `listItemsBatch` and `listItemsBatchAvailability` of the archive service. All three read the items of the
index in some scope, refresh their file metadata, and filter what the refresh has given. The scope of a batch is the
union of the scopes of its requests, so a request of a batch sees refreshed items that it would not have read alone
(`batches_agree`).
-/

namespace AuraCall.Archive

open Materialization (IndexedItem RunArchiveItemKind indexOrder)

/-! ## Requests -/

inductive AssetAvailability
  | available | unavailable | pending
  deriving DecidableEq

/-- `RunArchiveListRequest`; a kind that is none of the kinds is `none`, which is all of them. -/
structure RunArchiveListRequest where
  providerConversationId : Option String := none
  kind : Option RunArchiveItemKind := none
  provider : Option String := none
  runtimeProfile : Option String := none
  projectId : Option String := none
  agent : Option String := none
  team : Option String := none
  responseId : Option String := none
  batchId : Option String := none
  status : Option String := none
  fileAvailable : Option Bool := none
  assetAvailability : Option AssetAvailability := none
  query : Option String := none
  limit : Option JsNumber := none

structure RunArchiveListResult where
  kind : Option RunArchiveItemKind
  limit : Nat
  items : List ArchiveItem
  total : Nat
  byKind : RunArchiveItemKind → Nat

structure ListingHost extends FileMetadataHost where
  localeCompare : String → String → Ordering
  /-- `JSON.stringify(item.metadata)`, with the fields in the order in which the item has them -/
  metadataText : ArchiveItem → String

/-- What the calls read: the index, if there is one, and the items that the stores give where there is none. -/
structure StoredArchive where
  index : Option (List (IndexedItem ItemDetails))
  collected : List ArchiveItem

section Listing

variable (host : ListingHost)

/-- A field of a request that is missing or empty asks for nothing. -/
def asksFor (asked value : Option String) : Bool := (present asked).all fun asked => value = some asked

def matchesStableRequest (item : ArchiveItem) (request : RunArchiveListRequest) : Bool :=
  request.kind.all (fun kind => item.kind = kind) && asksFor request.provider item.provider &&
    asksFor request.providerConversationId item.providerConversationId &&
    asksFor request.runtimeProfile item.runtimeProfile && asksFor request.projectId item.projectId &&
    asksFor request.agent item.file.agentId && asksFor request.team item.file.teamId &&
    asksFor request.responseId item.responseId && asksFor request.batchId item.batchId &&
    (asksFor request.status item.file.status || asksFor request.status item.file.runtimeState)

def itemMatchesQuery (item : ArchiveItem) (query : String) : Bool :=
  let needle := host.cases.toLowerCase (trim query)
  let haystack := [some item.id, item.file.title, item.file.runtimeState, item.provider, item.runtimeProfile,
    item.projectId, item.boundIdentityKey, item.file.agentId, item.file.teamId, item.responseId, item.batchId,
    item.providerConversationId, item.file.fileName, item.file.uri, item.file.localPath, item.file.checksumSha256,
    some (host.metadataText item)].filterMap present
  needle = "" || needle.toList <:+: (host.cases.toLowerCase ("\n".intercalate haystack)).toList

def matchesAvailability (item : ArchiveItem) : AssetAvailability → Bool
  | .available => item.file.fileAvailable = some true
  | .unavailable => item.file.fileAvailable = some false
  | .pending => item.file.fileAvailable = none

def matchesRequest (item : ArchiveItem) (request : RunArchiveListRequest) : Bool :=
  matchesStableRequest item request && request.fileAvailable.all (fun asked => item.file.fileAvailable = some asked) &&
    request.assetAvailability.all (matchesAvailability item) &&
    (present request.query).all (itemMatchesQuery host item)

def normalizeLimit : Option JsNumber → Nat
  | some (.finite value) => if value.den = 1 ∧ 0 ≤ value.num then value.num.toNat else 50
  | _ => 50

def countByKind (items : List ArchiveItem) (kind : RunArchiveItemKind) : Nat := items.countP fun item => item.kind = kind

/-- The order of a listing: the newest first. -/
def notOlder (left right : ArchiveItem) : Prop := host.localeCompare right.createdAt left.createdAt ≠ .gt

instance : DecidableRel (notOlder host) := fun left right =>
  inferInstanceAs (Decidable (host.localeCompare right.createdAt left.createdAt ≠ .gt))

def createRunArchiveListResult (indexedItems : List ArchiveItem) (request : RunArchiveListRequest) :
    RunArchiveListResult :=
  let limit := normalizeLimit request.limit
  let items := (indexedItems.filter (matchesRequest host · request)).insertionSort (notOlder host)
  { kind := request.kind, limit, items := items.take limit, total := items.length, byKind := countByKind items }

/-! ## Calls -/

/-- `refreshIndexedFileMetadata` of the items in a scope, by what it returns. -/
def refreshed (files : LocalFiles) (includeChecksum : Bool) (items : List ArchiveItem) :
    Except String (List ArchiveItem) :=
  items.mapM (enrichFileMetadata host.toFileMetadataHost files includeChecksum)

/-- `backfillIndexItems`, by the items of the index that it writes. -/
def backfilled (localeCompare : String → String → Ordering) (items : List ArchiveItem) : List ArchiveItem :=
  ((indexOrder (φ := ItemDetails) ⟨localeCompare, fun _ _ => true⟩).place [] (items.map .normalize)).map (·.item)

def readIndexedItems (archive : StoredArchive) (files : LocalFiles) (includeChecksum : Bool)
    (scope : ArchiveItem → Bool) : Except String (List ArchiveItem) :=
  match archive.index with
  | some items => refreshed host files includeChecksum ((items.map (·.item)).filter scope)
  | none => (refreshed host files includeChecksum archive.collected).map (backfilled host.localeCompare)

def listItems (archive : StoredArchive) (files : LocalFiles) (request : RunArchiveListRequest) :
    Except String RunArchiveListResult :=
  (readIndexedItems host archive files true (matchesStableRequest · request)).map
    (createRunArchiveListResult host · request)

/-- The items that a batch reads. -/
def batchScope (requests : List RunArchiveListRequest) (item : ArchiveItem) : Bool :=
  requests.any (matchesStableRequest item)

/-- A batch of either kind. -/
def listBatch (includeChecksum : Bool) (archive : StoredArchive) (files : LocalFiles)
    (requests : List RunArchiveListRequest) : Except String (List RunArchiveListResult) :=
  if requests.isEmpty then .ok []
  else (readIndexedItems host archive files includeChecksum (batchScope requests)).map fun items =>
    requests.map (createRunArchiveListResult host items)

def listItemsBatch := listBatch host true

def listItemsBatchAvailability := listBatch host false

/-! ## What a refresh leaves of an item -/

section Refreshed

variable {host : FileMetadataHost} {files : LocalFiles} {item after : ArchiveItem} {includeChecksum : Bool}

/-- A refresh changes the file part only, and none of the fields that say whose the item is. -/
theorem enrichFileMetadata_same (h : enrichFileMetadata host files includeChecksum item = .ok after) :
    after = withFile item after.file ∧ after.file.agentId = item.file.agentId ∧
      after.file.teamId = item.file.teamId ∧ after.file.runtimeState = item.file.runtimeState := by
  unfold enrichFileMetadata at h
  split at h
  · cases h
    unfold enrichGrokRetainedItem
    dsimp only
    split <;> exact ⟨rfl, rfl, rfl, rfl⟩
  · split at h
    · cases h
    · cases h
      exact ⟨rfl, rfl, rfl, rfl⟩

theorem enrichFileMetadata_status (hg : grokRetainedKind item = none)
    (h : enrichFileMetadata host files includeChecksum item = .ok after) : after.file.status = item.file.status := by
  unfold enrichFileMetadata at h
  rw [hg] at h
  dsimp only at h
  split at h
  · cases h
  · cases h
    rfl

/-- Only the status of a retained item can bring it into the scope of a request. -/
theorem matchesStableRequest_refreshed {request : RunArchiveListRequest}
    (hs : present request.status = none ∨ grokRetainedKind item = none)
    (h : enrichFileMetadata host files includeChecksum item = .ok after) :
    matchesStableRequest after request = matchesStableRequest item request := by
  obtain ⟨ha, h1, h2, h3⟩ := enrichFileMetadata_same h
  have hstatus : asksFor request.status after.file.status = asksFor request.status item.file.status := by
    rcases hs with hs | hg
    · unfold asksFor
      rw [hs]
      rfl
    · rw [enrichFileMetadata_status hg h]
  unfold matchesStableRequest
  rw [hstatus, h1, h2, h3, ha]
  rfl

end Refreshed

/-! ## Checksums that are pending -/

def pendingMaterialization : Json :=
  .object [("status", .string "materialized"), ("source", .string "grok-archive-integrity-check"),
    ("reason", .string "retained_file_present_checksum_pending")]

/-- A retained file that is there is said to wait for its checksum. -/
def pendingChecksum (item : ArchiveItem) : ArchiveItem :=
  if (grokRetainedKind item).isSome ∧ item.file.fileAvailable = some true then
    withFile item { item.file with
      metadata := item.file.metadata.spread [("materialization", pendingMaterialization)] }
  else item

/-- The bytes of the file match what is recorded of them. -/
def RetainedBytesMatch (host : FileMetadataHost) (files : LocalFiles) (item : ArchiveItem) : Prop :=
  match grokRetainedKind item with
  | some kind => ∀ receipt localPath, grokReceiptOf host kind item = some receipt →
      present item.file.localPath = some localPath →
        files.plainSize localPath = some receipt.sizeBytes ∧ ∃ size, files.read localPath = .content receipt.sha256 size
  | none => ∀ checksumSha256 size localPath, present (discoveredLocalPath host files item) = some localPath →
      files.read localPath = .content checksumSha256 size → recordedChecksum item = some checksumSha256

section Pending

variable {host : FileMetadataHost} {files : LocalFiles} {item : ArchiveItem}

theorem grokRetainedFileAvailable_modes {kind : GrokRetainedKind} (hk : grokRetainedKind item = some kind)
    (h : RetainedBytesMatch host files item) :
    grokRetainedFileAvailable host files false kind item = grokRetainedFileAvailable host files true kind item := by
  unfold RetainedBytesMatch at h
  rw [hk] at h
  dsimp only at h
  unfold grokRetainedFileAvailable
  cases hr : grokReceiptOf host kind item with
  | none => rfl
  | some receipt =>
    cases hp : present item.file.localPath with
    | none => rfl
    | some localPath =>
      obtain ⟨hsize, size, hread⟩ := h receipt localPath hr hp
      simp [hsize, hread]

theorem grokRetainedKind_enrichGrok (includeChecksum : Bool) (kind : GrokRetainedKind) :
    grokRetainedKind (enrichGrokRetainedItem host files includeChecksum kind item) = grokRetainedKind item := by
  unfold enrichGrokRetainedItem
  dsimp only
  split <;> rfl

theorem spread_materialization (metadata : Metadata) (before after : Json) (available : Json) :
    (metadata.spread [("fileAvailable", available), ("materialization", before)]).spread [("materialization", after)] =
      metadata.spread [("fileAvailable", available), ("materialization", after)] := by
  funext key
  unfold Metadata.spread JsonRecord.get
  by_cases h1 : key = "fileAvailable"
  · subst h1
    rfl
  · by_cases h2 : key = "materialization"
    · subst h2
      rfl
    · simp only [List.lookup_cons, List.lookup_nil, beq_false_of_ne h1, beq_false_of_ne h2]
      rfl

theorem enrichGrokRetainedItem_modes {kind : GrokRetainedKind} (hk : grokRetainedKind item = some kind)
    (h : RetainedBytesMatch host files item) :
    enrichGrokRetainedItem host files false kind item =
      pendingChecksum (enrichGrokRetainedItem host files true kind item) := by
  unfold pendingChecksum
  rw [grokRetainedKind_enrichGrok, hk]
  unfold enrichGrokRetainedItem
  rw [grokRetainedFileAvailable_modes hk h]
  dsimp only
  by_cases hu : grokUnretained kind item
  · simp only [if_pos hu]
    exact (if_neg fun hc => absurd hc.2 (by decide)).symm
  · simp only [if_neg hu]
    cases grokRetainedFileAvailable host files true kind item with
    | false => exact (if_neg fun hc => absurd hc.2 (by decide)).symm
    | true =>
      refine Eq.trans ?_ (if_pos ⟨rfl, rfl⟩).symm
      unfold withFile
      dsimp only
      rw [spread_materialization]
      rfl

theorem enrichWith_checksum_pending {localFile : LocalFile}
    (h : localFile.checksumSha256 = none ∨ recordedChecksum item = localFile.checksumSha256) :
    enrichWith host files item { localFile with checksumSha256 := none } = enrichWith host files item localFile := by
  have hc : (localFile.checksumSha256 <|> item.file.checksumSha256 <|>
        readRecordString item.file.metadata ["checksumSha256"]) =
      (none <|> item.file.checksumSha256 <|> readRecordString item.file.metadata ["checksumSha256"]) := by
    rcases h with h | h
    · rw [h]
    · rw [← h]
      unfold recordedChecksum
      cases item.file.checksumSha256 <;> cases readRecordString item.file.metadata ["checksumSha256"] <;> rfl
  unfold enrichWith
  dsimp only
  rw [hc]
  rfl

theorem inspectArchiveLocalFile_modes (localPath : Option String) :
    inspectArchiveLocalFile files localPath false =
      (inspectArchiveLocalFile files localPath true).map fun localFile => { localFile with checksumSha256 := none } := by
  unfold inspectArchiveLocalFile
  cases present localPath with
  | none => rfl
  | some localPath => cases h : files.read localPath <;> simp [h, Except.map]

/-- An item that is not retained is refreshed to the same item, whether its checksum is read or is the recorded one. -/
theorem enrichWith_modes (hg : grokRetainedKind item = none) (h : RetainedBytesMatch host files item)
    {localFile : LocalFile}
    (hl : inspectArchiveLocalFile files (discoveredLocalPath host files item) true = .ok localFile) :
    enrichWith host files item { localFile with checksumSha256 := none } = enrichWith host files item localFile := by
  refine enrichWith_checksum_pending ?_
  unfold RetainedBytesMatch at h
  rw [hg] at h
  dsimp only at h
  unfold inspectArchiveLocalFile at hl
  cases hp : present (discoveredLocalPath host files item) with
  | none =>
    rw [hp] at hl
    cases hl
    exact .inl rfl
  | some localPath =>
    rw [hp] at hl
    dsimp only at hl
    cases hr : files.read localPath with
    | content checksumSha256 size =>
      rw [hr] at hl
      cases hl
      exact .inr (h checksumSha256 size localPath hp hr)
    | missing => rw [hr] at hl; cases hl; exact .inl rfl
    | unavailable errorCode => rw [hr] at hl; cases hl; exact .inl rfl
    | fails errorCode => rw [hr] at hl; cases hl

theorem grokRetainedKind_enrichWith (localFile : LocalFile) :
    grokRetainedKind (enrichWith host files item localFile) = grokRetainedKind item := by
  have hkey : ∀ kind : GrokRetainedKind,
      (enrichWith host files item localFile).file.metadata kind.key = item.file.metadata kind.key := fun kind =>
    enrichWith_metadata_other host (by cases kind <;> decide) (by cases kind <;> decide)
  unfold grokRetainedKind
  rw [show (enrichWith host files item localFile).file.metadata "grokReferencedFile" = _ from hkey .referencedFile,
    show (enrichWith host files item localFile).file.metadata "grokWorkspaceFile" = _ from hkey .workspaceFile,
    show (enrichWith host files item localFile).file.metadata "grokBuildArchive" = _ from hkey .buildArchive]
  rfl

/-- **An item whose bytes match** is refreshed in both modes to the same item, but that the checksum of a retained file
is said to be pending. -/
theorem enrichFileMetadata_modes (h : RetainedBytesMatch host files item) :
    enrichFileMetadata host files false item = (enrichFileMetadata host files true item).map pendingChecksum := by
  unfold enrichFileMetadata
  cases hk : grokRetainedKind item with
  | some kind => exact congrArg Except.ok (enrichGrokRetainedItem_modes hk h)
  | none =>
    dsimp only
    rw [inspectArchiveLocalFile_modes]
    cases hl : inspectArchiveLocalFile files (discoveredLocalPath host files item) true with
    | error errorCode => rfl
    | ok localFile =>
      refine congrArg Except.ok ?_
      unfold pendingChecksum
      rw [grokRetainedKind_enrichWith, hk, if_neg (by simp)]
      exact enrichWith_modes hk h hl

end Pending

/-! ## Filters before and after a refresh -/

section Filters

variable {α ε : Type}

theorem mapM_cons_eq_ok {f : α → Except ε α} {a : α} {l bs : List α} :
    (a :: l).mapM f = .ok bs ↔ ∃ b rest, f a = .ok b ∧ l.mapM f = .ok rest ∧ bs = b :: rest := by
  rw [List.mapM_cons]
  cases hf : f a with
  | error e => simp [bind, Except.bind]
  | ok b =>
    cases hl : l.mapM f with
    | error e => simp [bind, Except.bind]
    | ok rest => simp [bind, Except.bind, pure, Except.pure, eq_comm]

theorem mem_of_mapM {f : α → Except ε α} {b : α} : ∀ {l bs : List α}, l.mapM f = .ok bs → b ∈ bs → ∃ a ∈ l, f a = .ok b
  | [], _, h, hb => by
    cases h
    exact absurd hb List.not_mem_nil
  | a :: l, bs, h, hb => by
    obtain ⟨first, rest, hf, hrest, rfl⟩ := mapM_cons_eq_ok.mp h
    rcases List.mem_cons.mp hb with rfl | hb
    · exact ⟨a, List.mem_cons_self .., hf⟩
    · obtain ⟨a', ha', hb'⟩ := mem_of_mapM hrest hb
      exact ⟨a', List.mem_cons_of_mem _ ha', hb'⟩

theorem ok_of_mapM {f : α → Except ε α} {a : α} : ∀ {l bs : List α}, l.mapM f = .ok bs → a ∈ l → ∃ b, f a = .ok b
  | [], _, _, ha => absurd ha List.not_mem_nil
  | first :: l, bs, h, ha => by
    obtain ⟨b, rest, hf, hrest, rfl⟩ := mapM_cons_eq_ok.mp h
    rcases List.mem_cons.mp ha with rfl | ha
    · exact ⟨b, hf⟩
    · exact ok_of_mapM hrest ha

/-- What is refreshed up to `g`, one by one, is refreshed up to `g`. -/
theorem mapM_map {f f' : α → Except ε α} {g : α → α} : ∀ {l bs : List α},
    (∀ a ∈ l, ∀ b, f a = .ok b → ∃ b', f' a = .ok b' ∧ b = g b') → l.mapM f = .ok bs →
      ∃ as, l.mapM f' = .ok as ∧ bs = as.map g
  | [], bs, _, h => by
    cases h
    exact ⟨[], rfl, rfl⟩
  | a :: l, bs, hf, h => by
    obtain ⟨b, rest, hb, hrest, rfl⟩ := mapM_cons_eq_ok.mp h
    obtain ⟨b', hb', rfl⟩ := hf a (List.mem_cons_self ..) b hb
    obtain ⟨as, has, rfl⟩ := mapM_map (fun a ha => hf a (List.mem_cons_of_mem _ ha)) hrest
    exact ⟨b' :: as, mapM_cons_eq_ok.mpr ⟨b', as, hb', has, rfl⟩, rfl⟩

/-- **A wider scope gives the same**, where what it adds is filtered out again and the rest is refreshed up to `g`. -/
theorem filter_refresh_filter {f f' : α → Except ε α} {narrow wide kept : α → Bool} {g : α → α} :
    ∀ {l bs : List α}, (∀ a ∈ l, narrow a → wide a) →
      (∀ a ∈ l, narrow a → ∀ b, f a = .ok b → ∃ b', f' a = .ok b' ∧ b = g b' ∧ kept b = kept b') →
      (∀ a ∈ l, ¬narrow a → ∀ b, f a = .ok b → kept b = false) →
      (l.filter wide).mapM f = .ok bs →
      ∃ as, (l.filter narrow).mapM f' = .ok as ∧ bs.filter kept = (as.filter kept).map g
  | [], bs, _, _, _, h => by
    cases h
    exact ⟨[], rfl, rfl⟩
  | a :: l, bs, hw, hf, hn, h => by
    have next : ∀ {rest : List α}, (l.filter wide).mapM f = .ok rest →
        ∃ as, (l.filter narrow).mapM f' = .ok as ∧ rest.filter kept = (as.filter kept).map g :=
      filter_refresh_filter (fun a ha => hw a (List.mem_cons_of_mem _ ha))
        (fun a ha => hf a (List.mem_cons_of_mem _ ha)) fun a ha => hn a (List.mem_cons_of_mem _ ha)
    by_cases ha : narrow a
    · rw [List.filter_cons_of_pos (hw a (List.mem_cons_self ..) ha)] at h
      obtain ⟨b, rest, hb, hrest, rfl⟩ := mapM_cons_eq_ok.mp h
      obtain ⟨b', hb', rfl, hk⟩ := hf a (List.mem_cons_self ..) ha b hb
      obtain ⟨as, has, heq⟩ := next hrest
      refine ⟨b' :: as, ?_, ?_⟩
      · rw [List.filter_cons_of_pos ha]
        exact mapM_cons_eq_ok.mpr ⟨b', as, hb', has, rfl⟩
      · rw [List.filter_cons, List.filter_cons, hk, heq]
        split <;> rfl
    · rw [List.filter_cons_of_neg ha]
      by_cases hwa : wide a
      · rw [List.filter_cons_of_pos hwa] at h
        obtain ⟨b, rest, hb, hrest, rfl⟩ := mapM_cons_eq_ok.mp h
        obtain ⟨as, has, heq⟩ := next hrest
        exact ⟨as, has, by rw [List.filter_cons, hn a (List.mem_cons_self ..) ha b hb]; exact heq⟩
      · rw [List.filter_cons_of_neg hwa] at h
        exact next h

end Filters

section Result

variable {host : ListingHost} {g : ArchiveItem → ArchiveItem}

theorem createRunArchiveListResult_map (hc : ∀ item, (g item).createdAt = item.createdAt)
    (hk : ∀ item, (g item).kind = item.kind) {items others : List ArchiveItem} {request : RunArchiveListRequest}
    (h : others.filter (matchesRequest host · request) = (items.filter (matchesRequest host · request)).map g) :
    createRunArchiveListResult host others request =
      { createRunArchiveListResult host items request with
        items := (createRunArchiveListResult host items request).items.map g } := by
  have hsort : ((items.filter (matchesRequest host · request)).map g).insertionSort (notOlder host) =
      ((items.filter (matchesRequest host · request)).insertionSort (notOlder host)).map g :=
    (List.map_insertionSort _ _ g _ fun a _ b _ => by unfold notOlder; rw [hc, hc]).symm
  unfold createRunArchiveListResult
  dsimp only
  rw [h, hsort]
  congr 1
  · exact List.map_take.symm
  · exact List.length_map _
  · funext kind
    unfold countByKind
    rw [List.countP_map]
    refine List.countP_congr fun item _ => ?_
    simp only [Function.comp_apply, hk]

end Result

/-! ## Batches and single calls -/

/-- The items that a request alone reads. -/
def StoredArchive.itemsFor (archive : StoredArchive) (request : RunArchiveListRequest) : List ArchiveItem :=
  match archive.index with
  | some items => (items.map (·.item)).filter (matchesStableRequest · request)
  | none => archive.collected

/-- The items of the index that a request alone does not read. -/
def StoredArchive.othersFor (archive : StoredArchive) (request : RunArchiveListRequest) : List ArchiveItem :=
  match archive.index with
  | some items => (items.map (·.item)).filter fun item => !matchesStableRequest item request
  | none => []

/-- No item comes into the scope of the request by its refresh. -/
def NoneEnters (files : LocalFiles) (includeChecksum : Bool) (archive : StoredArchive) (request : RunArchiveListRequest) :
    Prop :=
  ∀ item ∈ archive.othersFor request, ∀ after,
    enrichFileMetadata host.toFileMetadataHost files includeChecksum item = .ok after →
      matchesStableRequest after request = false

/-- The query of the request finds the items that it reads whether their checksums are pending or not. -/
def QueryBlind (files : LocalFiles) (archive : StoredArchive) (request : RunArchiveListRequest) : Prop :=
  ∀ item ∈ archive.itemsFor request, ∀ after,
    enrichFileMetadata host.toFileMetadataHost files true item = .ok after →
      ∀ query, present request.query = some query →
        itemMatchesQuery host (Materialization.normalizeRunArchiveItem (pendingChecksum after)) query =
          itemMatchesQuery host (Materialization.normalizeRunArchiveItem after) query

/-- Items that match the stable part of a request without a status match it after a refresh only if they did before. -/
theorem noneEnters_of_no_status {files : LocalFiles} {includeChecksum : Bool} {archive : StoredArchive}
    {request : RunArchiveListRequest} (h : present request.status = none) :
    NoneEnters host files includeChecksum archive request := by
  intro item hi after ha
  rw [matchesStableRequest_refreshed (.inl h) ha]
  unfold StoredArchive.othersFor at hi
  split at hi
  · simpa using (List.mem_filter.mp hi).2
  · exact absurd hi List.not_mem_nil

section Agree

variable {host} {archive : StoredArchive} {files : LocalFiles} {requests : List RunArchiveListRequest} {i : Nat}
  {request : RunArchiveListRequest}

theorem pendingChecksum_fields (item : ArchiveItem) :
    pendingChecksum item = withFile item (pendingChecksum item).file ∧
      (pendingChecksum item).file.agentId = item.file.agentId ∧ (pendingChecksum item).file.teamId = item.file.teamId ∧
        (pendingChecksum item).file.status = item.file.status ∧
          (pendingChecksum item).file.runtimeState = item.file.runtimeState ∧
            (pendingChecksum item).file.fileAvailable = item.file.fileAvailable := by
  unfold pendingChecksum
  split <;> exact ⟨rfl, rfl, rfl, rfl, rfl, rfl⟩

theorem matchesRequest_pendingChecksum {item : ArchiveItem}
    (hq : ∀ query, present request.query = some query →
      itemMatchesQuery host (pendingChecksum item) query = itemMatchesQuery host item query) :
    matchesRequest host (pendingChecksum item) request = matchesRequest host item request := by
  obtain ⟨h, h1, h2, h3, h4, h5⟩ := pendingChecksum_fields item
  have hstable : matchesStableRequest (pendingChecksum item) request = matchesStableRequest item request := by
    unfold matchesStableRequest
    rw [h1, h2, h3, h4, h]
    rfl
  have hquery : (present request.query).all (itemMatchesQuery host (pendingChecksum item)) =
      (present request.query).all (itemMatchesQuery host item) := by
    cases hp : present request.query with
    | none => rfl
    | some query => exact hq query hp
  unfold matchesRequest
  rw [hstable, hquery, h5]
  congr 3
  funext asked
  cases asked <;> unfold matchesAvailability <;> rw [h5]

theorem normalize_refreshed {indexed : IndexedItem ItemDetails} {includeChecksum : Bool} {after : ArchiveItem}
    (h : enrichFileMetadata host.toFileMetadataHost files includeChecksum indexed.item = .ok after) :
    Materialization.normalizeRunArchiveItem after = after := by
  rw [(enrichFileMetadata_same h).1]
  exact normalize_withFile _

theorem backfilled_eq (localeCompare : String → String → Ordering) (items : List ArchiveItem) :
    backfilled localeCompare items =
      (items.map Materialization.normalizeRunArchiveItem).insertionSort fun left right =>
        Materialization.itemNotAfter (φ := ItemDetails) ⟨localeCompare, fun _ _ => true⟩ left right := by
  unfold backfilled indexOrder
  dsimp only
  refine (List.map_insertionSort
    (fun left right : IndexedItem ItemDetails =>
      Materialization.itemNotAfter ⟨localeCompare, fun _ _ => true⟩ left.item right.item = true)
    (fun left right : ArchiveItem =>
      Materialization.itemNotAfter ⟨localeCompare, fun _ _ => true⟩ left right = true) (·.item) _
    fun _ _ _ _ => Iff.rfl).trans ?_
  rw [List.nil_append, List.map_map]
  rfl

/-- Backfilling items that differ by what normalizing does not touch. -/
theorem backfilled_map {localeCompare : String → String → Ordering} {g : ArchiveItem → ArchiveItem}
    (hg : ∀ item, Materialization.normalizeRunArchiveItem (g item) = g (Materialization.normalizeRunArchiveItem item))
    (hi : ∀ item, (g item).id = item.id) (hc : ∀ item, (g item).createdAt = item.createdAt) (items : List ArchiveItem) :
    backfilled localeCompare (items.map g) = (backfilled localeCompare items).map g := by
  have hmap : (items.map g).map Materialization.normalizeRunArchiveItem =
      (items.map Materialization.normalizeRunArchiveItem).map g := by
    rw [List.map_map, List.map_map]
    exact List.map_congr_left fun item _ => hg item
  rw [backfilled_eq, backfilled_eq, hmap]
  refine (List.map_insertionSort _ _ g _ fun left _ right _ => ?_).symm
  unfold Materialization.itemNotAfter
  simp only [hi, hc]

theorem mem_backfilled {localeCompare : String → String → Ordering} {items : List ArchiveItem} {item : ArchiveItem}
    (h : item ∈ backfilled localeCompare items) :
    ∃ raw ∈ items, item = Materialization.normalizeRunArchiveItem raw := by
  rw [backfilled_eq, List.mem_insertionSort] at h
  obtain ⟨raw, hr, rfl⟩ := List.mem_map.mp h
  exact ⟨raw, hr, rfl⟩

/-- **What a batch reads** gives each request what it reads alone, up to `g`. -/
theorem readIndexedItems_agree {g : ArchiveItem → ArchiveItem} {includeChecksum : Bool} {others : List ArchiveItem}
    (hg : ∀ item, Materialization.normalizeRunArchiveItem (g item) = g (Materialization.normalizeRunArchiveItem item))
    (hi : ∀ item, (g item).id = item.id) (hc : ∀ item, (g item).createdAt = item.createdAt)
    (hr : request ∈ requests)
    (hf : ∀ item ∈ archive.itemsFor request, ∀ after,
      enrichFileMetadata host.toFileMetadataHost files includeChecksum item = .ok after →
        ∃ full, enrichFileMetadata host.toFileMetadataHost files true item = .ok full ∧ after = g full ∧
          matchesRequest host (Materialization.normalizeRunArchiveItem (g full)) request =
            matchesRequest host (Materialization.normalizeRunArchiveItem full) request)
    (hn : NoneEnters host files includeChecksum archive request)
    (h : readIndexedItems host archive files includeChecksum (batchScope requests) = .ok others) :
    ∃ items, readIndexedItems host archive files true (matchesStableRequest · request) = .ok items ∧
      others.filter (matchesRequest host · request) = (items.filter (matchesRequest host · request)).map g := by
  unfold readIndexedItems refreshed at h ⊢
  unfold StoredArchive.itemsFor at hf
  unfold NoneEnters StoredArchive.othersFor at hn
  cases hindex : archive.index with
  | some index =>
    rw [hindex] at h hf hn
    dsimp only at h hf hn ⊢
    refine filter_refresh_filter (fun item _ hs => List.any_eq_true.mpr ⟨request, hr, hs⟩) ?_ ?_ h
    · intro item hi hs after ha
      obtain ⟨full, hfull, rfl, hm⟩ := hf item (List.mem_filter.mpr ⟨hi, hs⟩) after ha
      obtain ⟨indexed, -, rfl⟩ := List.mem_map.mp hi
      rw [normalize_refreshed ha, normalize_refreshed hfull] at hm
      exact ⟨full, hfull, rfl, hm⟩
    · intro item hi hs after ha
      have hstable := hn item (List.mem_filter.mpr ⟨hi, by simpa using hs⟩) after ha
      unfold matchesRequest
      rw [hstable]
      rfl
  | none =>
    rw [hindex] at h hf
    dsimp only at h hf ⊢
    cases hc' : archive.collected.mapM (enrichFileMetadata host.toFileMetadataHost files includeChecksum) with
    | error errorCode =>
      rw [hc'] at h
      cases h
    | ok bs =>
      rw [hc'] at h
      cases h
      obtain ⟨as, has, rfl⟩ := mapM_map (fun item hi after ha => by
        obtain ⟨full, hfull, hgf, -⟩ := hf item hi after ha
        exact ⟨full, hfull, hgf⟩) hc'
      refine ⟨backfilled host.localeCompare as, by rw [has]; rfl, ?_⟩
      rw [backfilled_map hg hi hc, List.filter_map]
      congr 1
      refine List.filter_congr fun item hitem => ?_
      obtain ⟨raw, hraw, rfl⟩ := mem_backfilled hitem
      obtain ⟨stored, hs, hfull⟩ := mem_of_mapM has hraw
      obtain ⟨after, ha⟩ := ok_of_mapM hc' hs
      obtain ⟨full, hfull', -, hm⟩ := hf stored hs after ha
      rw [hfull] at hfull'
      cases hfull'
      rw [Function.comp_apply, ← hg]
      exact hm

/-- The result of a batch for a request, and what the request gives alone. -/
theorem listBatch_agree {g : ArchiveItem → ArchiveItem} {includeChecksum : Bool} {results : List RunArchiveListResult}
    (hg : ∀ item, Materialization.normalizeRunArchiveItem (g item) = g (Materialization.normalizeRunArchiveItem item))
    (hi : ∀ item, (g item).id = item.id) (hc : ∀ item, (g item).createdAt = item.createdAt)
    (hk : ∀ item, (g item).kind = item.kind) (hr : requests[i]? = some request)
    (hf : ∀ item ∈ archive.itemsFor request, ∀ after,
      enrichFileMetadata host.toFileMetadataHost files includeChecksum item = .ok after →
        ∃ full, enrichFileMetadata host.toFileMetadataHost files true item = .ok full ∧ after = g full ∧
          matchesRequest host (Materialization.normalizeRunArchiveItem (g full)) request =
            matchesRequest host (Materialization.normalizeRunArchiveItem full) request)
    (hn : NoneEnters host files includeChecksum archive request)
    (h : listBatch host includeChecksum archive files requests = .ok results) :
    ∃ result, listItems host archive files request = .ok result ∧
      results[i]? = some { result with items := result.items.map g } := by
  have hmem : request ∈ requests := List.mem_of_getElem? hr
  unfold listBatch at h
  rw [if_neg (by simp [List.ne_nil_of_mem hmem])] at h
  cases hread : readIndexedItems host archive files includeChecksum (batchScope requests) with
  | error errorCode =>
    rw [hread] at h
    cases h
  | ok others =>
    rw [hread] at h
    cases h
    obtain ⟨items, hitems, heq⟩ := readIndexedItems_agree hg hi hc hmem hf hn hread
    refine ⟨createRunArchiveListResult host items request, ?_, ?_⟩
    · unfold listItems
      rw [hitems]
      rfl
    · rw [List.getElem?_map, hr]
      exact congrArg some (createRunArchiveListResult_map hc hk heq)

theorem normalize_pendingChecksum (item : ArchiveItem) :
    Materialization.normalizeRunArchiveItem (pendingChecksum item) =
      pendingChecksum (Materialization.normalizeRunArchiveItem item) := by
  unfold pendingChecksum
  rw [apply_ite Materialization.normalizeRunArchiveItem]
  rfl

end Agree

/-- **A batch gives each request what the request gives alone**, when the batch returns and no item outside the scope of
the request comes into it by its refresh. A batch by availability does so for items whose retained bytes match what is
recorded of them, but that a retained file of Grok is said to wait for its checksum. -/
theorem batches_agree (archive : StoredArchive) (files : LocalFiles) (requests : List RunArchiveListRequest) (i : Nat)
    (request : RunArchiveListRequest) (hr : requests[i]? = some request) :
    (∀ results, listItemsBatch host archive files requests = .ok results →
      NoneEnters host files true archive request →
        ∃ result, listItems host archive files request = .ok result ∧ results[i]? = some result) ∧
    (∀ results, listItemsBatchAvailability host archive files requests = .ok results →
      NoneEnters host files false archive request →
        (∀ item ∈ archive.itemsFor request, RetainedBytesMatch host.toFileMetadataHost files item) →
          QueryBlind host files archive request →
            ∃ result, listItems host archive files request = .ok result ∧
              results[i]? = some { result with items := result.items.map pendingChecksum }) ∧
    ∀ item, RetainedBytesMatch host.toFileMetadataHost files item →
      enrichFileMetadata host.toFileMetadataHost files false item =
        (enrichFileMetadata host.toFileMetadataHost files true item).map pendingChecksum := by
  refine ⟨fun results h hn => ?_, fun results h hn hb hq => ?_, fun item hb => enrichFileMetadata_modes hb⟩
  · obtain ⟨result, hresult, hi⟩ := listBatch_agree (g := id) (fun _ => rfl) (fun _ => rfl) (fun _ => rfl)
      (fun _ => rfl) hr (fun item _ after ha => ⟨after, ha, rfl, rfl⟩) hn h
    exact ⟨result, hresult, by rw [hi, List.map_id]⟩
  · refine listBatch_agree normalize_pendingChecksum (fun item => by rw [(pendingChecksum_fields item).1]; rfl)
      (fun item => by rw [(pendingChecksum_fields item).1]; rfl)
      (fun item => by rw [(pendingChecksum_fields item).1]; rfl) hr (fun item hi after ha => ?_) hn h
    rw [enrichFileMetadata_modes (hb item hi)] at ha
    cases hfull : enrichFileMetadata host.toFileMetadataHost files true item with
    | error errorCode =>
      rw [hfull] at ha
      cases ha
    | ok full =>
      rw [hfull] at ha
      cases ha
      refine ⟨full, rfl, rfl, ?_⟩
      rw [normalize_pendingChecksum]
      refine matchesRequest_pendingChecksum fun query hquery => ?_
      rw [← normalize_pendingChecksum]
      exact hq item hi full hfull query hquery

end Listing

/-! ## A retained archive -/

def listingHost : ListingHost where
  cases := .lowered
  grokReceipt _ _ _ := some ⟨3, "aa"⟩
  localeCompare _ _ := .eq
  metadataText _ := ""

def retainedArchive : IndexedItem ItemDetails := .normalize
  { id := "grok-build-archive:run", kind := .generatedArtifact, source := .accountMirror, createdAt := ""
    provider := some "grok", runtimeProfile := none, projectId := none, boundIdentityKey := none, responseId := none
    batchId := none, mediaGenerationId := none, providerConversationId := none
    file :=
      { localPath := some "/retained/build.zip", checksumSha256 := some "aa"
        metadata := fun key => if key = "grokBuildArchive" then some (.bool true) else none } }

def retainedFiles : LocalFiles :=
  { filesReading (.content "aa" (some 3)) with plainSize := fun _ => some 3 }

def oneRetained : StoredArchive := ⟨some [retainedArchive], []⟩

theorem retainedArchive_matches :
    RetainedBytesMatch listingHost.toFileMetadataHost retainedFiles retainedArchive.item := by
  intro receipt localPath hr _
  cases hr
  exact ⟨rfl, some 3, rfl⟩

/-- The retained archive is listed in batches as it is alone. -/
theorem retained_batches_agree :
    (∃ results, listItemsBatch listingHost oneRetained retainedFiles [{}] = .ok results ∧
      ∃ result, listItems listingHost oneRetained retainedFiles {} = .ok result ∧ results[0]? = some result) ∧
    ∃ results, listItemsBatchAvailability listingHost oneRetained retainedFiles [{}] = .ok results ∧
      ∃ result, listItems listingHost oneRetained retainedFiles {} = .ok result ∧
        results[0]? = some { result with items := result.items.map pendingChecksum } := by
  obtain ⟨full, availability, -⟩ := batches_agree listingHost oneRetained retainedFiles [{}] 0 {} rfl
  refine ⟨⟨_, rfl, full _ rfl (noneEnters_of_no_status _ rfl)⟩,
    _, rfl, availability _ rfl (noneEnters_of_no_status _ rfl) ?_ ?_⟩
  · intro item hi
    rw [List.mem_singleton.mp hi]
    exact retainedArchive_matches
  · intro item _ after _ query hq
    cases hq

def listedReasons (result : RunArchiveListResult) : List (Option String) :=
  result.items.map fun item =>
    ((item.file.metadata "materialization").bind (·.record?)).bind fun record => record.string? "reason"

/-- By availability the retained archive is listed with another materialization than alone. -/
theorem availability_keeps_checksum_pending :
    ¬∀ (archive : StoredArchive) (files : LocalFiles) (requests : List RunArchiveListRequest)
      (results : List RunArchiveListResult) (i : Nat) (request : RunArchiveListRequest),
      requests[i]? = some request → listItemsBatchAvailability listingHost archive files requests = .ok results →
        (∀ item ∈ archive.itemsFor request, RetainedBytesMatch listingHost.toFileMetadataHost files item) →
          ∃ result, listItems listingHost archive files request = .ok result ∧ results[i]? = some result := by
  intro h
  obtain ⟨result, hl, hr⟩ := h oneRetained retainedFiles [{}] _ 0 {} rfl rfl (by
    intro item hi
    rw [List.mem_singleton.mp hi]
    exact retainedArchive_matches)
  cases hl
  have hreason := congrArg (Option.map listedReasons) hr
  exact absurd hreason (by decide)

end AuraCall.Archive
