import AuraCall.Search.Projection

/-!
# Filtering restricts a search

Following `nextCursor` gives the rows of a search, each once and in order (`searchPages_iff`). The rows of a filtered search
are those of the unfiltered search that the request asks for when the filters that the readers of the catalog and the archive
are given do no harm, and only then (`filtering_restricts_iff`). They do harm when the archive looks for a query where the row
shows more than the item, when a catalog item names another provider than its entry, and when they take away the archived
asset that a conversation row shows: a search for conversations asks the archive for no assets at all
(`conversations_lose_assets`).
-/

namespace AuraCall.Search

open Archive (asksFor present matchesAvailability)
open FilteredView
open Materialization (RunArchiveItemKind normalizeProviderId)

variable {host : SearchHost} {data : SearchData} {request : NormalizedSearchProjectionRequest}

/-! ## Orders -/

/-- Rows with a time come before those without, and the newest first. -/
def compareTimes : Option Int → Option Int → Ordering
  | some _, none => .lt
  | none, some _ => .gt
  | some left, some right => compare right left
  | none, none => .eq

instance : Std.TransCmp compareTimes where
  eq_swap := by
    intro a b
    cases a with
    | none => cases b <;> rfl
    | some a =>
      cases b with
      | none => rfl
      | some b => exact @Std.OrientedCmp.eq_swap Int compare _ _ _
  isLE_trans := by
    intro a b c hab hbc
    cases a with
    | none =>
      cases b with
      | none => exact hbc
      | some b => cases hab
    | some a =>
      cases c with
      | none => rfl
      | some c =>
        cases b with
        | none => cases hbc
        | some b => exact @Std.TransCmp.isLE_trans Int compare _ _ _ _ hbc hab

theorem compareRows_eq (host : SearchHost) :
    compareRows host =
      compareLex (fun left right => compareTimes (host.parseDate (left.sortTime.getD ""))
          (host.parseDate (right.sortTime.getD "")))
        (compareLex (fun left right => host.localeCompare (left.title.getD "") (right.title.getD ""))
          fun left right => host.localeCompare left.id right.id) := by
  funext left right
  unfold compareRows compareLex
  dsimp only
  generalize host.parseDate (left.sortTime.getD "") = leftTime
  generalize host.parseDate (right.sortTime.getD "") = rightTime
  cases leftTime with
  | none => cases rightTime <;> rfl
  | some leftTime =>
    cases rightTime with
    | none => rfl
    | some rightTime =>
      dsimp only [compareTimes]
      by_cases heq : leftTime = rightTime
      · rw [if_pos heq, compare_eq_iff_eq.2 heq.symm]
        rfl
      · rw [if_neg heq]
        cases hcmp : compare rightTime leftTime with
        | eq => exact absurd (compare_eq_iff_eq.1 hcmp).symm heq
        | lt => rfl
        | gt => rfl

section Sorted

variable [Std.TransCmp host.localeCompare]

instance : Std.TransCmp (compareRows host) := by
  have htime : Std.TransCmp fun left right : SearchProjectionRow =>
      compareTimes (host.parseDate (left.sortTime.getD "")) (host.parseDate (right.sortTime.getD "")) :=
    transCmp_on fun row : SearchProjectionRow => host.parseDate (row.sortTime.getD "")
  have htitle : Std.TransCmp fun left right : SearchProjectionRow =>
      host.localeCompare (left.title.getD "") (right.title.getD "") :=
    transCmp_on fun row : SearchProjectionRow => row.title.getD ""
  have hid : Std.TransCmp fun left right : SearchProjectionRow => host.localeCompare left.id right.id :=
    transCmp_on fun row : SearchProjectionRow => row.id
  rw [compareRows_eq]
  infer_instance

instance : Std.Total (rowNotAfter host) := total_of_cmp

instance : IsTrans SearchProjectionRow (rowNotAfter host) := isTrans_of_cmp

instance compareCreated : Std.TransCmp fun left right : ArchiveRecord =>
    host.localeCompare right.item.createdAt left.item.createdAt :=
  have := @transCmp_on _ _ host.localeCompare _ fun record : ArchiveRecord => record.item.createdAt
  .opposite

instance : Std.Total (recordNotOlder host) := @total_of_cmp _ _ compareCreated.toOrientedCmp

instance : IsTrans ArchiveRecord (recordNotOlder host) := @isTrans_of_cmp _ _ compareCreated

end Sorted

/-! ## Pages -/

/-- Reading the text of a cursor gives the record that was written. -/
def ReadsCursors (host : SearchHost) : Prop :=
  ∀ offset : Nat, host.parseJson (String.ofList (stringify host.numbers (.object [("offset", .ofNat offset)]))) =
    some (.object [("offset", .ofNat offset)])

theorem cursorText_toBase64url (text : String) : cursorText host (toBase64url text) = text := by
  have hvalid : (⟨(utf8Bytes text).toArray⟩ : ByteArray) = text.toByteArray := by
    rw [utf8Bytes, Array.toArray_toList]
    rfl
  have hread : String.fromUTF8? text.toByteArray = some text := by
    rw [String.fromUTF8?, dif_pos text.isValidUTF8]
    rfl
  rw [cursorText, toBase64url, String.toList_ofList, Base64url.decode_encode, hvalid, hread, Option.getD_some]

theorem notWhite_of_alphabet {c : Char} (hc : c ∈ Base64url.alphabet) : isWhiteSpace c = false := by
  have hall : (Base64url.alphabet.all fun c => !isWhiteSpace c) = true := by decide +kernel
  simpa using List.all_eq_true.1 hall c hc

theorem toBase64url_empty : toBase64url "" = "" := rfl

theorem normalizeString_encodeCursor (offset : Nat) :
    normalizeString (some (encodeCursor host offset)) = some (encodeCursor host offset) := by
  have htrim : trim (encodeCursor host offset) = encodeCursor host offset := by
    refine trim_eq_self fun c hc => ?_
    rw [encodeCursor, toBase64url, String.toList_ofList] at hc
    exact notWhite_of_alphabet (Base64url.mem_alphabet_of_mem_encode hc)
  have hne : encodeCursor host offset ≠ "" := by
    intro hempty
    have htext := @cursorText_toBase64url host
      (String.ofList (stringify host.numbers (.object [("offset", .ofNat offset)])))
    rw [← encodeCursor, hempty, ← toBase64url_empty, cursorText_toBase64url] at htext
    exact absurd (congrArg String.toList htext) (by simp [stringify])
  rw [normalizeString, Option.map_some, htrim, Option.filter_some, if_pos (decide_eq_true hne)]

theorem decodeCursor_encodeCursor (h : ReadsCursors host) (offset : Nat) :
    decodeCursor host (some (encodeCursor host offset)) = offset := by
  have hoffset : ((offset : ℚ).den = 1 ∧ 0 ≤ (offset : ℚ).num) ∧ (offset : ℚ).num.toNat = offset := by simp
  rw [decodeCursor, encodeCursor, cursorText_toBase64url, h]
  show (if (offset : ℚ).den = 1 ∧ 0 ≤ (offset : ℚ).num then (offset : ℚ).num.toNat else 0) = offset
  rw [if_pos hoffset.1, hoffset.2]

/-- What a search with a cursor shows, and the cursor that it gives. -/
def searchPage (host : SearchHost) (data : SearchData) (request : SearchProjectionRequest) (cursor : Option String) :
    List SearchProjectionRow × Option (Option String) :=
  let result := search host data { request with cursor }
  (result.rows, result.nextCursor.map some)

/-- The place in the rows at which a cursor points. -/
def cursorOffset (host : SearchHost) (cursor : Option String) : Nat := decodeCursor host (normalizeString cursor)

theorem searchPage_serves (h : ReadsCursors host) (data : SearchData) (request : SearchProjectionRequest) :
    Serves (searchPage host data request) (searchRows host data (normalizeRequest request))
      (normalizeLimit request.limit) (cursorOffset host) where
  page _ := rfl
  last cursor hlast := by
    by_contra hlt
    have hnext : (searchPage host data request cursor).2 =
        some (some (encodeCursor host (cursorOffset host cursor + (searchPage host data request cursor).1.length))) :=
      congrArg (Option.map some) (if_pos (Nat.lt_of_not_le hlt))
    rw [hlast] at hnext
    cases hnext
  next cursor after hnext := by
    have hsearch : (if cursorOffset host cursor + (searchPage host data request cursor).1.length <
          (searchRows host data (normalizeRequest request)).length
        then some (encodeCursor host (cursorOffset host cursor + (searchPage host data request cursor).1.length))
        else none).map some = some after := hnext
    split at hsearch
    · rename_i hlt
      cases hsearch
      refine ⟨hlt, ?_⟩
      rw [cursorOffset, normalizeString_encodeCursor, decodeCursor_encodeCursor h]
    · cases hsearch

/-- Following `nextCursor` from the first page gives the rows of the search, each once and in order. -/
theorem searchPages_iff (h : ReadsCursors host) {data : SearchData} {request : SearchProjectionRequest}
    {shown : List SearchProjectionRow} :
    Follows (searchPage host data request) none shown ↔ shown = searchRows host data (normalizeRequest request) :=
  (searchPage_serves h data request).follows_iff (normalizeLimit_pos request.limit)

/-! ## A search as a filtered view -/

/-- What a row is made from: an item of a catalog entry, or an item of the archive. -/
abbrev RowItem := (CatalogEntry × ManifestKind × Json) ⊕ ArchiveRecord

/-- The archive in the order of a listing. -/
def orderedRecords (host : SearchHost) (archive : RunArchive) : List ArchiveRecord :=
  archive.records.insertionSort (recordNotOlder host)

/-- Everything that a search could make a row from. -/
def rowItems (host : SearchHost) (data : SearchData) : List RowItem :=
  (catalogItems data.catalog).map .inl ++ (orderedRecords host data.archive).map .inr

/-- Whether the readers of the catalog and the archive give an item to the search. -/
def isRead (host : SearchHost) (request : NormalizedSearchProjectionRequest) : RowItem → Bool :=
  Sum.elim (fun found => catalogReads request found.1) (archiveLists host request)

def jobsOf (host : SearchHost) (data : SearchData) : String → Option ArchiveMaterializationJob :=
  latestMaterializationJobsByArchiveItemId host data.jobs

/-- What the whole archive says of a conversation. -/
def archivedFreshness (host : SearchHost) (data : SearchData) (conversation : String) :
    Option ConversationMaterializationFreshness :=
  latestArchiveFreshnessByConversation host (orderedRecords host data.archive) (jobsOf host data) conversation

/-- What the items that the archive lists for a request say of a conversation. -/
def listedFreshness (host : SearchHost) (data : SearchData) (request : NormalizedSearchProjectionRequest)
    (conversation : String) : Option ConversationMaterializationFreshness :=
  latestArchiveFreshnessByConversation host ((orderedRecords host data.archive).filter (archiveLists host request))
    (jobsOf host data) conversation

def rowOf (host : SearchHost) (data : SearchData)
    (freshness : String → Option ConversationMaterializationFreshness) : RowItem → SearchProjectionRow :=
  Sum.elim (fun found => rowFromCatalogItem host freshness found.1 found.2.1 found.2.2)
    (rowFromArchiveItem host (jobsOf host data))

/-- Fewer than 500 items, so that no limit of a reader cuts them. -/
structure SearchData.Small (data : SearchData) : Prop where
  catalog : (catalogItems data.catalog).length < 500
  archive : data.archive.records.length < 500

theorem mem_entryItems {entry : CatalogEntry} {found : CatalogEntry × ManifestKind × Json} :
    found ∈ entryItems entry ↔ found.1 = entry ∧ found.2.2 ∈ entry.manifests found.2.1 := by
  obtain ⟨of, kind, item⟩ := found
  simp only [entryItems, List.mem_flatMap, List.mem_map, Prod.mk.injEq]
  constructor
  · rintro ⟨_, -, _, hitem, rfl, rfl, rfl⟩
    exact ⟨rfl, hitem⟩
  · rintro ⟨rfl, hitem⟩
    exact ⟨kind, by cases kind <;> decide, item, hitem, rfl, rfl, rfl⟩

theorem length_manifests_le {entries : List CatalogEntry} {entry : CatalogEntry} (h : entry ∈ entries)
    (kind : ManifestKind) : (entry.manifests kind).length ≤ (catalogItems entries).length := by
  have hentry : (entry.manifests kind).length ≤ (entryItems entry).length := by
    cases kind <;> simp [entryItems] <;> omega
  have hall : (entryItems entry).Sublist (entries.map entryItems).flatten :=
    List.sublist_flatten_of_mem (List.mem_map_of_mem h)
  rw [← List.flatMap_def] at hall
  exact hentry.trans hall.length_le

theorem readCatalog_eq (h : data.Small) (request : NormalizedSearchProjectionRequest) :
    readCatalog data.catalog request = data.catalog.filter (catalogReads request) := by
  rw [readCatalog]
  conv_rhs => rw [← List.map_id (data.catalog.filter (catalogReads request))]
  refine List.map_congr_left fun entry hentry => ?_
  have hmanifests : (fun kind => (entry.manifests kind).take 500) = entry.manifests := by
    funext kind
    have hlength := length_manifests_le (List.mem_filter.1 hentry).1 kind
    have hsmall := h.catalog
    exact List.take_of_length_le (by omega)
  rw [hmanifests]
  rfl

theorem catalogItems_filter (entries : List CatalogEntry) (p : CatalogEntry → Bool) :
    catalogItems (entries.filter p) = (catalogItems entries).filter fun found => p found.1 := by
  induction entries with
  | nil => rfl
  | cons entry entries ih =>
    have hentry : ∀ found ∈ entryItems entry, p found.1 = p entry := fun found hfound =>
      congrArg p (mem_entryItems.1 hfound).1
    rw [catalogItems, catalogItems, List.flatMap_cons, List.filter_append, List.filter_congr hentry, ← catalogItems,
      ← catalogItems, ← ih]
    by_cases hp : p entry = true
    · rw [List.filter_cons_of_pos hp, catalogItems, List.flatMap_cons, hp, List.filter_true]
      rfl
    · rw [List.filter_cons_of_neg hp, eq_false_of_ne_true hp, List.filter_false, List.nil_append]

section View

variable [Std.TransCmp host.localeCompare]

theorem listItems_eq (h : data.Small) (request : NormalizedSearchProjectionRequest) :
    listItems host data.archive request = (orderedRecords host data.archive).filter (archiveLists host request) := by
  have hlength : ((data.archive.records.filter (archiveLists host request)).insertionSort (recordNotOlder host)).length ≤
      Archive.normalizeLimit (archiveRequest request).limit := by
    have hsmall := h.archive
    have hfilter := List.length_filter_le (archiveLists host request) data.archive.records
    rw [List.length_insertionSort]
    show _ ≤ 500
    omega
  rw [listItems, List.take_of_length_le hlength, orderedRecords, filter_insertionSort]

/-- A search shows what it reads, each item as what is listed shows it. -/
theorem searchRows_eq (h : data.Small) (request : NormalizedSearchProjectionRequest) :
    searchRows host data request =
      ((((rowItems host data).filter (isRead host request)).map (rowOf host data (listedFreshness host data request))).filter
        (matchesSearchRequest host request)).insertionSort (rowNotAfter host) := by
  have hmade : ((rowItems host data).filter (isRead host request)).map
        (rowOf host data (listedFreshness host data request)) =
      ((catalogItems data.catalog).filter fun found => catalogReads request found.1).map
          (fun found => rowFromCatalogItem host (listedFreshness host data request) found.1 found.2.1 found.2.2) ++
        ((orderedRecords host data.archive).filter (archiveLists host request)).map
          (rowFromArchiveItem host (jobsOf host data)) := by
    rw [rowItems, List.filter_append, List.filter_map, List.filter_map, List.map_append, List.map_map, List.map_map]
    rfl
  rw [hmade, searchRows, listItems_eq h, readCatalog_eq h, catalogItems_filter]
  rfl

end View

/-! ## The unfiltered search -/

/-- The request without its filters. -/
def SearchProjectionRequest.unfiltered (request : SearchProjectionRequest) : SearchProjectionRequest :=
  { limit := request.limit }

theorem isRead_unfiltered (request : SearchProjectionRequest) (item : RowItem) :
    isRead host (normalizeRequest request.unfiltered) item = true := by
  cases item <;> rfl

theorem matchesSearchRequest_unfiltered (request : SearchProjectionRequest) (row : SearchProjectionRow) :
    matchesSearchRequest host (normalizeRequest request.unfiltered) row = true := rfl

theorem listedFreshness_unfiltered (request : SearchProjectionRequest) :
    listedFreshness host data (normalizeRequest request.unfiltered) = archivedFreshness host data := by
  funext conversation
  have hall : (orderedRecords host data.archive).filter (archiveLists host (normalizeRequest request.unfiltered)) =
      orderedRecords host data.archive := 
    List.filter_eq_self.2 fun record _ => @isRead_unfiltered host request (.inr record)
  rw [listedFreshness, hall]
  rfl

theorem searchRows_unfiltered [Std.TransCmp host.localeCompare] (h : data.Small) (request : SearchProjectionRequest) :
    searchRows host data (normalizeRequest request.unfiltered) =
      ((rowItems host data).map (rowOf host data (archivedFreshness host data))).insertionSort (rowNotAfter host) := by
  rw [searchRows_eq h, listedFreshness_unfiltered, List.filter_eq_self.2 fun item _ => isRead_unfiltered request item,
    List.filter_eq_self.2 fun row _ => matchesSearchRequest_unfiltered request row]

/-! ## Which archived asset a conversation row shows -/

/-- An item is named by what it says of its conversation. -/
theorem archiveItemId_of_freshness {jobs : String → Option ArchiveMaterializationJob} {record : ArchiveRecord}
    {found : String × ConversationMaterializationFreshness}
    (h : conversationFreshnessOf host jobs record = some found) : found.2.archiveItemId = record.item.id := by
  unfold conversationFreshnessOf at h
  dsimp only at h
  split_ifs at h
  cases h
  rfl

theorem eq_of_id {archive : RunArchive} {left right : ArchiveRecord} (hl : left ∈ archive.records)
    (hr : right ∈ archive.records) (h : left.item.id = right.item.id) : left = right :=
  List.inj_on_of_nodup_map archive.nodup hl hr h

theorem mem_orderedRecords {record : ArchiveRecord} :
    record ∈ orderedRecords host data.archive ↔ record ∈ data.archive.records := List.mem_insertionSort _

/-- Whether what is said of a conversation is said by a listed item. -/
def saidByListed (host : SearchHost) (data : SearchData) (request : NormalizedSearchProjectionRequest)
    (found : String × ConversationMaterializationFreshness) : Bool :=
  data.archive.records.any fun record =>
    record.item.id = found.2.archiveItemId && archiveLists host request record

theorem filterMap_listed :
    ((orderedRecords host data.archive).filter (archiveLists host request)).filterMap
        (conversationFreshnessOf host (jobsOf host data)) =
      ((orderedRecords host data.archive).filterMap (conversationFreshnessOf host (jobsOf host data))).filter
        (saidByListed host data request) := by
  rw [List.filterMap_filter, List.filter_filterMap]
  refine List.filterMap_congr fun record hrecord => ?_
  cases hof : conversationFreshnessOf host (jobsOf host data) record with
  | none => split <;> rfl
  | some found =>
    have hsaid : saidByListed host data request found = archiveLists host request record := by
      rw [Bool.eq_iff_iff, saidByListed, List.any_eq_true]
      constructor
      · rintro ⟨other, hother, hboth⟩
        obtain ⟨hid, hlisted⟩ := Bool.and_eq_true_iff.1 hboth
        have hsame := eq_of_id hother (mem_orderedRecords.1 hrecord)
          ((of_decide_eq_true hid).trans (archiveItemId_of_freshness hof))
        rwa [← hsame]
      · intro hlisted
        refine ⟨record, mem_orderedRecords.1 hrecord, ?_⟩
        rw [archiveItemId_of_freshness hof, hlisted]
        simp
    rw [Option.filter_some, hsaid]

section Freshness

variable [Std.TransCmp host.localeCompare]

instance : Std.TransCmp (compareNullableIso host) where
  eq_swap := by
    intro a b
    unfold compareNullableIso
    by_cases ha : a = "" <;> by_cases hb : b = "" <;> simp [ha, hb]
    exact Std.OrientedCmp.eq_swap
  isLE_trans := by
    intro a b c
    unfold compareNullableIso
    by_cases ha : a = "" <;> by_cases hb : b = "" <;> by_cases hc : c = "" <;> simp [ha, hb, hc]
    exact Std.TransCmp.isLE_trans

instance : Std.TransCmp fun left right : String × ConversationMaterializationFreshness =>
    compareNullableIso host left.2.updatedAt right.2.updatedAt :=
  transCmp_on fun found : String × ConversationMaterializationFreshness => found.2.updatedAt

/-- The freshness of a conversation is what one of the items says of it. -/
theorem exists_of_latestArchiveFreshness {records : List ArchiveRecord}
    {jobs : String → Option ArchiveMaterializationJob} {conversation : String}
    {freshness : ConversationMaterializationFreshness}
    (h : latestArchiveFreshnessByConversation host records jobs conversation = some freshness) :
    ∃ record ∈ records, conversationFreshnessOf host jobs record = some (conversation, freshness) := by
  obtain ⟨found, hfound, rfl⟩ := Option.map_eq_some_iff.1 h
  rw [latestBy_eq] at hfound
  obtain ⟨hmem, hkey⟩ := List.mem_filter.1 (latest_mem hfound)
  obtain ⟨record, hrecord, hof⟩ := List.mem_filterMap.1 hmem
  refine ⟨record, hrecord, ?_⟩
  rw [hof, ← of_decide_eq_true hkey]

/-- Listing the item that decides keeps what the archive says of a conversation. -/
theorem listedFreshness_eq_iff {conversation : String} :
    listedFreshness host data request conversation = archivedFreshness host data conversation ↔
      ∀ record ∈ data.archive.records,
        (archivedFreshness host data conversation).map (·.archiveItemId) = some record.item.id →
          archiveLists host request record = true := by
  constructor
  · intro hsame record hrecord hid
    obtain ⟨freshness, hfreshness, hid⟩ := Option.map_eq_some_iff.1 hid
    rw [hfreshness] at hsame
    obtain ⟨other, hother, hof⟩ := exists_of_latestArchiveFreshness hsame
    obtain ⟨hother, hlisted⟩ := List.mem_filter.1 hother
    have hrecords := eq_of_id (mem_orderedRecords.1 hother) hrecord ((archiveItemId_of_freshness hof).symm.trans hid)
    rwa [← hrecords]
  · intro hlisted
    unfold listedFreshness archivedFreshness latestArchiveFreshnessByConversation
    rw [filterMap_listed, latestBy_eq, latestBy_eq, filter_comm]
    cases hlatest : latest (fun left right => compareNullableIso host left.2.updatedAt right.2.updatedAt)
        (((orderedRecords host data.archive).filterMap (conversationFreshnessOf host (jobsOf host data))).filter
          (·.1 = conversation)) with
    | none =>
      rw [latest_eq_none.1 hlatest]
      rfl
    | some found =>
      have harchived : archivedFreshness host data conversation = some found.2 := by
        unfold archivedFreshness latestArchiveFreshnessByConversation
        rw [latestBy_eq, hlatest, Option.map_some]
      obtain ⟨record, hrecord, hof⟩ := exists_of_latestArchiveFreshness harchived
      have hid := archiveItemId_of_freshness hof
      have hsaid : saidByListed host data request found = true := by
        refine List.any_eq_true.2 ⟨record, mem_orderedRecords.1 hrecord, ?_⟩
        rw [hlisted record (mem_orderedRecords.1 hrecord) (by rw [harchived, Option.map_some, hid]), ← hid]
        simp
      rw [latest_filter hlatest hsaid]

/-- The listed items and the whole archive name one item only if they say the same. -/
theorem freshness_eq_of_id {conversation : String}
    (h : (listedFreshness host data request conversation).map (·.archiveItemId) =
      (archivedFreshness host data conversation).map (·.archiveItemId)) :
    listedFreshness host data request conversation = archivedFreshness host data conversation := by
  rw [listedFreshness_eq_iff]
  intro record hrecord hid
  rw [← h] at hid
  obtain ⟨freshness, hfreshness, hid⟩ := Option.map_eq_some_iff.1 hid
  obtain ⟨other, hother, hof⟩ := exists_of_latestArchiveFreshness hfreshness
  obtain ⟨hother, hlisted⟩ := List.mem_filter.1 hother
  have hrecords := eq_of_id (mem_orderedRecords.1 hother) hrecord ((archiveItemId_of_freshness hof).symm.trans hid)
  rwa [← hrecords]

end Freshness

/-! ## What a row tells of its item -/

theorem manifestKind_text_injective : Function.Injective ManifestKind.text := by
  intro left right h
  cases left <;> cases right <;> first | rfl | exact absurd h (by decide)

section Rows

variable {freshness freshness' : String → Option ConversationMaterializationFreshness} {entry : CatalogEntry}
  {kind : ManifestKind} {item : Json}

theorem rowFromCatalogItem_congr
    (h : kind = .conversations →
      freshness (catalogConversationKey host entry item) = freshness' (catalogConversationKey host entry item)) :
    rowFromCatalogItem host freshness entry kind item = rowFromCatalogItem host freshness' entry kind item := by
  unfold rowFromCatalogItem
  by_cases hkind : kind = .conversations
  · rw [h hkind]
  · rw [if_neg hkind, if_neg hkind]

/-- The row of a conversation names the archived asset that it shows. -/
theorem materializedArchiveItemId_of_row :
    (rowFromCatalogItem host freshness entry .conversations item).metadata.get "materializedArchiveItemId" =
      ((freshness (catalogConversationKey host entry item)).map (·.archiveItemId)).map .string := by
  unfold rowFromCatalogItem catalogFreshnessMetadata
  cases readAccountMirrorConversationFreshness host item with
  | none => cases freshness (catalogConversationKey host entry item) <;> rfl
  | some found =>
    cases hroute : found.get "routeabilityState" with
    | none =>
      dsimp only
      rw [hroute]
      cases freshness (catalogConversationKey host entry item) <;> rfl
    | some state =>
      dsimp only
      rw [hroute]
      cases freshness (catalogConversationKey host entry item) <;> rfl

end Rows

section Rows

variable [Std.TransCmp host.localeCompare]

/-- A row of the filtered search is a row of the unfiltered one only if the filters change neither item's row. -/
theorem rows_of_eq (left right : RowItem)
    (h : rowOf host data (listedFreshness host data request) left = rowOf host data (archivedFreshness host data) right) :
    rowOf host data (listedFreshness host data request) left = rowOf host data (archivedFreshness host data) left ∧
      rowOf host data (listedFreshness host data request) right = rowOf host data (archivedFreshness host data) right := by
  cases left with
  | inr left =>
    cases right with
    | inr right => exact ⟨rfl, rfl⟩
    | inl right => cases congrArg SearchProjectionRow.source h
  | inl left =>
    cases right with
    | inr right => cases congrArg SearchProjectionRow.source h
    | inl right =>
      obtain ⟨entry, kind, item⟩ := left
      obtain ⟨entry', kind', item'⟩ := right
      have hkind : kind = kind' := manifestKind_text_injective (congrArg SearchProjectionRow.sourceKind h)
      subst hkind
      have hkey : catalogConversationKey host entry item = catalogConversationKey host entry' item' := by
        unfold catalogConversationKey
        rw [show some (catalogItemProvider host entry item) = some (catalogItemProvider host entry' item') from
            congrArg SearchProjectionRow.provider h,
          show some entry.runtimeProfileId = some entry'.runtimeProfileId from
            congrArg SearchProjectionRow.runtimeProfileId h,
          show readItemId host item = readItemId host item' from congrArg SearchProjectionRow.itemId h]
      have hsame : kind = .conversations →
          listedFreshness host data request (catalogConversationKey host entry item) =
            archivedFreshness host data (catalogConversationKey host entry item) := by
        rintro rfl
        have hid := congrArg (fun row => row.metadata.get "materializedArchiveItemId") h
        dsimp only [rowOf, Sum.elim_inl] at hid
        rw [materializedArchiveItemId_of_row, materializedArchiveItemId_of_row, ← hkey] at hid
        exact freshness_eq_of_id (Option.map_injective (fun _ _ => Json.string.inj) hid)
      exact ⟨rowFromCatalogItem_congr hsame, rowFromCatalogItem_congr (hkey ▸ hsame)⟩

end Rows

/-! ## Which archive items are listed -/

section Listed

variable {record : ArchiveRecord} {jobs : String → Option ArchiveMaterializationJob}

/-- A kind that is asked for is a kind of the archive that the item has. -/
theorem kind_of_searchKindMatches {row : SearchProjectionRow} {kind wanted : RunArchiveItemKind} {asked : Option String}
    (hsource : row.sourceKind = archiveKindText kind) (hkind : row.kind = archiveKindToSearchKind (archiveKindText kind))
    (hmatches : (present asked).all (searchKindMatches row) = true) (hwanted : archiveKindForSearchKind asked = some wanted) :
    kind = wanted := by
  cases hasked : present asked with
  | none =>
    rw [archiveKindForSearchKind, hasked] at hwanted
    cases hwanted
  | some text =>
    rw [archiveKindForSearchKind, hasked] at hwanted
    rw [hasked, Option.all_some, searchKindMatches, hsource, hkind] at hmatches
    split at hwanted <;> cases hwanted
    all_goals (rename_i heq; cases heq; revert hmatches; cases kind <;> decide)

theorem fileAvailableForRow_archive :
    fileAvailableForRow (rowFromArchiveItem host jobs record) = record.item.file.fileAvailable := by
  show (some (boolOrNull record.item.file.fileAvailable)).bind (·.bool?) = _
  cases record.item.file.fileAvailable <;> rfl

theorem status_of_row {asked : Option String}
    (h : (asksFor asked (rowFromArchiveItem host jobs record).status ||
      asksFor asked (rowFromArchiveItem host jobs record).runtimeState) = true) :
    (asksFor asked record.item.file.status || asksFor asked record.item.file.runtimeState) = true := by
  have hstatus : (rowFromArchiveItem host jobs record).status = record.item.file.status ∨
      (rowFromArchiveItem host jobs record).status = record.item.file.runtimeState := by
    show displayStatusFromArchiveItem _ _ = _ ∨ displayStatusFromArchiveItem _ _ = _
    unfold displayStatusFromArchiveItem
    cases hstate : present record.item.file.runtimeState with
    | none => exact .inl rfl
    | some state =>
      dsimp only
      split
      · exact .inl rfl
      · exact .inr (Option.eq_some_of_filter_eq_some hstate).symm
  rw [Bool.or_eq_true] at h ⊢
  rcases h with h | h
  · rcases hstatus with hstatus | hstatus
    · exact .inl (hstatus ▸ h)
    · exact .inr (hstatus ▸ h)
  · exact .inr h

/-- Of the filters that the archive is given, only the query can leave out an item whose row is asked for. -/
theorem archiveLists_iff (h : matchesSearchRequest host request (rowFromArchiveItem host jobs record) = true) :
    archiveLists host request record = true ↔
      (present request.query).all (Archive.itemMatchesQuery (archiveHost host record) record.item) = true := by
  simp only [matchesSearchRequest, Bool.and_eq_true] at h
  obtain ⟨⟨⟨⟨⟨⟨⟨⟨hprovider, hprofile⟩, -⟩, hstatus⟩, havailable⟩, hasset⟩, -⟩, hkind⟩, -⟩ := h
  have hstable : Archive.matchesStableRequest record.item (archiveRequest request) = true := by
    have hkinds : (archiveKindForSearchKind request.kind).all (fun kind => record.item.kind = kind) = true := by
      cases hwanted : archiveKindForSearchKind request.kind with
      | none => rfl
      | some wanted => exact decide_eq_true (kind_of_searchKindMatches rfl rfl hkind hwanted)
    simp only [Archive.matchesStableRequest, Bool.and_eq_true]
    exact ⟨⟨⟨⟨⟨⟨⟨⟨⟨hkinds, hprovider⟩, rfl⟩, hprofile⟩, rfl⟩, rfl⟩, rfl⟩, rfl⟩, rfl⟩, status_of_row hstatus⟩
  have hfile : request.fileAvailable.all (fun asked => record.item.file.fileAvailable = some asked) = true := by
    rwa [fileAvailableForRow_archive] at havailable
  have hassets : request.assetAvailability.all (matchesAvailability record.item) = true := by
    cases hasked : request.assetAvailability with
    | none => rfl
    | some asked =>
      rw [hasked, Option.all_some, assetAvailabilityForRow, fileAvailableForRow_archive] at hasset
      show matchesAvailability record.item asked = true
      unfold matchesAvailability
      cases hfileAvailable : record.item.file.fileAvailable with
      | none =>
        rw [hfileAvailable] at hasset
        cases of_decide_eq_true hasset
        exact decide_eq_true rfl
      | some available =>
        rw [hfileAvailable] at hasset
        cases available <;> cases of_decide_eq_true hasset <;> exact decide_eq_true rfl
  show (Archive.matchesStableRequest record.item (archiveRequest request) &&
    request.fileAvailable.all (fun asked => record.item.file.fileAvailable = some asked) &&
    request.assetAvailability.all (matchesAvailability record.item) &&
    (present request.query).all (Archive.itemMatchesQuery (archiveHost host record) record.item)) = true ↔ _
  rw [hstable, hfile, hassets]
  exact Iff.rfl

end Listed

/-! ## When filtering restricts -/

/-- The pages of a search show the rows of the unfiltered search that the request asks for, each once and in order. -/
def FilteringRestricts (host : SearchHost) (data : SearchData) (request : SearchProjectionRequest) : Prop :=
  ∃ filtered unfiltered, Follows (searchPage host data request) none filtered ∧
    Follows (searchPage host data request.unfiltered) none unfiltered ∧
    filtered = unfiltered.filter (matchesSearchRequest host (normalizeRequest request))

/-- The filters that the readers are given leave out nothing that the request asks for, and nothing that it is shown by. -/
structure PushdownHarmless (host : SearchHost) (data : SearchData) (request : NormalizedSearchProjectionRequest) :
    Prop where
  /-- The query is found in every archive item whose row is asked for. -/
  queried : ∀ record ∈ data.archive.records,
    matchesSearchRequest host request (rowFromArchiveItem host (jobsOf host data) record) = true →
      (present request.query).all (Archive.itemMatchesQuery (archiveHost host record) record.item) = true
  /-- Every catalog item whose row is asked for is in an entry of the provider that is asked for. -/
  entered : ∀ found ∈ catalogItems data.catalog,
    matchesSearchRequest host request (rowOf host data (archivedFreshness host data) (.inl found)) = true →
      (normalizeProviderId request.provider).all (fun asked => found.1.provider = asked) = true
  /-- The archived asset that a conversation shows is listed, if its row is asked for with it or with what is listed. -/
  decided : ∀ found ∈ catalogItems data.catalog, found.2.1 = .conversations → catalogReads request found.1 = true →
    (matchesSearchRequest host request (rowOf host data (archivedFreshness host data) (.inl found)) = true ∨
      matchesSearchRequest host request (rowOf host data (listedFreshness host data request) (.inl found)) = true) →
    ∀ record ∈ data.archive.records,
      (archivedFreshness host data (catalogConversationKey host found.1 found.2.2)).map (·.archiveItemId) =
        some record.item.id → archiveLists host request record = true

theorem catalogReads_iff {found : CatalogEntry × ManifestKind × Json}
    (h : matchesSearchRequest host request (rowOf host data (archivedFreshness host data) (.inl found)) = true) :
    catalogReads request found.1 = true ↔
      (normalizeProviderId request.provider).all (fun asked => found.1.provider = asked) = true := by
  simp only [matchesSearchRequest, Bool.and_eq_true] at h
  obtain ⟨⟨⟨⟨⟨⟨⟨⟨-, hprofile⟩, -⟩, -⟩, -⟩, -⟩, -⟩, -⟩, -⟩ := h
  have hentry : (present request.runtimeProfile).all (fun asked => found.1.runtimeProfileId = asked) = true := by
    have hasked : asksFor request.runtimeProfile (some found.1.runtimeProfileId) = true := hprofile
    simpa [asksFor] using hasked
  rw [catalogReads, hentry, Bool.and_true]

section Restricts

variable [Std.TransCmp host.localeCompare]

/-- What a catalog row shows through the filters is the same as without them when the asset it shows is listed. -/
theorem rowOf_catalog_eq_iff (found : CatalogEntry × ManifestKind × Json) :
    rowOf host data (listedFreshness host data request) (.inl found) =
        rowOf host data (archivedFreshness host data) (.inl found) ↔
      (found.2.1 = .conversations → ∀ record ∈ data.archive.records,
        (archivedFreshness host data (catalogConversationKey host found.1 found.2.2)).map (·.archiveItemId) =
          some record.item.id → archiveLists host request record = true) := by
  obtain ⟨entry, kind, item⟩ := found
  constructor
  · intro hrows hkind
    dsimp only at hkind
    subst hkind
    have hid := congrArg (fun row => row.metadata.get "materializedArchiveItemId") hrows
    dsimp only [rowOf, Sum.elim_inl] at hid
    rw [materializedArchiveItemId_of_row, materializedArchiveItemId_of_row] at hid
    exact listedFreshness_eq_iff.1 (freshness_eq_of_id (Option.map_injective (fun _ _ => Json.string.inj) hid))
  · intro hlisted
    exact rowFromCatalogItem_congr fun hkind => listedFreshness_eq_iff.2 (hlisted hkind)

theorem pushesHarmlessly_iff :
    PushesHarmlessly (matchesSearchRequest host request) (isRead host request)
        (rowOf host data (archivedFreshness host data)) (rowOf host data (listedFreshness host data request))
        (rowItems host data) ↔
      PushdownHarmless host data request := by
  have hcatalog : ∀ {found}, Sum.inl found ∈ rowItems host data ↔ found ∈ catalogItems data.catalog := by
    simp [rowItems]
  have harchive : ∀ {record}, Sum.inr record ∈ rowItems host data ↔ record ∈ data.archive.records := by
    simp [rowItems, mem_orderedRecords]
  constructor
  · intro h
    refine ⟨fun record hrecord hshown => ?_, fun found hfound hshown => ?_, fun found hfound hkind hread hshown => ?_⟩
    · exact (archiveLists_iff hshown).1 ((h _ (harchive.2 hrecord)).1 hshown).1
    · exact (catalogReads_iff hshown).1 ((h _ (hcatalog.2 hfound)).1 hshown).1
    · refine (rowOf_catalog_eq_iff found).1 ?_ hkind
      rcases hshown with hshown | hshown
      · exact ((h _ (hcatalog.2 hfound)).1 hshown).2
      · exact (h _ (hcatalog.2 hfound)).2 hread hshown
  · intro h item hitem
    cases item with
    | inl found =>
      have hfound := hcatalog.1 hitem
      have hrow : ∀ hread : catalogReads request found.1 = true,
          (matchesSearchRequest host request (rowOf host data (archivedFreshness host data) (.inl found)) = true ∨
            matchesSearchRequest host request (rowOf host data (listedFreshness host data request) (.inl found)) = true) →
          rowOf host data (listedFreshness host data request) (.inl found) =
            rowOf host data (archivedFreshness host data) (.inl found) := fun hread hshown =>
        (rowOf_catalog_eq_iff found).2 fun hkind => h.decided found hfound hkind hread hshown
      refine ⟨fun hshown => ?_, fun hread hshown => hrow hread (.inr hshown)⟩
      have hread := (catalogReads_iff hshown).2 (h.entered found hfound hshown)
      exact ⟨hread, hrow hread (.inl hshown)⟩
    | inr record =>
      refine ⟨fun hshown => ⟨(archiveLists_iff hshown).2 (h.queried record (harchive.1 hitem) hshown), rfl⟩, fun _ _ => rfl⟩

/-- **Filtering restricts a search exactly when the filters that the readers are given do no harm.** -/
theorem filtering_restricts_iff (hcursors : ReadsCursors host) (hsmall : data.Small)
    (request : SearchProjectionRequest) :
    FilteringRestricts host data request ↔ PushdownHarmless host data (normalizeRequest request) := by
  have hrestricts : FilteringRestricts host data request ↔
      searchRows host data (normalizeRequest request) =
        (searchRows host data (normalizeRequest request.unfiltered)).filter
          (matchesSearchRequest host (normalizeRequest request)) := by
    constructor
    · rintro ⟨filtered, unfiltered, hfiltered, hunfiltered, heq⟩
      rwa [(searchPages_iff hcursors).1 hfiltered, (searchPages_iff hcursors).1 hunfiltered] at heq
    · intro heq
      exact ⟨_, _, (searchPages_iff hcursors).2 rfl, (searchPages_iff hcursors).2 rfl, heq⟩
  rw [hrestricts, ← pushesHarmlessly_iff, searchRows_unfiltered hsmall, filter_insertionSort, searchRows_eq hsmall]
  constructor
  · intro hsorted
    refine pushesHarmlessly_of_perm (fun left _ right _ => rows_of_eq left right) ?_
    have hleft := List.perm_insertionSort (rowNotAfter host)
      ((((rowItems host data).filter (isRead host (normalizeRequest request))).map
        (rowOf host data (listedFreshness host data (normalizeRequest request)))).filter
          (matchesSearchRequest host (normalizeRequest request)))
    exact hleft.symm.trans (hsorted ▸ List.perm_insertionSort (rowNotAfter host) _)
  · intro hharmless
    rw [pushed_eq hharmless]

end Restricts

/-! ## One conversation with an archived artifact -/

/-- The record of a cursor, read off its text. -/
def readOffset (text : String) : Option Json :=
  some (.object [("offset", .ofNat (Nat.ofDigitChars 10 ((text.toList.drop 10).takeWhile (·.isDigit)) 0))])

def sampleHost : SearchHost where
  cases := .lowered
  grokReceipt _ _ _ := none
  numbers := .fraction
  localeCompare := compare
  toNumber _ := none
  parseDate text := if text = "2026-05-01T00:00:00.000Z" then some 1777593600000 else none
  toIsoString _ := ""
  searchParams fields := "&".intercalate (fields.map fun field => field.1 ++ "=" ++ field.2)
  parseJson := readOffset
  repairUtf8 _ := ""
  now := 1777593600000

theorem sampleHost_readsCursors : ReadsCursors sampleHost := by
  intro offset
  have hnumber : fractionText (offset : ℚ) = Nat.toDigits 10 offset := by
    rw [fractionText, Rat.den_natCast, Rat.num_natCast, if_pos rfl, List.append_nil]
    rfl
  have htext : stringify NumberTexts.fraction (.object [("offset", .ofNat offset)]) =
      "\x7b\"offset\":".toList ++ (Nat.toDigits 10 offset ++ ['}']) := by
    rw [← hnumber]
    show '{' :: (quote "offset" ++ ':' :: fractionText (offset : ℚ)) ++ ['}'] = _
    simp [quote, escapeChar]
  have hdigits : (Nat.toDigits 10 offset ++ ['}']).takeWhile (·.isDigit) = Nat.toDigits 10 offset := by
    rw [List.takeWhile_append_of_pos fun c hc => Nat.isDigit_of_mem_toDigits (by decide) (by decide) hc]
    exact List.append_nil _
  show readOffset (String.ofList (stringify NumberTexts.fraction (.object [("offset", .ofNat offset)]))) = _
  have hdrop : ("\x7b\"offset\":".toList ++ (Nat.toDigits 10 offset ++ ['}'])).drop 10 = Nat.toDigits 10 offset ++ ['}'] :=
    List.drop_left' (by decide)
  rw [htext, readOffset, String.toList_ofList, hdrop, hdigits, Nat.ofDigitChars_ten_toDigits]

instance : Std.TransCmp sampleHost.localeCompare := inferInstanceAs (Std.TransCmp (compare : String → String → Ordering))

/-- An artifact of the conversation that has been fetched. -/
def archivedArtifact : ArchiveRecord where
  item :=
    { id := "history:artifact_1", kind := .generatedArtifact, source := .accountMirror
      createdAt := "2026-05-01T00:00:00.000Z", provider := some "gemini", runtimeProfile := some "default"
      projectId := none, boundIdentityKey := none, responseId := none, batchId := none, mediaGenerationId := none
      providerConversationId := some "abc"
      file := { fileAvailable := some true, metadata := JsonRecord.get [], links := JsonRecord.string? [] } }
  updatedAt := some "2026-05-01T00:00:00.000Z"
  metadata := []
  metadata_eq := rfl
  links_eq := rfl

def sampleData : SearchData where
  catalog :=
    [{ provider := .gemini, runtimeProfileId := "default", status := "eligible"
       manifests := fun
        | .conversations => [.object [("id", .string "abc"), ("title", .string "Notes")]]
        | _ => [] }]
  archive := ⟨[archivedArtifact], by decide⟩

theorem sampleData_small : sampleData.Small := ⟨by decide, by decide⟩

/-- A search of one provider shows the conversation with its artifact. -/
theorem provider_restricts : FilteringRestricts sampleHost sampleData { provider := some "gemini" } := by
  refine (filtering_restricts_iff sampleHost_readsCursors sampleData_small _).2
    ⟨fun _ _ _ => rfl, fun found hfound _ => ?_, fun _ _ _ _ _ record hrecord _ => ?_⟩
  · rw [List.mem_singleton.1 hfound]
    decide +kernel
  · rw [List.mem_singleton.1 hrecord]
    decide +kernel

/-- A search for conversations does not: the archive is asked for conversations only, and lists no artifact. -/
theorem conversations_lose_assets : ¬FilteringRestricts sampleHost sampleData { kind := some "conversation" } := by
  rintro ⟨filtered, unfiltered, hfiltered, hunfiltered, heq⟩
  rw [(searchPages_iff sampleHost_readsCursors).1 hfiltered,
    (searchPages_iff sampleHost_readsCursors).1 hunfiltered] at heq
  have hassets := congrArg (List.map fun row => (row.metadata.get "materializedArchiveItemId").isSome) heq
  exact absurd hassets (by decide +kernel)

end AuraCall.Search
