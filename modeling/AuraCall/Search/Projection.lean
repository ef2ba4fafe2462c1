import AuraCall.Search.Rows

/-!
# The search

`search` of `searchProjectionService.ts`: the catalog and the archive are read with the filters of the request, each as far
as its reader knows them, the items that are read become rows, and the rows are filtered again, sorted and cut into pages.
The pages of a search are what following `nextCursor` gives (`searchPages_iff`).
-/

namespace AuraCall.Search

open Archive (AssetAvailability RunArchiveListRequest asksFor present)
open FilteredView
open Materialization (JobStatus RunArchiveItemKind includes distinct normalizeProviderId)

/-! ## Requests -/

/-- A materialization status that is asked for. -/
inductive MaterializationFilter
  | status (status : JobStatus)
  | active
  | terminal
  deriving DecidableEq

structure SearchProjectionRequest where
  query : Option String := none
  provider : Option String := none
  runtimeProfile : Option String := none
  tenant : Option String := none
  kind : Option String := none
  status : Option String := none
  fileAvailable : Option Bool := none
  assetAvailability : Option String := none
  materialization : Option String := none
  limit : Option JsNumber := none
  cursor : Option String := none

structure NormalizedSearchProjectionRequest where
  query : Option String
  provider : Option String
  runtimeProfile : Option String
  tenant : Option String
  kind : Option String
  status : Option String
  fileAvailable : Option Bool
  assetAvailability : Option AssetAvailability
  materialization : Option MaterializationFilter
  limit : Nat
  cursor : Option String

def normalizeString (value : Option String) : Option String := (value.map trim).filter (· ≠ "")

def normalizeAssetAvailability : Option String → Option AssetAvailability
  | some "available" => some .available
  | some "unavailable" => some .unavailable
  | some "pending" => some .pending
  | _ => none

def normalizeMaterialization : Option String → Option MaterializationFilter
  | some "active" => some .active
  | some "terminal" => some .terminal
  | value => (isArchiveMaterializationStatus value).map .status

def normalizeLimit : Option JsNumber → Nat
  | some (.finite value) => (max 1 (min 500 ⌊value⌋)).toNat
  | _ => 80

def normalizeRequest (request : SearchProjectionRequest) : NormalizedSearchProjectionRequest where
  query := normalizeString request.query
  provider := normalizeString request.provider
  runtimeProfile := normalizeString request.runtimeProfile
  tenant := normalizeString request.tenant
  kind := normalizeString request.kind
  status := normalizeString request.status
  fileAvailable := request.fileAvailable
  assetAvailability := normalizeAssetAvailability request.assetAvailability
  materialization := normalizeMaterialization request.materialization
  limit := normalizeLimit request.limit
  cursor := normalizeString request.cursor

theorem normalizeLimit_pos (limit : Option JsNumber) : 0 < normalizeLimit limit := by
  unfold normalizeLimit
  split
  · omega
  · decide

variable (host : SearchHost)

/-! ## Which rows a request asks for -/

def fileAvailableForRow (row : SearchProjectionRow) : Option Bool := (row.metadata.get "fileAvailable").bind (·.bool?)

def assetAvailabilityForRow (row : SearchProjectionRow) : AssetAvailability :=
  match fileAvailableForRow row with
  | some true => .available
  | some false => .unavailable
  | none => .pending

def materializationStatusForRow (row : SearchProjectionRow) : Option JobStatus :=
  isArchiveMaterializationStatus (row.metadata.string? "materializationStatus")

def materializationMatchesRequest (row : SearchProjectionRow) (materialization : MaterializationFilter) : Bool :=
  match materializationStatusForRow row, materialization with
  | none, _ => false
  | some status, .active => status = .queued ∨ status = .running
  | some status, .terminal => status ≠ .queued ∧ status ≠ .running
  | some status, .status asked => status = asked

def searchKindMatches (row : SearchProjectionRow) (kind : String) : Bool :=
  if kind = "all" then true
  else if kind = row.kind ∨ kind = row.sourceKind then true
  else if kind = "run" then runKinds.contains row.sourceKind
  else if kind = "artifact" then row.kind = "artifact" ∨ row.sourceKind = "generated_artifact"
  else if kind = "upload" then row.kind = "upload" ∨ row.sourceKind = "files"
  else if kind = "conversation" then row.kind = "conversation" ∨ row.sourceKind = "provider_conversation"
  else false

/-- What a query is looked for in. -/
def rowHaystack (row : SearchProjectionRow) : String :=
  "\n".intercalate ([some row.id, some row.kind, some row.sourceKind, row.title, row.summary, row.provider,
    row.runtimeProfileId, row.tenant, row.projectId, row.status, row.runtimeState, some row.itemId,
    some (String.ofList (stringify host.numbers (.object row.metadata)))].filterMap id)

def rowMatchesQuery (row : SearchProjectionRow) (query : String) : Bool :=
  includes (host.cases.toLowerCase (rowHaystack host row)) (host.cases.toLowerCase query)

def matchesSearchRequest (request : NormalizedSearchProjectionRequest) (row : SearchProjectionRow) : Bool :=
  asksFor request.provider row.provider &&
    asksFor request.runtimeProfile row.runtimeProfileId &&
    asksFor request.tenant row.tenant &&
    (asksFor request.status row.status || asksFor request.status row.runtimeState) &&
    request.fileAvailable.all (fun asked => fileAvailableForRow row = some asked) &&
    request.assetAvailability.all (fun asked => assetAvailabilityForRow row = asked) &&
    request.materialization.all (materializationMatchesRequest row) &&
    (present request.kind).all (searchKindMatches row) &&
    (present request.query).all (rowMatchesQuery host row)

/-! ## The order of rows -/

def compareRows (left right : SearchProjectionRow) : Ordering :=
  let titles := (host.localeCompare (left.title.getD "") (right.title.getD "")).then (host.localeCompare left.id right.id)
  match host.parseDate (left.sortTime.getD ""), host.parseDate (right.sortTime.getD "") with
  | some _, none => .lt
  | none, some _ => .gt
  | some leftTime, some rightTime => if leftTime = rightTime then titles else compare rightTime leftTime
  | none, none => titles

def rowNotAfter (left right : SearchProjectionRow) : Prop := compareRows host left right ≠ .gt

instance : DecidableRel (rowNotAfter host) := fun left right =>
  inferInstanceAs (Decidable (compareRows host left right ≠ .gt))

/-! ## Reading the catalog and the archive -/

def archiveKindForSearchKind (kind : Option String) : Option RunArchiveItemKind :=
  match present kind with
  | some "conversation" => some .providerConversation
  | some "artifact" => some .generatedArtifact
  | some "response" => some .response
  | some "response_batch" => some .responseBatch
  | some "team_run" => some .teamRun
  | some "media_generation" => some .mediaGeneration
  | some "upload" => some .upload
  | some "generated_artifact" => some .generatedArtifact
  | some "provider_conversation" => some .providerConversation
  | some "evidence" => some .evidence
  | _ => none

/-- Whether the catalog gives an entry to the search. -/
def catalogReads (request : NormalizedSearchProjectionRequest) (entry : CatalogEntry) : Bool :=
  (normalizeProviderId request.provider).all (fun asked => entry.provider = asked) &&
    (present request.runtimeProfile).all fun asked => entry.runtimeProfileId = asked

def readCatalog (catalog : List CatalogEntry) (request : NormalizedSearchProjectionRequest) : List CatalogEntry :=
  (catalog.filter (catalogReads request)).map fun entry =>
    { entry with manifests := fun kind => (entry.manifests kind).take 500 }

/-- The host of the archive, which looks for a query in the metadata of an item as they are written. -/
def archiveHost (record : ArchiveRecord) : Archive.ListingHost where
  toFileMetadataHost := host.toFileMetadataHost
  localeCompare := host.localeCompare
  metadataText _ := String.ofList (stringify host.numbers (.object record.metadata))

/-- What a search asks of the archive. -/
def archiveRequest (request : NormalizedSearchProjectionRequest) : RunArchiveListRequest where
  kind := archiveKindForSearchKind request.kind
  provider := request.provider
  runtimeProfile := request.runtimeProfile
  status := request.status
  fileAvailable := request.fileAvailable
  assetAvailability := request.assetAvailability
  query := request.query
  limit := some (.finite 500)

/-- Whether the archive gives an item to the search. -/
def archiveLists (request : NormalizedSearchProjectionRequest) (record : ArchiveRecord) : Bool :=
  Archive.matchesRequest (archiveHost host record) record.item (archiveRequest request)

/-- The order of a listing: the newest first. -/
def recordNotOlder (left right : ArchiveRecord) : Prop :=
  host.localeCompare right.item.createdAt left.item.createdAt ≠ .gt

instance : DecidableRel (recordNotOlder host) := fun left right =>
  inferInstanceAs (Decidable (host.localeCompare right.item.createdAt left.item.createdAt ≠ .gt))

/-- `listItems` of an archive whose files have not changed since they were last looked at. -/
def listItems (archive : RunArchive) (request : NormalizedSearchProjectionRequest) : List ArchiveRecord :=
  ((archive.records.filter (archiveLists host request)).insertionSort (recordNotOlder host)).take
    (Archive.normalizeLimit (archiveRequest request).limit)

/-! ## Cursors -/

def encodeCursor (offset : Nat) : String :=
  toBase64url (String.ofList (stringify host.numbers (.object [("offset", .ofNat offset)])))

/-- `Buffer.from(cursor, 'base64url').toString('utf8')`. -/
def cursorText (cursor : String) : String :=
  let bytes := Base64url.decode cursor.toList
  (String.fromUTF8? ⟨bytes.toArray⟩).getD (host.repairUtf8 bytes)

def decodeCursor : Option String → Nat
  | none => 0
  | some cursor =>
    match ((host.parseJson (cursorText host cursor)).bind (·.record?)).bind (·.get "offset") with
    | some (.number (.finite offset)) => if offset.den = 1 ∧ 0 ≤ offset.num then offset.num.toNat else 0
    | _ => 0

/-! ## The search -/

/-- What a search reads. -/
structure SearchData where
  catalog : List CatalogEntry
  archive : RunArchive
  jobs : List ArchiveMaterializationJob := []

/-- The values of the rows, each with its count, the most frequent first. -/
def facet (rows : List SearchProjectionRow) (reader : SearchProjectionRow → Option String) : List (String × Nat) :=
  let values := rows.filterMap fun row => present (reader row)
  ((distinct values).map fun value => (value, values.count value)).insertionSort fun left right =>
    (compare right.2 left.2).then (host.localeCompare left.1 right.1) ≠ .gt

structure SearchFacets where
  providers : List (String × Nat)
  tenants : List (String × Nat)
  runtimeProfiles : List (String × Nat)
  kinds : List (String × Nat)
  statuses : List (String × Nat)
  assetAvailability : List (String × Nat)
  materialization : List (String × Nat)

structure SearchProjectionResult where
  query : NormalizedSearchProjectionRequest
  rows : List SearchProjectionRow
  nextCursor : Option String
  total : Nat
  returned : Nat
  facets : SearchFacets

def facets (rows : List SearchProjectionRow) : SearchFacets where
  providers := facet host rows (·.provider)
  tenants := facet host rows (·.tenant)
  runtimeProfiles := facet host rows (·.runtimeProfileId)
  kinds := facet host rows fun row => some row.kind
  statuses := facet host rows (·.status)
  assetAvailability := facet host rows fun row => some (availabilityText (fileAvailableForRow row))
  materialization := facet host rows fun row => (materializationStatusForRow row).map JobStatus.text

/-- The rows of a search before it cuts them into pages. -/
def searchRows (data : SearchData) (request : NormalizedSearchProjectionRequest) : List SearchProjectionRow :=
  let items := listItems host data.archive request
  let jobs := latestMaterializationJobsByArchiveItemId host data.jobs
  let archiveFreshness := latestArchiveFreshnessByConversation host items jobs
  let catalogRows := (catalogItems (readCatalog data.catalog request)).map fun found =>
    rowFromCatalogItem host archiveFreshness found.1 found.2.1 found.2.2
  ((catalogRows ++ items.map (rowFromArchiveItem host jobs)).filter (matchesSearchRequest host request)).insertionSort
    (rowNotAfter host)

def search (data : SearchData) (request : SearchProjectionRequest) : SearchProjectionResult :=
  let normalized := normalizeRequest request
  let rows := searchRows host data normalized
  let start := decodeCursor host normalized.cursor
  let page := (rows.drop start).take normalized.limit
  let nextStart := start + page.length
  { query := normalized
    rows := page
    nextCursor := if nextStart < rows.length then some (encodeCursor host nextStart) else none
    total := rows.length
    returned := page.length
    facets := facets host rows }

end AuraCall.Search
