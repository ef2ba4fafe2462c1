import AuraCall.Materialization.Jobs

/-!
# The run archive index

`archiveIndexStore.ts`, and what `archiveService.ts` does with it: upserts, and reads that refresh the file metadata of
the items they have read and write them back. The store of history items is a second document of the same kind.

`φ` is all that `enrichFileMetadata` may change of an item. What the file system and the other stores say is
`ArchiveSurroundings`, and may be anything at any time.
-/

namespace AuraCall.Materialization

open Script SharedDocument

/-! ## Items -/

inductive RunArchiveItemKind
  | response
  | responseBatch
  | teamRun
  | mediaGeneration
  | upload
  | generatedArtifact
  | providerConversation
  | evidence
  deriving DecidableEq

inductive RunArchiveSource
  | runtime
  | responseBatch
  | mediaGeneration
  | evidence
  | accountMirror
  deriving DecidableEq

structure RunArchiveItem (φ : Type) where
  id : String
  kind : RunArchiveItemKind
  source : RunArchiveSource
  createdAt : String
  provider : Option String
  runtimeProfile : Option String
  projectId : Option String
  boundIdentityKey : Option String
  responseId : Option String
  batchId : Option String
  mediaGenerationId : Option String
  providerConversationId : Option String
  file : φ
  deriving DecidableEq

/-- What the host and the language decide. -/
structure ArchiveHost (φ : Type) where
  localeCompare : String → String → Ordering
  fileMetadataChanged : φ → φ → Bool

section Items

variable {φ : Type} (host : ArchiveHost φ)

def normalizeRunArchiveItem (item : RunArchiveItem φ) : RunArchiveItem φ :=
  { item with projectId := (item.projectId.map trim).filter (· ≠ "") }

theorem normalizeRunArchiveItem_idem (item : RunArchiveItem φ) :
    normalizeRunArchiveItem (normalizeRunArchiveItem item) = normalizeRunArchiveItem item := by
  unfold normalizeRunArchiveItem
  cases item.projectId with
  | none => rfl
  | some projectId =>
    by_cases h : trim projectId = ""
    · simp [Option.filter, h]
    · simp [Option.filter, h, trim_trim]

/-- An item as it stands in the index. -/
structure IndexedItem (φ : Type) where
  item : RunArchiveItem φ
  normalized : normalizeRunArchiveItem item = item

def IndexedItem.id (indexed : IndexedItem φ) : String := indexed.item.id

def IndexedItem.normalize (item : RunArchiveItem φ) : IndexedItem φ :=
  ⟨normalizeRunArchiveItem item, normalizeRunArchiveItem_idem item⟩

/-- `right.createdAt.localeCompare(left.createdAt) || left.id.localeCompare(right.id)`, not above zero. -/
def itemNotAfter (left right : RunArchiveItem φ) : Bool :=
  match host.localeCompare right.createdAt left.createdAt with
  | .eq => host.localeCompare left.id right.id != .gt
  | order => order != .gt

/-- The items of the index in order; normalizing them again does not change them. -/
def indexOrder : Arrangement (IndexedItem φ) where
  place retained incoming := (retained ++ incoming).insertionSort fun left right => itemNotAfter host left.item right.item
  perm _ _ := List.perm_insertionSort _ _

/-- The history items in order. -/
def historyItemOrder : Arrangement (RunArchiveItem φ) where
  place retained incoming := (retained ++ incoming).insertionSort fun left right => itemNotAfter host left right
  perm _ _ := List.perm_insertionSort _ _

/-- What enriching makes of an item. -/
def IndexedItem.enrich (file : RunArchiveItem φ → φ) (indexed : IndexedItem φ) : IndexedItem φ :=
  ⟨{ indexed.item with file := file indexed.item }, by
    have h := congrArg RunArchiveItem.projectId indexed.normalized
    unfold normalizeRunArchiveItem at h ⊢
    dsimp only at h ⊢
    rw [h]⟩

end Items

/-! ## Calls -/

/-- The identity of a materialized conversation. -/
structure HistoryMaterialization where
  provider : Option String
  runtimeProfile : Option String
  boundIdentityKey : Option String
  providerConversationId : Option String

inductive ArchiveCall (φ : Type)
  /-- `listItems`, `listItemsBatch`, `readItem`, `readAsset` and `lookupAsset`, by the items they read -/
  | readIndexedItems (scope : RunArchiveItem φ → Bool)
  | upsertResponseItems (responseId : String)
  | upsertBatchItems (batchId : String)
  | upsertMediaGenerationItems (mediaGenerationId : String)
  | upsertHistoryMaterializationItems (input : HistoryMaterialization)
  | attachEvidence
  /-- `indexStore.upsertItems` -/
  | upsertItems (items : List (RunArchiveItem φ)) (removeExisting : RunArchiveItem φ → Bool)

/-- What the code is told from outside: failures, the file metadata, and the items that other stores give. -/
structure ArchiveSurroundings (φ : Type) where
  storeFault : Option Thrown
  enrichFileMetadata : Except Thrown (RunArchiveItem φ → φ)
  collectArchiveItems : Except Thrown (List (RunArchiveItem φ))
  buildItems : ArchiveCall φ → Except Thrown (List (RunArchiveItem φ))

abbrev ArchiveState (φ : Type) := Shared (IndexedItem φ) (ArchiveSurroundings φ)

abbrev ArchiveScript (φ α : Type) := Script (ArchiveState φ) Thrown α

section Calls

variable {φ : Type} (host : ArchiveHost φ) (call : Nat)

/-- `removeExisting` of the upserts of the service. -/
def removeExisting (items : List (RunArchiveItem φ)) : ArchiveCall φ → RunArchiveItem φ → Bool
  | .upsertResponseItems responseId, item => item.source = .runtime ∧ item.responseId = some responseId
  | .upsertBatchItems batchId, item => item.batchId = some batchId ∧ item.kind = .responseBatch
  | .upsertMediaGenerationItems mediaGenerationId, item =>
    item.source = .mediaGeneration ∧ item.mediaGenerationId = some mediaGenerationId
  | .upsertHistoryMaterializationItems input, item =>
    item.source = .accountMirror ∧ item.provider = input.provider ∧ item.runtimeProfile = input.runtimeProfile ∧
      item.boundIdentityKey = input.boundIdentityKey ∧ item.providerConversationId = input.providerConversationId ∧
        items.any (·.id == item.id)
  | _, _ => false

def archiveFault (surroundings : ArchiveSurroundings φ) : Option Thrown := surroundings.storeFault

def askArchive {α : Type} (read : ArchiveSurroundings φ → Except Thrown α) : ArchiveScript φ α :=
  look fun s => read s.rest

/-- `indexStore.readIndex`: a missing index is `null`. -/
def readIndex : ArchiveScript φ (Option (List (IndexedItem φ)) × Nat) := readDocument archiveFault

/-- `indexStore.upsertItems`, of items that were made from what a reading has found. -/
def upsertItems (basis : Option (Basis (IndexedItem φ))) (items : List (RunArchiveItem φ))
    (removed : RunArchiveItem φ → Bool) : ArchiveScript φ (Basis (IndexedItem φ)) :=
  upsertDocument IndexedItem.id (indexOrder host) archiveFault call basis (items.map .normalize) fun indexed =>
    removed indexed.item

/-- `backfillIndexItems`, when a reading has found no index. -/
def backfillIndexItems (seen : Nat) : ArchiveScript φ (Basis (IndexedItem φ)) := do
  let items ← askArchive (·.collectArchiveItems)
  replaceDocument IndexedItem.id (indexOrder host) archiveFault call none seen none (items.map .normalize) fun _ => false

/-- `refreshIndexedFileMetadata`. -/
def refreshIndexedFileMetadata (index : Basis (IndexedItem φ)) (items : List (IndexedItem φ)) :
    ArchiveScript φ (List (IndexedItem φ)) := do
  let file ← askArchive (·.enrichFileMetadata)
  let changed := items.filter fun indexed => host.fileMetadataChanged indexed.item.file (file indexed.item)
  if changed.isEmpty then pure (items.map (·.enrich file))
  else do
    let _ ← upsertItems host call (some index) (changed.map fun indexed => (indexed.enrich file).item) fun _ => false
    pure (items.map (·.enrich file))

def readIndexedItems (scope : RunArchiveItem φ → Bool) : ArchiveScript φ (List (IndexedItem φ)) := do
  let (index, position) ← readIndex
  match index with
  | some items => refreshIndexedFileMetadata host call ⟨position, items⟩ (items.filter fun indexed => scope indexed.item)
  | none => do
    let index ← backfillIndexItems host call position
    pure index.items

def ensureArchiveIndex : ArchiveScript φ PUnit := do
  let (index, position) ← readIndex
  match index with
  | some _ => pure ⟨⟩
  | none => do
    let _ ← backfillIndexItems host call position
    pure ⟨⟩

/-- The upserts of the service. -/
def upsertArchiveItems (input : ArchiveCall φ) : ArchiveScript φ (List (IndexedItem φ)) := do
  let items ← askArchive (·.buildItems input)
  ensureArchiveIndex host call
  let index ← upsertItems host call none items (removeExisting items input)
  pure index.items

def archiveServiceCall : ArchiveCall φ → ArchiveScript φ (List (IndexedItem φ))
  | .readIndexedItems scope => readIndexedItems host call scope
  | .upsertItems items removed => do
    let index ← upsertItems host call none items removed
    pure index.items
  | input => upsertArchiveItems host call input

end Calls

/-! ## The stores -/

/-- A call of a store of one document. -/
inductive StoreCall (α : Type)
  | upsert (item : α)
  | list

section Stores

variable {φ ι η : Type}

/-- What happens besides: the rest of the state changes. -/
def disturbStore (s : Shared ι η) (rest : η) : Option (Shared ι η) := some { s with rest }

/-- The calls of a job store, of either service. -/
def jobStoreCall {π ρ γ : Type} (call : Nat) :
    StoreCall (MaterializationJob π ρ γ) → JobScript π ρ γ (Option Thrown) (List (MaterializationJob π ρ γ))
  | .upsert job => do
    let jobs ← upsertJob (fun fault => fault) call none job
    pure jobs.items
  | .list => do
    let jobs ← listJobs fun fault => fault
    pure jobs.items

/-- The calls of the store of history items. -/
def historyItemCall (host : ArchiveHost φ) (call : Nat) : StoreCall (List (RunArchiveItem φ)) →
    Script (Shared (RunArchiveItem φ) (Option Thrown)) Thrown (List (RunArchiveItem φ))
  | .upsert items => do
    let stored ← upsertDocument RunArchiveItem.id (historyItemOrder host) (fun fault => fault) call none items
      fun _ => false
    pure stored.items
  | .list => do
    let (current, _) ← readDocument fun fault => fault
    pure (current.getD [])

/-- Any number of calls of a job store. -/
def jobStoreSystem (π ρ γ : Type) :=
  Threads.system (SharedDocument.Unwritten (ι := MaterializationJob π ρ γ)) jobStoreCall disturbStore

/-- Any number of calls of the store of history items. -/
def historyItemSystem (host : ArchiveHost φ) :=
  Threads.system SharedDocument.Unwritten (historyItemCall host) disturbStore

/-- Any number of reads and upserts of the archive. -/
def archiveIndexSystem (host : ArchiveHost φ) :=
  Threads.system SharedDocument.Unwritten (archiveServiceCall host) disturbStore

end Stores

end AuraCall.Materialization
