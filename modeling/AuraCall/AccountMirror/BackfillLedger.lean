import AuraCall.AccountMirror.StoreReaders
import AuraCall.Lib.Transition

/-!
# The backfill ledger of an account mirror

`backfillLedger.ts`: how far the backfill of a mirror has come. A ledger has a cursor for each surface, and its next
phase is the first one whose cursor is pending. It is derived from the evidence of a refresh, its last two cursors are
set by the completion service, and it is normalized whenever it is read from the store.

What a cursor says is known once a refresh has left evidence. The choice of the next phase takes an unknown cursor for
one that is not pending, so an update of a ledger without evidence completes it; `completion_sound_iff` says which
updates do not.
-/

namespace AuraCall.AccountMirror.Backfill

/-! ## Ledgers -/

inductive BackfillPhase
  | identity | projects | rootConversations | projectConversations | detailInventory | accountLibrary | materialization
  | complete
  deriving DecidableEq

inductive CursorStatus | pending | complete | skipped | unknown
  deriving DecidableEq

inductive LedgerState | notStarted | inProgress | complete
  deriving DecidableEq

def BackfillPhase.text : BackfillPhase → String
  | identity => "identity"
  | projects => "projects"
  | rootConversations => "root-conversations"
  | projectConversations => "project-conversations"
  | detailInventory => "detail-inventory"
  | accountLibrary => "account-library"
  | materialization => "materialization"
  | complete => "complete"

def CursorStatus.text : CursorStatus → String
  | pending => "pending"
  | complete => "complete"
  | skipped => "skipped"
  | unknown => "unknown"

def LedgerState.text : LedgerState → String
  | notStarted => "not_started"
  | inProgress => "in_progress"
  | complete => "complete"

structure BackfillCursor where
  status : CursorStatus
  reason : String
  updatedAt : Option String
  nextIndex : Option Nat
  readLimit : Option Nat
  scanned : Option Nat
  yielded : Bool
  deriving DecidableEq

structure ConversationDetail where
  conversationId : String
  nextMessageIndex : Nat
  messageLimit : Nat
  totalMessages : Option Nat
  deriving DecidableEq

structure BackfillDetailCursor extends BackfillCursor where
  conversationDetail : Option ConversationDetail
  deriving DecidableEq

structure Cursors where
  projects : BackfillCursor
  rootRail : BackfillCursor
  projectConversations : BackfillCursor
  newestFirstDetail : BackfillDetailCursor
  accountLibrary : BackfillCursor
  materialization : BackfillCursor
  deriving DecidableEq

structure BackfillLedger where
  provider : Provider
  runtimeProfileId : String
  browserProfileId : Option String
  boundIdentityKey : Option String
  updatedAt : String
  state : LedgerState
  lastCompletedPhase : Option BackfillPhase
  nextEligiblePhase : BackfillPhase
  cursors : Cursors
  deriving DecidableEq

def unknownCursor (reason : String) : BackfillCursor := ⟨.unknown, reason, none, none, none, none, false⟩

def skippedCursor (reason : String) : BackfillCursor := ⟨.skipped, reason, none, none, none, none, false⟩

/-! ## Choosing phases -/

def chooseNextEligiblePhase (cursors : Cursors) (hasEvidence : Bool) : BackfillPhase :=
  if !hasEvidence then .identity
  else if cursors.projects.status = .pending then .projects
  else if cursors.rootRail.status = .pending then .rootConversations
  else if cursors.projectConversations.status = .pending then .projectConversations
  else if cursors.newestFirstDetail.status = .pending then .detailInventory
  else if cursors.accountLibrary.status = .pending then .accountLibrary
  else if cursors.materialization.status = .pending then .materialization
  else .complete

/-- The last phase that is complete, before one that is pending or unknown. -/
def lastCompleted : Option BackfillPhase → List (BackfillPhase × CursorStatus) → Option BackfillPhase
  | last, [] => last
  | last, (phase, status) :: rest =>
    if status = .pending ∨ status = .unknown then last
    else lastCompleted (if status = .complete then some phase else last) rest

def chooseLastCompletedPhase (cursors : Cursors) : Option BackfillPhase :=
  lastCompleted none
    [(.projects, cursors.projects.status), (.rootConversations, cursors.rootRail.status),
      (.projectConversations, cursors.projectConversations.status),
      (.detailInventory, cursors.newestFirstDetail.status), (.accountLibrary, cursors.accountLibrary.status),
      (.materialization, cursors.materialization.status)]

/-! ## Reading and writing -/

section Normalization

-- `new Date(Date.parse(raw)).toISOString()`, of a text that is a date
variable (isoString : String → Option String)

def readIsoString (value : Json) : Option String := (readTrimmed value).bind isoString

def readNonNegativeInteger (value : Json) : Option Nat :=
  ((readNumber value).filter fun q => decide (0 ≤ q)).map fun q => ⌊q⌋.toNat

def readCursorStatus (value : Json) : CursorStatus :=
  (readOneOf [.pending, .complete, .skipped] CursorStatus.text value).getD .unknown

def readPhase (value : Json) : Option BackfillPhase :=
  readOneOf [.identity, .projects, .rootConversations, .projectConversations, .detailInventory, .accountLibrary,
    .materialization, .complete] BackfillPhase.text value

def readLedgerState (value : Json) : LedgerState :=
  (readOneOf [.complete, .inProgress] LedgerState.text value).getD .notStarted

def fieldOf (record : JsonRecord) (key : String) : Json := (record.get key).getD .null

def normalizeCursor (value : Json) : BackfillCursor :=
  match value.record? with
  | none => unknownCursor "Cursor evidence is unavailable."
  | some record =>
    { status := readCursorStatus (fieldOf record "status")
      reason := (readTrimmed (fieldOf record "reason")).getD "Cursor evidence is unavailable."
      updatedAt := readIsoString isoString (fieldOf record "updatedAt")
      nextIndex := readNonNegativeInteger (fieldOf record "nextIndex")
      readLimit := readNonNegativeInteger (fieldOf record "readLimit")
      scanned := readNonNegativeInteger (fieldOf record "scanned")
      yielded := (fieldOf record "yielded").bool? = some true }

def normalizeConversationDetail (detail : JsonRecord) : ConversationDetail where
  conversationId := (readTrimmed (fieldOf detail "conversationId")).getD ""
  nextMessageIndex := (readNonNegativeInteger (fieldOf detail "nextMessageIndex")).getD 0
  messageLimit := (readNonNegativeInteger (fieldOf detail "messageLimit")).getD 0
  totalMessages := readNonNegativeInteger (fieldOf detail "totalMessages")

def normalizeDetailCursor (value : Json) : BackfillDetailCursor where
  toBackfillCursor := normalizeCursor isoString value
  conversationDetail :=
    (value.record?.bind fun record => (fieldOf record "conversationDetail").record?).map normalizeConversationDetail

def normalizeAccountMirrorBackfillLedger (value : Json) : Option BackfillLedger := do
  let record ← value.record?
  guard (record.string? "object" == some "account_mirror_backfill_ledger")
  let provider ← readOneOf [.chatgpt, .gemini, .grok] Provider.text (fieldOf record "provider")
  let runtimeProfileId ← readTrimmed (fieldOf record "runtimeProfileId")
  let updatedAt ← readIsoString isoString (fieldOf record "updatedAt")
  let cursors := ((fieldOf record "cursors").record?).getD []
  pure {
    provider, runtimeProfileId, updatedAt
    browserProfileId := readTrimmed (fieldOf record "browserProfileId")
    boundIdentityKey := readTrimmed (fieldOf record "boundIdentityKey")
    state := readLedgerState (fieldOf record "state")
    lastCompletedPhase := readPhase (fieldOf record "lastCompletedPhase")
    nextEligiblePhase := (readPhase (fieldOf record "nextEligiblePhase")).getD .identity
    cursors := {
      projects := normalizeCursor isoString (fieldOf cursors "projects")
      rootRail := normalizeCursor isoString (fieldOf cursors "rootRail")
      projectConversations := normalizeCursor isoString (fieldOf cursors "projectConversations")
      newestFirstDetail := normalizeDetailCursor isoString (fieldOf cursors "newestFirstDetail")
      accountLibrary := normalizeCursor isoString (fieldOf cursors "accountLibrary")
      materialization := normalizeCursor isoString (fieldOf cursors "materialization") } }

def BackfillCursor.fields (cursor : BackfillCursor) : JsonRecord :=
  [("status", textJson cursor.status.text), ("reason", textJson cursor.reason),
    ("updatedAt", nullable textJson cursor.updatedAt), ("nextIndex", nullable countJson cursor.nextIndex),
    ("readLimit", nullable countJson cursor.readLimit), ("scanned", nullable countJson cursor.scanned),
    ("yielded", boolJson cursor.yielded)]

def ConversationDetail.toJson (detail : ConversationDetail) : Json :=
  .object
    [("conversationId", textJson detail.conversationId), ("nextMessageIndex", countJson detail.nextMessageIndex),
      ("messageLimit", countJson detail.messageLimit), ("totalMessages", nullable countJson detail.totalMessages)]

def Cursors.toJson (cursors : Cursors) : Json :=
  .object
    [("projects", .object cursors.projects.fields), ("rootRail", .object cursors.rootRail.fields),
      ("projectConversations", .object cursors.projectConversations.fields),
      ("newestFirstDetail", .object (cursors.newestFirstDetail.fields ++
        [("conversationDetail", nullable ConversationDetail.toJson cursors.newestFirstDetail.conversationDetail)])),
      ("accountLibrary", .object cursors.accountLibrary.fields),
      ("materialization", .object cursors.materialization.fields)]

def BackfillLedger.toJson (ledger : BackfillLedger) : Json :=
  .object
    [("object", textJson "account_mirror_backfill_ledger"), ("version", countJson 1),
      ("provider", textJson ledger.provider.text), ("runtimeProfileId", textJson ledger.runtimeProfileId),
      ("browserProfileId", nullable textJson ledger.browserProfileId),
      ("boundIdentityKey", nullable textJson ledger.boundIdentityKey), ("updatedAt", textJson ledger.updatedAt),
      ("state", textJson ledger.state.text),
      ("lastCompletedPhase", nullable (fun phase => textJson phase.text) ledger.lastCompletedPhase),
      ("nextEligiblePhase", textJson ledger.nextEligiblePhase.text), ("cursors", ledger.cursors.toJson)]

/-- What is read of a ledger that was stored. -/
def renormalized (ledger : Option BackfillLedger) : Option BackfillLedger :=
  ledger.bind fun ledger => normalizeAccountMirrorBackfillLedger isoString ledger.toJson

end Normalization

/-! ## Evidence of a refresh -/

structure ProjectConversationsEvidence where
  nextProjectIndex : Nat
  readLimit : Nat
  scannedProjects : Nat
  yielded : Bool

structure AttachmentInventoryEvidence where
  nextConversationIndex : Nat
  detailReadLimit : Nat
  scannedConversations : Nat
  conversationDetail : Option ConversationDetail
  yielded : Bool

structure Truncated where
  projects : Bool
  conversations : Bool
  artifacts : Bool

structure MetadataEvidence where
  projectSampleIds : List String
  conversationSampleIds : List String
  projectConversations : Option ProjectConversationsEvidence
  attachmentInventory : Option AttachmentInventoryEvidence
  truncated : Truncated

/-- The account that a ledger is of. -/
structure LedgerScope where
  provider : Provider
  runtimeProfileId : String
  browserProfileId : Option String
  boundIdentityKey : Option String

def indexCursor (truncated : Bool) (sampleIds : List String) (completeReason pendingReason updatedAt : String) :
    BackfillCursor where
  status := if truncated then .pending else .complete
  reason := if truncated then pendingReason else completeReason
  updatedAt := some updatedAt
  nextIndex := if truncated then some sampleIds.length else none
  readLimit := none
  scanned := some sampleIds.length
  yielded := false

def deriveProjectsCursor (evidence : Option MetadataEvidence) (updatedAt : String) : BackfillCursor :=
  match evidence with
  | none => unknownCursor "No project evidence has been collected."
  | some evidence => indexCursor evidence.truncated.projects evidence.projectSampleIds
      "Project index was not truncated in the latest refresh."
      "Project index was truncated and needs another backfill pass." updatedAt

def deriveRootRailCursor (evidence : Option MetadataEvidence) (updatedAt : String) : BackfillCursor :=
  match evidence with
  | none => unknownCursor "No root conversation evidence has been collected."
  | some evidence => indexCursor evidence.truncated.conversations evidence.conversationSampleIds
      "Root conversation rail was not truncated in the latest refresh."
      "Root conversation rail was truncated and needs another backfill pass." updatedAt

def deriveProjectConversationsCursor (evidence : Option MetadataEvidence) (updatedAt : String) : BackfillCursor :=
  match evidence with
  | none => unknownCursor "No project conversation evidence has been collected."
  | some evidence =>
    match evidence.projectConversations with
    | none => skippedCursor "No project conversation cursor was emitted."
    | some cursor =>
      { status := if cursor.yielded then .pending else .complete
        reason :=
          if cursor.yielded then "Project conversation pass yielded before finishing."
          else "Project conversation cursor completed in the latest refresh."
        updatedAt := some updatedAt
        nextIndex := some cursor.nextProjectIndex
        readLimit := some cursor.readLimit
        scanned := some cursor.scannedProjects
        yielded := cursor.yielded }

/-- `remaining` is `mirrorCompleteness?.remainingDetailSurfaces?.total ?? 0`. -/
def deriveNewestFirstDetailCursor (evidence : Option MetadataEvidence) (remaining : Nat) (updatedAt : String) :
    BackfillDetailCursor :=
  match evidence with
  | none => ⟨unknownCursor "No detail inventory evidence has been collected.", none⟩
  | some evidence =>
    let cursor := evidence.attachmentInventory
    let pending := cursor.any (·.yielded) || (cursor.bind (·.conversationDetail)).isSome ||
      evidence.truncated.artifacts || decide (0 < remaining)
    { status := if pending then .pending else .complete
      reason :=
        if pending then "Detail inventory cursor or remaining detail surfaces are still pending."
        else "Detail inventory is complete for the current evidence window."
      updatedAt := some updatedAt
      nextIndex := cursor.map (·.nextConversationIndex)
      readLimit := cursor.map (·.detailReadLimit)
      scanned := cursor.map (·.scannedConversations)
      yielded := cursor.any (·.yielded)
      conversationDetail := cursor.bind (·.conversationDetail) }

/-! ## Deriving and updating -/

section Steps

variable (isoString : String → Option String)

structure DeriveInput where
  scope : LedgerScope
  updatedAt : String
  evidence : Option MetadataEvidence
  remaining : Nat

def deriveAccountMirrorBackfillLedger (previous : Option BackfillLedger) (input : DeriveInput) : BackfillLedger :=
  let previous := renormalized isoString previous
  let cursors : Cursors :=
    { projects := deriveProjectsCursor input.evidence input.updatedAt
      rootRail := deriveRootRailCursor input.evidence input.updatedAt
      projectConversations := deriveProjectConversationsCursor input.evidence input.updatedAt
      newestFirstDetail := deriveNewestFirstDetailCursor input.evidence input.remaining input.updatedAt
      accountLibrary :=
        (previous.map (·.cursors.accountLibrary)).getD (skippedCursor "No account-library cursor recorded yet.")
      materialization :=
        (previous.map (·.cursors.materialization)).getD (skippedCursor "No materialization cursor recorded yet.") }
  let nextEligiblePhase := chooseNextEligiblePhase cursors input.evidence.isSome
  { provider := input.scope.provider
    runtimeProfileId := input.scope.runtimeProfileId
    browserProfileId := input.scope.browserProfileId
    boundIdentityKey := input.scope.boundIdentityKey
    updatedAt := input.updatedAt
    state :=
      if input.evidence.isSome then if nextEligiblePhase = .complete then .complete else .inProgress else .notStarted
    lastCompletedPhase := chooseLastCompletedPhase cursors
    nextEligiblePhase, cursors }

structure UpdateInput where
  scope : LedgerScope
  updatedAt : String
  accountLibrary : Option BackfillCursor
  materialization : Option BackfillCursor

def updateAccountMirrorBackfillLedgerCursors (value : Option BackfillLedger) (input : UpdateInput) : BackfillLedger :=
  let previous := renormalized isoString value
  let cursors : Cursors :=
    { projects :=
        (previous.map (·.cursors.projects)).getD (unknownCursor "No project evidence has been collected.")
      rootRail :=
        (previous.map (·.cursors.rootRail)).getD (unknownCursor "No root conversation evidence has been collected.")
      projectConversations := (previous.map (·.cursors.projectConversations)).getD
        (unknownCursor "No project conversation evidence has been collected.")
      newestFirstDetail := (previous.map (·.cursors.newestFirstDetail)).getD
        ⟨unknownCursor "No detail inventory evidence has been collected.", none⟩
      accountLibrary := (input.accountLibrary.or (previous.map (·.cursors.accountLibrary))).getD
        (skippedCursor "No account-library cursor recorded yet.")
      materialization := (input.materialization.or (previous.map (·.cursors.materialization))).getD
        (skippedCursor "No materialization cursor recorded yet.") }
  let nextEligiblePhase := chooseNextEligiblePhase cursors true
  { provider := input.scope.provider
    runtimeProfileId := input.scope.runtimeProfileId
    browserProfileId := input.scope.browserProfileId
    boundIdentityKey := input.scope.boundIdentityKey
    updatedAt := input.updatedAt
    state := if nextEligiblePhase = .complete then .complete else .inProgress
    lastCompletedPhase := chooseLastCompletedPhase cursors
    nextEligiblePhase, cursors }

inductive LedgerEvent
  | derive (input : DeriveInput)
  | update (input : UpdateInput)
  | normalize

def nextLedger (ledger : Option BackfillLedger) : LedgerEvent → Option BackfillLedger
  | .derive input => some (deriveAccountMirrorBackfillLedger isoString ledger input)
  | .update input => some (updateAccountMirrorBackfillLedgerCursors isoString ledger input)
  | .normalize => renormalized isoString ledger

/-- All sequences of calls, from no ledger at all. -/
def ledgerSystem : TransitionSystem (Option BackfillLedger) LedgerEvent :=
  ⟨fun ledger => ledger = none, fun ledger event next => next = nextLedger isoString ledger event⟩

end Steps

/-! ## Completion -/

def Cursors.collections (cursors : Cursors) : List CursorStatus :=
  [cursors.projects.status, cursors.rootRail.status, cursors.projectConversations.status,
    cursors.newestFirstDetail.status]

def CursorStatus.Done (status : CursorStatus) : Prop := status ≠ .pending ∧ status ≠ .unknown

/-- The ledger says that the backfill is complete. -/
def BackfillLedger.SaysComplete (ledger : BackfillLedger) : Prop :=
  ledger.state = .complete ∨ ledger.nextEligiblePhase = .complete

/-- A ledger that says so knows that no collection is pending. -/
def Sound (ledger : Option BackfillLedger) : Prop :=
  ∀ found, ledger = some found → found.SaysComplete → ∀ status ∈ found.cursors.collections, status.Done

/-- What is stored knows all its collections, or something is pending that the update keeps or sets. -/
def Backed (isoString : String → Option String) (ledger : Option BackfillLedger) (input : UpdateInput) : Prop :=
  (∃ stored, renormalized isoString ledger = some stored ∧ ∀ status ∈ stored.cursors.collections, status ≠ .unknown) ∨
  (∃ stored, renormalized isoString ledger = some stored ∧ .pending ∈ stored.cursors.collections) ∨
  (input.accountLibrary.or ((renormalized isoString ledger).map (·.cursors.accountLibrary))).any
    (·.status = .pending) ∨
  (input.materialization.or ((renormalized isoString ledger).map (·.cursors.materialization))).any
    (·.status = .pending)

/-- An update is backed by what is stored. -/
def BackedEvent (isoString : String → Option String) (ledger : Option BackfillLedger) : LedgerEvent → Prop
  | .update input => Backed isoString ledger input
  | .derive _ | .normalize => True

section Completion

variable {isoString : String → Option String} {ledger : Option BackfillLedger} {cursors : Cursors}

/-- **The next phase is none** exactly when no cursor is pending. -/
theorem chooseNextEligiblePhase_complete {hasEvidence : Bool} :
    chooseNextEligiblePhase cursors hasEvidence = .complete ↔ hasEvidence = true ∧
      .pending ∉ cursors.collections ∧ cursors.accountLibrary.status ≠ .pending ∧
        cursors.materialization.status ≠ .pending := by
  unfold chooseNextEligiblePhase Cursors.collections
  simp only [List.mem_cons, List.not_mem_nil, or_false, not_or, eq_comm (a := CursorStatus.pending)]
  constructor
  · intro h
    repeat' split at h
    all_goals simp_all
  · rintro ⟨rfl, ⟨h1, h2, h3, h4⟩, h5, h6⟩
    simp [h1, h2, h3, h4, h5, h6]

/-! ### Normalization -/

theorem readCursorStatus_text (status : CursorStatus) : readCursorStatus (textJson status.text) = status := by
  cases status <;> simp [readCursorStatus, readOneOf, CursorStatus.text, textJson]

theorem readLedgerState_text (state : LedgerState) : readLedgerState (textJson state.text) = state := by
  cases state <;> simp [readLedgerState, readOneOf, LedgerState.text, textJson]

theorem readPhase_text (phase : BackfillPhase) : readPhase (textJson phase.text) = some phase := by
  cases phase <;> simp [readPhase, readOneOf, BackfillPhase.text, textJson]

theorem normalizeCursor_append (cursor : BackfillCursor) (rest : JsonRecord) :
    (normalizeCursor isoString (.object (cursor.fields ++ rest))).status = cursor.status := by
  simp [normalizeCursor, BackfillCursor.fields, fieldOf, readCursorStatus_text]

theorem normalizeCursor_fields (cursor : BackfillCursor) :
    (normalizeCursor isoString (.object cursor.fields)).status = cursor.status := by
  simpa using normalizeCursor_append cursor []

/-- **What is stored of a ledger** keeps the statuses of its cursors, its state and its next phase. -/
theorem renormalized_spec {stored : BackfillLedger} (h : renormalized isoString ledger = some stored) :
    ∃ found, ledger = some found ∧ stored.cursors.collections = found.cursors.collections ∧
      stored.state = found.state ∧ stored.nextEligiblePhase = found.nextEligiblePhase := by
  obtain ⟨found, rfl, hread⟩ := Option.bind_eq_some_iff.1 h
  refine ⟨found, rfl, ?_⟩
  unfold normalizeAccountMirrorBackfillLedger BackfillLedger.toJson at hread
  simp only [record?_object, Option.bind_eq_bind, Option.bind_some, Option.bind_eq_some_iff, Option.pure_def,
    Option.some.injEq] at hread
  obtain ⟨-, -, provider, -, runtimeProfileId, -, updatedAt, -, rfl⟩ := hread
  refine ⟨?_, ?_, ?_⟩
  · simp [Cursors.collections, Cursors.toJson, fieldOf, normalizeDetailCursor, normalizeCursor_fields,
      normalizeCursor_append]
  · simp [fieldOf, readLedgerState_text]
  · simp [fieldOf, readPhase_text]

/-! ### The calls -/

/-- A ledger without its last two cursors pending. -/
theorem Sound.renormalized (h : Sound ledger) : Sound (renormalized isoString ledger) := by
  intro stored hstored hsays
  obtain ⟨found, hfound, hcollections, hstate, hphase⟩ := renormalized_spec hstored
  rw [hcollections]
  exact h found hfound (by rwa [BackfillLedger.SaysComplete, ← hstate, ← hphase])

/-- **Evidence makes all cursors known.** -/
theorem known_of_evidence (previous : Option BackfillLedger) {input : DeriveInput} (h : input.evidence.isSome) :
    .unknown ∉ (deriveAccountMirrorBackfillLedger isoString previous input).cursors.collections := by
  obtain ⟨evidence, hevidence⟩ := Option.isSome_iff_exists.1 h
  have hindex : ∀ truncated ids complete pending updatedAt,
      (indexCursor truncated ids complete pending updatedAt).status ≠ .unknown := by
    intro truncated
    cases truncated <;> simp [indexCursor]
  have hprojects : (deriveProjectConversationsCursor (some evidence) input.updatedAt).status ≠ .unknown := by
    unfold deriveProjectConversationsCursor
    dsimp only
    split
    · simp [skippedCursor]
    · dsimp only
      split <;> simp
  have hdetail : (deriveNewestFirstDetailCursor (some evidence) input.remaining input.updatedAt).status ≠ .unknown := by
    unfold deriveNewestFirstDetailCursor
    dsimp only
    split <;> simp
  unfold deriveAccountMirrorBackfillLedger Cursors.collections
  rw [hevidence]
  simp only [List.mem_cons, List.not_mem_nil, or_false, not_or]
  exact ⟨Ne.symm (hindex _ _ _ _ _), Ne.symm (hindex _ _ _ _ _), hprojects.symm, hdetail.symm⟩

theorem sound_derive (previous : Option BackfillLedger) (input : DeriveInput) :
    Sound (some (deriveAccountMirrorBackfillLedger isoString previous input)) := by
  intro found hfound hsays status hstatus
  obtain rfl := Option.some.inj hfound
  have hnext : (deriveAccountMirrorBackfillLedger isoString previous input).nextEligiblePhase = .complete := by
    rcases hsays with hstate | hnext
    · unfold deriveAccountMirrorBackfillLedger at hstate ⊢
      dsimp only at hstate ⊢
      split at hstate
      · split at hstate
        case isTrue h => exact h
        case isFalse => cases hstate
      · cases hstate
    · exact hnext
  obtain ⟨hevidence, hpending, -⟩ := chooseNextEligiblePhase_complete.1 hnext
  exact ⟨fun heq => hpending (heq ▸ hstatus), fun heq => known_of_evidence previous hevidence (heq ▸ hstatus)⟩

/-- A cursor that is set, kept or made anew is pending when it was set or kept so. -/
theorem getD_pending (cursor : Option BackfillCursor) (reason : String) :
    (cursor.getD (skippedCursor reason)).status = .pending ↔ cursor.any (·.status = .pending) = true := by
  cases cursor <;> simp [skippedCursor]

theorem chosenState_complete (phase : BackfillPhase) :
    (if phase = .complete then LedgerState.complete else .inProgress) = .complete ↔ phase = .complete := by
  by_cases h : phase = .complete
  · simp [h]
  · simp [h]

/-- A ledger whose next phase is chosen from its cursors. -/
theorem sound_chosen_iff (updated : BackfillLedger)
    (hphase : updated.nextEligiblePhase = chooseNextEligiblePhase updated.cursors true)
    (hstate : updated.state = .complete ↔ updated.nextEligiblePhase = .complete) :
    Sound (some updated) ↔ (∀ status ∈ updated.cursors.collections, status ≠ .unknown) ∨
      .pending ∈ updated.cursors.collections ∨ updated.cursors.accountLibrary.status = .pending ∨
        updated.cursors.materialization.status = .pending := by
  have hsays : updated.SaysComplete ↔ .pending ∉ updated.cursors.collections ∧
      updated.cursors.accountLibrary.status ≠ .pending ∧ updated.cursors.materialization.status ≠ .pending := by
    rw [BackfillLedger.SaysComplete, hstate, or_self, hphase, chooseNextEligiblePhase_complete]
    exact and_iff_right rfl
  constructor
  · intro h
    by_contra hnone
    simp only [not_or] at hnone
    obtain ⟨hunknown, hpending, hlibrary, hmaterialization⟩ := hnone
    have hcomplete := hsays.2 ⟨hpending, hlibrary, hmaterialization⟩
    exact hunknown fun status hstatus => (h updated rfl hcomplete status hstatus).2
  · intro h found hfound hcomplete status hstatus
    obtain rfl := Option.some.inj hfound
    obtain ⟨hpending, hlibrary, hmaterialization⟩ := hsays.1 hcomplete
    rcases h with hknown | h | h | h
    · exact ⟨fun heq => hpending (heq ▸ hstatus), hknown status hstatus⟩
    · exact absurd h hpending
    · exact absurd h hlibrary
    · exact absurd h hmaterialization

/-- **An update is sound** exactly when it is backed. -/
theorem sound_update_iff (input : UpdateInput) :
    Sound (some (updateAccountMirrorBackfillLedgerCursors isoString ledger input)) ↔ Backed isoString ledger input := by
  have hstate : (updateAccountMirrorBackfillLedgerCursors isoString ledger input).state = .complete ↔
      (updateAccountMirrorBackfillLedgerCursors isoString ledger input).nextEligiblePhase = .complete :=
    chosenState_complete _
  rw [sound_chosen_iff _ rfl hstate, Backed]
  unfold updateAccountMirrorBackfillLedgerCursors
  dsimp only
  rw [getD_pending, getD_pending]
  cases renormalized isoString ledger with
  | none => simp [Cursors.collections, unknownCursor]
  | some stored =>
    simp only [Option.map_some, Option.getD_some, Option.some.injEq, exists_eq_left']
    exact .rfl

theorem sound_nextLedger_iff (h : Sound ledger) (event : LedgerEvent) :
    Sound (nextLedger isoString ledger event) ↔ BackedEvent isoString ledger event := by
  cases event with
  | derive input => exact iff_of_true (sound_derive ledger input) trivial
  | update input => exact sound_update_iff input
  | normalize => exact iff_of_true h.renormalized trivial

/-- **Completion is sound** in all states of a run exactly when all updates of the run are backed. -/
theorem completion_sound_iff (events : List LedgerEvent) (ledger : Option BackfillLedger) :
    ((ledgerSystem isoString).keeping Sound).Run none events ledger ↔
      ((ledgerSystem isoString).restrict (BackedEvent isoString)).Run none events ledger := by
  refine TransitionSystem.run_keeping_iff (fun s event s' _ hs hstep => ?_) (.init rfl) ?_
  · obtain rfl : s' = nextLedger isoString s event := hstep
    exact sound_nextLedger_iff hs event
  · intro found hfound
    cases hfound

end Completion

/-! ## A materialization before the first refresh -/

def sampleScope : LedgerScope := ⟨.chatgpt, "default", none, none⟩

/-- A materialization has ended. -/
def materializedUpdate : UpdateInput :=
  ⟨sampleScope, "2026-01-01T00:00:00.000Z", none, some (skippedCursor "Materialization ended.")⟩

/-- **A ledger without any evidence is complete** when a materialization has ended. -/
theorem unknown_collections_complete : ¬ ∀ (isoString : String → Option String) (events : List LedgerEvent)
    (ledger : Option BackfillLedger), (ledgerSystem isoString).Run none events ledger → Sound ledger := by
  intro h
  have hrun : (ledgerSystem some).Run none [.update materializedUpdate]
      (nextLedger some none (.update materializedUpdate)) := .cons rfl (.nil _)
  have hsound := h some _ _ hrun _ rfl (.inl (by decide +kernel)) .unknown (by decide +kernel)
  exact hsound.2 rfl

end AuraCall.AccountMirror.Backfill
