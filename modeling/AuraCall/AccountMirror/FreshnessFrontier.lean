import AuraCall.AccountMirror.CacheHistory
import AuraCall.Lib.RunScan

/-!
# Where a sweep stops reading

`conversationFreshnessFrontier.ts`: which conversations of a list are read in detail. A row is fresh when nothing speaks
for reading it; the list is examined until enough fresh rows have come one after the other, and the other rows are
selected. In a full sweep everything is read, whatever is cached.

`frontier_exact` says what is examined: the shortest prefix that ends with so many fresh rows (`RunScan.EndsWith`).
-/

namespace AuraCall.AccountMirror.Frontier

open RunScan

/-! ## Evidence -/

inductive FallbackReason
  | fullSweepOverride | missingRemoteMtime | missingCachedSummary | cachedStateNotFresh | routeabilityNotCurrent
  | missingLocalAssets | incompleteDetailChunk
  deriving DecidableEq

inductive RowDecision | selected | freshFrontier | stopped
  deriving DecidableEq

/-- `ConversationFreshnessFrontierCachedSummary`: what is stored about the freshness of a conversation. -/
structure CachedSummary where
  detailObservedAt : Option String
  manifestObservedAt : Option String
  freshnessState : FreshnessState
  routeabilityState : RouteabilityState
  assetCompleteness : Completeness
  missingLocalCount : JsNumber
  incompleteDetailChunk : Bool

structure RowEvidence where
  conversationId : String
  index : Nat
  remoteMtime : Option String
  decision : RowDecision
  reasons : List FallbackReason
  cachedFresh : Bool
  freshRunLength : Nat
  deriving DecidableEq

structure StoppedRow where
  conversationId : String
  index : Nat
  remoteMtime : Option String
  deriving DecidableEq

structure FreshnessFrontierEvidence where
  provider : Provider
  sweepMode : SweepMode
  threshold : Nat
  rowsExamined : Nat
  rowsSelectedForDetail : Nat
  frontierReached : Bool
  firstStoppedRow : Option StoppedRow
  fallbackReason : Option FallbackReason
  selectedConversationIds : List String
  rowEvidence : List RowEvidence

structure FreshnessFrontierInput where
  provider : Provider
  sweepMode : SweepMode
  conversations : List Conversation
  cachedSummaries : Option (String → Option CachedSummary)
  incompleteDetailConversationId : Option String
  threshold : Option JsNumber
  materializationPolicy : Option MaterializationPolicy

/-! ## The reasons to read a row -/

variable (host : FrontierHost)

/-- `normalizeIsoString` of a text. -/
def isoText (value : String) : Option String :=
  if trim value = "" then none else (host.parseDate value).map host.isoString

def readRemoteMtime (conversation : Conversation) : Option String :=
  (conversation.updatedAt.bind (isoText host))
    <|> ((readTrimmed (field conversation.metadata "updatedAt")).bind (isoText host))
    <|> ((readTrimmed (field conversation.metadata "lastMessageAt")).bind (isoText host))
    <|> ((readTrimmed (field conversation.metadata "lastActivityAt")).bind (isoText host))

def isObservedAfter (left : String) (right : Option String) : Bool :=
  match right.filter (· ≠ "") with
  | none => true
  | some right =>
    match host.parseDate left, host.parseDate right with
    | some leftMs, some rightMs => decide (rightMs < leftMs)
    | _, _ => false

/-- Three, unless a positive number is given. -/
def normalizeThreshold : Option JsNumber → Nat
  | some (.finite value) => if 0 < value then ⌊value⌋.toNat else 3
  | _ => 3

def reasonIf (speaks : Bool) (reason : FallbackReason) : List FallbackReason := if speaks then [reason] else []

def evaluateSelectionReasons (remoteMtime : Option String) (cached : Option CachedSummary)
    (materializationPolicy : Option MaterializationPolicy) (incompleteDetail : Bool) : List FallbackReason :=
  match cached with
  | none => reasonIf remoteMtime.isNone .missingRemoteMtime ++ [.missingCachedSummary]
  | some cached =>
    let observedAfter := fun observedAt => remoteMtime.any (isObservedAfter host · observedAt)
    distinct (reasonIf remoteMtime.isNone .missingRemoteMtime
      ++ reasonIf (incompleteDetail || cached.incompleteDetailChunk) .incompleteDetailChunk
      ++ reasonIf (cached.freshnessState != .fresh) .cachedStateNotFresh
      ++ reasonIf (cached.routeabilityState != .routeable && cached.routeabilityState != .unknown) .routeabilityNotCurrent
      ++ reasonIf (materializationPolicy != some .metadataOnly &&
            ((JsNumber.ofNat 0).lt cached.missingLocalCount || cached.assetCompleteness == .part)) .missingLocalAssets
      ++ reasonIf (observedAfter cached.detailObservedAt) .cachedStateNotFresh
      ++ reasonIf (observedAfter cached.manifestObservedAt) .cachedStateNotFresh)

/-- The reasons to read a row of the input, when the sweep is not a full one. -/
def FreshnessFrontierInput.selectionReasons (input : FreshnessFrontierInput) (conversation : Conversation) :
    List FallbackReason :=
  let conversationId := trim conversation.id
  let cached := if conversationId = "" then none else input.cachedSummaries.bind (· conversationId)
  evaluateSelectionReasons host (readRemoteMtime host conversation) cached input.materializationPolicy
    (conversationId ≠ "" ∧ conversationId = trim (input.incompleteDetailConversationId.getD ""))

/-! ## The frontier -/

/-- What the loop has made: the selected conversations, the rows, and where it stopped. -/
structure Examined where
  selected : List Conversation
  rows : List RowEvidence
  firstStoppedRow : Option StoppedRow

/-- The loop over the rows, from the row at `index` on, with `freshRunLength` fresh rows before it. -/
def examineRows (reasons : Conversation → List FallbackReason) (threshold : Nat) :
    Nat → Nat → List Conversation → Examined
  | _, _, [] => ⟨[], [], none⟩
  | index, freshRunLength, conversation :: rest =>
    let conversationId := trim conversation.id
    let remoteMtime := readRemoteMtime host conversation
    if reasons conversation = [] then
      let freshRunLength := freshRunLength + 1
      if threshold ≤ freshRunLength then
        ⟨[], [⟨conversationId, index, remoteMtime, .stopped, [], true, freshRunLength⟩],
          some ⟨conversationId, index, remoteMtime⟩⟩
      else
        let later := examineRows reasons threshold (index + 1) freshRunLength rest
        { later with
          rows := ⟨conversationId, index, remoteMtime, .freshFrontier, [], true, freshRunLength⟩ :: later.rows }
    else
      let later := examineRows reasons threshold (index + 1) 0 rest
      { later with
        selected := conversation :: later.selected
        rows := ⟨conversationId, index, remoteMtime, .selected, reasons conversation, false, 0⟩ :: later.rows }

def createFrontierEvidence (provider : Provider) (sweepMode : SweepMode) (threshold : Nat) (rows : List RowEvidence)
    (selectedIds : List String) (firstStoppedRow : Option StoppedRow) : FreshnessFrontierEvidence where
  provider := provider
  sweepMode := sweepMode
  threshold := threshold
  rowsExamined := rows.length
  rowsSelectedForDetail := selectedIds.length
  frontierReached := firstStoppedRow.isSome
  firstStoppedRow := firstStoppedRow
  fallbackReason := (rows.find? fun row => row.decision = .selected ∧ row.reasons ≠ []).bind (·.reasons.head?)
  selectedConversationIds := selectedIds.take 25
  rowEvidence := rows.take 25

/-- The ids that are not empty. -/
def selectedIds (conversations : List Conversation) : List String := (conversations.map (·.id)).filter (· ≠ "")

/-- Which conversations are read in detail, and the evidence. -/
def applyConversationFreshnessFrontier (input : FreshnessFrontierInput) :
    List Conversation × FreshnessFrontierEvidence :=
  let threshold := normalizeThreshold input.threshold
  if input.sweepMode = .fullSweep then
    (input.conversations,
      createFrontierEvidence input.provider input.sweepMode threshold
        (input.conversations.mapIdx fun index conversation =>
          ⟨conversation.id, index, readRemoteMtime host conversation, .selected, [.fullSweepOverride], false, 0⟩)
        (selectedIds input.conversations) none)
  else
    let examined := examineRows host (input.selectionReasons host) threshold 0 0 input.conversations
    (examined.selected,
      createFrontierEvidence input.provider input.sweepMode threshold examined.rows (selectedIds examined.selected)
        examined.firstStoppedRow)

/-! ## What is examined -/

section Frontier

variable {host : FrontierHost} {reasons : Conversation → List FallbackReason} {threshold index run : Nat}
  {conversations : List Conversation}

/-- The loop goes as far as the scan for fresh rows, and selects the others. A threshold of zero needs a fresh row, too. -/
theorem examineRows_scan :
    let fresh := fun conversation => decide (reasons conversation = [])
    let scanned := scan fresh (max 1 threshold) run conversations
    let examined := examineRows host reasons threshold index run conversations
    examined.rows.length = scanned.1 ∧ examined.firstStoppedRow.isSome = scanned.2 ∧
      examined.selected = (conversations.take scanned.1).filter (!fresh ·) := by
  induction conversations generalizing index run with
  | nil => exact ⟨rfl, rfl, rfl⟩
  | cons conversation rest ih =>
    dsimp only at ih ⊢
    rw [scan, examineRows]
    by_cases hfresh : reasons conversation = []
    · have hstop : max 1 threshold ≤ run + 1 ↔ threshold ≤ run + 1 := by omega
      simp only [hfresh, decide_true, if_true, hstop]
      split
      · refine ⟨rfl, rfl, ?_⟩
        rw [List.take_succ_cons, List.take_zero, List.filter_cons_of_neg (by simp [hfresh]), List.filter_nil]
      · obtain ⟨hrows, hstopped, hselected⟩ := @ih (index + 1) (run + 1)
        refine ⟨?_, hstopped, ?_⟩
        · rw [List.length_cons, hrows]
        · rw [List.take_succ_cons, List.filter_cons_of_neg (by simp [hfresh]), hselected]
    · simp only [hfresh, decide_false, if_false, Bool.false_eq_true]
      obtain ⟨hrows, hstopped, hselected⟩ := @ih (index + 1) 0
      refine ⟨?_, hstopped, ?_⟩
      · rw [List.length_cons, hrows]
      · rw [List.take_succ_cons, List.filter_cons_of_pos (by simp [hfresh]), hselected]

theorem normalizeThreshold_ofNat {n : Nat} (hn : 0 < n) : normalizeThreshold (some (JsNumber.ofNat n)) = n := by
  have hpos : (0 : ℚ) < n := Nat.cast_pos.2 hn
  rw [JsNumber.ofNat, normalizeThreshold, if_pos hpos, Int.floor_natCast, Int.toNat_natCast]

end Frontier

/-- A row with nothing that speaks for reading it. -/
def FreshnessFrontierInput.fresh (input : FreshnessFrontierInput) (conversation : Conversation) : Bool :=
  decide (input.selectionReasons host conversation = [])

/-- How many fresh rows end the sweep: the threshold, rounded down, and at least one. -/
def FreshnessFrontierInput.freshRun (input : FreshnessFrontierInput) : Nat := max 1 (normalizeThreshold input.threshold)

/-- What is examined of the input, and what is selected. -/
structure FrontierAt (input : FreshnessFrontierInput) (result : List Conversation × FreshnessFrontierEvidence) : Prop where
  /-- no shorter prefix ends with so many fresh rows -/
  shortest : ∀ k < result.2.rowsExamined, ¬EndsWith (input.fresh host) input.freshRun (input.conversations.take k)
  /-- the examined prefix does, or it is the whole list and does not -/
  ends : result.2.frontierReached = true ∧
      EndsWith (input.fresh host) input.freshRun (input.conversations.take result.2.rowsExamined) ∨
    result.2.frontierReached = false ∧ result.2.rowsExamined = input.conversations.length ∧
      ¬EndsWith (input.fresh host) input.freshRun input.conversations
  selected : result.1 = (input.conversations.take result.2.rowsExamined).filter (!input.fresh host ·)

/-- **Where a sweep stops reading.** -/
theorem frontier_exact (input : FreshnessFrontierInput) :
    (input.sweepMode ≠ .fullSweep → FrontierAt host input (applyConversationFreshnessFrontier host input)) ∧
    (input.sweepMode = .fullSweep →
      (applyConversationFreshnessFrontier host input).1 = input.conversations ∧
      (applyConversationFreshnessFrontier host input).2.rowsExamined = input.conversations.length) ∧
    ∀ n : Nat, 0 < n → input.threshold = some (JsNumber.ofNat n) → input.freshRun = n := by
  refine ⟨fun hmode => ?_, fun hmode => ?_, fun n hn hthreshold => ?_⟩
  · obtain ⟨hrows, hstopped, hselected⟩ := @examineRows_scan host (input.selectionReasons host)
      (normalizeThreshold input.threshold) 0 0 input.conversations
    have hrun : 0 < input.freshRun := Nat.lt_of_lt_of_le Nat.one_pos (Nat.le_max_left ..)
    obtain ⟨hshort, hend⟩ := @scan_zero_spec _ (input.fresh host) _ input.conversations hrun
    rw [applyConversationFreshnessFrontier, if_neg hmode]
    constructor
    · intro k hk
      exact hshort k (hrows ▸ hk)
    · simp only [createFrontierEvidence, hrows, hstopped]
      exact hend
    · simp only [createFrontierEvidence, hrows]
      exact hselected
  · rw [applyConversationFreshnessFrontier, if_pos hmode]
    exact ⟨rfl, List.length_mapIdx⟩
  · rw [FreshnessFrontierInput.freshRun, hthreshold, normalizeThreshold_ofNat hn]
    exact Nat.max_eq_right hn

/-! ## A full sweep -/

def freshConversation (id : String) : Conversation := ⟨id, id, .chatgpt, none, none, some "2026-01-01T00:00:00.000Z", []⟩

/-- Everything stored says that the conversations need not be read. -/
def sweepOfFresh (sweepMode : SweepMode) : FreshnessFrontierInput where
  provider := .chatgpt
  sweepMode := sweepMode
  conversations := [freshConversation "a", freshConversation "b", freshConversation "c"]
  cachedSummaries := some fun _ =>
    some ⟨some "2026-01-01T00:00:00.000Z", some "2026-01-01T00:00:00.000Z", .fresh, .routeable, .complete, .ofNat 0, false⟩
  incompleteDetailConversationId := none
  threshold := some (.ofNat 2)
  materializationPolicy := none

example : (applyConversationFreshnessFrontier sampleFrontierHost (sweepOfFresh .steadyFollow)).2.rowsExamined = 2 := by
  decide +kernel

/-- **A full sweep reads fresh rows**, and does not stop after them. -/
theorem full_sweep_reads_on : ¬ ∀ (host : FrontierHost) (input : FreshnessFrontierInput) (n : Nat), 0 < n →
    input.threshold = some (JsNumber.ofNat n) →
    FrontierAt host input (applyConversationFreshnessFrontier host input) := by
  intro hall
  have hat := hall sampleFrontierHost (sweepOfFresh .fullSweep) 2 (by decide) rfl
  have hselected := congrArg List.length hat.selected
  revert hselected
  decide +kernel

end AuraCall.AccountMirror.Frontier
