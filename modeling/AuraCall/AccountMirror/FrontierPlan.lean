import AuraCall.AccountMirror.WorkState

/-!
# The plan of an index epoch

`changeFrontierPlanner.ts`, and `applyDeterministicChangeFrontier` of the metadata collector, which makes the plan from
the index rows and what is cached of them. `decideRow` is a ladder: the first branch that applies decides.
-/

namespace AuraCall.AccountMirror.Frontier

inductive FrontierDecisionReason
  | duplicateConversationKey | retryNotBefore | sameEpochComplete | sameEpochTerminal | providerGuarded
  | identityMismatch | providerUnavailable | unchangedComplete | retainedAssetsActionable | retainedAssetsIncomplete
  | detailOrIndexChanged
  deriving DecidableEq

inductive FreshnessState
  | fresh | stale | partialDetail | missingAssets | terminalUnavailable | guarded | unknown
  deriving DecidableEq

inductive RouteabilityState
  | routeable | notFoundOrUnavailable | identityMismatch | guarded | unknown
  deriving DecidableEq

inductive Completeness
  | none | part | complete | unknown
  deriving DecidableEq

structure ConversationFreshness where
  state : FreshnessState
  manifestObservedAt : Option String
  routeabilityState : RouteabilityState
  conversationFingerprint : String
  detailCompleteness : Completeness
  missingLocal : Nat

structure PlannerRow where
  workState : ConversationWorkState
  freshness : ConversationFreshness

structure FrontierDecision where
  conversationKey : String
  action : FrontierAction
  reason : FrontierDecisionReason
  checkpointKey : String
  deriving DecidableEq

structure ChangeFrontierPlan where
  epochId : String
  resumeAfterConversationKey : Option String
  checkpointFound : Bool
  decisions : List FrontierDecision
  counts : FrontierAction → Nat

variable (host : FrontierHost)

def decision (conversationKey : String) (action : FrontierAction) (reason : FrontierDecisionReason) : FrontierDecision :=
  ⟨conversationKey, action, reason, conversationKey⟩

def countActions (decisions : List FrontierDecision) (action : FrontierAction) : Nat :=
  decisions.countP (·.action = action)

def isFuture (value : Option String) (now : String) : Bool :=
  match value.bind host.parseDate, host.parseDate now with
  | some timestamp, some nowTimestamp => decide (nowTimestamp < timestamp)
  | _, _ => false

def decideRow (epochId now : String) (row : PlannerRow) : FrontierDecision :=
  let workState := row.workState
  let freshness := row.freshness
  if isFuture host workState.retryNotBefore now then decision workState.conversationKey .defer .retryNotBefore
  else if workState.epochId = epochId ∧ workState.outcome = .complete ∧ freshness.missingLocal = 0 ∧
      freshness.state ≠ .missingAssets then
    decision workState.conversationKey .skip .sameEpochComplete
  else if workState.epochId = epochId ∧ workState.outcome = .terminal then
    decision workState.conversationKey .skip .sameEpochTerminal
  else if freshness.routeabilityState = .guarded ∨ freshness.state = .guarded then
    decision workState.conversationKey .defer .providerGuarded
  else if freshness.routeabilityState = .identityMismatch then
    decision workState.conversationKey .defer .identityMismatch
  else if freshness.routeabilityState = .notFoundOrUnavailable ∨ workState.assetAvailability = .unavailable then
    decision workState.conversationKey .skip .providerUnavailable
  else if freshness.conversationFingerprint ≠ workState.indexFingerprint then
    decision workState.conversationKey .visitOnce .detailOrIndexChanged
  else if 0 < freshness.missingLocal ∨ freshness.state = .missingAssets then
    if workState.detailFingerprint.any (· != "") ∧ freshness.manifestObservedAt.any (· != "") then
      decision workState.conversationKey .materializeRetained .retainedAssetsActionable
    else decision workState.conversationKey .visitOnce .retainedAssetsIncomplete
  else if freshness.state = .fresh ∧ freshness.detailCompleteness = .complete ∧ freshness.missingLocal = 0 then
    decision workState.conversationKey .skip .unchangedComplete
  else decision workState.conversationKey .visitOnce .detailOrIndexChanged

/-- The decisions for the rows, after those whose keys have been seen. -/
def decideRows (epochId now : String) : List String → List PlannerRow → List FrontierDecision
  | _, [] => []
  | seen, row :: rows =>
    if row.workState.conversationKey ∈ seen then
      decision row.workState.conversationKey .skip .duplicateConversationKey :: decideRows epochId now seen rows
    else
      decideRow host epochId now row :: decideRows epochId now (row.workState.conversationKey :: seen) rows

def planAccountMirrorChangeFrontier (epochId now : String) (rows : List PlannerRow)
    (resumeAfterConversationKey : Option String) : ChangeFrontierPlan :=
  let resumeAfterConversationKey := readTrimmed (.ofOption resumeAfterConversationKey)
  let checkpoint := resumeAfterConversationKey.bind fun key => rows.findIdx? (·.workState.conversationKey = key)
  let startIndex := (checkpoint.map (· + 1)).getD 0
  let decisions := decideRows host epochId now [] (rows.drop startIndex)
  { epochId, resumeAfterConversationKey
    checkpointFound := resumeAfterConversationKey.isNone || checkpoint.isSome
    decisions
    counts := countActions decisions }

/-! ## The plan of a sweep -/

/-- What is cached about the freshness of a conversation. -/
structure FreshnessSummary where
  freshnessState : FreshnessState
  manifestObservedAt : Option String
  routeabilityState : RouteabilityState
  detailCompleteness : Option Completeness
  missingLocalCount : Nat

def freshnessFromSummary (summary : FreshnessSummary) (conversation : Conversation) : ConversationFreshness where
  state := summary.freshnessState
  manifestObservedAt := summary.manifestObservedAt
  routeabilityState := summary.routeabilityState
  conversationFingerprint := fingerprintAccountMirrorConversationIndexRow host conversation
  detailCompleteness := summary.detailCompleteness.getD .unknown
  missingLocal := summary.missingLocalCount

structure ChangeFrontierInput where
  conversations : List Conversation
  legacyDetailConversations : List Conversation
  previousConversationFreshness : Option (String → Option FreshnessSummary)
  previousConversationWorkStates : Option (String → Option ConversationWorkState)
  epochId : String
  now : String

/-- The rows of the conversations that something is cached of. -/
def plannerRows (workStates : String → Option ConversationWorkState) (summaries : String → Option FreshnessSummary)
    (conversations : List Conversation) : List PlannerRow :=
  conversations.filterMap fun conversation =>
    match workStates conversation.id, summaries conversation.id with
    | some workState, some summary => some ⟨workState, freshnessFromSummary host summary conversation⟩
    | _, _ => none

/-- Which conversations are read in detail, and the plan. -/
def applyDeterministicChangeFrontier (input : ChangeFrontierInput) : List Conversation × Option ChangeFrontierPlan :=
  match input.previousConversationFreshness, input.previousConversationWorkStates with
  | some summaries, some workStates =>
    let rows := plannerRows host workStates summaries input.conversations
    if rows.isEmpty then (input.legacyDetailConversations, none)
    else
      let plan := planAccountMirrorChangeFrontier host input.epochId input.now rows none
      let decisionByKey := fun key => plan.decisions.reverse.find? (·.conversationKey = key)
      let legacy := fun (conversation : Conversation) => input.legacyDetailConversations.any (·.id = conversation.id)
      (input.conversations.filter fun conversation =>
        match workStates conversation.id with
        | none => legacy conversation
        | some workState =>
          match decisionByKey workState.conversationKey with
          | some found => found.action = .visitOnce
          | none => legacy conversation, some plan)
  | _, _ => (input.legacyDetailConversations, none)

/-! ## The decision for a row -/

section Decisions

variable {host : FrontierHost} {epochId now : String} {row : PlannerRow} {rows before after : List PlannerRow}

@[simp] theorem decision_key {key : String} {action : FrontierAction} {reason : FrontierDecisionReason} :
    (decision key action reason).conversationKey = key := rfl

@[simp] theorem decideRow_key : (decideRow host epochId now row).conversationKey = row.workState.conversationKey := by
  unfold decideRow
  simp only [apply_ite FrontierDecision.conversationKey, decision_key, ite_self]

/-- Nothing but its content keeps a row from being visited: no retry horizon, no guard, no other identity, and a route. -/
structure PlannerRow.Visitable (host : FrontierHost) (now : String) (row : PlannerRow) : Prop where
  due : isFuture host row.workState.retryNotBefore now = false
  unguarded : row.freshness.routeabilityState ≠ .guarded ∧ row.freshness.state ≠ .guarded
  identity : row.freshness.routeabilityState ≠ .identityMismatch
  found : row.freshness.routeabilityState ≠ .notFoundOrUnavailable

/-- The content of the row is not what its state was recorded for. -/
def PlannerRow.Changed (row : PlannerRow) : Prop :=
  row.freshness.conversationFingerprint ≠ row.workState.indexFingerprint

/-- **A changed row of a new epoch.** -/
theorem decideRow_changed (hr : row.Visitable host now) (hc : row.Changed) (hepoch : row.workState.epochId ≠ epochId) :
    decideRow host epochId now row =
      if row.workState.assetAvailability = .unavailable then
        decision row.workState.conversationKey .skip .providerUnavailable
      else decision row.workState.conversationKey .visitOnce .detailOrIndexChanged := by
  have hguard : ¬(row.freshness.routeabilityState = .guarded ∨ row.freshness.state = .guarded) := by
    simp [hr.unguarded.1, hr.unguarded.2]
  simp only [decideRow, hr.due, hepoch, hguard, hr.identity, hr.found, false_and, false_or, if_false,
    Bool.false_eq_true]
  exact congrArg _ (if_pos hc)

/-- The first row of a key gets its own decision, which is the first for that key. -/
theorem decideRows_first (row : PlannerRow) (seen : List String) (hseen : row.workState.conversationKey ∉ seen)
    (hbefore : ∀ earlier ∈ before, earlier.workState.conversationKey ≠ row.workState.conversationKey) :
    (decideRows host epochId now seen (before ++ row :: after)).find?
      (·.conversationKey = row.workState.conversationKey) = some (decideRow host epochId now row) := by
  induction before generalizing seen with
  | nil =>
    rw [List.nil_append, decideRows, if_neg hseen, List.find?_cons_of_pos (by simp)]
  | cons earlier before ih =>
    have hne := hbefore earlier List.mem_cons_self
    have hrest : ∀ other ∈ before, other.workState.conversationKey ≠ row.workState.conversationKey :=
      fun other hother => hbefore other (List.mem_cons_of_mem _ hother)
    rw [List.cons_append, decideRows]
    split
    · rw [List.find?_cons_of_neg (by simp [hne])]
      exact ih seen hseen hrest
    · rw [List.find?_cons_of_neg (by simp [hne])]
      exact ih _ (by simpa [hne.symm] using hseen) hrest

end Decisions

end AuraCall.AccountMirror.Frontier
