import AuraCall.AccountMirror.CacheHistory

/-!
# Changed conversations are revisited

A sweep lists the conversations of the provider and makes the plan of a new epoch from the states that are cached. A row
that has changed, and that nothing else keeps from being visited (`ChangedRow`), is revisited exactly when no work has
reported its assets unavailable, and when its conversation is one of the first that the catalog gives
(`changed_row_revisited_iff`). The availability is in no epoch: every snapshot carries it over
(`unavailable_carried_over`), and the ladder looks at it before it compares the fingerprints.
-/

namespace AuraCall.AccountMirror.Frontier

open Script

variable {host : FrontierHost}

/-! ## What is cached -/

/-- `normalizeLimit`. -/
def normalizeLimit (value : Option Int) : Nat :=
  match value with
  | some limit => (max 0 (min 500 limit)).toNat
  | none => 50

/-- The catalog is asked for so many conversations. -/
def workStateLimit : Int := 10000

/-- A map of the conversations that have a work state. -/
def workStates (host : FrontierHost) (conversations : List Conversation) (id : String) : Option ConversationWorkState :=
  (lastWith Prod.fst (conversations.filterMap fun conversation =>
    (conversation.workState host).map fun state => (conversation.id, state)) id).map (·.2)

/-- All conversations of the cache. -/
def cachedConversations (host : FrontierHost) (s : CacheState) (supplement : Supplement) : List Conversation :=
  mergeConversationLists host (s.conversations :: supplement.lists)

/-- `previousConversationWorkStates`, from the catalog. -/
def previousConversationWorkStates (host : FrontierHost) (s : CacheState) (supplement : Supplement) :
    String → Option ConversationWorkState :=
  workStates host ((cachedConversations host s supplement).take (normalizeLimit (some workStateLimit)))

section Catalog

variable {conversations : List Conversation} {id : String} {state : ConversationWorkState} {s : CacheState}
  {supplement : Supplement}

theorem mem_of_workStates (h : workStates host conversations id = some state) :
    ∃ conversation ∈ conversations, conversation.id = id ∧ conversation.workState host = some state := by
  obtain ⟨⟨key, found⟩, hfound, rfl⟩ := Option.map_eq_some_iff.1 h
  obtain ⟨hmem, rfl⟩ := mem_of_lastWith hfound
  obtain ⟨conversation, hconversation, hstate⟩ := List.mem_filterMap.1 hmem
  obtain ⟨state, hworkState, heq⟩ := Option.map_eq_some_iff.1 hstate
  cases heq
  exact ⟨conversation, hconversation, rfl, hworkState⟩

theorem mergeConversation_nodup {items : List Conversation} {item : Conversation}
    (h : (items.map Conversation.id).Nodup) : ((mergeConversation host items item).map Conversation.id).Nodup := by
  unfold mergeConversation
  split
  · exact h
  split
  · have hsame : (items.map fun existing => if existing.id = item.id then
        choosePreferredConversation host (some existing) item else existing).map Conversation.id =
          items.map Conversation.id := by
      rw [List.map_map]
      refine List.map_congr_left fun existing _ => ?_
      rw [Function.comp_apply]
      split
      case isTrue hid => exact (choosePreferred_id hid).trans hid.symm
      case isFalse => rfl
    rwa [hsame]
  case isFalse hnew =>
    rw [List.map_append, List.nodup_append]
    refine ⟨h, List.nodup_singleton _, fun a ha b hb hab => hnew ?_⟩
    obtain ⟨existing, hexisting, rfl⟩ := List.mem_map.1 ha
    rw [List.map_singleton, List.mem_singleton] at hb
    exact List.any_eq_true.2 ⟨existing, hexisting, decide_eq_true (hab.trans hb)⟩

theorem cachedConversations_nodup : ((cachedConversations host s supplement).map Conversation.id).Nodup := by
  have hfold : ∀ list items : List Conversation, (items.map Conversation.id).Nodup →
      ((list.foldl (mergeConversation host) items).map Conversation.id).Nodup := by
    intro list
    induction list with
    | nil => exact fun _ h => h
    | cons item rest ih => exact fun items h => ih _ (mergeConversation_nodup h)
  exact hfold _ [] List.nodup_nil

/-- What the catalog gives is what is cached. -/
theorem workStates_of_previous (h : previousConversationWorkStates host s supplement id = some state) :
    ∀ state', workStates host (cachedConversations host s supplement) id = some state' → state' = state := by
  intro state' h'
  obtain ⟨conversation, hconversation, hid, hstate⟩ := mem_of_workStates h
  obtain ⟨conversation', hconversation', hid', hstate'⟩ := mem_of_workStates h'
  have hsame := List.inj_on_of_nodup_map cachedConversations_nodup (List.mem_of_mem_take hconversation) hconversation'
    (hid.trans hid'.symm)
  subst hsame
  exact Option.some.inj (hstate'.symm.trans hstate)

end Catalog

/-! ## Changed rows -/

/-- A row of a sweep over a cache: the conversation has changed since its state was recorded, and nothing else keeps it
from being visited. Its epoch is new, its key is its own, and the row is the first for it. -/
structure ChangedRow (host : FrontierHost) (s : CacheState) where
  supplement : Supplement
  summaries : String → Option FreshnessSummary
  before : List Conversation
  conversation : Conversation
  after : List Conversation
  legacyDetailConversations : List Conversation
  epochId : String
  now : String
  state : ConversationWorkState
  summary : FreshnessSummary
  cached : workStates host (cachedConversations host s supplement) conversation.id = some state
  summarized : summaries conversation.id = some summary
  newEpoch : .snapshot epochId ∉ s.trace
  first : ∀ earlier ∈ before, earlier.id ≠ conversation.id
  ownKey : ∀ other ∈ before ++ after, other.id ≠ conversation.id → ∀ state',
    workStates host (cachedConversations host s supplement) other.id = some state' →
    state'.conversationKey ≠ state.conversationKey
  visitable : PlannerRow.Visitable host now ⟨state, freshnessFromSummary host summary conversation⟩
  changed : PlannerRow.Changed ⟨state, freshnessFromSummary host summary conversation⟩

namespace ChangedRow

variable {s : CacheState} (row : ChangedRow host s)

def input : ChangeFrontierInput where
  conversations := row.before ++ row.conversation :: row.after
  legacyDetailConversations := row.legacyDetailConversations
  previousConversationFreshness := some row.summaries
  previousConversationWorkStates := some (previousConversationWorkStates host s row.supplement)
  epochId := row.epochId
  now := row.now

/-- The plan has the decision to visit the conversation. -/
def Revisited : Prop := ∃ plan, (applyDeterministicChangeFrontier host row.input).2 = some plan ∧
  ∃ found, plan.decisions.find? (·.conversationKey = row.state.conversationKey) = some found ∧ found.action = .visitOnce

/-- The catalog gives the state of the conversation. -/
def InCatalog : Prop := previousConversationWorkStates host s row.supplement row.conversation.id = some row.state

end ChangedRow

section Rows

variable {s : CacheState} {row : ChangedRow host s}

theorem previous_subset {id : String} {state : ConversationWorkState} {supplement : Supplement}
    (h : previousConversationWorkStates host s supplement id = some state) :
    workStates host (cachedConversations host s supplement) id = some state := by
  obtain ⟨conversation, hconversation, hid, hstate⟩ := mem_of_workStates h
  have hsome : (workStates host (cachedConversations host s supplement) id).isSome := by
    rw [workStates, Option.isSome_map, lastWith, List.find?_isSome]
    refine ⟨(id, state), List.mem_reverse.2 (List.mem_filterMap.2 ⟨conversation, List.mem_of_mem_take hconversation, ?_⟩),
      by simp⟩
    rw [hstate, Option.map_some, hid]
  obtain ⟨state', hstate'⟩ := Option.isSome_iff_exists.1 hsome
  rw [hstate', workStates_of_previous h state' hstate']

theorem plannerRows_key {conversations : List Conversation} (hlisted : conversations ⊆ row.before ++ row.after)
    (hids : ∀ other ∈ conversations, other.id ≠ row.conversation.id) :
    ∀ other ∈ plannerRows host (previousConversationWorkStates host s row.supplement) row.summaries conversations,
      other.workState.conversationKey ≠ row.state.conversationKey := by
  intro other hother
  obtain ⟨conversation, hconversation, hrow⟩ := List.mem_filterMap.1 hother
  split at hrow
  case h_1 state summary hstate hsummary =>
    cases hrow
    exact row.ownKey conversation (hlisted hconversation) (hids conversation hconversation) state (previous_subset hstate)
  case h_2 => cases hrow

theorem mem_decideRows {epochId now : String} {found : FrontierDecision} {rows : List PlannerRow} :
    ∀ seen : List String, found ∈ decideRows host epochId now seen rows →
      ∃ other ∈ rows, other.workState.conversationKey = found.conversationKey := by
  induction rows with
  | nil =>
    intro seen h
    rw [decideRows] at h
    cases h
  | cons other rest ih =>
    intro seen h
    rw [decideRows] at h
    split at h
    · rcases List.mem_cons.1 h with rfl | h
      · exact ⟨other, List.mem_cons_self, rfl⟩
      · obtain ⟨row, hrow, hkey⟩ := ih _ h
        exact ⟨row, List.mem_cons_of_mem _ hrow, hkey⟩
    · rcases List.mem_cons.1 h with rfl | h
      · exact ⟨other, List.mem_cons_self, decideRow_key.symm⟩
      · obtain ⟨row, hrow, hkey⟩ := ih _ h
        exact ⟨row, List.mem_cons_of_mem _ hrow, hkey⟩

theorem plan_of_sweep {plan : ChangeFrontierPlan} (h : (applyDeterministicChangeFrontier host row.input).2 = some plan) :
    plan.decisions = decideRows host row.epochId row.now []
      (plannerRows host (previousConversationWorkStates host s row.supplement) row.summaries row.input.conversations) := by
  unfold applyDeterministicChangeFrontier ChangedRow.input at h
  dsimp only at h
  split at h
  · cases h
  · cases h
    rfl

/-- A row in the catalog gets the decision of the ladder. -/
theorem decision_of_inCatalog (hcatalog : row.InCatalog) :
    ∃ plan, (applyDeterministicChangeFrontier host row.input).2 = some plan ∧
      plan.decisions.find? (·.conversationKey = row.state.conversationKey) = some (decideRow host row.epochId row.now
        ⟨row.state, freshnessFromSummary host row.summary row.conversation⟩) := by
  have hrows : plannerRows host (previousConversationWorkStates host s row.supplement) row.summaries
      row.input.conversations =
        plannerRows host (previousConversationWorkStates host s row.supplement) row.summaries row.before ++
          ⟨row.state, freshnessFromSummary host row.summary row.conversation⟩ ::
            plannerRows host (previousConversationWorkStates host s row.supplement) row.summaries row.after := by
    have hstate : previousConversationWorkStates host s row.supplement row.conversation.id = some row.state := hcatalog
    unfold plannerRows ChangedRow.input
    rw [List.filterMap_append, List.filterMap_cons, hstate, row.summarized]
  have hplan : ∃ plan, (applyDeterministicChangeFrontier host row.input).2 = some plan := by
    unfold applyDeterministicChangeFrontier
    dsimp only [ChangedRow.input] at hrows ⊢
    rw [if_neg (by simp [hrows])]
    exact ⟨_, rfl⟩
  obtain ⟨plan, hplan⟩ := hplan
  refine ⟨plan, hplan, ?_⟩
  have hfirst := plannerRows_key (List.subset_append_left _ _) row.first
  rw [plan_of_sweep hplan, hrows]
  exact decideRows_first ⟨row.state, freshnessFromSummary host row.summary row.conversation⟩ [] List.not_mem_nil hfirst

/-- A conversation that the catalog leaves out has no decision. -/
theorem not_revisited_of_not_inCatalog (hcatalog : ¬row.InCatalog) : ¬row.Revisited := by
  rintro ⟨plan, hplan, found, hfound, -⟩
  rw [plan_of_sweep hplan] at hfound
  obtain ⟨other, hother, hkey⟩ := mem_decideRows _ (List.mem_of_find?_eq_some hfound)
  have hfoundKey := List.find?_some hfound
  have hkey' := hkey.trans (of_decide_eq_true hfoundKey)
  obtain ⟨conversation, hconversation, hrow⟩ := List.mem_filterMap.1 hother
  split at hrow
  case h_2 => cases hrow
  case h_1 state summary hstate hsummary =>
    cases hrow
    by_cases hid : conversation.id = row.conversation.id
    · rw [hid] at hstate
      exact hcatalog (hstate.trans (row.cached.symm.trans (previous_subset hstate)).symm)
    · have hlisted : conversation ∈ row.before ++ row.after := by
        have hmem : conversation ∈ row.before ++ row.conversation :: row.after := hconversation
        rw [List.mem_append, List.mem_cons] at hmem
        rw [List.mem_append]
        rcases hmem with h | rfl | h
        · exact .inl h
        · exact absurd rfl hid
        · exact .inr h
      exact row.ownKey conversation hlisted hid state (previous_subset hstate) hkey'

end Rows

/-! ## Runs -/

section Runs

variable {c : Threads CacheState Unit PUnit}

theorem recorded_of_cached {s : CacheState} (hs : SoundCache host s) {supplement : Supplement} {id : String}
    {state : ConversationWorkState} (h : workStates host (cachedConversations host s supplement) id = some state) :
    Recorded s.epoch s.trace id state := by
  obtain ⟨conversation, hconversation, rfl, hstate⟩ := mem_of_workStates h
  exact hs.known.states.read supplement conversation hconversation state hstate

/-- **A changed conversation is revisited** exactly when its state does not say that its assets are unavailable and the
catalog has it; and a state says so only after an update has reported it. -/
theorem changed_row_revisited_iff (h : (cacheSystem host).Reachable c) (row : ChangedRow host c.state) :
    (row.Revisited ↔ row.state.assetAvailability ≠ .unavailable ∧ row.InCatalog) ∧
      (row.state.assetAvailability = .unavailable → Reported c.state.trace row.conversation.id) := by
  have hsound := soundCache_of_reachable h
  have hrecorded := recorded_of_cached hsound row.cached
  refine ⟨?_, hrecorded.reported⟩
  by_cases hcatalog : row.InCatalog
  · obtain ⟨plan, hplan, hfound⟩ := decision_of_inCatalog hcatalog
    have hepoch : row.state.epochId ≠ row.epochId := fun heq =>
      row.newEpoch (heq ▸ hsound.known.written _ hrecorded.epoch)
    rw [decideRow_changed row.visitable row.changed hepoch] at hfound
    constructor
    · rintro ⟨plan', hplan', found, hfound', haction⟩
      obtain rfl := Option.some.inj (hplan.symm.trans hplan')
      obtain rfl := Option.some.inj (hfound'.symm.trans hfound)
      refine ⟨fun hunavailable => ?_, hcatalog⟩
      rw [if_pos hunavailable] at haction
      cases haction
    · rintro ⟨havailable, -⟩
      rw [if_neg havailable] at hfound
      exact ⟨plan, hplan, _, hfound, rfl⟩
  · exact ⟨fun hr => absurd hr (not_revisited_of_not_inCatalog hcatalog), fun hr => absurd hr.2 hcatalog⟩

/-- **A snapshot carries it over**: a conversation whose assets are unavailable stays so in every later epoch. -/
theorem unavailable_carried_over {record : PersistenceRecord} {epoch : ProviderIndexEpoch} {items : List Conversation}
    {conversation : Conversation} {state : ConversationWorkState}
    (h : previousState host items conversation.id = some state) (hunavailable : state.assetAvailability = .unavailable) :
    (snapshotState host record epoch items conversation).assetAvailability = .unavailable := by
  rw [(snapshotState_spec host record epoch items conversation).2.1, h]
  exact hunavailable

end Runs

/-! ## A conversation with another title -/

/-- The conversation is listed with another title, in a new epoch. -/
def retitledRow {s : CacheState} {state : ConversationWorkState}
    (hcached : workStates sampleFrontierHost (cachedConversations sampleFrontierHost s noSupplement) "c" = some state)
    (hnew : .snapshot "next" ∉ s.trace) (hdue : state.retryNotBefore = none)
    (hindex : state.indexFingerprint = "sha256:cfirstchatgpt.") : ChangedRow sampleFrontierHost s where
  supplement := noSupplement
  summaries _ := some ⟨.fresh, none, .routeable, none, 0⟩
  before := []
  conversation := sampleConversation "second"
  after := []
  legacyDetailConversations := []
  epochId := "next"
  now := "2026-01-02T00:00:00.000Z"
  state := state
  summary := ⟨.fresh, none, .routeable, none, 0⟩
  cached := hcached
  summarized := rfl
  newEpoch := hnew
  first _ h := absurd h List.not_mem_nil
  ownKey _ h := absurd h List.not_mem_nil
  visitable :=
    { due := by
        show isFuture sampleFrontierHost state.retryNotBefore _ = false
        rw [hdue]
        rfl
      unguarded := ⟨by simp [freshnessFromSummary], by simp [freshnessFromSummary]⟩
      identity := by simp [freshnessFromSummary]
      found := by simp [freshnessFromSummary] }
  changed := by
    show fingerprintAccountMirrorConversationIndexRow sampleFrontierHost (sampleConversation "second") ≠ state.indexFingerprint
    rw [hindex]
    decide +kernel

/-- What is cached after some calls. -/
def cachedAfter (calls : List CacheCall) : Option (Bool × Option ConversationWorkState × Option ConversationWorkState) :=
  (callsInTurn calls).map fun c => (decide (.snapshot "next" ∈ c.state.trace),
    workStates sampleFrontierHost (cachedConversations sampleFrontierHost c.state noSupplement) "c",
    previousConversationWorkStates sampleFrontierHost c.state noSupplement "c")

/-- The state of the sample in the epoch of its first snapshot. -/
def sampleState (action : Option FrontierAction) (outcome : FrontierOutcome) (assetAvailability : AssetAvailability)
    (checkpointedAt : Option String) : ConversationWorkState :=
  ⟨"sha256:c.", "sha256:chatgptdefaultsha256:account.2026-01-01T00:00:00.000Zsha256:..", "sha256:cfirstchatgpt.", none,
    action, outcome, assetAvailability, none, checkpointedAt, emptyPhysicalActivityCounters, emptyPhysicalActivityCounters⟩

/-- After a snapshot, another title is a reason to visit. -/
theorem retitled_conversation_revisited : ∃ (c : Threads CacheState Unit PUnit) (row : ChangedRow sampleFrontierHost c.state),
    (cacheSystem sampleFrontierHost).Reachable c ∧ row.Revisited := by
  have hrun : cachedAfter [.snapshot (sampleRecord "2026-01-01T00:00:00.000Z" "first") noSupplement] =
      some (false, some (sampleState none .pending .unknown none), some (sampleState none .pending .unknown none)) := by
    decide +kernel
  obtain ⟨c, hc, hcached⟩ := Option.map_eq_some_iff.1 hrun
  simp only [Prod.mk.injEq, decide_eq_false_iff_not] at hcached
  obtain ⟨hnew, hstate, hprevious⟩ := hcached
  have hreachable := callsInTurn_reachable hc
  refine ⟨c, retitledRow hstate hnew rfl rfl, hreachable, ?_⟩
  exact (changed_row_revisited_iff hreachable (retitledRow hstate hnew rfl rfl)).1.2
    ⟨by simp [retitledRow, sampleState], hprevious⟩

/-- **A conversation whose assets were unavailable is not revisited although it has changed.** -/
theorem changed_conversation_skipped : ¬ ∀ (host : FrontierHost) (c : Threads CacheState Unit PUnit),
    (cacheSystem host).Reachable c → ∀ row : ChangedRow host c.state, row.Revisited := by
  intro h
  have hrun : cachedAfter [.snapshot (sampleRecord "2026-01-01T00:00:00.000Z" "first") noSupplement,
      .evidence (sampleUpdate "sha256:chatgptdefaultsha256:account.2026-01-01T00:00:00.000Zsha256:.." .unavailable)
        noSupplement] =
      some (false,
        some (sampleState (some .materializeRetained) .terminal .unavailable (some "2026-01-01T00:00:00.000Z")),
        some (sampleState (some .materializeRetained) .terminal .unavailable (some "2026-01-01T00:00:00.000Z"))) := by
    decide +kernel
  obtain ⟨c, hc, hcached⟩ := Option.map_eq_some_iff.1 hrun
  simp only [Prod.mk.injEq, decide_eq_false_iff_not] at hcached
  obtain ⟨hnew, hstate, hprevious⟩ := hcached
  obtain ⟨plan, hplan, found, hfound, haction⟩ := h _ c (callsInTurn_reachable hc) (retitledRow hstate hnew rfl rfl)
  have hcatalog : (retitledRow hstate hnew rfl rfl).InCatalog := hprevious
  obtain ⟨plan', hplan', hfound'⟩ := decision_of_inCatalog hcatalog
  obtain rfl := Option.some.inj (hplan.symm.trans hplan')
  obtain rfl := Option.some.inj (hfound.symm.trans hfound')
  have hskipped : (decideRow sampleFrontierHost "next" "2026-01-02T00:00:00.000Z"
      ⟨sampleState (some .materializeRetained) .terminal .unavailable (some "2026-01-01T00:00:00.000Z"),
        freshnessFromSummary sampleFrontierHost ⟨.fresh, none, .routeable, none, 0⟩ (sampleConversation "second")⟩).action =
      .skip := by
    decide +kernel
  cases hskipped.symm.trans haction

end AuraCall.AccountMirror.Frontier
