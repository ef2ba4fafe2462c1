import AuraCall.AccountMirror.CacheHistory
import AuraCall.Lib.PeriodAccount

/-!
# The activity that a cache has counted

The counters of a work state are an account by epoch: a snapshot opens an epoch and charges the visit of the
conversation, and evidence charges what was resolved and downloaded. `hasAccount_read` says that a reading keeps the
account, `hasAccount_snapshot` and `hasAccount_evidence` say what the calls post to it, and `hasAccount_afterCalls` puts
them together for calls one after the other.
-/

namespace AuraCall.AccountMirror.Frontier

open Script PeriodAccount

variable (host : FrontierHost)

attribute [ext] PhysicalActivityCounters

instance : Add PhysicalActivityCounters := ⟨addPhysicalActivityCounters⟩

instance : Zero PhysicalActivityCounters := ⟨emptyPhysicalActivityCounters⟩

instance : AddMonoid PhysicalActivityCounters where
  add_assoc a b c := PhysicalActivityCounters.ext (Nat.add_assoc ..) (Nat.add_assoc ..) (Nat.add_assoc ..)
    (Nat.add_assoc ..) (Nat.add_assoc ..) (Nat.add_assoc ..) (Nat.add_assoc ..)
  zero_add a := PhysicalActivityCounters.ext (Nat.zero_add _) (Nat.zero_add _) (Nat.zero_add _) (Nat.zero_add _)
    (Nat.zero_add _) (Nat.zero_add _) (Nat.zero_add _)
  add_zero _ := rfl
  nsmul := nsmulRec

/-- The counters of a work state. -/
def ConversationWorkState.account (state : ConversationWorkState) : PeriodAccount String PhysicalActivityCounters :=
  ⟨state.epochId, state.physicalActivity, state.lifetimePhysicalActivity⟩

/-! ## What the calls post -/

/-- The activity of a visit: the snapshot is refreshed once. -/
def VisitBundle.activity (bundle : VisitBundle) : PhysicalActivityCounters :=
  ⟨bundle.targetsCreated, bundle.navigations, bundle.reloads, 1, 0, 0, 0⟩

def FrontierStateEvidence.activity (evidence : FrontierStateEvidence) : PhysicalActivityCounters :=
  ⟨0, 0, 0, 0, evidence.artifactResolutions.toNat, evidence.downloads.toNat, evidence.duplicates.toNat⟩

def PersistenceRecord.epochId (record : PersistenceRecord) : String := (createProviderIndexEpoch host record).epochId

/-- The visit of a conversation in a snapshot: the last one of its epoch. -/
def PersistenceRecord.visit (record : PersistenceRecord) (id : String) : Option VisitBundle :=
  lastWith VisitBundle.conversationId (record.visitBundles.filter (·.freshnessEpoch = record.epochId host)) id

def PersistenceRecord.activity (record : PersistenceRecord) (id : String) : PhysicalActivityCounters :=
  ((record.visit host id).map (·.activity)).getD 0

def EvidenceUpdate.activity (update : EvidenceUpdate) (id : String) : PhysicalActivityCounters :=
  if update.id = id then (update.evidence.frontierState.map (·.activity)).getD 0 else 0

def CacheCall.isSnapshot : CacheCall → Bool
  | .snapshot _ _ => true
  | .evidence _ _ => false

/-- The activity of a conversation that a call brings. -/
def CacheCall.activity (id : String) : CacheCall → PhysicalActivityCounters
  | .snapshot record _ => record.activity host id
  | .evidence update _ => update.activity id

/-- The calls from the first snapshot on: before it no conversation has a work state. -/
def fromFirstSnapshot (calls : List CacheCall) : List CacheCall := calls.dropWhile (!·.isSnapshot)

/-- What a call posts to the account of a conversation. -/
def CacheCall.posting (id : String) : CacheCall → Posting String PhysicalActivityCounters
  | .snapshot record _ => .opening (record.epochId host) (record.activity host id)
  | .evidence update _ => .entry (update.activity id)

def afterCall (s : CacheState) (call : CacheCall) : CacheState := ((cacheCall host call).run s).2

/-- Calls one after the other, each to its end. -/
def afterCalls (s : CacheState) (calls : List CacheCall) : CacheState := calls.foldl (afterCall host) s

/-- The caches of the projects have no field for a work state. -/
def Supplement.Bare (supplement : Supplement) : Prop :=
  ∀ list ∈ supplement.lists, ∀ conversation ∈ list, conversation.metadata.get workStateField = none

def CacheCall.Bare : CacheCall → Prop
  | .snapshot _ supplement => supplement.Bare
  | .evidence _ supplement => supplement.Bare

/-- A snapshot has the conversation. -/
def CacheCall.Presents (id : String) : CacheCall → Prop
  | .snapshot record _ => ∃ conversation ∈ record.conversations, conversation.id = id
  | .evidence _ _ => True

/-! ## The account of a conversation -/

/-- All versions of a conversation have the counters of the account; without one they have no work state. -/
def HasAccount (items : List Conversation) (id : String) :
    Option (PeriodAccount String PhysicalActivityCounters) → Prop
  | none => ∀ conversation ∈ items, conversation.id = id → conversation.workState host = none
  | some account => (∃ conversation ∈ items, conversation.id = id) ∧
      ∀ conversation ∈ items, conversation.id = id → (conversation.workState host).map (·.account) = some account

/-- A cache in which a conversation has an account, in the epoch of the document. -/
structure Counted (s : CacheState) (id : String) (account : Option (PeriodAccount String PhysicalActivityCounters)) :
    Prop where
  counters : HasAccount host s.conversations id account
  period : s.epoch = account.map (·.period)

variable {host : FrontierHost}

section States

variable {state : ConversationWorkState}

@[simp] theorem account_reread : (state.reread host).account = state.account := rfl

theorem account_visited (bundle : VisitBundle) (observedAt : String) :
    (state.visited bundle observedAt).account = state.account.charge bundle.activity := rfl

theorem account_next (evidence : ConversationEvidence) :
    (evidence.next host state).account =
      state.account.charge ((evidence.frontierState.map (·.activity)).getD 0) := by
  unfold ConversationEvidence.next
  cases evidence.frontierState with
  | none => exact (charge_zero _).symm
  | some frontierState => rfl

/-- **Rolling over**: the activity of another epoch is carried over. -/
theorem account_rolledState (host : FrontierHost) (epoch : ProviderIndexEpoch) (items : List Conversation)
    (conversation : Conversation) :
    (rolledState host epoch items conversation).account =
      rolled ((previousState host items conversation.id).map (·.account)) epoch.epochId := by
  have hprevious : ∀ found : Option Conversation,
      normalizeAccountMirrorConversationWorkState host ((found.map (field ·.metadata workStateField)).getD .null) =
        found.bind (·.workState host) := fun found => by cases found <;> rfl
  unfold rolledState rollAccountMirrorConversationWorkState previousState
  dsimp only [ConversationWorkState.account]
  rw [hprevious]
  cases (lastWith Conversation.id items conversation.id).bind (·.workState host) with
  | none => rfl
  | some previous =>
    by_cases hsame : previous.epochId = epoch.epochId
    · have hfilter : (some previous).filter (fun state => state.epochId = epoch.epochId) = some previous := by
        simp [hsame]
      rw [hfilter]
      exact (congrArg (PeriodAccount.mk · _ _) hsame.symm).trans (if_pos hsame).symm
    · have hfilter : (some previous).filter (fun state => state.epochId = epoch.epochId) = none := by
        simp [hsame]
      rw [hfilter]
      exact (if_neg hsame).symm

theorem account_snapshotState (record : PersistenceRecord) (items : List Conversation) (conversation : Conversation) :
    (snapshotState host record (createProviderIndexEpoch host record) items conversation).account =
      (rolled ((previousState host items conversation.id).map (·.account)) (record.epochId host)).charge
        (record.activity host conversation.id) := by
  have hrolled := account_rolledState host (createProviderIndexEpoch host record) items conversation
  unfold snapshotState PersistenceRecord.activity PersistenceRecord.visit PersistenceRecord.epochId
  dsimp only
  cases lastWith VisitBundle.conversationId _ conversation.id with
  | some bundle => exact (account_visited ..).trans (congrArg (·.charge bundle.activity) hrolled)
  | none =>
    refine Eq.trans ?_ (charge_zero _).symm
    cases lastWith FrontierDecision.conversationKey _ _ with
    | some decision => exact hrolled
    | none => exact hrolled

end States

/-! ## Reading -/

section Reading

variable {account : PeriodAccount String PhysicalActivityCounters} {items : List Conversation} {item : Conversation}
  {id : String}

theorem workState_congr {conversation other : Conversation}
    (h : conversation.metadata.get workStateField = other.metadata.get workStateField) :
    conversation.workState host = other.workState host := by
  rw [Conversation.workState, Conversation.workState, field, field, h]

theorem marked_of_account {conversation : Conversation}
    (h : (conversation.workState host).map (·.account) = some account) :
    conversation.metadata.get workStateField ≠ none := by
  intro hget
  have hnull : field conversation.metadata workStateField = .null := by rw [field, hget, Option.getD_none]
  rw [workState_of_null hnull] at h
  cases h

/-- The better of two versions has the field of one of them, and of one that has it. -/
theorem choosePreferred_get {existing : Conversation} (h : existing.metadata.get workStateField ≠ none)
    (candidate : Conversation) :
    (choosePreferredConversation host (some existing) candidate).metadata.get workStateField =
      existing.metadata.get workStateField ∨
    candidate.metadata.get workStateField ≠ none ∧
      (choosePreferredConversation host (some existing) candidate).metadata.get workStateField =
        candidate.metadata.get workStateField := by
  have hmerged : ∀ preferred fallback : JsonRecord,
      (preferred.get workStateField).or (fallback.get workStateField) = preferred.get workStateField ∧
          preferred.get workStateField ≠ none ∨
        preferred.get workStateField = none ∧
          (preferred.get workStateField).or (fallback.get workStateField) = fallback.get workStateField := by
    intro preferred fallback
    cases preferred.get workStateField with
    | none => exact .inr ⟨rfl, rfl⟩
    | some value => exact .inl ⟨rfl, by simp⟩
  unfold choosePreferredConversation
  dsimp only
  split
  · rw [withFallback, get_mergedMetadata]
    rcases hmerged candidate.metadata existing.metadata with ⟨heq, hmarked⟩ | ⟨-, heq⟩
    · exact .inr ⟨hmarked, heq⟩
    · exact .inl heq
  · rw [withFallback, get_mergedMetadata]
    rcases hmerged existing.metadata candidate.metadata with ⟨heq, -⟩ | ⟨hnone, -⟩
    · exact .inl heq
    · exact absurd hnone h
  · rw [get_mergedMetadata]
    rcases hmerged candidate.metadata existing.metadata with ⟨heq, hmarked⟩ | ⟨-, heq⟩
    · exact .inr ⟨hmarked, heq⟩
    · exact .inl heq

theorem account_choosePreferred {existing candidate : Conversation}
    (hexisting : (existing.workState host).map (·.account) = some account)
    (hcandidate : candidate.metadata.get workStateField ≠ none →
      (candidate.workState host).map (·.account) = some account) :
    ((choosePreferredConversation host (some existing) candidate).workState host).map (·.account) = some account := by
  rcases choosePreferred_get (marked_of_account hexisting) candidate with h | ⟨hmarked, h⟩
  · rw [workState_congr h, hexisting]
  · rw [workState_congr h, hcandidate hmarked]

/-- A conversation of the id may stand in a list beside those that have the account. -/
def Agrees (host : FrontierHost) (id : String) (account : PeriodAccount String PhysicalActivityCounters)
    (conversation : Conversation) : Prop :=
  conversation.id = id → conversation.metadata.get workStateField ≠ none →
    (conversation.workState host).map (·.account) = some account

theorem hasAccount_merge (h : HasAccount host items id (some account)) (hitem : Agrees host id account item) :
    HasAccount host (mergeConversation host items item) id (some account) := by
  obtain ⟨⟨found, hfound, hid⟩, haccount⟩ := h
  unfold mergeConversation
  split
  · exact ⟨⟨found, hfound, hid⟩, haccount⟩
  split
  · refine ⟨⟨_, List.mem_map_of_mem hfound, ?_⟩, fun conversation hconversation hsame => ?_⟩
    · split
      case isTrue heq => exact (choosePreferred_id heq).trans (heq.symm.trans hid)
      case isFalse => exact hid
    · obtain ⟨existing, hexisting, rfl⟩ := List.mem_map.1 hconversation
      split at hsame
      case isTrue heq =>
        rw [if_pos heq]
        have hitemId : item.id = id := (choosePreferred_id heq).symm.trans hsame
        exact account_choosePreferred (haccount existing hexisting (heq.trans hitemId)) (hitem hitemId)
      case isFalse hne =>
        rw [if_neg hne]
        exact haccount existing hexisting hsame
  case isFalse hnew =>
    refine ⟨⟨found, List.mem_append_left _ hfound, hid⟩, fun conversation hconversation hsame => ?_⟩
    rcases List.mem_append.1 hconversation with hmem | hmem
    · exact haccount conversation hmem hsame
    · -- the item would be a new conversation, but that of the id is there
      rw [List.mem_singleton.1 hmem] at hsame
      exact absurd (List.any_eq_true.2 ⟨found, hfound, by simp [hid, hsame]⟩) hnew

theorem hasAccount_mergeAll {list : List Conversation} (h : HasAccount host items id (some account))
    (hlist : ∀ item ∈ list, Agrees host id account item) :
    HasAccount host (list.foldl (mergeConversation host) items) id (some account) := by
  induction list generalizing items with
  | nil => exact h
  | cons item rest ih =>
    exact ih (hasAccount_merge h (hlist item List.mem_cons_self)) fun other hother =>
      hlist other (List.mem_cons_of_mem _ hother)

theorem absent_merge (h : ∀ conversation ∈ items, conversation.id ≠ id) (hitem : item.id ≠ id) :
    ∀ conversation ∈ mergeConversation host items item, conversation.id ≠ id := by
  intro conversation hconversation
  unfold mergeConversation at hconversation
  split at hconversation
  · exact h conversation hconversation
  split at hconversation
  · obtain ⟨existing, hexisting, rfl⟩ := List.mem_map.1 hconversation
    split
    case isTrue heq => exact (choosePreferred_id heq).symm ▸ hitem
    case isFalse => exact h existing hexisting
  · rcases List.mem_append.1 hconversation with hmem | hmem
    · exact h conversation hmem
    · exact (List.mem_singleton.1 hmem).symm ▸ hitem

theorem hasAccount_mergeFirst {list : List Conversation} (hid : id ≠ "")
    (habsent : ∀ conversation ∈ items, conversation.id ≠ id) (h : HasAccount host list id (some account)) :
    HasAccount host (list.foldl (mergeConversation host) items) id (some account) := by
  induction list generalizing items with
  | nil =>
    obtain ⟨⟨found, hfound, -⟩, -⟩ := h
    cases hfound
  | cons item rest ih =>
    obtain ⟨⟨found, hfound, hsame⟩, haccount⟩ := h
    rw [List.foldl_cons]
    by_cases heq : item.id = id
    · have hany : ¬items.any (·.id = item.id) = true := by
        simpa [heq] using habsent
      have hadded : mergeConversation host items item = items ++ [item] := by
        rw [mergeConversation, if_neg (heq ▸ hid), if_neg hany]
      rw [hadded]
      refine hasAccount_mergeAll ⟨⟨item, by simp, heq⟩, fun conversation hconversation hconv => ?_⟩
        fun other hother hotherId _ => haccount other (List.mem_cons_of_mem _ hother) hotherId
      rcases List.mem_append.1 hconversation with hmem | hmem
      · exact absurd hconv (habsent conversation hmem)
      · rw [List.mem_singleton.1 hmem]
        exact haccount item List.mem_cons_self heq
    · have hrest : found ∈ rest := (List.mem_cons.1 hfound).resolve_left fun h => heq (h ▸ hsame)
      exact ih (absent_merge habsent heq)
        ⟨⟨found, hrest, hsame⟩, fun other hother => haccount other (List.mem_cons_of_mem _ hother)⟩

/-- **A reading** keeps the account of a conversation. -/
theorem hasAccount_read {supplement : Supplement} {account : Option (PeriodAccount String PhysicalActivityCounters)}
    (hid : id ≠ "") (hbare : supplement.Bare) (h : HasAccount host items id account) :
    HasAccount host (mergeConversationLists host (items :: supplement.lists)) id account := by
  cases account with
  | none =>
    have hitems : Each host (fun other _ => other ≠ id) items := by
      intro conversation hconversation state hstate hsame
      rw [h conversation hconversation hsame] at hstate
      cases hstate
    intro conversation hconversation hsame
    cases hstate : conversation.workState host with
    | none => rfl
    | some state => exact absurd hsame (hitems.read supplement conversation hconversation state hstate)
  | some account =>
    rw [mergeConversationLists, List.flatten_cons, List.foldl_append]
    refine hasAccount_mergeAll (hasAccount_mergeFirst hid (fun _ hmem => absurd hmem List.not_mem_nil) h) ?_
    intro conversation hconversation _ hmarked
    obtain ⟨list, hlist, hmem⟩ := List.mem_flatten.1 hconversation
    exact absurd (hbare list hlist conversation hmem) hmarked

end Reading

/-! ## The calls -/

section Calls

variable {account : Option (PeriodAccount String PhysicalActivityCounters)} {items : List Conversation} {s : CacheState}
  {id : String}

theorem previousState_account (h : HasAccount host items id account) :
    (previousState host items id).map (·.account) = account := by
  unfold previousState
  cases hlast : lastWith Conversation.id items id with
  | none =>
    cases account with
    | none => rfl
    | some account =>
      obtain ⟨⟨found, hfound, hsame⟩, -⟩ := h
      unfold lastWith at hlast
      exact absurd (List.find?_eq_none.1 hlast found (List.mem_reverse.2 hfound)) (by simp [hsame])
  | some found =>
    obtain ⟨hmem, hsame⟩ := mem_of_lastWith hlast
    cases account with
    | none => rw [Option.bind_some, h found hmem hsame, Option.map_none]
    | some account => exact h.2 found hmem hsame

/-- **A snapshot** opens its epoch and charges the visit. -/
theorem hasAccount_annotate (record : PersistenceRecord) (h : HasAccount host items id account)
    (hpresent : ∃ conversation ∈ record.conversations, conversation.id = id) :
    HasAccount host (annotateSnapshotConversations host record (createProviderIndexEpoch host record) items) id
      (post account (.opening (record.epochId host) (record.activity host id))) := by
  obtain ⟨conversation, hconversation, hsame⟩ := hpresent
  refine ⟨?_, fun stored hstored hid => ?_⟩
  · obtain ⟨index, hindex⟩ := List.mem_iff_getElem?.1 hconversation
    have hmem : (conversation, index) ∈ record.conversations.zipIdx := List.mem_zipIdx_iff_getElem?.2 hindex
    exact ⟨_, List.mem_map_of_mem hmem, hsame⟩
  · obtain ⟨conversation, -, hstoredId, hstate⟩ := mem_annotate hstored
    rw [hstate, Option.map_some, account_reread, account_snapshotState, ← hstoredId, hid, previousState_account h]

theorem account_evidence (conversation : Conversation) (evidence : ConversationEvidence) :
    ((mergeConversationEvidence host conversation evidence).workState host).map (·.account) =
      ((conversation.workState host).map (·.account)).map
        (·.charge ((evidence.frontierState.map (·.activity)).getD 0)) := by
  rw [evidence_workState, Option.map_map, Option.map_map]
  exact congrArg (Option.map · _) (funext fun state => account_next evidence)

theorem account_updated (update : EvidenceUpdate) (conversation : Conversation) (hsame : conversation.id = id) :
    (Conversation.workState host (if conversation.id = update.id then
      mergeConversationEvidence host conversation update.evidence else conversation)).map (·.account) =
      ((conversation.workState host).map (·.account)).map (·.charge (update.activity id)) := by
  unfold EvidenceUpdate.activity
  by_cases heq : update.id = id
  · rw [if_pos (hsame.trans heq.symm), if_pos heq, account_evidence]
  · rw [if_neg fun h => heq (h.symm.trans hsame), if_neg heq, Option.map_map]
    exact congrArg (Option.map · _) (funext fun state => (charge_zero _).symm)

/-- **Evidence** charges what was resolved, to an account that is there. -/
theorem hasAccount_apply {update : EvidenceUpdate} {next : List Conversation} (h : HasAccount host items id account)
    (happly : update.apply host items = some next) :
    HasAccount host next id (post account (.entry (update.activity id))) := by
  unfold EvidenceUpdate.apply at happly
  split at happly
  · cases happly
    have hupdated : ∀ stored ∈ items.map fun conversation => if conversation.id = update.id then
        mergeConversationEvidence host conversation update.evidence else conversation, stored.id = id →
        ∃ conversation ∈ items, conversation.id = id ∧ (stored.workState host).map (·.account) =
          ((conversation.workState host).map (·.account)).map (·.charge (update.activity id)) := by
      intro stored hstored hid
      obtain ⟨conversation, hconversation, rfl⟩ := List.mem_map.1 hstored
      have hsame : conversation.id = id := by
        rw [← hid]
        split <;> simp
      exact ⟨conversation, hconversation, hsame, account_updated update conversation hsame⟩
    cases account with
    | none =>
      intro stored hstored hid
      obtain ⟨conversation, hconversation, hsame, haccount⟩ := hupdated stored hstored hid
      rw [h conversation hconversation hsame] at haccount
      exact Option.map_eq_none_iff.1 haccount
    | some account =>
      obtain ⟨⟨found, hfound, hsame⟩, hall⟩ := h
      refine ⟨⟨_, List.mem_map_of_mem hfound, ?_⟩, fun stored hstored hid => ?_⟩
      · split <;> simp [hsame]
      · obtain ⟨conversation, hconversation, hconversationId, haccount⟩ := hupdated stored hstored hid
        rw [haccount, hall conversation hconversation hconversationId]
        rfl
  case isFalse hnone =>
    obtain ⟨upsert, -, rfl⟩ := Option.map_eq_some_iff.1 happly
    have hadded : (mergeConversationEvidence host (update.added upsert) update.evidence).workState host = none := by
      rw [evidence_workState, workState_of_null rfl, Option.map_none]
    cases account with
    | none =>
      intro stored hstored hid
      rcases List.mem_append.1 hstored with hmem | hmem
      · exact h stored hmem hid
      · rw [List.mem_singleton.1 hmem, hadded]
    | some account =>
      obtain ⟨⟨found, hfound, hsame⟩, hall⟩ := h
      have hother : update.id ≠ id := fun heq =>
        hnone (List.any_eq_true.2 ⟨found, hfound, by simp [hsame, heq]⟩)
      have hactivity : update.activity id = 0 := if_neg hother
      rw [hactivity, post_entry_zero]
      refine ⟨⟨found, List.mem_append_left _ hfound, hsame⟩, fun stored hstored hid => ?_⟩
      rcases List.mem_append.1 hstored with hmem | hmem
      · exact hall stored hmem hid
      · rw [List.mem_singleton.1 hmem, mergeConversationEvidence_id] at hid
        exact absurd hid hother

/-- An update that finds nothing has nothing to charge. -/
theorem post_unmatched {update : EvidenceUpdate} (h : HasAccount host items id account)
    (happly : update.apply host items = none) : post account (.entry (update.activity id)) = account := by
  cases account with
  | none => rfl
  | some account =>
    obtain ⟨⟨found, hfound, hsame⟩, -⟩ := h
    unfold EvidenceUpdate.apply at happly
    split at happly
    · cases happly
    case isFalse hnone =>
      have hother : update.id ≠ id := fun heq =>
        hnone (List.any_eq_true.2 ⟨found, hfound, by simp [hsame, heq]⟩)
      have hactivity : update.activity id = 0 := if_neg hother
      rw [hactivity, post_entry_zero]

/-- An update that is done: it leaves the epoch alone. -/
theorem afterCall_evidence (host : FrontierHost) (s : CacheState) (update : EvidenceUpdate) (supplement : Supplement) :
    (afterCall host s (.evidence update supplement)).conversations = (if update.id = "" then s.conversations
      else (update.apply host (mergeConversationLists host (s.conversations :: supplement.lists))).getD
        s.conversations) ∧
    (afterCall host s (.evidence update supplement)).epoch = s.epoch := by
  by_cases hempty : update.id = ""
  · rw [if_pos hempty, afterCall, cacheCall, updateConversationEvidence, if_pos hempty]
    exact ⟨rfl, rfl⟩
  · rw [if_neg hempty, afterCall, cacheCall, updateConversationEvidence, if_neg hempty]
    cases happly : update.apply host (mergeConversationLists host (s.conversations :: supplement.lists)) with
    | none =>
      simp only [readConversations, look, Bind.bind, Script.bind, Script.run, id_eq, happly]
      exact ⟨rfl, rfl⟩
    | some next =>
      simp only [readConversations, look, change, Bind.bind, Script.bind, Script.run, id_eq, happly]
      exact ⟨rfl, rfl⟩

/-- **One call** makes its posting. -/
theorem counted_afterCall {call : CacheCall} (hid : id ≠ "") (h : Counted host s id account) (hbare : call.Bare)
    (hpresents : call.Presents id) : Counted host (afterCall host s call) id (post account (call.posting host id)) := by
  cases call with
  | snapshot record supplement =>
    exact ⟨hasAccount_annotate record (hasAccount_read hid hbare h.counters) hpresents,
      congrArg some (period_rolled account (record.epochId host)).symm⟩
  | evidence update supplement =>
    obtain ⟨hconversations, hepoch⟩ := afterCall_evidence host s update supplement
    refine ⟨?_, hepoch.trans (h.period.trans (post_entry_period account _).symm)⟩
    have hread := hasAccount_read hid hbare h.counters
    rw [hconversations, CacheCall.posting]
    split
    case isTrue hempty =>
      have hactivity : update.activity id = 0 := if_neg fun heq : update.id = id => hid (heq.symm.trans hempty)
      rw [hactivity, post_entry_zero]
      exact h.counters
    case isFalse =>
      cases happly : update.apply host (mergeConversationLists host (s.conversations :: supplement.lists)) with
      | none =>
        rw [post_unmatched hread happly]
        exact h.counters
      | some next => exact hasAccount_apply hread happly

/-- **Calls one after the other** make their postings. -/
theorem counted_afterCalls {calls : List CacheCall} (hid : id ≠ "") (h : Counted host s id account)
    (hbare : ∀ call ∈ calls, call.Bare) (hpresents : ∀ call ∈ calls, call.Presents id) :
    Counted host (afterCalls host s calls) id ((calls.map (·.posting host id)).foldl post account) := by
  induction calls generalizing s account with
  | nil => exact h
  | cons call rest ih =>
    have hcall := counted_afterCall hid h (hbare call List.mem_cons_self) (hpresents call List.mem_cons_self)
    exact ih hcall (fun other hother => hbare other (List.mem_cons_of_mem _ hother))
      fun other hother => hpresents other (List.mem_cons_of_mem _ hother)

theorem counted_fresh (hs : s.Fresh) (host : FrontierHost) (id : String) : Counted host s id none where
  counters conversation hconversation := by
    rw [hs.1] at hconversation
    cases hconversation
  period := hs.2.1

theorem Counted.account_eq (h : Counted host s id account) {stored : Conversation} {state : ConversationWorkState}
    (hstored : stored ∈ s.conversations) (hsame : stored.id = id) (hstate : stored.workState host = some state) :
    account = some state.account := by
  cases account with
  | none =>
    rw [h.counters stored hstored hsame] at hstate
    cases hstate
  | some account => rw [← h.counters.2 stored hstored hsame, hstate, Option.map_some]

end Calls

/-! ## Conservation -/

section Conservation

variable {calls : List CacheCall} {id : String} {s : CacheState}

theorem sum_postings (host : FrontierHost) (id : String) (calls : List CacheCall) :
    ((Posting.fromFirstOpening (calls.map (·.posting host id))).map Posting.amount).sum =
      ((fromFirstSnapshot calls).map (·.activity host id)).sum := by
  have hopening : (fun call : CacheCall => !(call.posting host id).isOpening) = fun call => !call.isSnapshot := by
    funext call
    cases call <;> rfl
  have hamount : (fun call : CacheCall => (call.posting host id).amount) = fun call => call.activity host id := by
    funext call
    cases call <;> rfl
  rw [Posting.fromFirstOpening, List.dropWhile_map, List.map_map, fromFirstSnapshot, ← hopening, ← hamount]
  rfl

theorem any_opening (host : FrontierHost) (id : String) (calls : List CacheCall) :
    (calls.map (·.posting host id)).any (·.isOpening) = calls.any (·.isSnapshot) := by
  rw [List.any_map]
  refine congrArg calls.any (funext fun call => ?_)
  cases call <;> rfl

theorem account_afterCalls (host : FrontierHost) (hs : s.Fresh) (hid : id ≠ "") (hbare : ∀ call ∈ calls, call.Bare)
    (hpresents : ∀ call ∈ calls, call.Presents id) : ∃ account, Counted host (afterCalls host s calls) id account ∧
      account.isSome = calls.any (·.isSnapshot) ∧
      (account.map (·.total)).getD 0 = ((fromFirstSnapshot calls).map (·.activity host id)).sum := by
  obtain ⟨htotal, hopened⟩ := total_posted (calls.map (·.posting host id))
  exact ⟨_, counted_afterCalls hid (counted_fresh hs host id) hbare hpresents,
    hopened.trans (any_opening host id calls), htotal.trans (sum_postings host id calls)⟩

/-- **Activity is conserved.** Whatever the epochs of the snapshots: once there was one, each version of the
conversation has counted the visits and the evidence since then, in this epoch or before; and another snapshot of the
epoch adds its visit, if it has one, to the counters of the epoch. -/
theorem activity_is_conserved (host : FrontierHost) (calls : List CacheCall) (id : String) (hs : s.Fresh)
    (hid : id ≠ "") (hbare : ∀ call ∈ calls, call.Bare) (hpresents : ∀ call ∈ calls, call.Presents id) :
    (∀ stored ∈ (afterCalls host s calls).conversations, stored.id = id →
      ∀ state, stored.workState host = some state → state.lifetimePhysicalActivity + state.physicalActivity =
        ((fromFirstSnapshot calls).map (·.activity host id)).sum) ∧
    (calls.any (·.isSnapshot) → (∃ stored ∈ (afterCalls host s calls).conversations, stored.id = id) ∧
      ∀ stored ∈ (afterCalls host s calls).conversations, stored.id = id → (stored.workState host).isSome) ∧
    ∀ record supplement, supplement.Bare → (∃ conversation ∈ record.conversations, conversation.id = id) →
      (afterCalls host s calls).epoch = some (record.epochId host) →
      ∀ stored ∈ (afterCalls host s calls).conversations, stored.id = id →
      ∀ state, stored.workState host = some state →
      ∀ again ∈ (afterCall host (afterCalls host s calls) (.snapshot record supplement)).conversations, again.id = id →
        ∃ next, again.workState host = some next ∧
          next.lifetimePhysicalActivity = state.lifetimePhysicalActivity ∧
          next.physicalActivity = state.physicalActivity + record.activity host id := by
  obtain ⟨account, hcounted, hsome, htotal⟩ := account_afterCalls host hs hid hbare hpresents
  refine ⟨fun stored hstored hsame state hstate => ?_, fun hsnapshot => ?_, ?_⟩
  · rw [← htotal, hcounted.account_eq hstored hsame hstate]
    rfl
  · obtain ⟨account, rfl⟩ := Option.isSome_iff_exists.1 (hsome.trans hsnapshot)
    refine ⟨hcounted.counters.1, fun stored hstored hsame => ?_⟩
    have haccount := hcounted.counters.2 stored hstored hsame
    cases hstate : stored.workState host with
    | none =>
      rw [hstate] at haccount
      cases haccount
    | some state => rfl
  · intro record supplement hbareSupplement hpresent hepoch stored hstored hsame state hstate again hagain hagainId
    obtain rfl := hcounted.account_eq hstored hsame hstate
    have hnext : Counted host (afterCall host (afterCalls host s calls) (.snapshot record supplement)) id _ :=
      counted_afterCall hid hcounted hbareSupplement hpresent
    have haccount := hnext.counters.2 again hagain hagainId
    -- the epoch is the one that the account has
    have hperiod : state.account.period = record.epochId host := Option.some.inj (hcounted.period.symm.trans hepoch)
    rw [rolled_same hperiod] at haccount
    obtain ⟨next, hnextState, heq⟩ := Option.map_eq_some_iff.1 haccount
    exact ⟨next, hnextState, congrArg PeriodAccount.lifetime heq, congrArg PeriodAccount.current heq⟩

end Conservation

/-! ## A visited conversation -/

def newCache : CacheState := ⟨[], none, []⟩

/-- A snapshot of the first day with a visit. -/
def visitedRecord : PersistenceRecord :=
  { sampleRecord "2026-01-01T00:00:00.000Z" "first" with
    visitBundles := [⟨"c", (sampleRecord "2026-01-01T00:00:00.000Z" "first").epochId sampleFrontierHost, some "detail",
      true, 1, 2, 0⟩] }

theorem complete_settled : FrontierOutcome.complete ≠ .pending := by decide

/-- Two assets of the conversation were downloaded. -/
def downloadedUpdate : EvidenceUpdate :=
  { sampleUpdate "" .available with evidence :=
    ⟨(sampleUpdate "" .available).evidence.surface,
      some ⟨.complete, .available, none, "2026-01-01T00:00:00.000Z", 2, 2, 0, complete_settled⟩⟩ }

/-- A visit, downloads, and a snapshot of the next day. -/
def sampleCalls : List CacheCall :=
  [.snapshot visitedRecord noSupplement, .evidence downloadedUpdate noSupplement,
    .snapshot (sampleRecord "2026-01-02T00:00:00.000Z" "second") noSupplement]

theorem noSupplement_bare : noSupplement.Bare := fun _ h => absurd h List.not_mem_nil

theorem sampleCalls_activity_conserved :
    ∃ stored ∈ (afterCalls sampleFrontierHost newCache sampleCalls).conversations, stored.id = "c" ∧
      ∃ state, stored.workState sampleFrontierHost = some state ∧
        state.lifetimePhysicalActivity + state.physicalActivity = ⟨1, 2, 0, 1, 2, 2, 0⟩ := by
  have hbare : ∀ call ∈ sampleCalls, call.Bare := by
    simp [sampleCalls, CacheCall.Bare, noSupplement_bare]
  have hpresents : ∀ call ∈ sampleCalls, call.Presents "c" := by
    simp [sampleCalls, CacheCall.Presents, visitedRecord, sampleRecord, sampleConversation]
  have hfresh : newCache.Fresh := ⟨rfl, rfl, rfl⟩
  obtain ⟨htotal, hthere, -⟩ :=
    activity_is_conserved sampleFrontierHost sampleCalls "c" hfresh (by decide) hbare hpresents
  obtain ⟨⟨stored, hstored, hsame⟩, hstates⟩ := hthere rfl
  obtain ⟨state, hstate⟩ := Option.isSome_iff_exists.1 (hstates stored hstored hsame)
  refine ⟨stored, hstored, hsame, state, hstate, ?_⟩
  rw [htotal stored hstored hsame state hstate]
  decide +kernel

/-- **A visit is counted again** when its snapshot is persisted again. -/
theorem visit_counted_again : ¬ ∀ (host : FrontierHost) (s : CacheState) (record : PersistenceRecord) (id : String),
    s.Fresh → (∃ conversation ∈ record.conversations, conversation.id = id) →
      ∀ stored ∈ (afterCalls host s [.snapshot record noSupplement]).conversations, stored.id = id →
      ∀ again ∈ (afterCalls host s [.snapshot record noSupplement, .snapshot record noSupplement]).conversations,
        again.id = id → (again.workState host).map (·.physicalActivity) =
          (stored.workState host).map (·.physicalActivity) := by
  intro h
  have hfirst : (afterCalls sampleFrontierHost newCache [.snapshot visitedRecord noSupplement]).conversations.map
      (fun stored => (stored.id, (stored.workState sampleFrontierHost).map (·.physicalActivity))) =
      [("c", some ⟨1, 2, 0, 1, 0, 0, 0⟩)] := by
    decide +kernel
  have hagain : (afterCalls sampleFrontierHost newCache
      [.snapshot visitedRecord noSupplement, .snapshot visitedRecord noSupplement]).conversations.map
      (fun stored => (stored.id, (stored.workState sampleFrontierHost).map (·.physicalActivity))) =
      [("c", some ⟨2, 4, 0, 2, 0, 0, 0⟩)] := by
    decide +kernel
  obtain ⟨stored, hstored, hfirstState⟩ := List.mem_map.1 (hfirst ▸ List.mem_singleton.2 rfl)
  obtain ⟨again, hagainStored, hagainState⟩ := List.mem_map.1 (hagain ▸ List.mem_singleton.2 rfl)
  have hsame := h sampleFrontierHost newCache visitedRecord "c" ⟨rfl, rfl, rfl⟩ ⟨_, List.mem_cons_self, rfl⟩
    stored hstored (congrArg Prod.fst hfirstState) again hagainStored (congrArg Prod.fst hagainState)
  have hcounters := (congrArg Prod.snd hagainState).symm.trans (hsame.trans (congrArg Prod.snd hfirstState))
  exact absurd hcounters (by decide)

end AuraCall.AccountMirror.Frontier
