import AuraCall.AccountMirror.ConversationCache
import AuraCall.Lib.AssocRecord

/-!
# Where the work states of a cache come from

Every work state of the document has the epoch of the snapshot that the document comes from, and says that the assets of
its conversation are unavailable only after an evidence update has reported so (`Recorded`). A reading keeps that, and
so do the rolling over of a snapshot and the evidence of an update: `recorded_of_read`, `recorded_annotate` and
`recorded_apply` say what each call does to the states, and `sound_of_reachable` puts the calls together.
-/

namespace AuraCall.AccountMirror.Frontier

open Script

variable {host : FrontierHost}

/-! ## Fields of merged records -/

section Records

variable {record update : JsonRecord} {key : String}

theorem get_of_not_mem (h : ∀ entry ∈ record, entry.1 ≠ key) : record.get key = none :=
  AssocRecord.lookup_of_not_mem h

@[simp] theorem get_mergeRecords : (mergeRecords record update).get key = (update.get key).or (record.get key) := by
  rw [mergeRecords, JsonRecord.get_append]
  unfold JsonRecord.get
  rw [AssocRecord.lookup_map record fun k value => (List.lookup k update).getD value,
    AssocRecord.lookup_filter update fun k => (List.lookup k record).isNone]
  cases List.lookup key record <;> cases List.lookup key update <;> rfl

theorem field_mergeRecords : field (mergeRecords record update) key = ((update.get key).or (record.get key)).getD .null := by
  rw [field, get_mergeRecords]

theorem field_mergeRecords_of_not_mem (h : ∀ entry ∈ update, entry.1 ≠ key) :
    field (mergeRecords record update) key = field record key := by
  rw [field_mergeRecords, get_of_not_mem h, Option.none_or, field]

/-- The work state is not one of the index fields, so it is that of the first version that has one. -/
theorem get_mergedMetadata (preferred fallback : JsonRecord) :
    (mergedMetadata host preferred fallback).get workStateField =
      (preferred.get workStateField).or (fallback.get workStateField) := by
  have hindex : ∀ entry ∈ indexFields.filterMap fun key =>
      ((newestConversationIndexMetadata host preferred fallback).get key).map fun value => (key, value),
      entry.1 ≠ workStateField := by
    intro entry hentry
    obtain ⟨key, hkey, hvalue⟩ := List.mem_filterMap.1 hentry
    obtain ⟨value, -, rfl⟩ := Option.map_eq_some_iff.1 hvalue
    simp only [indexFields, List.mem_cons, List.not_mem_nil, or_false] at hkey
    rcases hkey with rfl | rfl | rfl | rfl <;> simp [workStateField]
  rw [mergedMetadata, get_mergeRecords, get_of_not_mem hindex, Option.none_or, get_mergeRecords]

theorem field_mergedMetadata (preferred fallback : JsonRecord) :
    field (mergedMetadata host preferred fallback) workStateField = field preferred workStateField ∨
    field (mergedMetadata host preferred fallback) workStateField = field fallback workStateField := by
  rw [field, get_mergedMetadata]
  cases hget : preferred.get workStateField with
  | some value => exact .inl (by simp [field, hget])
  | none => exact .inr (by simp [field])

end Records

/-! ## Work states of the conversations -/

/-- What holds of every work state, with the id of its conversation. -/
def Each (host : FrontierHost) (P : String → ConversationWorkState → Prop) (items : List Conversation) : Prop :=
  ∀ conversation ∈ items, ∀ state, conversation.workState host = some state → P conversation.id state

section Reading

variable {P : String → ConversationWorkState → Prop} {items : List Conversation} {item : Conversation}

theorem workState_of_null {conversation : Conversation} (h : field conversation.metadata workStateField = .null) :
    conversation.workState host = none := by
  rw [Conversation.workState, h]
  rfl

theorem withFallback_workState {preferred fallback : Conversation} {state : ConversationWorkState}
    (h : (withFallback host preferred fallback).workState host = some state) :
    preferred.workState host = some state ∨ fallback.workState host = some state := by
  unfold Conversation.workState withFallback at *
  rcases field_mergedMetadata preferred.metadata fallback.metadata with heq | heq
  · exact .inl (heq ▸ h)
  · exact .inr (heq ▸ h)

/-- The better version of a conversation has the work state of one of the versions. -/
theorem choosePreferred_workState {existing candidate : Conversation} {state : ConversationWorkState}
    (h : (choosePreferredConversation host (some existing) candidate).workState host = some state) :
    existing.workState host = some state ∨ candidate.workState host = some state := by
  unfold choosePreferredConversation at h
  dsimp only at h
  split at h
  · exact (withFallback_workState h).symm
  · exact withFallback_workState h
  · unfold Conversation.workState at *
    rcases field_mergedMetadata candidate.metadata existing.metadata with heq | heq
    · exact .inr (heq ▸ h)
    · exact .inl (heq ▸ h)

theorem choosePreferred_id {existing candidate : Conversation} (h : existing.id = candidate.id) :
    (choosePreferredConversation host (some existing) candidate).id = candidate.id := by
  unfold choosePreferredConversation
  dsimp only
  split
  · rfl
  · exact h
  · rfl

theorem Each.merge (hitems : Each host P items) (hitem : Each host P [item]) :
    Each host P (mergeConversation host items item) := by
  unfold mergeConversation
  split
  · exact hitems
  split
  · intro conversation hconversation state hstate
    obtain ⟨existing, hexisting, rfl⟩ := List.mem_map.1 hconversation
    split at hstate
    case isTrue hid =>
      rw [if_pos hid, choosePreferred_id hid]
      rcases choosePreferred_workState hstate with h | h
      · exact hid ▸ hitems existing hexisting state h
      · exact hitem item List.mem_cons_self state h
    case isFalse hid =>
      rw [if_neg hid]
      exact hitems existing hexisting state hstate
  · intro conversation hconversation
    rcases List.mem_append.1 hconversation with h | h
    · exact hitems conversation h
    · exact hitem conversation h

theorem Each.mergeAll {list : List Conversation} (hitems : Each host P items) (hlist : Each host P list) :
    Each host P (list.foldl (mergeConversation host) items) := by
  induction list generalizing items with
  | nil => exact hitems
  | cons item rest ih =>
    rw [List.foldl_cons]
    refine ih (hitems.merge fun conversation hc => hlist conversation ?_) fun conversation hc => hlist conversation ?_
    · exact List.mem_cons.2 (.inl (List.mem_singleton.1 hc))
    · exact List.mem_cons_of_mem _ hc

/-- **A reading** has the work states of the document. -/
theorem Each.read (h : Each host P items) (supplement : Supplement) :
    Each host P (mergeConversationLists host (items :: supplement.lists)) := by
  refine Each.mergeAll (fun _ hc => absurd hc List.not_mem_nil) fun conversation hconversation => ?_
  obtain ⟨list, hlist, hmem⟩ := List.mem_flatten.1 hconversation
  rcases List.mem_cons.1 hlist with rfl | hlist
  · exact h conversation hmem
  · intro state hstate
    rw [workState_of_null (supplement.plain list hlist conversation hmem)] at hstate
    cases hstate

end Reading

/-! ## What the calls make of a work state -/

section Calls

variable {P P' : String → ConversationWorkState → Prop} {items : List Conversation} {record : PersistenceRecord}
  {epoch : ProviderIndexEpoch} {conversation : Conversation} {update : EvidenceUpdate}

theorem mem_of_lastWith {α κ : Type} [DecidableEq κ] {key : α → κ} {items : List α} {k : κ} {item : α}
    (h : lastWith key items k = some item) : item ∈ items ∧ key item = k := by
  unfold lastWith at h
  have hkey := List.find?_some h
  exact ⟨List.mem_reverse.1 (List.mem_of_find?_eq_some h), by simpa using hkey⟩

/-- The state of a conversation that a snapshot rolls over. -/
def previousState (host : FrontierHost) (items : List Conversation) (id : String) : Option ConversationWorkState :=
  (lastWith Conversation.id items id).bind (·.workState host)

theorem rolledState_spec (host : FrontierHost) (epoch : ProviderIndexEpoch) (items : List Conversation)
    (conversation : Conversation) : (rolledState host epoch items conversation).epochId = epoch.epochId ∧
    (rolledState host epoch items conversation).assetAvailability =
      ((previousState host items conversation.id).map (·.assetAvailability)).getD .unknown ∧
    (rolledState host epoch items conversation).Named := by
  refine ⟨rfl, ?_, named_roll _ _ _⟩
  have hprevious : ∀ found : Option Conversation,
      normalizeAccountMirrorConversationWorkState host ((found.map (field ·.metadata workStateField)).getD .null) =
        found.bind (·.workState host) := fun found => by cases found <;> rfl
  rw [previousState, ← hprevious]
  rfl

/-- Whatever was visited or decided: a state of the epoch, with the availability that was there. -/
theorem snapshotState_spec (host : FrontierHost) (record : PersistenceRecord) (epoch : ProviderIndexEpoch)
    (items : List Conversation) (conversation : Conversation) :
    (snapshotState host record epoch items conversation).epochId = epoch.epochId ∧
    (snapshotState host record epoch items conversation).assetAvailability =
      ((previousState host items conversation.id).map (·.assetAvailability)).getD .unknown ∧
    (snapshotState host record epoch items conversation).Named := by
  obtain ⟨hepoch, havailability, hkey, hepochText, hindex⟩ := rolledState_spec host epoch items conversation
  unfold snapshotState
  dsimp only
  split
  · exact ⟨hepoch, havailability, hkey, hepochText, hindex⟩
  split
  · exact ⟨hepoch, havailability, hkey, hepochText, hindex⟩
  · exact ⟨hepoch, havailability, hkey, hepochText, hindex⟩

/-- **What a snapshot stores** of a conversation. -/
theorem mem_annotate {stored : Conversation} (h : stored ∈ annotateSnapshotConversations host record epoch items) :
    ∃ conversation ∈ record.conversations, stored.id = conversation.id ∧
      stored.workState host = some ((snapshotState host record epoch items conversation).reread host) := by
  obtain ⟨⟨conversation, index⟩, hmem, rfl⟩ := List.mem_map.1 h
  refine ⟨conversation, (List.mem_zipIdx' hmem).2 ▸ List.getElem_mem _, rfl, ?_⟩
  have hfield : ∀ others : JsonRecord, (∀ entry ∈ others, entry.1 ≠ workStateField) → ∀ value : Json,
      field (mergeRecords conversation.metadata (others ++ [(workStateField, value)])) workStateField = value := by
    intro others hothers value
    rw [field_mergeRecords, JsonRecord.get_append, get_of_not_mem hothers]
    simp
  rw [Conversation.workState, ← normalize_toJson (snapshotState_spec host record epoch items conversation).2.2]
  exact congrArg _ (hfield [_, _, _, _] (by simp [workStateField]) _)

@[simp] theorem mergeConversationEvidence_id (conversation : Conversation) (evidence : ConversationEvidence) :
    (mergeConversationEvidence host conversation evidence).id = conversation.id := by
  unfold mergeConversationEvidence
  dsimp only
  split <;> rfl

/-- The state that evidence leaves in place of another. -/
def ConversationEvidence.next (host : FrontierHost) (evidence : ConversationEvidence) (state : ConversationWorkState) :
    ConversationWorkState :=
  match evidence.frontierState with
  | none => state
  | some frontierState => (state.materialized frontierState).reread host

/-- **What an update stores** of a conversation. -/
theorem evidence_workState (conversation : Conversation) (evidence : ConversationEvidence) :
    (mergeConversationEvidence host conversation evidence).workState host =
      (conversation.workState host).map (evidence.next host) := by
  have hsurface : (Conversation.workState host
      { conversation with metadata := mergeRecords conversation.metadata evidence.surface.fields }) =
      conversation.workState host := by
    unfold Conversation.workState
    rw [field_mergeRecords_of_not_mem evidence.surface.surface]
  unfold mergeConversationEvidence ConversationEvidence.next
  cases hexisting : conversation.workState host with
  | none =>
    cases evidence.frontierState <;> exact hsurface.trans hexisting
  | some existing =>
    cases evidence.frontierState with
    | none => exact hsurface.trans hexisting
    | some frontierState =>
      have hnamed := named_of_normalize hexisting
      dsimp only
      rw [Conversation.workState, field_mergeRecords]
      simp only [JsonRecord.get_cons, if_true, Option.some_or, Option.getD_some]
      exact normalize_toJson ⟨hnamed.1, hnamed.2, hnamed.3⟩

theorem workState_evidence {evidence : ConversationEvidence} {state : ConversationWorkState}
    (h : (mergeConversationEvidence host conversation evidence).workState host = some state) :
    ∃ existing, conversation.workState host = some existing ∧
      ((evidence.frontierState = none ∧ state = existing) ∨
        ∃ frontierState, evidence.frontierState = some frontierState ∧
          state = (existing.materialized frontierState).reread host) := by
  rw [evidence_workState] at h
  obtain ⟨existing, hexisting, rfl⟩ := Option.map_eq_some_iff.1 h
  refine ⟨existing, hexisting, ?_⟩
  unfold ConversationEvidence.next
  cases evidence.frontierState with
  | none => exact .inl ⟨rfl, rfl⟩
  | some frontierState => exact .inr ⟨frontierState, rfl, rfl⟩

/-- An update leaves other conversations alone, and adds one without a work state. -/
theorem mem_apply {next : List Conversation} (h : update.apply host items = some next) {stored : Conversation}
    {state : ConversationWorkState} (hstored : stored ∈ next) (hstate : stored.workState host = some state) :
    (stored ∈ items) ∨ stored.id = update.id ∧ ∃ conversation ∈ items, conversation.id = update.id ∧
      stored = mergeConversationEvidence host conversation update.evidence := by
  unfold EvidenceUpdate.apply at h
  split at h
  · cases h
    obtain ⟨conversation, hconversation, rfl⟩ := List.mem_map.1 hstored
    split
    case isTrue hid =>
      exact .inr ⟨(mergeConversationEvidence_id ..).trans hid, conversation, hconversation, hid, rfl⟩
    case isFalse => exact .inl hconversation
  · obtain ⟨upsert, -, rfl⟩ := Option.map_eq_some_iff.1 h
    rcases List.mem_append.1 hstored with hmem | hmem
    · exact .inl hmem
    · rw [List.mem_singleton.1 hmem] at hstate
      obtain ⟨existing, hexisting, -⟩ := workState_evidence hstate
      rw [workState_of_null rfl] at hexisting
      cases hexisting

end Calls

/-! ## Runs -/

/-- An evidence update has reported that the assets of the conversation are unavailable. -/
def Reported (trace : List CacheEvent) (id : String) : Prop :=
  ∃ plannedEpoch marked read, .evidence id plannedEpoch (some .unavailable) marked read ∈ trace

/-- Where a work state comes from: from a snapshot of its epoch, and its availability from a report. -/
structure Recorded (epoch : Option String) (trace : List CacheEvent) (id : String) (state : ConversationWorkState) :
    Prop where
  epoch : epoch = some state.epochId
  reported : state.assetAvailability = .unavailable → Reported trace id

/-- What an update sets has the epoch of the document it has read. -/
def CacheEvent.Attributed : CacheEvent → Prop
  | snapshot _ => True
  | evidence _ _ _ marked read => ∀ epochId ∈ marked, read = some epochId

/-- Conversations with the epoch of the snapshot they come from. -/
structure KnownFrom (host : FrontierHost) (items : List Conversation) (epoch : Option String) (trace : List CacheEvent) :
    Prop where
  states : Each host (Recorded epoch trace) items
  written : ∀ epochId, epoch = some epochId → .snapshot epochId ∈ trace

structure SoundCache (host : FrontierHost) (s : CacheState) : Prop where
  known : KnownFrom host s.conversations s.epoch s.trace
  attributed : ∀ event ∈ s.trace, event.Attributed

/-- The trace goes on. -/
def CacheMoves (s s' : CacheState) : Prop := s.trace <+: s'.trace

section Runs

variable {items : List Conversation} {epoch : Option String} {trace trace' : List CacheEvent} {s s' : CacheState}

theorem Reported.mono {id : String} (h : Reported trace id) (ht : trace ⊆ trace') : Reported trace' id := by
  obtain ⟨plannedEpoch, marked, read, hmem⟩ := h
  exact ⟨plannedEpoch, marked, read, ht hmem⟩

theorem KnownFrom.mono (h : KnownFrom host items epoch trace) (ht : trace ⊆ trace') :
    KnownFrom host items epoch trace' :=
  ⟨fun conversation hc state hs =>
      ⟨(h.states conversation hc state hs).epoch, fun hu => ((h.states conversation hc state hs).reported hu).mono ht⟩,
    fun epochId he => ht (h.written epochId he)⟩

/-- **What a snapshot leaves.** -/
theorem sound_snapshot (hs : SoundCache host s) {record : PersistenceRecord} {newEpoch : ProviderIndexEpoch}
    (hitems : KnownFrom host items epoch s.trace) :
    SoundCache host ⟨annotateSnapshotConversations host record newEpoch items, some newEpoch.epochId,
      s.trace ++ [.snapshot newEpoch.epochId]⟩ := by
  have hmono : s.trace ⊆ s.trace ++ [.snapshot newEpoch.epochId] := List.subset_append_left _ _
  refine ⟨⟨fun stored hstored state hstate => ?_, fun epochId he => ?_⟩, fun event hevent => ?_⟩
  · obtain ⟨conversation, -, hid, hspec⟩ := mem_annotate hstored
    obtain rfl := Option.some.inj (hspec.symm.trans hstate)
    obtain ⟨hepoch, havailability, -⟩ := snapshotState_spec host record newEpoch items conversation
    refine ⟨congrArg some hepoch.symm, fun hunavailable => ?_⟩
    -- the availability is the one of the state that was rolled over
    have hold := havailability.symm.trans hunavailable
    cases hprevious : previousState host items conversation.id with
    | none =>
      rw [hprevious] at hold
      cases hold
    | some previous =>
      rw [hprevious] at hold
      obtain ⟨found, hfound, hstate'⟩ := Option.bind_eq_some_iff.1 hprevious
      obtain ⟨hmem, hkey⟩ := mem_of_lastWith hfound
      have hreported := (hitems.states found hmem previous hstate').reported hold
      rw [hid, ← hkey]
      exact hreported.mono hmono
  · cases he
    exact List.mem_append_right _ List.mem_cons_self
  · rcases List.mem_append.1 hevent with h | h
    · exact hs.attributed event h
    · rw [List.mem_singleton.1 h]
      trivial

/-- **What an update leaves.** -/
theorem sound_evidence (hs : SoundCache host s) {update : EvidenceUpdate} {next : List Conversation}
    (hitems : KnownFrom host items epoch s.trace) (happly : update.apply host items = some next) :
    SoundCache host ⟨next, epoch, s.trace ++ [update.event host items epoch]⟩ := by
  have hmono := List.subset_append_left s.trace [update.event host items epoch]
  refine ⟨⟨fun stored hstored state hstate => ?_, fun epochId he => hmono (hitems.written epochId he)⟩,
    fun event hevent => ?_⟩
  · rcases mem_apply happly hstored hstate with hmem | ⟨hid, conversation, hconversation, -, rfl⟩
    · exact (hitems.mono hmono).states stored hmem state hstate
    obtain ⟨existing, hexisting, ⟨hfrontier, rfl⟩ | ⟨frontierState, hfrontier, rfl⟩⟩ := workState_evidence hstate
    · have hrecorded := (hitems.mono hmono).states conversation hconversation state hexisting
      refine ⟨hrecorded.epoch, fun hunavailable => ?_⟩
      rw [mergeConversationEvidence_id]
      exact hrecorded.reported hunavailable
    · refine ⟨(hitems.states conversation hconversation existing hexisting).epoch, fun hunavailable => ?_⟩
      have hevent : update.event host items epoch = .evidence update.id update.plannedEpoch (some .unavailable)
          ((update.marked host items).map (·.epochId)) epoch := by
        have havailability : frontierState.assetAvailability = .unavailable := hunavailable
        rw [EvidenceUpdate.event, hfrontier, Option.map_some, havailability]
      rw [hid]
      exact ⟨_, _, _, List.mem_append_right _ (List.mem_singleton.2 hevent.symm)⟩
  · rcases List.mem_append.1 hevent with h | h
    · exact hs.attributed event h
    · rw [List.mem_singleton.1 h]
      intro epochId hepochId
      obtain ⟨state, hstate, rfl⟩ := List.mem_map.1 hepochId
      unfold EvidenceUpdate.marked at hstate
      split at hstate
      · obtain ⟨conversation, hconversation, hworkState⟩ := List.mem_filterMap.1 hstate
        exact (hitems.states conversation (List.mem_filter.1 hconversation).1 state hworkState).epoch
      · cases hstate

abbrev CacheRuns {α : Type} (host : FrontierHost) (Q : Except Unit α → CacheState → Prop) (p : CacheScript α)
    (s : CacheState) : Prop :=
  p.Safe (SoundCache host) CacheMoves CacheMoves Q s

theorem runs_writeOther {P : CacheState → Prop} (hP : ∀ {s s'}, CacheMoves s s' → P s → P s') (h : P s) :
    CacheRuns host (Answers fun _ => P) writeOther s :=
  fun _ hs hm => ⟨hs, List.prefix_refl _, hP hm h⟩

theorem runs_readConversations (supplement : Supplement) :
    CacheRuns host (Answers fun items s => KnownFrom host items.1 items.2 s.trace) (readConversations host supplement) s :=
  safe_look (fun _ => List.prefix_refl _) fun _ hs _ => ⟨hs.known.states.read supplement, hs.known.written⟩

theorem runs_writeSnapshot (record : PersistenceRecord) (supplement : Supplement) :
    CacheRuns host (Answers fun _ _ => True) (writeSnapshot host record supplement) s := by
  have hkept : ∀ {items epoch} {s s' : CacheState}, CacheMoves s s' → KnownFrom host items epoch s.trace →
      KnownFrom host items epoch s'.trace := fun hm h => h.mono hm.subset
  have hdone : ∀ {s : CacheState}, CacheRuns host (Answers fun _ _ => True) writeOther s :=
    runs_writeOther (fun _ h => h) trivial
  refine safe_answers (runs_readConversations supplement) fun items s₁ h₁ => ?_
  refine safe_answers (runs_writeOther hkept h₁) fun _ s₂ h₂ => ?_
  refine safe_answers (runs_writeOther hkept h₂) fun _ s₃ h₃ => ?_
  refine safe_answers (P := fun _ _ => True) ?_ fun _ _ _ => ?_
  · exact safe_change.2 fun s₄ hs₄ hm => ⟨sound_snapshot hs₄ (hkept hm h₃), List.prefix_append _ _, trivial⟩
  · exact safe_answers hdone fun _ _ _ => safe_answers hdone fun _ _ _ => hdone

theorem runs_updateConversationEvidence (update : EvidenceUpdate) (supplement : Supplement) :
    CacheRuns host (Answers fun _ _ => True) (updateConversationEvidence host update supplement) s := by
  unfold updateConversationEvidence
  split
  · trivial
  refine safe_answers (runs_readConversations supplement) fun ⟨items, epoch⟩ s₁ h₁ => ?_
  dsimp only
  split
  · trivial
  case h_2 next happly =>
    refine safe_answers (P := fun _ _ => True) (safe_change.2 fun s₂ hs₂ hm => ?_) fun _ _ _ => trivial
    exact ⟨sound_evidence hs₂ (h₁.mono hm.subset) happly, List.prefix_append _ _, trivial⟩

-- the comparisons of texts in a call are not to be evaluated
attribute [local irreducible] updateConversationEvidence

theorem cache_compatible : Threads.Compatible CacheState.Fresh (fun _ => cacheCall host)
    (fun _ (event : Empty) => event.elim) (SoundCache host) (fun _ => CacheMoves) (fun _ => CacheMoves)
    (fun _ _ => Answers fun _ _ => True) where
  refl _ _ := List.prefix_refl _
  trans h h' := h.trans h'
  init s hs := by
    obtain ⟨hconversations, hepoch, htrace⟩ := hs
    refine ⟨⟨fun conversation hc => ?_, fun epochId he => ?_⟩, fun event hevent => ?_⟩
    · rw [hconversations] at hc
      cases hc
    · rw [hepoch] at he
      cases he
    · rw [htrace] at hevent
      cases hevent
  outside {_ event _} _ _ := event.elim
  others _ _ h := h
  call _ input _ _ _ _ _ := by
    cases input with
    | snapshot record supplement => exact runs_writeSnapshot record supplement
    | evidence update supplement =>
      exact safe_answers (runs_updateConversationEvidence update supplement) fun _ _ _ => trivial

theorem soundCache_of_reachable {c : Threads CacheState Unit PUnit} (h : (cacheSystem host).Reachable c) :
    SoundCache host c.state :=
  (Threads.safe_of_reachable cache_compatible h).inv

end Runs

/-! ## A cache with one conversation -/

/-- A text between two marks has no space around it. -/
theorem isText_marked (text : String) : IsText ("sha256:" ++ text ++ ".") := by
  have htext : ("sha256:" ++ text ++ ".").toList = 's' :: ("ha256:".toList ++ text.toList ++ ['.']) := by
    rw [String.toList_append, String.toList_append]
    rfl
  refine ⟨?_, fun h => ?_⟩
  · unfold trim
    rw [htext, List.dropWhile_cons_of_neg (by decide), List.reverse_cons, List.reverse_append, List.reverse_singleton,
      List.cons_append, List.cons_append, List.dropWhile_cons_of_neg (by decide)]
    simp only [List.nil_append, List.reverse_cons, List.reverse_append, List.reverse_reverse, List.reverse_nil]
    rw [← String.toList_inj, String.toList_ofList, htext]
    simp
  · rw [h] at htext
    cases htext

/-- The strings of a value, one after the other. -/
def plainText : Json → String
  | .string text => text
  | .object fields => String.join (fields.filterMap fun entry => entry.2.string?)
  | _ => ""

/-- A host that reads the first days of a year. -/
def sampleFrontierHost : FrontierHost where
  fingerprint value := "sha256:" ++ plainText value ++ "."
  fingerprint_text value := isText_marked (plainText value)
  parseDate text :=
    if text = "2026-01-01T00:00:00.000Z" then some 1767225600000
    else if text = "2026-01-02T00:00:00.000Z" then some 1767312000000 else none
  isoString ms := if ms = 1767225600000 then "2026-01-01T00:00:00.000Z" else "2026-01-02T00:00:00.000Z"
  parseDate_isoString text ms h := by
    split at h
    · cases h
      decide
    split at h
    · cases h
      decide
    · cases h
  cases := .lowered
  preferCandidate _ _ := none

def sampleConversation (title : String) : Conversation := ⟨"c", title, .chatgpt, none, none, none, []⟩

def sampleRecord (completedAt title : String) : PersistenceRecord :=
  ⟨.chatgpt, "default", none, "account", completedAt, none, 0, [sampleConversation title], []⟩

def noSupplement : Supplement := ⟨[], fun _ h => absurd h List.not_mem_nil⟩

/-- Work on the conversation has ended, and has found its assets so. -/
def sampleUpdate (plannedEpoch : String) (assetAvailability : AssetAvailability) : EvidenceUpdate :=
  ⟨.chatgpt, "c", ⟨⟨[], fun _ h => absurd h List.not_mem_nil⟩, some ⟨.terminal, assetAvailability, none,
    "2026-01-01T00:00:00.000Z", 0, 0, 0, by decide⟩⟩, none, plannedEpoch⟩

/-- The calls one after the other, each to its end. -/
def callsInTurn (calls : List CacheCall) : Option (Threads CacheState Unit PUnit) :=
  TransitionSystem.execute (Threads.next (fun _ => cacheCall sampleFrontierHost) fun _ (event : Empty) => event.elim)
    ⟨⟨[], none, []⟩, []⟩
    (calls.zipIdx.flatMap fun (call, index) =>
      .start call :: List.replicate (match call with | .snapshot _ _ => 7 | .evidence _ _ => 2) (.act index))

theorem callsInTurn_reachable {calls : List CacheCall} {c : Threads CacheState Unit PUnit}
    (h : callsInTurn calls = some c) : (cacheSystem sampleFrontierHost).Reachable c :=
  TransitionSystem.reachable_execute (.init ⟨⟨rfl, rfl, rfl⟩, rfl⟩) h

end AuraCall.AccountMirror.Frontier
