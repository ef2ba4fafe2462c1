import AuraCall.Ledger.System

/-!
# The bound on concurrent chats

`reserve` counts the workloads of an account that have a live conversation record, not the records, and refuses at the
limit even a workload that is counted already. Every other step can only end the life of a record, so the bound is an
invariant of all runs under one policy.
-/

namespace AuraCall.Ledger

variable {ledger ledger' : InteractionLedger} {policy : ProviderInteractionPolicy}

theorem holdsChat_eq_true {account : String} {record : ProviderInteractionRecord} :
    holdsChat account record = true ↔
      record.account = account ∧ Live record ∧ reservesConversationSlot record.interactionClass = true := by
  simp [holdsChat, reservesConversationSlot, Live, and_assoc]

theorem mem_activeConversationWorkloads {account workloadId : String} :
    workloadId ∈ activeConversationWorkloads account ledger ↔
      ∃ record ∈ ledger.records, holdsChat account record = true ∧ record.workloadId = workloadId := by
  simp only [activeConversationWorkloads, List.mem_toFinset, List.mem_map, List.mem_filter, and_assoc, KeyedMap.mem_def]

/-- A step of a record takes no chat slot. -/
theorem RecordStep.holdsChat {now : IsoTime} {record record' : ProviderInteractionRecord} {account : String}
    (h : RecordStep now record record') (hc : holdsChat account record' = true) :
    Ledger.holdsChat account record = true ∧ record.workloadId = record'.workloadId := by
  obtain ⟨hscope, hwork, hclass, _, _⟩ := h.fixed
  obtain ⟨hacc, hlive, hslot⟩ := holdsChat_eq_true.1 hc
  refine ⟨holdsChat_eq_true.2 ⟨?_, h.live hlive, hclass ▸ hslot⟩, hwork.symm⟩
  rw [← hacc]
  exact congrArg aggregateScopeKey hscope.symm

/-- Steps of records leave no new workload with a chat. -/
theorem Evolved.workloads_subset {now : IsoTime} (h : Evolved now ledger ledger') (account : String) :
    activeConversationWorkloads account ledger' ⊆ activeConversationWorkloads account ledger := by
  intro workloadId hm
  obtain ⟨record', hm', hc, rfl⟩ := mem_activeConversationWorkloads.1 hm
  obtain ⟨record, hin, hs⟩ := h.source hm'
  obtain ⟨hold, hwork⟩ := hs.holdsChat hc
  exact mem_activeConversationWorkloads.2 ⟨record, hin, hold, hwork⟩

/-! ## The invariant -/

/-- No account has more workloads with a chat than `max`. -/
def ChatsBounded (max : Int) (ledger : InteractionLedger) : Prop :=
  ∀ account, ((activeConversationWorkloads account ledger).card : Int) ≤ max

theorem ChatsBounded.evolve {max : Int} {now : IsoTime} (h : ChatsBounded max ledger)
    (he : Evolved now ledger ledger') : ChatsBounded max ledger' := fun account => by
  have hcard := Finset.card_le_card (he.workloads_subset account)
  have := h account
  omega

/-- An admitted record takes a slot only below the limit. -/
theorem ChatsBounded.reserve {table : CaseTable} {max : Int} {now : IsoTime} {input : ReserveProviderInteractionInput}
    {new : ProviderInteractionRecord} (h : ChatsBounded max ledger) (ha : Admitted table input now ledger new)
    (hmax : normalizeLimit input.policy.maxConcurrentChats "maxConcurrentChats" = .ok (some max))
    (hv : ledger'.records.values = ledger.records.values ++ [new]) : ChatsBounded max ledger' := by
  intro account
  have hsub : ∀ w ∈ activeConversationWorkloads account ledger',
      w ∈ activeConversationWorkloads account ledger ∨ (holdsChat account new = true ∧ w = new.workloadId) := by
    intro w hw
    obtain ⟨record, hm, hc, rfl⟩ := mem_activeConversationWorkloads.1 hw
    rw [KeyedMap.mem_def, hv, List.mem_append, List.mem_singleton] at hm
    rcases hm with hm | rfl
    · exact .inl (mem_activeConversationWorkloads.2 ⟨record, hm, hc, rfl⟩)
    · exact .inr ⟨hc, rfl⟩
  by_cases hc : holdsChat account new = true
  · obtain ⟨hacc, _, hslot⟩ := holdsChat_eq_true.1 hc
    have hchats := ha.chats
    simp only [checkConcurrentChats, hmax, bind_eq_ok, Except.ok.injEq, exists_eq_left', refuseIf_eq_ok,
      ← ha.interactionClass, hslot, Bool.true_and, Option.any_some, decide_eq_false_iff_not, not_le, hacc] at hchats
    have hle : (activeConversationWorkloads account ledger').card ≤
        (insert new.workloadId (activeConversationWorkloads account ledger)).card := by
      refine Finset.card_le_card fun w hw => Finset.mem_insert.2 ?_
      rcases hsub w hw with hold | ⟨_, rfl⟩
      · exact .inr hold
      · exact .inl rfl
    have := Finset.card_insert_le new.workloadId (activeConversationWorkloads account ledger)
    omega
  · have hle := Finset.card_le_card fun w hw => (hsub w hw).resolve_right fun hn => hc hn.1
    have := h account
    omega

theorem reachable_chatsBounded {table : CaseTable} {max : Int}
    (hmax : normalizeLimit policy.maxConcurrentChats "maxConcurrentChats" = .ok (some max))
    (h : ((system table).restrict (UsesPolicy policy)).Reachable ledger) : ChatsBounded max ledger := by
  refine h.invariant ?_ fun ledger call ledger' _ hb hs => ?_
  · rintro _ rfl account
    have hempty : activeConversationWorkloads account .empty = ∅ := rfl
    have := normalizeLimit_nonneg hmax
    rw [hempty, Finset.card_empty]
    omega
  · obtain ⟨hpolicy, hstep⟩ := hs
    cases hstep
    cases perform_effect table call ledger with
    | kept hr => intro account; simpa only [activeConversationWorkloads, hr] using hb account
    | evolved now _ he => exact hb.evolve he
    | admitted input now new hop _ ha hv =>
      exact (hb.evolve (expireReservations_evolved now ledger)).reserve ha (hpolicy input hop ▸ hmax) hv

/-! ## The bound of an account -/

/-- The workloads of a provider and tenant with a reserved or started conversation start or continuation. -/
def chatWorkloads (provider tenantKey : String) (ledger : InteractionLedger) : Finset String :=
  ((ledger.records.values.filter fun record =>
    record.scope.provider == provider && record.scope.tenantKey == tenantKey &&
    (record.state == .reserved || record.state == .started) &&
    (record.interactionClass == .conversationStart || record.interactionClass == .promptContinuation)).map
      (·.workloadId)).toFinset

theorem chatWorkloads_subset (provider tenantKey : String) (ledger : InteractionLedger) :
    chatWorkloads provider tenantKey ledger ⊆ activeConversationWorkloads (aggregateKey provider tenantKey) ledger := by
  intro w hw
  simp only [chatWorkloads, List.mem_toFinset, List.mem_map, List.mem_filter, Bool.and_eq_true, beq_iff_eq] at hw
  obtain ⟨record, ⟨hm, ⟨⟨hp, ht⟩, hlive⟩, hclass⟩, rfl⟩ := hw
  refine mem_activeConversationWorkloads.2 ⟨record, hm, ?_, rfl⟩
  have hacc : record.account = aggregateKey provider tenantKey := by rw [← hp, ← ht]; rfl
  simp [holdsChat, hacc, hlive, hclass]

/-- **Under one policy, no provider and tenant ever has more workloads in a chat than `maxConcurrentChats`.** -/
theorem chats_bounded (table : CaseTable) (policy : ProviderInteractionPolicy) {max : Int}
    (hmax : normalizeLimit policy.maxConcurrentChats "maxConcurrentChats" = .ok (some max)) {ledger : InteractionLedger}
    (h : ((system table).restrict (UsesPolicy policy)).Reachable ledger) (provider tenantKey : String) :
    ((chatWorkloads provider tenantKey ledger).card : Int) ≤ max := by
  have hcard := Finset.card_le_card (chatWorkloads_subset provider tenantKey ledger)
  have := reachable_chatsBounded hmax h (aggregateKey provider tenantKey)
  omega

/-- One chat at a time. -/
def samplePolicy : ProviderInteractionPolicy := ⟨some (.finite 1), none, none, none, none⟩

/-- The second workload of the sample account is refused while the first one has its chat. -/
def sampleChats : InteractionLedger :=
  runCalls .lowered [sampleReserve samplePolicy "reservation-1" "workload-1" 0,
    sampleReserve samplePolicy "reservation-2" "workload-2" 1000] .empty

theorem sampleChats_bounded :
    chatWorkloads "chatgpt" "tenant" sampleChats = {"workload-1"} ∧
      ((chatWorkloads "chatgpt" "tenant" sampleChats).card : Int) ≤ 1 :=
  ⟨by decide, chats_bounded .lowered samplePolicy (by decide +kernel)
    (((runCalls_run _ _ _).restrict fun call hm _ input hop => by
      simp only [List.mem_cons, List.not_mem_nil, or_false] at hm
      rcases hm with rfl | rfl <;> (cases hop; rfl)).reachable (.init rfl)) "chatgpt" "tenant"⟩

end AuraCall.Ledger
