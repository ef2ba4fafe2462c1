import AuraCall.Ledger.InteractionGovernor

/-!
# The reservations of an interaction governor

The governor keeps one active reservation, which it gives up before the ledger has settled it and overwrites when a
second interaction starts. A run leaks nothing as long as a reservation is only given up when the ledger no longer has it
as reserved or started (`GivesUpSettled`): then every live reservation is the active one, or in the hands of a call
(`Kept`), and when every call has returned and the governor is closed there is none.
-/

namespace AuraCall.Ledger

open TransitionSystem EventLoop
open Traffic (BrowserInteractionClass)

/-! ## Reservations across a call of the ledger -/

/-- The ledger has a record of the reservation. -/
def Present (ledger : InteractionLedger) (reservationId : String) : Prop :=
  ∃ record ∈ ledger.records, record.reservationId = reservationId

/-- The ledger has the reservation as reserved or started. -/
def LiveIn (ledger : InteractionLedger) (reservationId : String) : Prop :=
  ∃ record ∈ ledger.records, record.reservationId = reservationId ∧ Live record

instance (record : ProviderInteractionRecord) : Decidable (Live record) := inferInstanceAs (Decidable (_ ∨ _))

instance (ledger : InteractionLedger) (reservationId : String) : Decidable (LiveIn ledger reservationId) :=
  inferInstanceAs (Decidable (∃ record ∈ ledger.records, record.reservationId = reservationId ∧ Live record))

section Ledger

variable {table : CaseTable} {ledger ledger' : InteractionLedger} {reservationId : String} {now : IsoTime}

/-- Steps of records keep every record. -/
theorem Evolved.present (h : Evolved now ledger ledger') (hp : Present ledger reservationId) :
    Present ledger' reservationId := by
  obtain ⟨record, hm, hid⟩ := hp
  obtain ⟨record', hm', hs⟩ := h.image hm
  exact ⟨record', hm', hs.request.1.trans hid⟩

/-- Steps of records bring none to life. -/
theorem Evolved.liveIn (h : Evolved now ledger ledger') (hl : LiveIn ledger' reservationId) :
    LiveIn ledger reservationId := by
  obtain ⟨record', hm, hid, hlive⟩ := hl
  obtain ⟨record, hm', hs⟩ := h.source hm
  exact ⟨record, hm', hs.request.1.symm.trans hid, hs.live hlive⟩

/-- A call of the ledger keeps every record. -/
theorem perform_present (table : CaseTable) (call : Call) (hp : Present ledger reservationId) :
    Present (perform table call ledger).2 reservationId := by
  cases perform_effect table call ledger with
  | kept h =>
    obtain ⟨record, hm, hid⟩ := hp
    exact ⟨record, by rw [h]; exact hm, hid⟩
  | evolved now _ h => exact h.present hp
  | admitted input now new _ _ _ hvalues =>
    obtain ⟨record, hm, hid⟩ := (expireReservations_evolved now ledger).present hp
    refine ⟨record, ?_, hid⟩
    rw [KeyedMap.mem_def, hvalues]
    exact List.mem_append_left _ hm

/-- A call of the ledger brings no record to life that was there before. -/
theorem perform_liveIn (table : CaseTable) (call : Call) (hp : Present ledger reservationId)
    (hl : LiveIn (perform table call ledger).2 reservationId) : LiveIn ledger reservationId := by
  cases perform_effect table call ledger with
  | kept h =>
    obtain ⟨record, hm, hid, hlive⟩ := hl
    exact ⟨record, h ▸ hm, hid, hlive⟩
  | evolved now _ h => exact h.liveIn hl
  | admitted input now new _ _ hnew hvalues =>
    obtain ⟨record, hm, hid, hlive⟩ := hl
    rw [KeyedMap.mem_def, hvalues] at hm
    have hexpired := expireReservations_evolved now ledger
    rcases List.mem_append.1 hm with hm | hm
    · exact hexpired.liveIn ⟨record, hm, hid, hlive⟩
    · -- the new record has an identifier that no record had
      rw [List.mem_singleton.1 hm] at hid
      obtain ⟨other, hm', hid'⟩ := hexpired.present hp
      exact absurd (hid'.trans hid.symm) (hnew.fresh other hm')

/-- A reservation that is admitted is in the ledger. -/
theorem perform_admission {call : Call} {reservation : ProviderInteractionRecord}
    (h : (perform table call ledger).1 = .ok (.admission ⟨reservation, false⟩)) :
    Present (perform table call ledger).2 reservation.reservationId := by
  obtain ⟨createReservationId, operation⟩ := call
  cases operation with
  | reserve input =>
    simp only [perform] at h ⊢
    unfold reserve at h ⊢
    cases hn : normalizeScope table input.scope with
    | error stop => simp [hn, Except.map] at h
    | ok scope =>
      cases hp : (parseTime input.now "now" : Checked IsoTime) with
      | error stop => simp [hn, hp, Except.map] at h
      | ok now =>
        simp only [hn, hp] at h ⊢
        cases ha : checkAdmission createReservationId scope now input (expireReservations now ledger) with
        | error stop => simp [ha, Except.map] at h
        | ok admission =>
          simp only [ha, Except.map, Except.ok.injEq, Reply.admission.injEq] at h
          subst h
          exact ⟨reservation, KeyedMap.mem_set_self _ _, rfl⟩
  | _ =>
    simp only [perform] at h
    revert h
    generalize Prod.fst _ = out
    cases out <;> intro h <;> cases h

/-- A reservation that the ledger has settled is there, and no longer live. -/
theorem perform_settle {createReservationId : String} {input : SettleInput} {reply : Reply}
    (h : (perform table ⟨createReservationId, .settle input⟩ ledger).1 = .ok reply) :
    Present (perform table ⟨createReservationId, .settle input⟩ ledger).2 input.reservationId ∧
      ¬LiveIn (perform table ⟨createReservationId, .settle input⟩ ledger).2 input.reservationId := by
  simp only [perform, settle] at h ⊢
  cases ht : settling input ledger with
  | error stop => simp [ht, transit, Except.map] at h
  | ok transition =>
    simp only [settling, bind_eq_ok, orRefuse_eq_ok, pure_eq_ok] at ht
    obtain ⟨record, hg, _, _, settledAt, _, _, _, stopReason, _, rfl⟩ := ht
    obtain ⟨-, hid⟩ := KeyedMap.get?_eq_some.1 hg
    simp only [transit, InteractionLedger.appendEvent]
    refine ⟨⟨_, KeyedMap.mem_set_self _ _, hid⟩, ?_⟩
    rintro ⟨other, hm, hid', hlive⟩
    rcases KeyedMap.mem_set.1 hm with rfl | ⟨-, hne⟩
    · rcases hlive with hs | hs <;> cases hs
    · exact hne (hid'.trans hid.symm)

end Ledger

/-! ## Who has a reservation -/

/-- The reservation a call is about to start or to settle. -/
def InteractionPoint.holds : InteractionPoint → String → Prop
  | .reserving _ _ (.answered (.ok (.admission admission))), reservationId =>
    admission.reservation.reservationId = reservationId
  | .starting held _ _ _, reservationId => held = reservationId
  | .settling _ held _ _, reservationId => held = reservationId
  | _, _ => False

/-- The reservations that are given up when the await is answered so: where a call of the ledger rejects or refuses,
the one it was about, and where a start returns, the active one that is overwritten. -/
def InteractionPoint.givesUp (activeReservationId : Option String) : InteractionPoint → InteractionAnswer → List String
  | .reserving _ _ (.answered (.ok (.admission admission))), .error _ => [admission.reservation.reservationId]
  | .starting _ _ (.answered (.ok _)) _, .ok _ _ => activeReservationId.toList
  | .starting reservationId _ (.answered (.error _)) _, .ok _ _ => [reservationId]
  | .starting reservationId _ _ _, .error _ => [reservationId]
  | .settling _ reservationId _ (.answered (.error _)), .ok _ _ => [reservationId]
  | .settling _ reservationId _ _, .error _ => [reservationId]
  | _, _ => []

/-- A reservation is only given up when the ledger does not have it as reserved or started. -/
def GivesUpSettled (c : Config InteractionGovernorState InteractionPoint) :
    Turn InteractionGovernorCall InteractionAnswer → Prop
  | .answer index answer => ∀ point ∈ c.calls[index]?,
      ∀ reservationId ∈ point.givesUp c.shared.activeReservationId answer, ¬LiveIn c.shared.ledger reservationId
  | .call _ => True

instance (c : Config InteractionGovernorState InteractionPoint) (t : Turn InteractionGovernorCall InteractionAnswer) :
    Decidable (GivesUpSettled c t) := by
  unfold GivesUpSettled
  split <;> infer_instance

/-- A call that has returned. -/
def InteractionPoint.returned : InteractionPoint → Bool
  | .resolved | .rejected _ => true
  | _ => false

/-! ## What a turn does -/

/-- What is known of a call: which operation it has asked for, and what its answer has established. -/
def InteractionPoint.Sound (ledger : InteractionLedger) : InteractionPoint → Prop
  | .settling _ reservationId operation stage =>
    (∃ input : SettleInput, operation = .settle input ∧ input.reservationId = reservationId) ∧
      ∀ reply, stage = .answered (.ok reply) → Present ledger reservationId ∧ ¬LiveIn ledger reservationId
  | .starting _ operation _ _ => ∃ input, operation = .start input
  | _ => True

/-- What a turn of a call at `point` does, when it gives up no live reservation. -/
structure TurnFacts (s : InteractionGovernorState) (point : InteractionPoint) (s' : InteractionGovernorState)
    (point' : InteractionPoint) : Prop where
  present : ∀ id, Present s.ledger id → Present s'.ledger id
  liveIn : ∀ id, Present s.ledger id → LiveIn s'.ledger id → LiveIn s.ledger id
  created : ∀ id ∈ s'.created, id ∈ s.created ∨ (Present s'.ledger id ∧ point'.holds id)
  kept : ∀ id, LiveIn s.ledger id → LiveIn s'.ledger id → s.activeReservationId = some id ∨ point.holds id →
    s'.activeReservationId = some id ∨ point'.holds id
  closed : (s.closed = true → s.activeReservationId = none) → s'.closed = true → s'.activeReservationId = none
  sound : point'.Sound s'.ledger

section Turn

variable {input : InteractionGovernorInput} {s s' : InteractionGovernorState} {point point' : InteractionPoint}

/-- A turn that leaves the ledger and the active reservation. -/
theorem TurnFacts.frame (hledger : s'.ledger = s.ledger) (hcreated : s'.created = s.created)
    (hactive : s'.activeReservationId = s.activeReservationId) (hclosed : s'.closed = s.closed)
    (hholds : ∀ id, LiveIn s.ledger id → point.holds id → point'.holds id) (hsound : point'.Sound s'.ledger) :
    TurnFacts s point s' point' where
  present id hp := hledger ▸ hp
  liveIn id _ hl := hledger ▸ hl
  created id hc := .inl (hcreated ▸ hc)
  kept id hl _ hkept := by
    rw [hactive]
    exact hkept.imp_right (hholds id hl)
  closed hinv hc := by
    rw [hactive]
    exact hinv (hclosed ▸ hc)
  sound := hsound

theorem finish_active {caller : FinishCaller} {settlement : InteractionSettlement} {nowMs : Int}
    (h : s.finish caller settlement nowMs = (s', point')) : s'.activeReservationId = none := by
  unfold InteractionGovernorState.finish at h
  split at h
  · rename_i hnone
    cases h
    exact hnone
  · cases h
    rfl

/-- `finish` hands the active reservation to the call. -/
theorem finish_facts {caller : FinishCaller} {settlement : InteractionSettlement} {nowMs : Int}
    (point : InteractionPoint) (h : s.finish caller settlement nowMs = (s', point')) (hholds : ∀ id, LiveIn s.ledger id → ¬point.holds id) :
    TurnFacts s point s' point' := by
  unfold InteractionGovernorState.finish at h
  cases ha : s.activeReservationId with
  | none =>
    rw [ha] at h
    cases h
    exact .frame rfl rfl rfl rfl (fun id hl hp => absurd hp (hholds id hl)) trivial
  | some active =>
    rw [ha] at h
    cases h
    refine ⟨fun _ hp => hp, fun _ _ hl => hl, fun _ hc => .inl hc, ?_, fun _ _ => rfl, ?_⟩
    · intro id hl _ hkept
      rcases hkept with hactive | hp
      · right
        rw [ha] at hactive
        cases hactive
        rfl
      · exact absurd hp (hholds id hl)
    · refine ⟨⟨_, rfl, rfl⟩, ?_⟩
      intro reply hstage
      cases hstage

/-- The ledger carries out a call of the governor. -/
theorem perform_facts (input : InteractionGovernorInput) (s : InteractionGovernorState) (createReservationId : String)
    (operation : Operation) {point' : InteractionPoint}
    (hholds : ∀ id, point.holds id → point'.holds id)
    (hnew : ∀ reservation, (perform input.table ⟨createReservationId, operation⟩ s.ledger).1 =
      .ok (.admission ⟨reservation, false⟩) → point'.holds reservation.reservationId)
    (hsound : point'.Sound (perform input.table ⟨createReservationId, operation⟩ s.ledger).2) :
    TurnFacts s point (s.perform input createReservationId operation).1 point' where
  present _ hp := perform_present _ _ hp
  liveIn _ hp hl := perform_liveIn _ _ hp hl
  created id hc := by
    rcases List.mem_append.1 hc with hc | hc
    · exact .inl hc
    · right
      split at hc
      · rename_i reservation hreply
        rw [List.mem_singleton.1 hc]
        exact ⟨perform_admission hreply, hnew reservation hreply⟩
      · cases hc
  kept _ _ _ hkept := hkept.imp_right (hholds _)
  closed hinv hc := hinv hc
  sound := hsound

/-- A call up to its first await, as a turn of a call that holds nothing. -/
theorem start_facts {call : InteractionGovernorCall} (h : s.start input call = some (s', point')) :
    TurnFacts s .resolved s' point' := by
  cases call with
  | beforeInteraction kind nowMs =>
    have h := Option.some.inj h
    split at h
    · cases h
      exact .frame rfl rfl rfl rfl (fun _ _ hp => hp) trivial
    · exact finish_facts _ h fun _ _ hp => hp
  | finish settlement nowMs => exact finish_facts _ (Option.some.inj h) fun _ _ hp => hp
  | close settlement nowMs =>
    have h := Option.some.inj h
    have hfacts : TurnFacts { s with closed := true } .resolved s' point' := finish_facts _ h fun _ _ hp => hp
    exact ⟨hfacts.present, hfacts.liveIn, hfacts.created, hfacts.kept, fun _ _ => finish_active h, hfacts.sound⟩
  | other call =>
    cases h
    exact ⟨fun _ hp => perform_present _ _ hp, fun _ hp hl => perform_liveIn _ _ hp hl, fun _ hc => .inl hc,
      fun _ _ _ hkept => hkept, fun hinv hc => hinv hc, trivial⟩

/-- A call that rejects gives up what it holds. -/
theorem rejected_facts (error : InteractionGovernorError) (h : ∀ id, point.holds id → ¬LiveIn s.ledger id) :
    TurnFacts s point s (.rejected error) :=
  .frame rfl rfl rfl rfl (fun id hl hp => absurd hl (h id hp)) trivial

/-- After a settlement has been answered, the reservation is settled or was given up. -/
theorem settling_facts {caller : FinishCaller} {reservationId : String} {operation : Operation} {stage : LedgerStage}
    {answer : InteractionAnswer} (hsound : (InteractionPoint.settling caller reservationId operation stage).Sound s.ledger)
    (hgives : ∀ id ∈ (InteractionPoint.settling caller reservationId operation stage).givesUp s.activeReservationId answer,
      ¬LiveIn s.ledger id)
    (h : s.resume input (.settling caller reservationId operation stage) answer = some (s', point')) :
    TurnFacts s (.settling caller reservationId operation stage) s' point' := by
  obtain ⟨⟨settle, hoperation, hid⟩, hsettled⟩ := hsound
  -- once the reservation is not live, the call may drop it
  have hdrop : ¬LiveIn s.ledger reservationId → ∀ point', point'.Sound s.ledger →
      TurnFacts s (.settling caller reservationId operation stage) s point' := by
    intro hn point' hs
    refine .frame rfl rfl rfl rfl ?_ hs
    rintro id hl rfl
    exact absurd hl hn
  cases answer with
  | perform createReservationId =>
    cases stage with
    | asked =>
      cases h
      refine perform_facts input s createReservationId operation (fun _ hp => hp) ?_ ?_
      · intro reservation hreply
        subst hoperation
        simp only [perform] at hreply
        revert hreply
        generalize (Ledger.settle settle s.ledger).1 = out
        cases out <;> intro hreply <;> cases hreply
      · refine ⟨⟨settle, hoperation, hid⟩, ?_⟩
        intro reply hstage
        cases hoperation
        rw [LedgerStage.answered.injEq] at hstage
        rw [← hid]
        exact perform_settle hstage
    | answered reply => cases h
  | ok nowMs timeLeft =>
    cases stage with
    | asked => cases h
    | answered reply =>
      cases h
      cases reply with
      | ok reply => exact hdrop (hsettled reply rfl).2 _ trivial
      | error stop =>
        have hn := hgives reservationId List.mem_cons_self
        rcases stop with refusal | message
        · cases refusal <;> exact hdrop hn _ trivial
        · exact hdrop hn _ trivial
  | aborted => cases stage <;> cases h
  | error message =>
    have hs : some (s, .rejected (.other message)) = some (s', point') := by cases stage <;> exact h
    cases hs
    have hn : ¬LiveIn s.ledger reservationId := by
      apply hgives
      rcases stage with _ | (_ | _) <;> exact List.mem_cons_self
    exact hdrop hn _ trivial

/-- After a start has been answered, the reservation is the active one, in the hands of `finish`, or was given up. -/
theorem starting_facts {reservationId : String} {operation : Operation} {stage : LedgerStage} {closing : Bool}
    {answer : InteractionAnswer} (hsound : (InteractionPoint.starting reservationId operation stage closing).Sound s.ledger)
    (hgives : ∀ id ∈ (InteractionPoint.starting reservationId operation stage closing).givesUp s.activeReservationId answer,
      ¬LiveIn s.ledger id)
    (h : s.resume input (.starting reservationId operation stage closing) answer = some (s', point')) :
    TurnFacts s (.starting reservationId operation stage closing) s' point' := by
  obtain ⟨start, hoperation⟩ := hsound
  have hdrop : ¬LiveIn s.ledger reservationId → ∀ error,
      TurnFacts s (.starting reservationId operation stage closing) s (.rejected error) := by
    intro hn error
    refine rejected_facts error ?_
    rintro id rfl
    exact hn
  cases answer with
  | perform createReservationId =>
    cases stage with
    | asked =>
      cases h
      refine perform_facts input s createReservationId operation (fun _ hp => hp) ?_ ⟨start, hoperation⟩
      intro reservation hreply
      subst hoperation
      simp only [perform] at hreply
      revert hreply
      generalize (Ledger.start start s.ledger).1 = out
      cases out <;> intro hreply <;> cases hreply
    | answered reply => cases h
  | ok nowMs timeLeft =>
    cases stage with
    | asked => cases h
    | answered reply =>
      have h := Option.some.inj h
      cases reply with
      | ok reply =>
        -- it becomes the active reservation, and what was active is not live
        have hactive : ∀ id, LiveIn s.ledger id → s.activeReservationId = some id ∨ reservationId = id →
            some reservationId = some id := by
          intro id hl hkept
          rcases hkept with ha | rfl
          · exact absurd hl (hgives id (by simp [InteractionPoint.givesUp, ha]))
          · rfl
        have hstarted : s.startAnswered reservationId closing nowMs (.ok reply) = (s', point') := h
        unfold InteractionGovernorState.startAnswered at hstarted
        dsimp only at hstarted
        split at hstarted
        · have hfacts := finish_facts .resolved hstarted fun _ _ hp => hp
          exact ⟨hfacts.present, hfacts.liveIn, hfacts.created,
            fun id hl hl' hkept => hfacts.kept id hl hl' (.inl (hactive id hl hkept)),
            fun _ _ => finish_active hstarted, hfacts.sound⟩
        · rename_i hopen
          cases hstarted
          refine ⟨fun _ hp => hp, fun _ _ hl => hl, fun _ hc => .inl hc,
            fun id hl _ hkept => .inl (hactive id hl hkept), ?_, trivial⟩
          intro _ hc
          have hclosed : s.closed = true := hc
          rw [hclosed, Bool.or_true] at hopen
          exact absurd rfl hopen
      | error stop =>
        have hn := hgives reservationId List.mem_cons_self
        rcases stop with refusal | message <;> cases h <;> exact hdrop hn _
  | aborted => cases stage <;> cases h
  | error message =>
    have hs : some (s, .rejected (.other message)) = some (s', point') := by cases stage <;> exact h
    cases hs
    have hn : ¬LiveIn s.ledger reservationId := by
      apply hgives
      rcases stage with _ | (_ | _) <;> exact List.mem_cons_self
    exact hdrop hn _


/-- After a reservation has been answered, it is about to be started, or was given up. -/
theorem reserving_facts {kind : BrowserInteractionClass} {operation : Operation} {stage : LedgerStage}
    {answer : InteractionAnswer}
    (hgives : ∀ id ∈ (InteractionPoint.reserving kind operation stage).givesUp s.activeReservationId answer,
      ¬LiveIn s.ledger id)
    (h : s.resume input (.reserving kind operation stage) answer = some (s', point')) :
    TurnFacts s (.reserving kind operation stage) s' point' := by
  cases answer with
  | perform createReservationId =>
    cases stage with
    | asked =>
      cases h
      refine perform_facts input s createReservationId operation (fun _ hp => absurd hp id) ?_ trivial
      intro reservation hreply
      show InteractionPoint.holds (.reserving kind operation (.answered _)) _
      rw [hreply]
      rfl
    | answered reply => cases h
  | ok nowMs timeLeft =>
    cases stage with
    | asked => cases h
    | answered reply =>
      have h := Option.some.inj h
      have hnothing : ∀ point', (∀ id, ¬(InteractionPoint.reserving kind operation (.answered reply)).holds id) →
          point'.Sound s.ledger → TurnFacts s (.reserving kind operation (.answered reply)) s point' :=
        fun point' hn hs => .frame rfl rfl rfl rfl (fun id _ hp => absurd hp (hn id)) hs
      rcases reply with (refusal | message) | reply
      · cases refusal with
        | admission reason warning =>
          have hr : s.reserveAnswered kind nowMs timeLeft (.error (.refused (.admission reason warning))) =
            (s', point') := h
          unfold InteractionGovernorState.reserveAnswered at hr
          cases hr
          refine hnothing _ (fun _ hp => hp) ?_
          split <;> trivial
        | notFound => cases h; exact hnothing _ (fun _ hp => hp) trivial
        | invalidState => cases h; exact hnothing _ (fun _ hp => hp) trivial
        | reservationExpired => cases h; exact hnothing _ (fun _ hp => hp) trivial
      · cases h
        exact hnothing _ (fun _ hp => hp) trivial
      · cases reply with
        | admission admission =>
          cases h
          exact .frame rfl rfl rfl rfl (fun _ _ hp => hp) ⟨_, rfl⟩
        | _ => cases h; exact hnothing _ (fun _ hp => hp) trivial
  | aborted => cases stage <;> cases h
  | error message =>
    have hs : some (s, .rejected (.other message)) = some (s', point') := by cases stage <;> exact h
    cases hs
    refine rejected_facts _ ?_
    intro id hp
    rcases stage with _ | (_ | reply)
    · exact absurd hp fun h => h
    · exact absurd hp fun h => h
    · cases reply with
      | admission admission =>
        cases hp
        exact hgives _ List.mem_cons_self
      | _ => exact absurd hp fun h => h

/-- **What every turn of a call does**, when it gives up no live reservation. -/
theorem resume_facts {answer : InteractionAnswer} (hsound : point.Sound s.ledger)
    (hgives : ∀ id ∈ point.givesUp s.activeReservationId answer, ¬LiveIn s.ledger id)
    (h : s.resume input point answer = some (s', point')) : TurnFacts s point s' point' := by
  -- the other points hold nothing, and leave the ledger and the active reservation
  have hframe : ∀ t : InteractionGovernorState, t.ledger = s.ledger → t.created = s.created →
      t.activeReservationId = s.activeReservationId → t.closed = s.closed → (∀ id, ¬point.holds id) →
      ∀ point', point'.Sound t.ledger → TurnFacts s point t point' :=
    fun t hl hc ha hcl hn point' hs => .frame hl hc ha hcl (fun id _ hp => absurd hp (hn id)) hs
  cases point with
  | settling caller reservationId operation stage => exact settling_facts hsound hgives h
  | reserving kind operation stage => exact reserving_facts hgives h
  | starting reservationId operation stage closing => exact starting_facts hsound hgives h
  | listing reservationId =>
    cases answer with
    | ok nowMs timeLeft =>
      simp only [InteractionGovernorState.resume] at h
      split at h <;> cases h <;> exact hframe _ rfl rfl rfl rfl (fun _ hp => hp) _ trivial
    | error message => cases h; exact hframe _ rfl rfl rfl rfl (fun _ hp => hp) _ trivial
    | _ => cases h
  | finished caller =>
    cases answer with
    | ok nowMs timeLeft =>
      cases caller with
      | before kind => cases h; exact hframe (s.tick nowMs) rfl rfl rfl rfl (fun _ hp => hp) _ trivial
      | itself => cases h; exact hframe s rfl rfl rfl rfl (fun _ hp => hp) _ trivial
      | closing => cases h; exact hframe s rfl rfl rfl rfl (fun _ hp => hp) _ trivial
    | _ => cases h
  | pacing kind =>
    cases answer with
    | ok nowMs timeLeft =>
      have h := Option.some.inj h
      split at h <;> cases h <;> exact hframe _ rfl rfl rfl rfl (fun _ hp => hp) _ trivial
    | aborted => cases h; exact hframe _ rfl rfl rfl rfl (fun _ hp => hp) _ trivial
    | error message => cases h; exact hframe _ rfl rfl rfl rfl (fun _ hp => hp) _ trivial
    | perform _ => cases h
  | admissionWarning kind =>
    cases answer with
    | ok nowMs timeLeft =>
      simp only [InteractionGovernorState.resume] at h
      split at h
      · cases h
        exact hframe s rfl rfl rfl rfl (fun _ hp => hp) _ trivial
      · cases h
        exact hframe (s.tick nowMs) rfl rfl rfl rfl (fun _ hp => hp) _ trivial
    | error message => cases h; exact hframe _ rfl rfl rfl rfl (fun _ hp => hp) _ trivial
    | _ => cases h
  | assertAdmission kind =>
    cases answer with
    | ok nowMs timeLeft => cases h; exact hframe (s.tick nowMs) rfl rfl rfl rfl (fun _ hp => hp) _ trivial
    | error message => cases h; exact hframe s rfl rfl rfl rfl (fun _ hp => hp) _ trivial
    | _ => cases h
  | paceWarning kind => cases answer <;> cases h <;> exact hframe s rfl rfl rfl rfl (fun _ hp => hp) _ trivial
  | waiting kind => cases answer <;> cases h <;> exact hframe s rfl rfl rfl rfl (fun _ hp => hp) _ trivial
  | resolved => cases answer <;> cases h
  | rejected error => cases answer <;> cases h

end Turn

/-! ## The invariant -/

/-- Every live reservation that the governor has created is the active one, or in the hands of a call. -/
structure Kept (c : Config InteractionGovernorState InteractionPoint) : Prop where
  present : ∀ id ∈ c.shared.created, Present c.shared.ledger id
  kept : ∀ id ∈ c.shared.created, LiveIn c.shared.ledger id →
    c.shared.activeReservationId = some id ∨ ∃ point ∈ c.calls, point.holds id
  closed : c.shared.closed = true → c.shared.activeReservationId = none
  sound : ∀ point ∈ c.calls, point.Sound c.shared.ledger

/-- What is known of a call stays known. -/
theorem TurnFacts.stable {s s' : InteractionGovernorState} {point point' other : InteractionPoint}
    (h : TurnFacts s point s' point') (ho : other.Sound s.ledger) : other.Sound s'.ledger := by
  cases other with
  | settling caller reservationId operation stage =>
    refine ⟨ho.1, ?_⟩
    intro reply hstage
    obtain ⟨hp, hn⟩ := ho.2 reply hstage
    exact ⟨h.present _ hp, fun hl => hn (h.liveIn _ hp hl)⟩
  | starting => exact ho
  | _ => trivial

/-- A turn keeps the invariant: `others` are the calls that do not move. -/
theorem Kept.turn {c : Config InteractionGovernorState InteractionPoint} {s' : InteractionGovernorState}
    {point : InteractionPoint} {calls' : List InteractionPoint} (hc : Kept c) (point' : InteractionPoint)
    (others : List InteractionPoint)
    (hcalls : ∀ q ∈ c.calls, q = point ∨ q ∈ others) (hothers : ∀ q ∈ others, q ∈ c.calls)
    (hcalls' : ∀ q, q ∈ calls' ↔ q = point' ∨ q ∈ others) (h : TurnFacts c.shared point s' point') :
    Kept ⟨s', calls'⟩ where
  present id hid := by
    rcases h.created id hid with hid | ⟨hp, -⟩
    · exact h.present id (hc.present id hid)
    · exact hp
  kept id hid hl := by
    rcases h.created id hid with hid | ⟨-, hp⟩
    · have hlive := h.liveIn id (hc.present id hid) hl
      have hmoves : c.shared.activeReservationId = some id ∨ point.holds id →
          s'.activeReservationId = some id ∨ ∃ q ∈ calls', q.holds id :=
        fun hkept => (h.kept id hlive hl hkept).imp_right fun hp => ⟨point', (hcalls' _).2 (.inl rfl), hp⟩
      rcases hc.kept id hid hlive with ha | ⟨q, hq, hholds⟩
      · exact hmoves (.inl ha)
      · rcases hcalls q hq with rfl | hq
        · exact hmoves (.inr hholds)
        · exact .inr ⟨q, (hcalls' q).2 (.inr hq), hholds⟩
    · exact .inr ⟨point', (hcalls' _).2 (.inl rfl), hp⟩
  closed := h.closed hc.closed
  sound q hq := by
    rcases (hcalls' q).1 hq with rfl | hq
    · exact h.sound
    · exact h.stable (hc.sound q (hothers q hq))

theorem kept_of_reachable {input : InteractionGovernorInput} {c : Config InteractionGovernorState InteractionPoint}
    (h : ((interactionGovernorSystem input).restrict GivesUpSettled).Reachable c) : Kept c := by
  apply h.invariant
  · rintro ⟨s, calls⟩ ⟨⟨ledger, rfl⟩, rfl⟩
    exact ⟨fun _ hid => absurd hid List.not_mem_nil, fun _ hid => absurd hid List.not_mem_nil, fun _ => rfl,
      fun _ hq => absurd hq List.not_mem_nil⟩
  · rintro c t c' - hc ⟨hok, hturn⟩
    cases takes_of_turn hturn with
    | @call call shared point hs =>
      -- a call that is made is a call at a point that holds nothing
      have hfacts := start_facts hs
      refine hc.turn point c.calls (fun q hq => .inr hq) (fun q hq => hq) ?_ hfacts
      intro q
      simp [or_comm]
    | @answer before after point point' answer shared hsplit hr =>
      have hgives : ∀ id ∈ point.givesUp c.shared.activeReservationId answer, ¬LiveIn c.shared.ledger id :=
        hok point (by simp [hsplit])
      have hfacts := resume_facts (hc.sound point (by simp [hsplit])) hgives hr
      refine hc.turn point' (before ++ after) ?_ ?_ ?_ hfacts
      · intro q hq
        rw [hsplit] at hq
        simp only [List.mem_append, List.mem_cons] at hq ⊢
        tauto
      · intro q hq
        rw [hsplit]
        simp only [List.mem_append, List.mem_cons] at hq ⊢
        tauto
      · intro q
        simp only [List.mem_append, List.mem_cons]
        tauto

/-- **No leaked reservation.** In every run in which a reservation is given up only when the ledger no longer has it as
reserved or started, once the governor is closed and every call has returned, every reservation it has created is
settled, abandoned or frozen. -/
theorem no_leaked_reservation {input : InteractionGovernorInput}
    {c : Config InteractionGovernorState InteractionPoint}
    (h : ((interactionGovernorSystem input).restrict GivesUpSettled).Reachable c) (hclosed : c.shared.closed = true)
    (hreturned : ∀ point ∈ c.calls, point.returned = true) :
    ∀ id ∈ c.shared.created, ∃ record ∈ c.shared.ledger.records, record.reservationId = id ∧
      (record.state = .settled ∨ record.state = .abandoned ∨ record.state = .frozen) := by
  have hc := kept_of_reachable h
  intro id hid
  obtain ⟨record, hm, hrecord⟩ := hc.present id hid
  refine ⟨record, hm, hrecord, ?_⟩
  have hlive : ¬Live record := by
    intro hlive
    rcases hc.kept id hid ⟨record, hm, hrecord, hlive⟩ with ha | ⟨point, hp, hholds⟩
    · rw [hc.closed hclosed] at ha
      cases ha
    · have hr := hreturned point hp
      cases point with
      | resolved => exact hholds
      | rejected error => exact hholds
      | _ => cases hr
  unfold Live at hlive
  cases hs : record.state <;> simp_all

/-! ## Overlapping interactions -/

/-- A governor of the sample account, without limits. -/
def sampleGovernor : InteractionGovernorInput :=
  { table := .lowered, scope := sampleScope, workloadId := "workload", operationId := "operation", tabLeaseId := "lease"
    policy := ⟨none, none, none, none, none⟩ }

/-- The settlement of an interaction that has succeeded. -/
def succeeded : InteractionSettlement := { notInFlight := fun h => by cases h }

/-- The turns of an interaction up to its reservation. -/
def admissionTurns (index : Nat) : List (Turn InteractionGovernorCall InteractionAnswer) :=
  List.replicate 5 (.answer index (.ok 1000 true))

/-- The turns of its reservation and its start. -/
def startTurns (index : Nat) (reservationId : String) : List (Turn InteractionGovernorCall InteractionAnswer) :=
  [.answer index (.perform reservationId), .answer index (.ok 1000 true), .answer index (.perform ""),
    .answer index (.ok 1000 true)]

/-- The turns of a settlement. -/
def settleTurns (index : Nat) : List (Turn InteractionGovernorCall InteractionAnswer) :=
  [.answer index (.perform ""), .answer index (.ok 2000 true), .answer index (.ok 2000 true)]

/-- Two interactions overlap, both start, and the governor is closed. -/
def overlappingInteractions : Config InteractionGovernorState InteractionPoint :=
  (execute (interactionGovernor sampleGovernor).turn ⟨{ ledger := .empty }, []⟩
    ([.call (.beforeInteraction .generic 1000), .call (.beforeInteraction .generic 1000)] ++ admissionTurns 0 ++
      admissionTurns 1 ++ startTurns 0 "first" ++ startTurns 1 "second" ++ [.call (.close succeeded 2000)] ++
      settleTurns 2)).get (by decide +kernel)

/-- The first of them is left started. -/
theorem overlapping_interactions_leak : ¬∀ c, (interactionGovernorSystem sampleGovernor).Reachable c →
    c.shared.closed = true → (∀ point ∈ c.calls, point.returned = true) →
      ∀ id ∈ c.shared.created, ∃ record ∈ c.shared.ledger.records, record.reservationId = id ∧
        (record.state = .settled ∨ record.state = .abandoned ∨ record.state = .frozen) := by
  intro h
  have hreach : (interactionGovernorSystem sampleGovernor).Reachable overlappingInteractions :=
    reachable_execute (.init ⟨⟨_, rfl⟩, rfl⟩) (Option.some_get _).symm
  have hsettled := h overlappingInteractions hreach (by decide +kernel) (by decide +kernel) "first" (by decide +kernel)
  revert hsettled
  decide +kernel

/-- One interaction, and the governor is closed. -/
def closedInteraction : Config InteractionGovernorState InteractionPoint :=
  (execute (fun c t => if decide (GivesUpSettled c t) then (interactionGovernor sampleGovernor).turn c t else none)
    ⟨{ ledger := .empty }, []⟩
    ([.call (.beforeInteraction .generic 1000)] ++ admissionTurns 0 ++ startTurns 0 "first" ++
      [.call (.close succeeded 2000)] ++ settleTurns 1)).get (by decide +kernel)

/-- It is settled. -/
theorem closed_interaction_settled : closedInteraction.shared.created = ["first"] ∧
    ∀ id ∈ closedInteraction.shared.created, ∃ record ∈ closedInteraction.shared.ledger.records,
      record.reservationId = id ∧
        (record.state = .settled ∨ record.state = .abandoned ∨ record.state = .frozen) := by
  have hreach : ((interactionGovernorSystem sampleGovernor).restrict GivesUpSettled).Reachable closedInteraction :=
    reachable_execute_where (fun _ _ h => of_decide_eq_true h) (.init ⟨⟨_, rfl⟩, rfl⟩) (Option.some_get _).symm
  exact ⟨by decide +kernel, no_leaked_reservation hreach (by decide +kernel) (by decide +kernel)⟩

end AuraCall.Ledger
