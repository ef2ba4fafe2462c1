import AuraCall.Lib.Transition
import AuraCall.Ledger.Operations

/-!
# Runs of the interaction ledger

`RecordStep` is the state machine of a record, and `Admitted` what the checks of `reserve` establish about a new one. A
call does nothing else to the records (`perform_effect`): it leaves them, moves some of them by steps at its own time,
or expires reservations and appends one record it has admitted.
-/

namespace AuraCall.Ledger

/-! ## Calls -/

inductive Operation
  | reserve (input : ReserveProviderInteractionInput)
  | bindTabLease (input : BindTabLeaseInput)
  | start (input : StartInput)
  | settle (input : SettleInput)
  | observePassive (input : ObservePassiveInput)
  | recordProviderWarning (input : RecordProviderWarningInput)
  | clearProviderWarning (input : ClearProviderWarningInput)
  | summarizeUsage (input : SummarizeUsageInput)
  | summarizeAggregateUsage (now : DateString)
  | summarizeBackendRequestUsage (input : SummarizeBackendRequestUsageInput)

/-- The time a call reports. -/
def Operation.time : Operation → DateString
  | .reserve input => input.now
  | .bindTabLease input => input.boundAt
  | .start input => input.startedAt
  | .settle input => input.settledAt
  | .observePassive input => input.observedAt
  | .recordProviderWarning input => input.observedAt
  | .clearProviderWarning input => input.clearedAt
  | .summarizeUsage input => input.now
  | .summarizeAggregateUsage now => now
  | .summarizeBackendRequestUsage input => input.now

/-- An operation with the reservation identifier its caller would give. -/
structure Call where
  createReservationId : String
  operation : Operation

/-- What a call returns. -/
inductive Reply
  | admission (admission : ProviderInteractionAdmission)
  | record (record : ProviderInteractionRecord)
  | event (event : ProviderInteractionEvent)
  | warned (warning : ProviderWarningRecord) (frozenReservationIds : List String)
  | cleared (previous warning : Option ProviderWarningRecord)
  | usage (summary : ProviderInteractionUsageSummary)
  | backendUsage (summary : ProviderBackendRequestUsageSummary)

/-- Run a call: its outcome, and the ledger it leaves. -/
def perform (table : CaseTable) (call : Call) (ledger : InteractionLedger) : Checked Reply × InteractionLedger :=
  match call.operation with
  | .reserve input =>
    let out := reserve table call.createReservationId input ledger
    (out.1.map .admission, out.2)
  | .bindTabLease input =>
    let out := bindTabLease input ledger
    (out.1.map .record, out.2)
  | .start input =>
    let out := start input ledger
    (out.1.map .record, out.2)
  | .settle input =>
    let out := settle input ledger
    (out.1.map .record, out.2)
  | .observePassive input =>
    let out := observePassive table input ledger
    (out.1.map .event, out.2)
  | .recordProviderWarning input =>
    let out := recordProviderWarning table input ledger
    (out.1.map fun result => .warned result.1 result.2, out.2)
  | .clearProviderWarning input =>
    let out := clearProviderWarning table input ledger
    (out.1.map fun result => .cleared result.1 result.2, out.2)
  | .summarizeUsage input =>
    let out := summarizeUsage table input ledger
    (out.1.map .usage, out.2)
  | .summarizeAggregateUsage now =>
    let out := summarizeAggregateUsage now ledger
    (out.1.map .usage, out.2)
  | .summarizeBackendRequestUsage input =>
    let out := summarizeBackendRequestUsage table input ledger
    (out.1.map .backendUsage, out.2)

theorem perform_reserve (table : CaseTable) (createReservationId : String) (input : ReserveProviderInteractionInput)
    (ledger : InteractionLedger) : (perform table ⟨createReservationId, .reserve input⟩ ledger).2 =
      (reserve table createReservationId input ledger).2 := by
  simp only [perform]

/-- All runs of the ledger. -/
def system (table : CaseTable) : TransitionSystem InteractionLedger Call :=
  .ofNext (· = .empty) fun ledger call => some (perform table call ledger).2

/-! ## The state machine of a record -/

/-- A record is reserved or started. -/
def Live (record : ProviderInteractionRecord) : Prop := record.state = .reserved ∨ record.state = .started

inductive RecordStep (now : IsoTime) : ProviderInteractionRecord → ProviderInteractionRecord → Prop
  | same (record : ProviderInteractionRecord) : RecordStep now record record
  | bind {record : ProviderInteractionRecord} (tabLeaseId : String) : Live record →
      RecordStep now record { record with tabLeaseId := some tabLeaseId }
  | start {record : ProviderInteractionRecord} : record.state = .reserved →
      now.ms ≤ record.reservationExpiresAt.ms →
      RecordStep now record { record with state := .started, effectState := .inFlight, startedAt := some now }
  | settle {record : ProviderInteractionRecord} (effectState : ProviderInteractionEffectState)
      (stopReason : Option String) (outcome : ProviderInteractionOutcome) : record.state = .started →
      (∀ startedAt, record.startedAt = some startedAt → startedAt.ms ≤ now.ms) →
      RecordStep now record { record with
        state := .settled, effectState, settledAt := some now, stopReason, outcome := some outcome }
  | abandon {record : ProviderInteractionRecord} : record.state = .reserved →
      record.reservationExpiresAt.ms ≤ now.ms →
      RecordStep now record { record with
        state := .abandoned, settledAt := some now, stopReason := some "reservation-expired" }
  | freeze {record : ProviderInteractionRecord} (classification : ProviderWarningClassification) (reason : String) :
      Live record →
      RecordStep now record { record with
        state := .frozen, effectState := if record.state = .started then .outcomeUnknown else record.effectState
        frozenAt := some now, providerWarning := some classification, stopReason := some reason }

/-- The records of a ledger after steps at one time. -/
def Evolved (now : IsoTime) (ledger ledger' : InteractionLedger) : Prop :=
  List.Forall₂ (RecordStep now) ledger.records.values ledger'.records.values

theorem expired_step (now : IsoTime) (record : ProviderInteractionRecord) :
    RecordStep now record ((expired now record).getD record) := by
  unfold expired
  split
  · exact .same record
  · rename_i h
    simp only [Bool.or_eq_true, bne_iff_ne, ne_eq, decide_eq_true_eq, not_or, not_not, not_lt] at h
    exact .abandon h.1 h.2

theorem frozen_step (warning : ProviderWarningRecord) (record : ProviderInteractionRecord) :
    RecordStep warning.observedAt record ((frozen warning record).getD record) := by
  unfold frozen
  split
  · exact .same record
  · rename_i h
    simp only [Bool.or_eq_true, Bool.and_eq_true, bne_iff_ne, ne_eq, not_or, not_and, not_not] at h
    have hlive : Live record := by
      by_cases hr : record.state = .reserved
      · exact .inl hr
      · exact .inr (h.2 hr)
    exact .freeze warning.classification warning.reason hlive

theorem expireReservations_evolved (now : IsoTime) (ledger : InteractionLedger) :
    Evolved now ledger (expireReservations now ledger) :=
  KeyedMap.forall₂_mapValues (expired_reservationId now) fun record _ => expired_step now record

theorem storeWarning_evolved (scope : ProviderInteractionScope) (warning : ProviderWarningRecord)
    (ledger : InteractionLedger) : Evolved warning.observedAt ledger (storeWarning scope warning ledger) :=
  KeyedMap.forall₂_mapValues (frozen_reservationId warning) fun record _ => frozen_step warning record

/-- Storing the step of one record. -/
theorem evolved_set {now : IsoTime} {ledger : InteractionLedger} {old new : ProviderInteractionRecord}
    (hm : old ∈ ledger.records) (hid : new.reservationId = old.reservationId) (hs : RecordStep now old new) :
    List.Forall₂ (RecordStep now) ledger.records.values (ledger.records.set new).values :=
  KeyedMap.forall₂_set .same hm hid hs

/-! ## Transitions -/

/-- What a decision says about its record is a step of the record. -/
inductive Transition.Sound (now : IsoTime) (ledger : InteractionLedger) : Transition → Prop
  | keep (record : ProviderInteractionRecord) : Sound now ledger (.keep record)
  | expire : Sound now ledger (.expire now)
  | abandon {old new : ProviderInteractionRecord} : old ∈ ledger.records → new.reservationId = old.reservationId →
      RecordStep now old new → Sound now ledger (.abandon new)
  | store {old new : ProviderInteractionRecord} (type : ProviderInteractionEventType) (occurredAt : IsoTime)
      (outcome : Option ProviderInteractionOutcome) (reason : Option String) : old ∈ ledger.records →
      new.reservationId = old.reservationId → RecordStep now old new →
      Sound now ledger (.store new type occurredAt outcome reason)

theorem Transition.Sound.evolved {now : IsoTime} {ledger : InteractionLedger} {transition : Transition}
    (h : transition.Sound now ledger) : Evolved now ledger (transit ledger (.ok transition)).2 := by
  cases h with
  | keep => exact List.forall₂_same.2 fun record _ => .same record
  | expire => exact expireReservations_evolved now ledger
  | abandon hm hid hs => exact evolved_set hm hid hs
  | store _ _ _ _ hm hid hs => exact evolved_set hm hid hs

variable {ledger : InteractionLedger} {transition : Transition}

theorem starting_sound {input : StartInput} (h : starting input ledger = .ok transition) :
    ∃ now, input.startedAt.parse = some now.ms ∧ transition.Sound now ledger := by
  simp only [starting, bind_eq_ok, orRefuse_eq_ok, refuseIf_eq_ok, bne_eq_false_iff_eq] at h
  obtain ⟨record, hg, _, hs, now, hp, h⟩ := h
  refine ⟨now, parseTime_eq_ok hp, ?_⟩
  have hm := (KeyedMap.get?_eq_some.1 hg).1
  split at h
  · cases h
    exact .abandon hm rfl (.abandon hs (by omega))
  · cases h
    exact .store _ _ _ _ hm rfl (.start hs (by omega))

theorem bindingUnbound_sound {record : ProviderInteractionRecord} {tabLeaseId : String} {boundAt : IsoTime}
    (hm : record ∈ ledger.records) (hl : Live record) (h : bindingUnbound record tabLeaseId boundAt = .ok transition) :
    transition.Sound boundAt ledger := by
  simp only [bindingUnbound, bind_eq_ok] at h
  obtain ⟨_, _, h⟩ := h
  split at h
  · cases h; exact .expire
  · cases h; exact .store _ _ _ _ hm rfl (.bind tabLeaseId hl)

theorem binding_sound {input : BindTabLeaseInput} (h : binding input ledger = .ok transition) :
    (∃ record, transition = .keep record) ∨ ∃ now, input.boundAt.parse = some now.ms ∧ transition.Sound now ledger := by
  simp only [binding, bind_eq_ok, orRefuse_eq_ok, refuseIf_eq_ok] at h
  obtain ⟨record, hg, _, hs, _, _, h⟩ := h
  have hl : Live record := by
    cases hst : record.state <;> simp [hst] at hs
    · exact .inl hst
    · exact .inr hst
  split at h
  · simp only [bind_eq_ok, pure_eq_ok] at h
    obtain ⟨_, _, rfl⟩ := h
    exact .inl ⟨record, rfl⟩
  · simp only [bind_eq_ok] at h
    obtain ⟨now, hp, h⟩ := h
    exact .inr ⟨now, parseTime_eq_ok hp, bindingUnbound_sound (KeyedMap.get?_eq_some.1 hg).1 hl h⟩

theorem settling_sound {input : SettleInput} (h : settling input ledger = .ok transition) :
    ∃ now, input.settledAt.parse = some now.ms ∧ transition.Sound now ledger := by
  simp only [settling, bind_eq_ok, orRefuse_eq_ok, refuseIf_eq_ok, throwIf_eq_ok, pure_eq_ok,
    bne_eq_false_iff_eq] at h
  obtain ⟨record, hg, _, hs, now, hp, _, hlate, _, _, rfl⟩ := h
  refine ⟨now, parseTime_eq_ok hp, .store _ _ _ _ (KeyedMap.get?_eq_some.1 hg).1 rfl (.settle _ _ _ hs ?_)⟩
  intro startedAt hst
  simpa [hst] using hlate

/-! ## Admissions -/

/-- What the checks of `reserve` establish about a new record, in the ledger after the expiry of reservations. -/
structure Admitted (table : CaseTable) (input : ReserveProviderInteractionInput) (now : IsoTime)
    (current : InteractionLedger) (new : ProviderInteractionRecord) : Prop where
  scope : normalizeScope table input.scope = .ok new.scope
  fresh : ∀ other ∈ current.records, other.reservationId ≠ new.reservationId
  state : new.state = .reserved
  startedAt : new.startedAt = none
  effectState : new.effectState = .none
  reservedAt : new.reservedAt = now
  interactionClass : new.interactionClass = input.interactionClass
  startsNewConversation : new.startsNewConversation = input.startsNewConversation
  unwarned : activeWarning new.account now.ms current = none
  chats : checkConcurrentChats new.account input current = .ok ()
  minute : checkMinuteLimit new.account now.ms input current = .ok ()
  starts : checkStartLimits new.account now.ms input current = .ok ()

theorem buildReservation_eq_ok {createReservationId : String} {scope : ProviderInteractionScope} {now : IsoTime}
    {input : ReserveProviderInteractionInput} {new : ProviderInteractionRecord}
    (h : buildReservation createReservationId scope now input ledger = .ok new) :
    new.scope = scope ∧ (∀ other ∈ ledger.records, other.reservationId ≠ new.reservationId) ∧
      new.state = .reserved ∧ new.startedAt = none ∧ new.effectState = .none ∧ new.reservedAt = now ∧
      new.interactionClass = input.interactionClass ∧ new.startsNewConversation = input.startsNewConversation := by
  simp only [buildReservation, bind_eq_ok, throwIf_eq_ok, pure_eq_ok, Option.isSome_eq_false_iff,
    Option.isNone_iff_eq_none] at h
  obtain ⟨_, _, _, _, _, hfresh, _, _, _, _, _, _, _, _, _, _, rfl⟩ := h
  exact ⟨rfl, KeyedMap.get?_eq_none.1 hfresh, rfl, rfl, rfl, rfl, rfl, rfl⟩

theorem checkAdmission_admitted {table : CaseTable} {createReservationId : String} {scope : ProviderInteractionScope}
    {now : IsoTime} {input : ReserveProviderInteractionInput} {new : ProviderInteractionRecord}
    (hn : normalizeScope table input.scope = .ok scope)
    (h : checkAdmission createReservationId scope now input ledger = .ok ⟨new, false⟩) :
    Admitted table input now ledger new := by
  simp only [checkAdmission, bind_eq_ok, refuseFound_eq_ok] at h
  obtain ⟨_, hwarn, existing, _, h⟩ := h
  cases existing with
  | some record => simp at h
  | none =>
    simp only [bind_eq_ok, pure_eq_ok, ProviderInteractionAdmission.mk.injEq, and_true] at h
    obtain ⟨_, hchats, _, hminute, _, hstarts, reservation, hbuild, rfl⟩ := h
    obtain ⟨hscope, hfresh, hstate, hstart, heff, hres, hclass, hnew⟩ := buildReservation_eq_ok hbuild
    have hacc : reservation.account = aggregateScopeKey scope := congrArg aggregateScopeKey hscope
    exact {
      scope := hscope ▸ hn, fresh := hfresh, state := hstate, startedAt := hstart, effectState := heff
      reservedAt := hres
      interactionClass := hclass, startsNewConversation := hnew, unwarned := hacc ▸ hwarn
      chats := hacc ▸ hchats, minute := hacc ▸ hminute, starts := hacc ▸ hstarts }

/-- What an admission is: a record that answers the request already, or a new one that has passed every check. -/
theorem checkAdmission_eq_ok {createReservationId : String} {scope : ProviderInteractionScope} {now : IsoTime}
    {input : ReserveProviderInteractionInput} {admission : ProviderInteractionAdmission} :
    checkAdmission createReservationId scope now input ledger = .ok admission ↔
      activeWarning (aggregateScopeKey scope) now.ms ledger = none ∧
        ((∃ existing, existingBackendRequest scope input ledger = .ok (some existing) ∧ admission = ⟨existing, true⟩) ∨
          existingBackendRequest scope input ledger = .ok none ∧
            checkConcurrentChats (aggregateScopeKey scope) input ledger = .ok () ∧
            checkMinuteLimit (aggregateScopeKey scope) now.ms input ledger = .ok () ∧
            checkStartLimits (aggregateScopeKey scope) now.ms input ledger = .ok () ∧
            ∃ new, buildReservation createReservationId scope now input ledger = .ok new ∧ admission = ⟨new, false⟩) := by
  simp only [checkAdmission, bind_eq_ok, refuseFound_eq_ok]
  constructor
  · rintro ⟨_, hwarning, existing, hexisting, h⟩
    refine ⟨hwarning, ?_⟩
    cases existing with
    | some record =>
      simp only [pure_eq_ok] at h
      exact .inl ⟨record, hexisting, h.symm⟩
    | none =>
      simp only [bind_eq_ok, pure_eq_ok] at h
      obtain ⟨_, hchats, _, hminute, _, hstarts, new, hbuild, rfl⟩ := h
      exact .inr ⟨hexisting, hchats, hminute, hstarts, new, hbuild, rfl⟩
  · rintro ⟨hwarning, ⟨existing, hexisting, rfl⟩ | ⟨hexisting, hchats, hminute, hstarts, new, hbuild, rfl⟩⟩
    · exact ⟨(), hwarning, some existing, hexisting, rfl⟩
    · refine ⟨(), hwarning, none, hexisting, ?_⟩
      simp only [bind_eq_ok, pure_eq_ok]
      exact ⟨(), hchats, (), hminute, (), hstarts, new, hbuild, rfl⟩

/-- A reservation that is admitted reads a scope and a time, and is admitted among what has not expired. -/
theorem reserve_eq_ok {table : CaseTable} {createReservationId : String} {input : ReserveProviderInteractionInput}
    {admission : ProviderInteractionAdmission} :
    (reserve table createReservationId input ledger).1 = .ok admission ↔ ∃ scope now,
      normalizeScope table input.scope = .ok scope ∧ (parseTime input.now "now" : Checked IsoTime) = .ok now ∧
        checkAdmission createReservationId scope now input (expireReservations now ledger) = .ok admission := by
  simp only [reserve]
  cases hscope : normalizeScope table input.scope with
  | error stop => simp
  | ok scope =>
    cases hnow : (parseTime input.now "now" : Checked IsoTime) with
    | error stop => simp
    | ok now => simp

theorem reserve_ledger {table : CaseTable} {createReservationId : String} {input : ReserveProviderInteractionInput}
    {scope : ProviderInteractionScope} {now : IsoTime} (hscope : normalizeScope table input.scope = .ok scope)
    (hnow : (parseTime input.now "now" : Checked IsoTime) = .ok now) :
    (reserve table createReservationId input ledger).2 = storeAdmission scope now input (expireReservations now ledger)
      (checkAdmission createReservationId scope now input (expireReservations now ledger)) := by
  simp only [reserve, hscope, hnow]

/-! ## What a call can do -/

theorem buildWarning_observedAt {table : CaseTable} {input : RecordProviderWarningInput}
    {result : ProviderInteractionScope × ProviderWarningRecord} (h : buildWarning table input ledger = .ok result) :
    input.observedAt.parse = some result.2.observedAt.ms := by
  simp only [buildWarning, bind_eq_ok, pure_eq_ok] at h
  obtain ⟨_, _, _, hp, _, _, _, _, _, _, rfl⟩ := h
  exact parseTime_eq_ok hp

/-- What a call does to the records. -/
inductive StepEffect (table : CaseTable) (ledger : InteractionLedger) (operation : Operation)
    (ledger' : InteractionLedger) : Prop
  | kept : ledger'.records = ledger.records → StepEffect table ledger operation ledger'
  | evolved (now : IsoTime) : operation.time.parse = some now.ms → Evolved now ledger ledger' →
      StepEffect table ledger operation ledger'
  | admitted (input : ReserveProviderInteractionInput) (now : IsoTime) (new : ProviderInteractionRecord) :
      operation = .reserve input → input.now.parse = some now.ms →
      Admitted table input now (expireReservations now ledger) new →
      ledger'.records.values = (expireReservations now ledger).records.values ++ [new] →
      StepEffect table ledger operation ledger'

theorem reserve_effect (table : CaseTable) (createReservationId : String) (input : ReserveProviderInteractionInput)
    (ledger : InteractionLedger) :
    StepEffect table ledger (.reserve input) (reserve table createReservationId input ledger).2 := by
  simp only [reserve]
  cases hn : normalizeScope table input.scope with
  | error stop => exact .kept rfl
  | ok scope =>
    cases hp : (parseTime input.now "now" : Checked IsoTime) with
    | error stop => exact .kept rfl
    | ok now =>
      dsimp only
      have hexpired := expireReservations_evolved now ledger
      have htime := parseTime_eq_ok hp
      cases ha : checkAdmission createReservationId scope now input (expireReservations now ledger) with
      | error stop => cases stop with
        | refused refusal => cases refusal <;> exact .evolved now htime hexpired
        | thrown message => exact .evolved now htime hexpired
      | ok admission =>
        obtain ⟨new, duplicate⟩ := admission
        cases duplicate with
        | true => exact .evolved now htime hexpired
        | false =>
          have hnew := checkAdmission_admitted hn ha
          exact .admitted input now new rfl htime hnew (KeyedMap.values_set_of_fresh hnew.fresh)

/-- **A call does to the records what `StepEffect` lists.** -/
theorem perform_effect (table : CaseTable) (call : Call) (ledger : InteractionLedger) :
    StepEffect table ledger call.operation (perform table call ledger).2 := by
  obtain ⟨createReservationId, operation⟩ := call
  cases operation with
  | reserve input =>
    simp only [perform]
    exact reserve_effect table createReservationId input ledger
  | bindTabLease input =>
    simp only [perform, bindTabLease]
    cases ht : binding input ledger with
    | error stop => exact .kept rfl
    | ok transition =>
      rcases binding_sound ht with ⟨record, rfl⟩ | ⟨now, hp, hs⟩
      · exact .kept rfl
      · exact .evolved now hp hs.evolved
  | start input =>
    simp only [perform, start]
    cases ht : starting input ledger with
    | error stop => exact .kept rfl
    | ok transition =>
      obtain ⟨now, hp, hs⟩ := starting_sound ht
      exact .evolved now hp hs.evolved
  | settle input =>
    simp only [perform, settle]
    cases ht : settling input ledger with
    | error stop => exact .kept rfl
    | ok transition =>
      obtain ⟨now, hp, hs⟩ := settling_sound ht
      exact .evolved now hp hs.evolved
  | observePassive input =>
    simp only [perform, observePassive]
    cases passiveEvent table input <;> exact .kept rfl
  | recordProviderWarning input =>
    simp only [perform, recordProviderWarning]
    cases hb : buildWarning table input ledger with
    | error stop => exact .kept rfl
    | ok result =>
      exact .evolved result.2.observedAt (buildWarning_observedAt hb) (storeWarning_evolved result.1 result.2 ledger)
  | clearProviderWarning input =>
    simp only [perform, clearProviderWarning]
    refine .kept ?_
    split
    · rfl
    split
    · rfl
    rename_i warning _
    cases warning <;> cases (requireNonEmpty input.reason "reason" : Checked String) <;> rfl
  | summarizeUsage input =>
    simp only [perform, summarizeUsage]
    split
    · exact .kept rfl
    · rename_i account now hp
      simp only [bind_eq_ok, pure_eq_ok, Prod.mk.injEq] at hp
      obtain ⟨_, _, _, _, _, hp, rfl, rfl⟩ := hp
      exact .evolved _ (parseTime_eq_ok hp) (expireReservations_evolved _ ledger)
  | summarizeAggregateUsage now =>
    simp only [perform, summarizeAggregateUsage]
    cases hp : (parseTime now "now" : Checked IsoTime) with
    | error stop => exact .kept rfl
    | ok time => exact .evolved time (parseTime_eq_ok hp) (expireReservations_evolved time ledger)
  | summarizeBackendRequestUsage input =>
    simp only [perform, summarizeBackendRequestUsage]
    cases hp : (parseTime input.now "now" : Checked IsoTime) with
    | error stop => exact .kept rfl
    | ok time =>
      dsimp only
      cases list table input.provider input.tenantKey (expireReservations time ledger) <;>
        exact .evolved time (parseTime_eq_ok hp) (expireReservations_evolved time ledger)

/-! ## Steps of records -/

/-- A step changes neither what a record is about nor when it was reserved. -/
theorem RecordStep.fixed {now : IsoTime} {record record' : ProviderInteractionRecord}
    (h : RecordStep now record record') : record'.scope = record.scope ∧ record'.workloadId = record.workloadId ∧
      record'.interactionClass = record.interactionClass ∧
      record'.startsNewConversation = record.startsNewConversation ∧ record'.reservedAt = record.reservedAt := by
  cases h <;> exact ⟨rfl, rfl, rfl, rfl, rfl⟩

theorem RecordStep.live {now : IsoTime} {record record' : ProviderInteractionRecord} (h : RecordStep now record record')
    (hl : Live record') : Live record := by
  cases h with
  | same => exact hl
  | bind _ h => exact h
  | start h _ => exact .inl h
  | settle _ _ _ h _ => exact .inr h
  | abandon h _ => exact .inl h
  | freeze _ _ h => exact h

/-- A step changes neither the reservation of a record nor the backend request it stands for. -/
theorem RecordStep.request {now : IsoTime} {record record' : ProviderInteractionRecord}
    (h : RecordStep now record record') :
    record'.reservationId = record.reservationId ∧ record'.backendRequestKey = record.backendRequestKey := by
  cases h <;> exact ⟨rfl, rfl⟩

/-- Every record after steps comes from one before them. -/
theorem Evolved.source {now : IsoTime} {ledger ledger' : InteractionLedger} (h : Evolved now ledger ledger')
    {record' : ProviderInteractionRecord} (hm : record' ∈ ledger'.records) :
    ∃ record ∈ ledger.records, RecordStep now record record' := by
  obtain ⟨i, hi, rfl⟩ := List.getElem_of_mem hm
  have hlen : i < ledger.records.values.length := h.length_eq ▸ hi
  exact ⟨ledger.records.values[i], List.getElem_mem hlen, h.get hlen hi⟩

/-- Every record has its place after steps. -/
theorem Evolved.image {now : IsoTime} {ledger ledger' : InteractionLedger} (h : Evolved now ledger ledger')
    {record : ProviderInteractionRecord} (hm : record ∈ ledger.records) :
    ∃ record' ∈ ledger'.records, RecordStep now record record' := by
  obtain ⟨i, hi, rfl⟩ := List.getElem_of_mem hm
  have hlen : i < ledger'.records.values.length := h.length_eq ▸ hi
  exact ⟨ledger'.records.values[i], List.getElem_mem hlen, h.get hi hlen⟩

/-- A record that a reservation leaves was there before, or is the one it has admitted. -/
theorem reserve_source {table : CaseTable} {createReservationId : String} {input : ReserveProviderInteractionInput}
    {ledger : InteractionLedger} {record : ProviderInteractionRecord}
    (hm : record ∈ (reserve table createReservationId input ledger).2.records) :
    (∃ now, ∃ old ∈ ledger.records, RecordStep now old record) ∨
      (reserve table createReservationId input ledger).1 = .ok ⟨record, false⟩ := by
  simp only [reserve] at hm ⊢
  cases hscope : normalizeScope table input.scope with
  | error stop =>
    rw [hscope] at hm
    exact .inl ⟨⟨0, by decide⟩, record, hm, .same record⟩
  | ok scope =>
    cases hnow : (parseTime input.now "now" : Checked IsoTime) with
    | error stop =>
      rw [hscope, hnow] at hm
      exact .inl ⟨⟨0, by decide⟩, record, hm, .same record⟩
    | ok now =>
      rw [hscope, hnow] at hm
      dsimp only at hm ⊢
      have hexpired : record ∈ (expireReservations now ledger).records →
          ∃ now, ∃ old ∈ ledger.records, RecordStep now old record := by
        intro hm
        obtain ⟨old, hin, hs⟩ := (expireReservations_evolved now ledger).source hm
        exact ⟨now, old, hin, hs⟩
      cases hadmission : checkAdmission createReservationId scope now input (expireReservations now ledger) with
      | error stop =>
        rw [hadmission] at hm
        refine .inl (hexpired ?_)
        cases stop with
        | refused refusal => cases refusal <;> exact hm
        | thrown message => exact hm
      | ok admission =>
        rw [hadmission] at hm
        obtain ⟨new, duplicate⟩ := admission
        cases duplicate with
        | true => exact .inl (hexpired hm)
        | false =>
          rcases KeyedMap.mem_set.1 hm with rfl | ⟨hm, -⟩
          · exact .inr rfl
          · exact .inl (hexpired hm)

/-- A record that a call leaves was there before, or is one that a reservation has admitted. -/
theorem perform_source {table : CaseTable} {call : Call} {ledger : InteractionLedger}
    {record : ProviderInteractionRecord} (hm : record ∈ (perform table call ledger).2.records) :
    (∃ now, ∃ old ∈ ledger.records, RecordStep now old record) ∨ ∃ input, call.operation = .reserve input ∧
      (reserve table call.createReservationId input ledger).1 = .ok ⟨record, false⟩ := by
  cases perform_effect table call ledger with
  | kept hr =>
    rw [hr] at hm
    exact .inl ⟨⟨0, by decide⟩, record, hm, .same record⟩
  | evolved now _ he =>
    obtain ⟨old, hin, hs⟩ := he.source hm
    exact .inl ⟨now, old, hin, hs⟩
  | admitted input _ _ hop _ _ _ =>
    obtain ⟨createReservationId, operation⟩ := call
    cases hop
    rw [perform_reserve] at hm
    rcases reserve_source hm with hold | hnew
    · exact .inl hold
    · exact .inr ⟨input, rfl, hnew⟩

/-! ## Lists of calls -/

/-- Run calls one after the other. -/
def runCalls (table : CaseTable) (calls : List Call) (ledger : InteractionLedger) : InteractionLedger :=
  calls.foldl (fun ledger call => (perform table call ledger).2) ledger

theorem runCalls_run (table : CaseTable) (calls : List Call) (ledger : InteractionLedger) :
    (system table).Run ledger calls (runCalls table calls ledger) := TransitionSystem.run_foldl calls ledger

/-- Every reservation of the run asks for the policy. -/
def UsesPolicy (policy : ProviderInteractionPolicy) (_ : InteractionLedger) (call : Call) : Prop :=
  ∀ input, call.operation = .reserve input → input.policy = policy

/-! ## A sample account -/

section Sample

def sampleScope : ProviderInteractionScope := ⟨"chatgpt", "tenant", "default", "work"⟩

/-- A reservation of a conversation start, which expires after half a minute. -/
def sampleReserve (policy : ProviderInteractionPolicy) (reservationId workloadId : String) (nowMs : Int) : Call :=
  ⟨reservationId, .reserve {
    scope := sampleScope, workloadId, operationId := "operation", interactionClass := .conversationStart
    mutability := .providerMutating, startsNewConversation := true, now := .at nowMs
    reservationTtlMs := .finite 30000, policy }⟩

end Sample

end AuraCall.Ledger
