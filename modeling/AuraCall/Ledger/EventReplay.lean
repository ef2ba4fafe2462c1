import AuraCall.Ledger.System

/-!
# The event log of the ledger

Every operation stores records and appends events by hand. `replay` runs the event log of a record through its state
machine, `advance`. A call that moves a record logs exactly one transition for it, and a call that does not move it logs
none (`perform_logged`), so the log replays to the states the ledger stores (`eventLog_replays`).

One path logs nothing: `start` on a reservation that has expired abandons it silently, where `expireReservations` logs
`reservation-abandoned`. The log then says for good that the record is reserved (`silentAbandon_not_replayed`).
-/

namespace AuraCall.Ledger

variable {table : CaseTable} {ledger ledger' : InteractionLedger} {reservationId : String}

/-! ## Replay -/

/-- The event is a transition of its record. -/
def ProviderInteractionEventType.isTransition : ProviderInteractionEventType → Bool
  | reservationCreated | interactionStarted | interactionSettled | reservationAbandoned | interactionFrozen => true
  | tabLeaseBound | providerWarningObserved | providerWarningCleared | admissionRejected | passiveObserved => false

/-- The state machine of a record. A terminal state has no transition. -/
def advance : Option ProviderInteractionState → ProviderInteractionEventType → Option ProviderInteractionState
  | none, .reservationCreated => some .reserved
  | some .reserved, .interactionStarted => some .started
  | some .reserved, .reservationAbandoned => some .abandoned
  | some .reserved, .interactionFrozen => some .frozen
  | some .started, .interactionSettled => some .settled
  | some .started, .interactionFrozen => some .frozen
  | _, _ => none

/-- The transitions of a record among the events. -/
def transitions (reservationId : String) (events : List ProviderInteractionEvent) : List ProviderInteractionEvent :=
  events.filter fun event => event.reservationId == some reservationId && event.type.isTransition

/-- One round of `replay`: an event that the state machine does not allow ends it. -/
def replayEvent (reservationId : String) (state : Option ProviderInteractionState) (event : ProviderInteractionEvent) :
    Option (Option ProviderInteractionState) :=
  if event.reservationId == some reservationId && event.type.isTransition then (advance state event.type).map some
  else some state

/-- The state the event log gives a record, `none` within while there is none, and `none` when the log is no run of the
state machine. -/
def replay (reservationId : String) (events : List ProviderInteractionEvent) :
    Option (Option ProviderInteractionState) :=
  events.foldlM (replayEvent reservationId) none

/-- The state the ledger stores for a record. -/
def stateOf (reservationId : String) (ledger : InteractionLedger) : Option ProviderInteractionState :=
  (ledger.records.get? reservationId).map (·.state)

@[simp] theorem transitions_append (events added : List ProviderInteractionEvent) :
    transitions reservationId (events ++ added) = transitions reservationId events ++ transitions reservationId added :=
  List.filter_append ..

/-- A replay reads nothing but the transitions of its record. -/
theorem foldlM_replayEvent (events : List ProviderInteractionEvent) (state : Option ProviderInteractionState) :
    events.foldlM (replayEvent reservationId) state =
      (transitions reservationId events).foldlM (fun state event => (advance state event.type).map some) state := by
  induction events generalizing state with
  | nil => rfl
  | cons event events ih =>
    simp only [transitions, List.filter_cons, List.foldlM_cons, replayEvent]
    split
    · rw [List.foldlM_cons]
      refine congrArg _ (funext fun next => ?_)
      exact ih next
    · exact ih state

theorem replay_append (events added : List ProviderInteractionEvent) :
    replay reservationId (events ++ added) = (replay reservationId events).bind fun state =>
      (transitions reservationId added).foldlM (fun state event => (advance state event.type).map some) state := by
  rw [replay, List.foldlM_append]
  refine congrArg _ (funext fun state => ?_)
  exact foldlM_replayEvent added state

/-! ## What a call logs -/

/-- A call does not move the record and logs no transition of it, or moves it by the one transition it logs. -/
inductive Logged (reservationId : String) (ledger ledger' : InteractionLedger) : Prop
  | unmoved (added : List ProviderInteractionEvent) : ledger'.events = ledger.events ++ added →
      transitions reservationId added = [] → stateOf reservationId ledger' = stateOf reservationId ledger →
      Logged reservationId ledger ledger'
  | moved (added : List ProviderInteractionEvent) (event : ProviderInteractionEvent)
      (state : ProviderInteractionState) : ledger'.events = ledger.events ++ added →
      transitions reservationId added = [event] → advance (stateOf reservationId ledger) event.type = some state →
      stateOf reservationId ledger' = some state → Logged reservationId ledger ledger'

theorem Logged.refl (ledger : InteractionLedger) : Logged reservationId ledger ledger :=
  .unmoved [] (List.append_nil _).symm rfl rfl

/-- The records stay and an event is logged that is no transition of the record. -/
theorem Logged.note (hrecords : ledger'.records = ledger.records) {event : ProviderInteractionEvent}
    (hevents : ledger'.events = ledger.events ++ [event]) (h : event.type.isTransition = false) :
    Logged reservationId ledger ledger' := by
  refine .unmoved [event] hevents ?_ ?_
  · simp [transitions, h]
  · rw [stateOf, stateOf, hrecords]

/-- An event that is no transition, before what a call logs. -/
theorem Logged.after_note {noted : InteractionLedger} {event : ProviderInteractionEvent}
    (h : Logged reservationId noted ledger') (hrecords : noted.records = ledger.records)
    (hevents : noted.events = ledger.events ++ [event]) (htype : event.type.isTransition = false) :
    Logged reservationId ledger ledger' := by
  have hnone : transitions reservationId [event] = [] := by simp [transitions, htype]
  have hstate : stateOf reservationId noted = stateOf reservationId ledger := by rw [stateOf, stateOf, hrecords]
  cases h with
  | unmoved added he ht hs =>
    refine .unmoved ([event] ++ added) ?_ ?_ (hs.trans hstate)
    · rw [he, hevents, List.append_assoc]
    · rw [transitions_append, hnone, ht, List.append_nil]
  | moved added move state he ht ha hs =>
    refine .moved ([event] ++ added) move state ?_ ?_ (hstate ▸ ha) hs
    · rw [he, hevents, List.append_assoc]
    · rw [transitions_append, hnone, ht, List.nil_append]

/-- The events of the other records do not matter. -/
theorem Logged.append (h : Logged reservationId ledger ledger') {next : InteractionLedger}
    {event : ProviderInteractionEvent} (hstate : stateOf reservationId next = stateOf reservationId ledger')
    (hevents : next.events = ledger'.events ++ [event])
    (hother : (event.reservationId == some reservationId && event.type.isTransition) = false) :
    Logged reservationId ledger next := by
  have hnone : transitions reservationId [event] = [] := by simp only [transitions, List.filter_cons, hother]; rfl
  cases h with
  | unmoved added he ht hs =>
    refine .unmoved (added ++ [event]) ?_ ?_ (hstate.trans hs)
    · rw [hevents, he, List.append_assoc]
    · rw [transitions_append, ht, hnone, List.append_nil]
  | moved added move state he ht ha hs =>
    refine .moved (added ++ [event]) move state ?_ ?_ ha (hstate.trans hs)
    · rw [hevents, he, List.append_assoc]
    · rw [transitions_append, ht, hnone, List.append_nil]

/-- A sweep logs one transition for each record it moves. -/
theorem sweep_logged {change : ProviderInteractionRecord → Option ProviderInteractionRecord}
    {hid : ∀ record, ((change record).getD record).reservationId = record.reservationId}
    {event : ProviderInteractionRecord → ProviderInteractionEvent}
    (hevent : ∀ record new, change record = some new → (event new).reservationId = some new.reservationId ∧
      (event new).type.isTransition = true ∧ advance (some record.state) (event new).type = some new.state)
    (ledger : InteractionLedger) : Logged reservationId ledger (sweep change hid event ledger) := by
  have hlogged : transitions reservationId ((ledger.records.values.filterMap change).map event) =
      ((ledger.records.get? reservationId).bind fun record => (change record).map event).toList := by
    rw [List.map_filterMap]
    refine KeyedMap.filterMap_of_key fun record e he => ?_
    obtain ⟨new, hnew, rfl⟩ := Option.map_eq_some_iff.1 he
    obtain ⟨hname, htype, _⟩ := hevent record new hnew
    have hsame : new.reservationId = record.reservationId := by simpa [hnew] using hid record
    simp [hname, htype, hsame]
  have hstate : stateOf reservationId (sweep change hid event ledger) =
      (ledger.records.get? reservationId).map fun record => ((change record).getD record).state := by
    simp only [stateOf, sweep, KeyedMap.get?_mapValues, Option.map_map]
    rfl
  cases hg : ledger.records.get? reservationId with
  | none =>
    refine .unmoved _ rfl ?_ ?_
    · rw [hlogged, hg]
      rfl
    · rw [hstate, stateOf, hg]
      rfl
  | some record =>
    cases hc : change record with
    | none =>
      refine .unmoved _ rfl ?_ ?_
      · rw [hlogged, hg]
        simp [hc]
      · rw [hstate, stateOf, hg]
        simp [hc]
    | some new =>
      refine .moved _ (event new) new.state rfl ?_ ?_ ?_
      · rw [hlogged, hg]
        simp [hc]
      · rw [stateOf, hg]
        exact (hevent record new hc).2.2
      · rw [hstate, hg]
        simp [hc]

theorem expireReservations_logged (now : IsoTime) (ledger : InteractionLedger) :
    Logged reservationId ledger (expireReservations now ledger) := by
  refine sweep_logged (fun record new h => ?_) ledger
  unfold expired at h
  split at h
  · cases h
  · rename_i hlive
    simp only [Bool.or_eq_true, bne_iff_ne, ne_eq, not_or, not_not] at hlive
    cases h
    exact ⟨rfl, rfl, by rw [hlive.1]; rfl⟩

theorem storeWarning_logged (scope : ProviderInteractionScope) (warning : ProviderWarningRecord)
    (ledger : InteractionLedger) : Logged reservationId ledger (storeWarning scope warning ledger) := by
  have hfreezes : ∀ record new, frozen warning record = some new →
      advance (some record.state) .interactionFrozen = some new.state := by
    intro record new h
    unfold frozen at h
    split at h
    · cases h
    · rename_i hlive
      simp only [Bool.or_eq_true, Bool.and_eq_true, bne_iff_ne, ne_eq, not_or, not_and, not_not] at hlive
      cases h
      by_cases hs : record.state = .reserved
      · rw [hs]; rfl
      · rw [hlive.2 hs]; rfl
  refine Logged.after_note (sweep_logged (fun record new h => ?_) _) rfl rfl rfl
  exact ⟨rfl, rfl, hfreezes record new h⟩

/-- Storing a record and logging the transition that leads to its state. -/
theorem store_logged {new : ProviderInteractionRecord} {event : ProviderInteractionEvent}
    (hname : event.reservationId = some new.reservationId) (htype : event.type.isTransition = true)
    (hadvance : advance (stateOf new.reservationId ledger) event.type = some new.state) :
    Logged reservationId ledger ({ ledger with records := ledger.records.set new }.appendEvent event) := by
  by_cases hid : reservationId = new.reservationId
  · subst hid
    refine .moved [event] event new.state rfl ?_ hadvance ?_
    · simp [transitions, hname, htype]
    · simp [stateOf, InteractionLedger.appendEvent]
  · refine .unmoved [event] rfl ?_ ?_
    · simp [transitions, hname, Ne.symm hid]
    · simp only [stateOf, InteractionLedger.appendEvent, KeyedMap.get?_set_of_ne hid]

/-- A record that is created is none before, whatever the call has logged for the others. -/
theorem Logged.created {new : ProviderInteractionRecord} {event : ProviderInteractionEvent}
    (h : Logged new.reservationId ledger ledger')
    (hfresh : ∀ other ∈ ledger'.records, other.reservationId ≠ new.reservationId) (hnew : new.state = .reserved)
    (hname : event.reservationId = some new.reservationId) (htype : event.type = .reservationCreated) :
    Logged new.reservationId ledger ({ ledger' with records := ledger'.records.set new }.appendEvent event) := by
  have hnone : stateOf new.reservationId ledger' = none := by
    rw [stateOf, KeyedMap.get?_eq_none.2 hfresh, Option.map_none]
  cases h with
  | unmoved added he ht hs =>
    refine .moved (added ++ [event]) event .reserved ?_ ?_ ?_ ?_
    · rw [← List.append_assoc, ← he]
      rfl
    · rw [transitions_append, ht]
      simp [transitions, hname, htype, ProviderInteractionEventType.isTransition]
    · rw [← hs, hnone, htype]
      rfl
    · simp [stateOf, InteractionLedger.appendEvent, hnew]
  | moved _ _ _ _ _ _ hs =>
    rw [hnone] at hs
    cases hs

/-! ## Transitions -/

/-- What a decision stores is what it logs. -/
inductive Transition.Logs (ledger : InteractionLedger) : Transition → Prop
  | keep (record : ProviderInteractionRecord) : Logs ledger (.keep record)
  | expire (now : IsoTime) : Logs ledger (.expire now)
  /-- The record changes and its state does not. -/
  | note {old new : ProviderInteractionRecord} {type : ProviderInteractionEventType} (occurredAt : IsoTime)
      (outcome : Option ProviderInteractionOutcome) (reason : Option String) : old ∈ ledger.records →
      new.reservationId = old.reservationId → new.state = old.state → type.isTransition = false →
      Logs ledger (.store new type occurredAt outcome reason)
  | move {old new : ProviderInteractionRecord} {type : ProviderInteractionEventType} (occurredAt : IsoTime)
      (outcome : Option ProviderInteractionOutcome) (reason : Option String) : old ∈ ledger.records →
      new.reservationId = old.reservationId → type.isTransition = true →
      advance (some old.state) type = some new.state → Logs ledger (.store new type occurredAt outcome reason)

theorem stateOf_mem {record : ProviderInteractionRecord} (hm : record ∈ ledger.records) :
    stateOf record.reservationId ledger = some record.state := by
  have hget : ledger.records.get? record.reservationId = some record := KeyedMap.get?_self hm
  rw [stateOf, hget, Option.map_some]

theorem Transition.Logs.logged {transition : Transition} (h : transition.Logs ledger) :
    Logged reservationId ledger (transit ledger (.ok transition)).2 := by
  cases h with
  | keep => exact .refl ledger
  | expire now => exact expireReservations_logged now ledger
  | @note old new type occurredAt outcome reason hm hid hstate htype =>
    refine .unmoved [new.event type occurredAt outcome none reason] rfl ?_ ?_
    · have hnone : (new.event type occurredAt outcome none reason).type.isTransition = false := htype
      simp [transitions, hnone]
    · simp only [transit, stateOf, InteractionLedger.appendEvent]
      by_cases hsame : reservationId = new.reservationId
      · subst hsame
        have hold : ledger.records.get? new.reservationId = some old := KeyedMap.get?_eq_some.2 ⟨hm, hid.symm⟩
        rw [KeyedMap.get?_set_self, hold, Option.map_some, Option.map_some, hstate]
      · rw [KeyedMap.get?_set_of_ne hsame]
  | move occurredAt outcome reason hm hid htype hadvance =>
    refine store_logged rfl htype ?_
    rw [hid, stateOf_mem hm]
    exact hadvance

/-- A start that comes too late for its reservation. -/
def StartsLate (ledger : InteractionLedger) (input : StartInput) : Prop :=
  ∃ record t, ledger.records.get? input.reservationId = some record ∧ record.state = .reserved ∧
    input.startedAt.parse = some t ∧ record.reservationExpiresAt.ms < t

variable {transition : Transition}

theorem starting_logs {input : StartInput} (h : starting input ledger = .ok transition)
    (htime : ¬StartsLate ledger input) : transition.Logs ledger := by
  simp only [starting, bind_eq_ok, orRefuse_eq_ok, refuseIf_eq_ok, bne_eq_false_iff_eq] at h
  obtain ⟨record, hg, _, hs, now, hp, h⟩ := h
  split at h
  · rename_i hlate
    exact absurd ⟨record, now.ms, hg, hs, parseTime_eq_ok hp, hlate⟩ htime
  · cases h
    exact .move _ _ _ (KeyedMap.get?_eq_some.1 hg).1 rfl rfl (by rw [hs]; rfl)

theorem binding_logs {input : BindTabLeaseInput} (h : binding input ledger = .ok transition) :
    transition.Logs ledger := by
  simp only [binding, bind_eq_ok, orRefuse_eq_ok, refuseIf_eq_ok] at h
  obtain ⟨record, hg, _, _, _, _, h⟩ := h
  split at h
  · simp only [bind_eq_ok, pure_eq_ok] at h
    obtain ⟨_, _, rfl⟩ := h
    exact .keep record
  · simp only [bind_eq_ok] at h
    obtain ⟨now, _, h⟩ := h
    simp only [bindingUnbound, bind_eq_ok] at h
    obtain ⟨_, _, h⟩ := h
    split at h
    · cases h
      exact .expire now
    · cases h
      exact .note _ _ _ (KeyedMap.get?_eq_some.1 hg).1 rfl rfl rfl

theorem settling_logs {input : SettleInput} (h : settling input ledger = .ok transition) :
    transition.Logs ledger := by
  simp only [settling, bind_eq_ok, orRefuse_eq_ok, refuseIf_eq_ok, pure_eq_ok, bne_eq_false_iff_eq] at h
  obtain ⟨record, hg, _, hs, _, _, _, _, _, _, rfl⟩ := h
  exact .move _ _ _ (KeyedMap.get?_eq_some.1 hg).1 rfl rfl (by rw [hs]; rfl)

/-! ## Calls -/

theorem reserve_logged (createReservationId : String) (input : ReserveProviderInteractionInput)
    (ledger : InteractionLedger) : Logged reservationId ledger (reserve table createReservationId input ledger).2 := by
  simp only [reserve]
  cases hn : normalizeScope table input.scope with
  | error stop => exact .refl ledger
  | ok scope =>
    cases (parseTime input.now "now" : Checked IsoTime) with
    | error stop => exact .refl ledger
    | ok now =>
      dsimp only
      have hexpired : Logged reservationId ledger (expireReservations now ledger) :=
        expireReservations_logged now ledger
      cases ha : checkAdmission createReservationId scope now input (expireReservations now ledger) with
      | error stop => cases stop with
        | refused refusal => cases refusal with
          | admission reason warning => exact hexpired.append rfl rfl (by simp [rejectionEvent])
          | _ => exact hexpired
        | thrown message => exact hexpired
      | ok admission =>
        obtain ⟨new, duplicate⟩ := admission
        cases duplicate with
        | true => exact hexpired
        | false =>
          have hnew := checkAdmission_admitted hn ha
          by_cases hid : reservationId = new.reservationId
          · subst hid
            exact hexpired.created hnew.fresh hnew.state rfl rfl
          · refine hexpired.append ?_ rfl ?_
            · simp only [storeAdmission, stateOf, InteractionLedger.appendEvent, KeyedMap.get?_set_of_ne hid]
            · simp [ProviderInteractionRecord.event, Ne.symm hid]

theorem clearProviderWarning_logged (input : ClearProviderWarningInput) (ledger : InteractionLedger) :
    Logged reservationId ledger (clearProviderWarning table input ledger).2 := by
  simp only [clearProviderWarning]
  split
  · exact .refl ledger
  split
  · exact .refl ledger
  rename_i warning _
  cases hr : (requireNonEmpty input.reason "reason" : Checked String) with
  | error stop => cases warning <;> exact .unmoved [] (List.append_nil _).symm rfl rfl
  | ok reason => cases warning <;> exact .note rfl rfl rfl

/-- The call is no start that comes too late. -/
def StartsInTime (ledger : InteractionLedger) (call : Call) : Prop :=
  ∀ input, call.operation = .start input → ¬StartsLate ledger input

/-- **A call that starts no expired reservation logs every transition it makes, once.** -/
theorem perform_logged (table : CaseTable) {call : Call} (h : StartsInTime ledger call) (reservationId : String) :
    Logged reservationId ledger (perform table call ledger).2 := by
  obtain ⟨createReservationId, operation⟩ := call
  cases operation with
  | reserve input =>
    simp only [perform]
    exact reserve_logged createReservationId input ledger
  | bindTabLease input =>
    simp only [perform, bindTabLease]
    cases ht : binding input ledger with
    | error stop => exact .refl ledger
    | ok transition => exact (binding_logs ht).logged
  | start input =>
    simp only [perform, start]
    cases ht : starting input ledger with
    | error stop => exact .refl ledger
    | ok transition => exact (starting_logs ht (h input rfl)).logged
  | settle input =>
    simp only [perform, settle]
    cases ht : settling input ledger with
    | error stop => exact .refl ledger
    | ok transition => exact (settling_logs ht).logged
  | observePassive input =>
    simp only [perform, observePassive]
    cases hp : passiveEvent table input with
    | error stop => exact .refl ledger
    | ok event =>
      refine .note rfl rfl ?_
      simp only [passiveEvent, bind_eq_ok, pure_eq_ok] at hp
      obtain ⟨_, _, _, _, _, _, _, _, _, _, rfl⟩ := hp
      rfl
  | recordProviderWarning input =>
    simp only [perform, recordProviderWarning]
    cases buildWarning table input ledger with
    | error stop => exact .refl ledger
    | ok result => exact storeWarning_logged result.1 result.2 ledger
  | clearProviderWarning input =>
    simp only [perform]
    exact clearProviderWarning_logged input ledger
  | summarizeUsage input =>
    simp only [perform, summarizeUsage]
    split
    · exact .refl ledger
    · exact expireReservations_logged _ ledger
  | summarizeAggregateUsage now =>
    simp only [perform, summarizeAggregateUsage]
    cases (parseTime now "now" : Checked IsoTime) with
    | error stop => exact .refl ledger
    | ok time => exact expireReservations_logged time ledger
  | summarizeBackendRequestUsage input =>
    simp only [perform, summarizeBackendRequestUsage]
    cases (parseTime input.now "now" : Checked IsoTime) with
    | error stop => exact .refl ledger
    | ok time =>
      dsimp only
      cases list table input.provider input.tenantKey (expireReservations time ledger) <;>
        exact expireReservations_logged time ledger

/-! ## Runs -/

/-- The event log replays to the state the ledger stores for every record. -/
def Replays (ledger : InteractionLedger) : Prop :=
  ∀ reservationId, replay reservationId ledger.events = some (stateOf reservationId ledger)

theorem Replays.step (h : Replays ledger) (hl : ∀ reservationId, Logged reservationId ledger ledger') :
    Replays ledger' := by
  intro reservationId
  cases hl reservationId with
  | unmoved added he ht hs =>
    rw [he, replay_append, h reservationId, Option.bind_some, ht, hs]
    rfl
  | moved added event state he ht ha hs =>
    rw [he, replay_append, h reservationId, Option.bind_some, ht, hs]
    simp [ha]

/-- A terminal state has no transition. -/
def Terminal (state : ProviderInteractionState) : Prop := state = .settled ∨ state = .abandoned ∨ state = .frozen

theorem advance_terminal {state : ProviderInteractionState} (h : Terminal state) (type : ProviderInteractionEventType) :
    advance (some state) type = none := by
  rcases h with rfl | rfl | rfl <;> rfl

/-- A late start stores its record as abandoned and logs nothing. -/
theorem late_start {input : StartInput} (h : StartsLate ledger input) :
    stateOf input.reservationId ledger = some .reserved ∧ ∃ abandoned : ProviderInteractionRecord,
      abandoned.reservationId = input.reservationId ∧ abandoned.state = .abandoned ∧
      (start input ledger).2 = { ledger with records := ledger.records.set abandoned } := by
  obtain ⟨record, t, hg, hs, hp, hlate⟩ := h
  obtain ⟨now, hnow, rfl⟩ := parseTime_of_parse (γ := Refusal) hp "startedAt"
  refine ⟨by rw [stateOf, hg, Option.map_some, hs], ?_⟩
  refine ⟨{ record with state := .abandoned, settledAt := some now, stopReason := some "reservation-expired" },
    (KeyedMap.get?_eq_some.1 hg).2, rfl, ?_⟩
  have hstarting : starting input ledger = .ok (.abandon {
      record with state := .abandoned, settledAt := some now, stopReason := some "reservation-expired" }) := by
    simp only [starting, hg, orRefuse, hs, hnow, refuseIf, bne_self_eq_false, bind, Except.bind]
    simp [hlate, pure, Except.pure]
  rw [start, hstarting]
  rfl

/-- A terminal state absorbs every call. -/
theorem perform_terminal {call : Call} {state : ProviderInteractionState}
    (hstate : stateOf reservationId ledger = some state) (ht : Terminal state) :
    stateOf reservationId (perform table call ledger).2 = some state := by
  by_cases h : StartsInTime ledger call
  · cases perform_logged table h reservationId with
    | unmoved _ _ _ hs => exact hs.trans hstate
    | moved _ event _ _ _ ha _ =>
      rw [hstate, advance_terminal ht] at ha
      cases ha
  · simp only [StartsInTime, not_forall, not_not] at h
    obtain ⟨input, hop, hlate⟩ := h
    obtain ⟨hreserved, abandoned, hid, _, hstart⟩ := late_start hlate
    have hperform : (perform table call ledger).2 = (start input ledger).2 := by
      simp only [perform, hop]
    have hne : reservationId ≠ abandoned.reservationId := by
      rintro rfl
      rw [hid, hreserved] at hstate
      cases hstate
      rcases ht with h | h | h <;> cases h
    rw [hperform, hstart]
    simpa only [stateOf, KeyedMap.get?_set_of_ne hne] using hstate

/-- A late start leaves a log that does not replay to the ledger. -/
theorem late_not_replayed {call : Call} (hr : Replays ledger) (h : ¬StartsInTime ledger call) :
    ¬Replays (perform table call ledger).2 := by
  intro hreplays
  simp only [StartsInTime, not_forall, not_not] at h
  obtain ⟨input, hop, hlate⟩ := h
  obtain ⟨hreserved, abandoned, hid, hstate, hstart⟩ := late_start hlate
  have hperform : (perform table call ledger).2 = (start input ledger).2 := by
    simp only [perform, hop]
  have hbefore := hr input.reservationId
  have hafter := hreplays input.reservationId
  rw [hperform, hstart, ← hid] at hafter
  simp only [stateOf, KeyedMap.get?_set_self, Option.map_some, hstate] at hafter
  rw [hreserved] at hbefore
  rw [hid, hbefore] at hafter
  cases hafter

/-- **As long as no start comes after the expiry of its reservation, the event log replays to the state of every record,
and every transition is one of the state machine and is logged once; terminal states absorb every call. A late start
always leaves a log that does not replay.** -/
theorem eventLog_replays (table : CaseTable) :
    (∀ ledger, ((system table).restrict StartsInTime).Reachable ledger → Replays ledger) ∧
    (∀ ledger call, StartsInTime ledger call →
      ∀ reservationId, Logged reservationId ledger (perform table call ledger).2) ∧
    (∀ ledger call reservationId state, stateOf reservationId ledger = some state → Terminal state →
      stateOf reservationId (perform table call ledger).2 = some state) ∧
    (∀ ledger call, Replays ledger → ¬StartsInTime ledger call → ¬Replays (perform table call ledger).2) := by
  refine ⟨fun ledger h => ?_, fun _ _ h => perform_logged table h, fun _ _ _ _ => perform_terminal,
    fun _ _ => late_not_replayed⟩
  refine h.invariant ?_ fun ledger call ledger' _ hr hs => ?_
  · rintro _ rfl reservationId
    rfl
  · obtain ⟨htime, hstep⟩ := hs
    cases hstep
    exact hr.step (perform_logged table htime)

/-- A reservation of half a minute is started a minute later. -/
def silentAbandon : InteractionLedger :=
  runCalls .lowered [sampleReserve ⟨none, none, none, none, none⟩ "reservation-1" "workload-1" 0,
    ⟨"", .start ⟨"reservation-1", .at 60000⟩⟩] .empty

/-- The ledger has abandoned the record, and its event log says that the record is reserved. -/
theorem silentAbandon_not_replayed : ¬∀ ledger, (system .lowered).Reachable ledger → Replays ledger := by
  intro h
  have hreplays := h silentAbandon ((runCalls_run _ _ _).reachable (.init rfl)) "reservation-1"
  have hlog : replay "reservation-1" silentAbandon.events = some (some .reserved) ∧
      stateOf "reservation-1" silentAbandon = some .abandoned := by decide +kernel
  rw [hlog.1, hlog.2] at hreplays
  cases hreplays

end AuraCall.Ledger
