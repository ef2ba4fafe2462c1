import AuraCall.BackendRequests.Authority
import AuraCall.BackendRequests.RequestKeys

/-!
# Backend requests at most once

A second reservation of the same request is a duplicate, since the ledger remembers the first. Only the call that has
reserved a request starts and dispatches it, and it does so once; what each event of a call must find before it is
`Allowed`.

A call relies on the others only for its own history; its script is followed along that history (`Steps`).
-/

namespace AuraCall.BackendRequests

open Script Ledger EventTrace
open Persistence (Host)
open TabLease (TabLeaseEffectState)

/-! ## What must come before an event -/

section Traces

variable (host : Host) (authorities : Nat → OwnedBackendRequestAuthority)

/-- The request an authority is asked for: its account, and the key as the ledger keeps it. -/
def requestIdentity (authority : Nat) (requestKey : String) : Option String × Option String :=
  ((normalizeScope host.table (authorities authority).input.scope).toOption.map aggregateScopeKey,
    some (trim requestKey))

/-- The request whose effect an event is. -/
def dispatchedRequest : AuthorityEvent → Option (Option String × Option String)
  | .dispatched _ authority requestKey _ => some (requestIdentity host authorities authority requestKey)
  | _ => none

/-- An event has an effect on the provider, or says that there was or was none. -/
def AuthorityEvent.concludes : AuthorityEvent → Bool
  | dispatched .. | unsent .. | settled .. => true
  | reserved .. | started .. | leaseAsserted .. | listed .. => false

/-- What must come before an event. -/
def Allowed (before : List AuthorityEvent) : AuthorityEvent → Prop
  | .dispatched call authority requestKey reservationId =>
    (∃ record, record.reservationId = reservationId ∧
      recordIdentity record = requestIdentity host authorities authority requestKey ∧
      [.reserved call record, .started call reservationId, .leaseAsserted call].Sublist before) ∧
    (∀ event ∈ before, dispatchedRequest host authorities event ≠
      some (requestIdentity host authorities authority requestKey)) ∧
    ∀ other, .settled other reservationId .none ∉ before
  | .settled call reservationId effectState =>
    (∃ record, record.reservationId = reservationId ∧ .reserved call record ∈ before) ∧
      (effectState = .none → (∀ other authority requestKey, .dispatched other authority requestKey reservationId ∉ before) ∨
        .unsent call reservationId ∈ before)
  | _ => True

/-- What holds of every state. -/
structure TraceInv (s : AuthorityState) : Prop where
  lawful : Lawful (Allowed host authorities) s.trace
  remembered : ∀ call record, .reserved call record ∈ s.trace → Remembers s.ledger record
  once : ∀ call record other record', .reserved call record ∈ s.trace → .reserved other record' ∈ s.trace →
    record.reservationId = record'.reservationId ∨ recordIdentity record = recordIdentity record' → call = other

variable {host : Host} {authorities : Nat → OwnedBackendRequestAuthority} {s s' : AuthorityState} {call : Nat}

theorem TraceInv.ledger (h : TraceInv host authorities s) (htrace : s'.trace = s.trace)
    (hledger : Remains s.ledger s'.ledger) : TraceInv host authorities s' :=
  ⟨htrace ▸ h.lawful, fun call record hr => hledger record (h.remembered call record (htrace ▸ hr)),
    fun call record other record' hr hr' => h.once call record other record' (htrace ▸ hr) (htrace ▸ hr')⟩

/-- An allowed event comes to the trace, the ledger having moved on. -/
theorem TraceInv.push (h : TraceInv host authorities s) {event : AuthorityEvent} (htrace : s'.trace = s.trace ++ [event])
    (hledger : Remains s.ledger s'.ledger) (hallowed : Allowed host authorities s.trace event)
    (hevent : ∀ call record, event ≠ .reserved call record) : TraceInv host authorities s' := by
  have hold : ∀ call record, .reserved call record ∈ s'.trace → .reserved call record ∈ s.trace := by
    intro call record hr
    rw [htrace, List.mem_append, List.mem_singleton] at hr
    exact hr.resolve_right fun heq => hevent call record heq.symm
  exact ⟨htrace ▸ h.lawful.push hallowed, fun call record hr => hledger record (h.remembered call record (hold _ _ hr)),
    fun call record other record' hr hr' => h.once call record other record' (hold _ _ hr) (hold _ _ hr')⟩

theorem TraceInv.reserve (h : TraceInv host authorities s) {record : ProviderInteractionRecord}
    (htrace : s'.trace = s.trace ++ [.reserved call record]) (hledger : Remains s.ledger s'.ledger)
    (hnew : Remembers s'.ledger record)
    (hfresh : ∀ stored, Remembers s.ledger stored →
      stored.reservationId ≠ record.reservationId ∧ recordIdentity stored ≠ recordIdentity record) :
    TraceInv host authorities s' := by
  have hcases : ∀ other stored, .reserved other stored ∈ s'.trace →
      (other = call ∧ stored = record) ∨ .reserved other stored ∈ s.trace := by
    intro other stored hr
    rw [htrace, List.mem_append, List.mem_singleton] at hr
    rcases hr with hr | hr
    · exact .inr hr
    · cases hr
      exact .inl ⟨rfl, rfl⟩
  have hdiffer : ∀ other stored, .reserved other stored ∈ s.trace →
      ¬(stored.reservationId = record.reservationId ∨ recordIdentity stored = recordIdentity record) :=
    fun other stored hr heq => heq.elim (hfresh _ (h.remembered _ _ hr)).1 (hfresh _ (h.remembered _ _ hr)).2
  refine ⟨htrace ▸ h.lawful.push trivial, fun other stored hr => ?_, fun a ra b rb ha hb heq => ?_⟩
  · rcases hcases other stored hr with ⟨rfl, rfl⟩ | hr
    · exact hnew
    · exact hledger stored (h.remembered other stored hr)
  · rcases hcases a ra ha with ⟨rfl, rfl⟩ | ha <;> rcases hcases b rb hb with ⟨rfl, rfl⟩ | hb
    · rfl
    · exact absurd (heq.imp Eq.symm Eq.symm) (hdiffer b rb hb)
    · exact absurd heq (hdiffer a ra ha)
    · exact h.once a ra b rb ha hb heq

/-- What was dispatched was reserved by the same call. -/
theorem TraceInv.reserved_of_dispatched (h : TraceInv host authorities s) {authority : Nat}
    {requestKey reservationId : String} (hd : .dispatched call authority requestKey reservationId ∈ s.trace) :
    ∃ record, record.reservationId = reservationId ∧
      recordIdentity record = requestIdentity host authorities authority requestKey ∧ .reserved call record ∈ s.trace := by
  obtain ⟨before, after, heq, ⟨record, hid, hidentity, hsub⟩, -⟩ := h.lawful.of_mem hd
  refine ⟨record, hid, hidentity, ?_⟩
  rw [heq]
  exact List.mem_append_left _ (hsub.subset List.mem_cons_self)

/-- What was settled was reserved by the same call. -/
theorem TraceInv.reserved_of_settled (h : TraceInv host authorities s) {reservationId : String}
    {effectState : ProviderInteractionEffectState} (hd : .settled call reservationId effectState ∈ s.trace) :
    ∃ record, record.reservationId = reservationId ∧ .reserved call record ∈ s.trace := by
  obtain ⟨before, after, heq, ⟨record, hid, hr⟩, -⟩ := h.lawful.of_mem hd
  refine ⟨record, hid, ?_⟩
  rw [heq]
  exact List.mem_append_left _ hr

/-! ## The history of a call -/

/-- The events of a call. -/
abbrev own (call : Nat) (s : AuthorityState) : List AuthorityEvent := history AuthorityEvent.call call s.trace

/-- Nothing has come of anything yet. -/
def Idle (events : List AuthorityEvent) : Prop := ∀ event ∈ events, event.concludes = false

/-- The call has reserved the request, and nothing says yet what came of it. -/
structure Pending (call : Nat) (record : ProviderInteractionRecord) (events : List AuthorityEvent) : Prop where
  reserved : .reserved call record ∈ events
  idle : Idle events

/-- The call holds the reservation alone: no event of another concludes it. -/
theorem TraceInv.unconcluded (h : TraceInv host authorities s) {record : ProviderInteractionRecord}
    (hp : Pending call record (own call s)) :
    (∀ other authority requestKey, .dispatched other authority requestKey record.reservationId ∉ s.trace) ∧
      (∀ other effectState, .settled other record.reservationId effectState ∉ s.trace) ∧
      ∀ event ∈ s.trace, dispatchedRequest host authorities event ≠ some (recordIdentity record) := by
  have hr : .reserved call record ∈ s.trace := (mem_history.1 hp.reserved).1
  have hmine : ∀ event ∈ s.trace, event.call = call → event.concludes = false :=
    fun event he hc => hp.idle event (mem_history.2 ⟨he, hc⟩)
  refine ⟨fun other authority requestKey hd => ?_, fun other effectState hd => ?_, fun event he heq => ?_⟩
  · obtain ⟨record', hid, -, hr'⟩ := h.reserved_of_dispatched hd
    have hsame := h.once _ _ _ _ hr' hr (.inl hid)
    cases hmine _ hd hsame
  · obtain ⟨record', hid, hr'⟩ := h.reserved_of_settled hd
    have hsame := h.once _ _ _ _ hr' hr (.inl hid)
    cases hmine _ hd hsame
  · cases event with
    | dispatched other authority requestKey reservationId =>
      obtain ⟨record', -, hidentity, hr'⟩ := h.reserved_of_dispatched he
      have hsame := h.once _ _ _ _ hr' hr (.inr (hidentity.trans (Option.some.inj heq)))
      cases hmine _ he hsame
    | reserved | started | leaseAsserted | unsent | settled | listed => cases heq

end Traces

/-! ## Scripts along the history of their call -/

section Steps

variable {host : Host} {authorities : Nat → OwnedBackendRequestAuthority} {s : AuthorityState} {call : Nat}
  {α β : Type} {H : List AuthorityEvent}

/-- A script among others that leave the history of the call as it is; it leaves theirs. -/
abbrev Steps (host : Host) (authorities : Nat → OwnedBackendRequestAuthority) (call : Nat)
    (Q : Except RequestError α → List AuthorityEvent → Prop) (p : AuthorityScript α) (s : AuthorityState) : Prop :=
  p.Safe (TraceInv host authorities) (fun s s' => own call s' = own call s)
    (fun s s' => ∀ other, other ≠ call → own other s' = own other s) (fun r s' => Q r (own call s')) s

/-- Where an action of the call leads, and with which answer. -/
def Leads (host : Host) (authorities : Nat → OwnedBackendRequestAuthority) (call : Nat)
    (Q : Except RequestError α → List AuthorityEvent → Prop) (s : AuthorityState)
    (outcome : Except RequestError α × AuthorityState) : Prop :=
  TraceInv host authorities outcome.2 ∧ (∀ other, other ≠ call → own other outcome.2 = own other s) ∧
    Q outcome.1 (own call outcome.2)

theorem steps_perform {action : AuthorityState → Except RequestError α × AuthorityState}
    {Q : Except RequestError α → List AuthorityEvent → Prop}
    (h : ∀ s', TraceInv host authorities s' → own call s' = own call s → Leads host authorities call Q s' (action s')) :
    Steps host authorities call Q (perform action) s := h

variable {Q : Except RequestError α → List AuthorityEvent → Prop} {r : Except RequestError α} {s' : AuthorityState}

theorem leads_same (hinv : TraceInv host authorities s) (htrace : s'.trace = s.trace)
    (hledger : Remains s.ledger s'.ledger) (hQ : Q r (own call s)) : Leads host authorities call Q s (r, s') := by
  have hown : ∀ other, own other s' = own other s := fun other => by rw [own, htrace]
  refine ⟨hinv.ledger htrace hledger, fun other _ => hown other, ?_⟩
  rw [hown call]
  exact hQ

theorem leads_push {event : AuthorityEvent} (hinv : TraceInv host authorities s') (htrace : s'.trace = s.trace ++ [event])
    (hcall : event.call = call) (hQ : Q r (own call s ++ [event])) : Leads host authorities call Q s (r, s') := by
  have hevents : ∀ e ∈ [event], e.call = call := fun e he => by
    rw [List.mem_singleton.1 he]
    exact hcall
  refine ⟨hinv, fun other hne => ?_, ?_⟩
  · rw [own, htrace, history_append, history_others hevents hne, List.append_nil]
  · rw [own, htrace, history_append, history_own hevents]
    exact hQ

/-- A script that does no more than assert the lease. -/
def Quiet (host : Host) (authorities : Nat → OwnedBackendRequestAuthority) (call : Nat) (p : AuthorityScript α) : Prop :=
  ∀ (P : List AuthorityEvent → Prop) (s : AuthorityState), (∀ events, P events → P (events ++ [.leaseAsserted call])) →
    P (own call s) → Steps host authorities call (fun _ => P) p s

theorem quiet_done {result : Except RequestError α} : Quiet host authorities call (done result) := fun _ _ _ h => h

theorem Quiet.bind {p : AuthorityScript α} {f : α → AuthorityScript β} (hp : Quiet host authorities call p)
    (hf : ∀ a, Quiet host authorities call (f a)) : Quiet host authorities call (p >>= f) := by
  intro P s hP h
  refine safe_bind.2 ((hp P s hP h).imp fun r s' hs => ?_)
  cases r with
  | ok a => exact hf a P s' hP hs
  | error => exact hs

theorem Quiet.orElse {p : AuthorityScript α} {handler : RequestError → AuthorityScript α}
    (hp : Quiet host authorities call p) (hh : ∀ e, Quiet host authorities call (handler e)) :
    Quiet host authorities call (p.orElse handler) := by
  intro P s hP h
  refine safe_orElse.2 ((hp P s hP h).imp fun r s' hs => ?_)
  cases r with
  | ok a => exact hs
  | error e => exact hh e P s' hP hs

/-- What a quiet script leaves as it was holds where the next one starts. -/
theorem Quiet.steps {p : AuthorityScript α} {f : α → AuthorityScript β}
    {Q : Except RequestError β → List AuthorityEvent → Prop} (hp : Quiet host authorities call p)
    (P : List AuthorityEvent → Prop) (hP : ∀ events, P events → P (events ++ [.leaseAsserted call]))
    (h : P (own call s)) (hf : ∀ a s', P (own call s') → Steps host authorities call Q (f a) s')
    (herror : ∀ e events, P events → Q (.error e) events) : Steps host authorities call Q (p >>= f) s := by
  refine safe_bind.2 ((hp P s hP h).imp fun r s' hs => ?_)
  cases r with
  | ok a => exact hf a s' hs
  | error e => exact herror e _ hs

theorem quiet_perform {action : AuthorityState → Except RequestError α × AuthorityState}
    (h : ∀ s, (action s).2.trace = s.trace ∧ (action s).2.ledger = s.ledger) :
    Quiet host authorities call (perform action) := fun _ _ _ hs =>
  steps_perform fun s' hinv hR =>
    leads_same hinv (h s').1 (fun _ hr => (h s').2 ▸ hr) (hR ▸ hs)

theorem quiet_look {read : AuthorityState → Except RequestError α} : Quiet host authorities call (look read) :=
  have h : Quiet host authorities call (perform fun s => (read s, s)) := quiet_perform fun _ => ⟨rfl, rfl⟩
  h

theorem quiet_change {effect : AuthorityState → AuthorityState}
    (h : ∀ s, (effect s).trace = s.trace ∧ (effect s).ledger = s.ledger) :
    Quiet host authorities call (change effect : AuthorityScript PUnit) :=
  have h : Quiet host authorities call (perform fun s => ((.ok ⟨⟩ : Except RequestError PUnit), effect s)) :=
    quiet_perform h
  h

theorem quiet_now {authority : Nat} : Quiet host authorities call (now authority) :=
  quiet_perform fun _ => ⟨rfl, rfl⟩

theorem quiet_nowString {authority : Nat} : Quiet host authorities call (nowString authority) :=
  quiet_now.bind fun time => by
    cases (toISOString time : Checked DateString) with
    | ok => exact quiet_done
    | error => exact quiet_done

/-- A time that cannot be formatted is no cancellation. -/
theorem nowString_steps {authority : Nat} {P : List AuthorityEvent → Prop} (h : P (own call s)) :
    Steps host authorities call (fun r events => P events ∧ ∀ e, r = .error e → e.cancelledUnsent = false)
      (nowString authority) s := by
  have hnow : Steps host authorities call (fun r events => P events ∧ ∃ time, r = .ok time) (now authority) s :=
    steps_perform fun s' hinv hR => leads_same hinv rfl (fun _ h => h) ⟨hR ▸ h, _, rfl⟩
  refine safe_bind.2 (hnow.imp fun r s₁ hs => ?_)
  obtain ⟨hs, time, rfl⟩ := hs
  cases htext : (toISOString time : Checked DateString) with
  | ok text => simpa only [htext] using ⟨hs, fun e he => nomatch he⟩
  | error stop =>
    simp only [htext]
    refine ⟨hs, fun e he => ?_⟩
    cases he
    rfl

/-- After a lease that was asserted, the event is the last of the history. -/
theorem assertOwnedLease_steps {authority : Nat} {Q : Except RequestError PUnit → List AuthorityEvent → Prop}
    (hok : Q (.ok ⟨⟩) (own call s ++ [.leaseAsserted call])) (herror : ∀ e, Q (.error e) (own call s)) :
    Steps host authorities call Q (assertOwnedLease call authority) s := by
  refine steps_perform fun s' hinv hR => ?_
  cases hlease : s'.surroundings.leaseFailure authority with
  | some error =>
    dsimp only
    exact leads_same hinv rfl (fun _ h => h) (hR ▸ herror error)
  | none =>
    dsimp only
    refine leads_push ?_ rfl rfl (hR ▸ hok)
    exact hinv.push rfl (fun _ h => h) trivial fun _ _ h => by cases h

theorem quiet_assertOwnedLease {authority : Nat} : Quiet host authorities call (assertOwnedLease call authority) :=
  fun _ _ hP h => assertOwnedLease_steps (hP _ h) fun _ => h

/-- **A call of the ledger**: a refusal and an error leave the history, what was carried out may add an event. -/
theorem ledgerCall_steps {action : AuthorityState → Checked α × InteractionLedger} {event : α → Option AuthorityEvent}
    {Q : Except RequestError (Except Refusal α) → List AuthorityEvent → Prop} (hs : own call s = H)
    (hremains : ∀ s', Remains s'.ledger (action s').2)
    (hevent : ∀ s' s'' a e, TraceInv host authorities s' → own call s' = H → (action s').1 = .ok a → event a = some e →
      s''.trace = s'.trace ++ [e] → s''.ledger = (action s').2 → e.call = call ∧ TraceInv host authorities s'')
    (hok : ∀ s' a, TraceInv host authorities s' → (action s').1 = .ok a →
      Q (.ok (.ok a)) (H ++ (event a).toList) ∧ ∀ message, Q (.error (.plain message)) (H ++ (event a).toList))
    (hrefused : ∀ refusal, Q (.ok (.error refusal)) H) (herror : ∀ message, Q (.error (.plain message)) H) :
    Steps host authorities call Q (ledgerCall action event) s := by
  refine steps_perform fun s' hinv hR => ?_
  have hH : own call s' = H := hR.trans hs
  have hrest := hremains s'
  have hdone := hok s'
  have hpush := hevent s'
  cases haction : action s' with
  | mk answer ledger =>
    rw [haction] at hrest hdone hpush
    have hstay : ∀ r, Q r H → Leads host authorities call Q s' (r, { s' with ledger }) :=
      fun r hr => leads_same hinv rfl hrest (hH ▸ hr)
    have hcarried : ∀ a r, answer = .ok a → Q r (H ++ (event a).toList) →
        Leads host authorities call Q s' (r, { s' with ledger, trace := s'.trace ++ (event a).toList }) := by
      intro a r ha hr
      cases he : event a with
      | none =>
        rw [he, Option.toList_none, List.append_nil] at hr
        exact leads_same hinv (by simp) hrest (hH ▸ hr)
      | some e =>
        rw [he, Option.toList_some] at hr
        obtain ⟨hcall, hinv'⟩ := hpush { s' with ledger, trace := s'.trace ++ [e] } a e hinv hH ha he rfl rfl
        exact leads_push hinv' rfl hcall (hH ▸ hr)
    cases hfault : s'.surroundings.ledgerFault with
    | none =>
      dsimp only
      cases answer with
      | ok a => exact hcarried a _ rfl (hdone a hinv rfl).1
      | error stop =>
        cases stop with
        | thrown message => exact hstay _ (herror message)
        | refused refusal => exact hstay _ (hrefused refusal)
    | some fault =>
      cases fault with
      | before message =>
        dsimp only
        exact leads_same hinv rfl (fun _ h => h) (hH ▸ herror message)
      | after message =>
        dsimp only
        cases answer with
        | ok a => exact hcarried a _ rfl ((hdone a hinv rfl).2 message)
        | error stop =>
          cases stop with
          | thrown message => exact hstay _ (herror message)
          | refused refusal => exact hstay _ (herror message)

/-! ## Admission -/

theorem quiet_checkCancellation : Quiet host authorities call (checkCancellation call) := quiet_look

theorem quiet_recentTimes {authority : Nat} (times : List Int) :
    Quiet host authorities call (recentTimes authority times) := by
  induction times with
  | nil => exact quiet_done
  | cons time rest ih => exact quiet_now.bind fun _ => ih.bind fun _ => quiet_done

theorem quiet_retryTime {authority : Nat} : Quiet host authorities call (retryTime host authorities authority) := by
  refine quiet_look.bind fun records => (quiet_recentTimes _).bind fun recent => ?_
  cases recent with
  | nil => exact quiet_now.bind fun _ => quiet_done
  | cons => exact quiet_done

theorem quiet_checkWarnings {authority : Nat} : Quiet host authorities call (checkWarnings host authorities authority) := by
  refine quiet_nowString.bind fun time => quiet_look.bind fun warnings => ?_
  split
  · exact quiet_done
  · exact quiet_done

theorem quiet_awaitRoom {authority : Nat} {retryAt deadlineMs : Int} :
    Quiet host authorities call (awaitRoom host authorities call authority retryAt deadlineMs) :=
  quiet_checkCancellation.bind fun _ => quiet_assertOwnedLease.bind fun _ => quiet_checkWarnings.bind fun _ =>
    quiet_now.bind fun _ => quiet_now.bind fun _ =>
      quiet_look.orElse fun _ => quiet_checkCancellation.bind fun _ => quiet_done

theorem quiet_awaitBudget {authority : Nat} {retryAt deadlineMs : Int} (rounds : Nat) :
    Quiet host authorities call (awaitBudget host authorities call authority retryAt deadlineMs rounds) := by
  induction rounds with
  | zero => exact quiet_done
  | succ rounds ih =>
    refine quiet_now.bind fun time => ?_
    split
    · exact quiet_awaitRoom.bind fun _ => ih
    · exact quiet_done

theorem Idle.push {event : AuthorityEvent} (h : Idle H) (he : event.concludes = false) : Idle (H ++ [event]) := by
  intro e hm
  rcases List.mem_append.1 hm with hm | hm
  · exact h e hm
  · rw [List.mem_singleton.1 hm]
    exact he

theorem Pending.push {record : ProviderInteractionRecord} {event : AuthorityEvent} (h : Pending call record H)
    (he : event.concludes = false) : Pending call record (H ++ [event]) :=
  ⟨List.mem_append_left _ h.reserved, Idle.push h.idle he⟩

/-- What an attempt to reserve has led to. -/
def Admits (host : Host) (authorities : Nat → OwnedBackendRequestAuthority) (call authority : Nat) (requestKey : String)
    (r : Except RequestError (Except Refusal ProviderInteractionAdmission)) (events : List AuthorityEvent) : Prop :=
  match r with
  | .ok (.ok ⟨_, true⟩) | .ok (.error _) => Idle events
  | .ok (.ok ⟨record, false⟩) =>
    Pending call record events ∧ recordIdentity record = requestIdentity host authorities authority requestKey
  | .error _ => True

theorem reserveRequest_steps {authority : Nat} {requestKey : String} {time : DateString} (h : Idle (own call s)) :
    Steps host authorities call (Admits host authorities call authority requestKey)
      (reserveRequest host authorities call authority requestKey time) s := by
  refine ledgerCall_steps rfl (fun s' => reserve_remains _ _) (fun s' s'' a e hinv hown ha he htrace hledger => ?_)
    (fun s' a hinv ha => ⟨?_, fun _ => trivial⟩) (fun _ => h) fun _ => trivial
  · obtain ⟨record, duplicate⟩ := a
    cases duplicate with
    | true => simp at he
    | false =>
      simp only [Bool.false_eq_true, if_false, Option.some.injEq] at he
      subst he
      obtain ⟨-, hnew, hfresh⟩ := reserve_request rfl ha
      exact ⟨rfl, hinv.reserve htrace (hledger ▸ reserve_remains _ _) (hledger ▸ hnew) hfresh⟩
  · obtain ⟨record, duplicate⟩ := a
    cases duplicate with
    | true => simpa [Admits] using h
    | false =>
      obtain ⟨⟨scope, hscope, hidentity⟩, -, -⟩ := reserve_request rfl ha
      refine ⟨⟨by simp, Idle.push h rfl⟩, ?_⟩
      simp only [reservationInput] at hscope
      rw [hidentity, requestIdentity, hscope]
      rfl

theorem attemptReservation_steps {authority : Nat} {requestKey : String} (h : Idle (own call s)) :
    Steps host authorities call (Admits host authorities call authority requestKey)
      (attemptReservation host authorities call authority requestKey) s :=
  have hidle : ∀ events, Idle events → Idle (events ++ [.leaseAsserted call]) := fun _ h => h.push rfl
  quiet_checkCancellation.steps Idle hidle h
    (fun _ _ h => quiet_assertOwnedLease.steps Idle hidle h
      (fun _ _ h => quiet_nowString.steps Idle hidle h (fun _ _ h => reserveRequest_steps h) fun _ _ _ => trivial)
      fun _ _ _ => trivial)
    fun _ _ _ => trivial

theorem mayRetry_steps {authority : Nat} {requestKey : String} {deadlineMs : Int}
    {admission : Except Refusal ProviderInteractionAdmission}
    (h : Admits host authorities call authority requestKey (.ok admission) (own call s)) :
    Steps host authorities call
      (fun r events => (r = .ok true → Idle events) ∧
        (r = .ok false → Admits host authorities call authority requestKey (.ok admission) events))
      (mayRetry authority deadlineMs admission) s := by
  have hstable : ∀ events, Admits host authorities call authority requestKey (.ok admission) events →
      Admits host authorities call authority requestKey (.ok admission) (events ++ [.leaseAsserted call]) := by
    intro events hadmits
    rcases admission with refusal | ⟨record, duplicate⟩
    · exact Idle.push hadmits rfl
    · cases duplicate with
      | true => exact Idle.push hadmits rfl
      | false => exact ⟨hadmits.1.push rfl, hadmits.2⟩
  unfold mayRetry
  split
  · rename_i hover
    have hidle : ∀ events, Admits host authorities call authority requestKey (.ok admission) events → Idle events := by
      intro events hs
      rcases admission with refusal | admitted
      · exact hs
      · cases hover
    exact quiet_now.steps _ hstable h (fun time s' hs => ⟨fun _ => hidle _ hs, fun _ => hs⟩) fun e events _ =>
      ⟨(fun h => nomatch h), fun h => nomatch h⟩
  · exact ⟨(fun h => nomatch h), fun _ => h⟩

theorem reserveWithin_steps {authority : Nat} {requestKey : String} {deadlineMs : Int} {waits : Nat} (rounds : Nat) :
    ∀ s, Idle (own call s) → Steps host authorities call (Admits host authorities call authority requestKey)
      (reserveWithin host authorities call authority requestKey deadlineMs waits rounds) s := by
  have hidle : ∀ events, Idle events → Idle (events ++ [.leaseAsserted call]) := fun _ h => h.push rfl
  induction rounds with
  | zero => exact fun _ _ => trivial
  | succ rounds ih =>
    refine fun s h => safe_bind.2 ((attemptReservation_steps h).imp fun r s₁ hr => ?_)
    cases r with
    | error => trivial
    | ok admission =>
      refine safe_bind.2 ((mayRetry_steps hr).imp fun r s₂ hr => ?_)
      cases r with
      | error => trivial
      | ok retry =>
        cases retry with
        | false => exact hr.2 rfl
        | true =>
          exact quiet_retryTime.steps Idle hidle (hr.1 rfl)
            (fun _ _ h => (quiet_awaitBudget waits).steps Idle hidle h (fun _ s' h => ih s' h) fun _ _ _ => trivial)
            fun _ _ _ => trivial

/-! ## Dispatch -/

section Dispatch

variable {authority : Nat} {requestKey : String} {record : ProviderInteractionRecord}

/-- The events that must come before the effect. -/
def startedEvents (call : Nat) (record : ProviderInteractionRecord) : List AuthorityEvent :=
  [.reserved call record, .started call record.reservationId]

/-- A reservation was made and started, and nothing came of it yet. -/
structure Started (call : Nat) (record : ProviderInteractionRecord) (events : List AuthorityEvent) : Prop where
  pending : Pending call record events
  ordered : (startedEvents call record).Sublist events

theorem Started.push {event : AuthorityEvent} (h : Started call record H) (he : event.concludes = false) :
    Started call record (H ++ [event]) :=
  ⟨h.pending.push he, h.ordered.trans (List.sublist_append_left _ _)⟩

theorem startRequest_steps (h : Pending call record (own call s)) :
    Steps host authorities call (fun r events => r = .ok ⟨⟩ → Started call record events)
      (startRequest call authority record.reservationId) s := by
  refine quiet_nowString.steps (Pending call record) (fun _ h => h.push rfl) h (fun time s₁ h => ?_)
    fun _ _ _ h => by cases h
  refine safe_bind.2 ?_
  have hcall : Steps host authorities call
      (fun r events => ∀ a, r = .ok (.ok a) → Started call record events)
      (ledgerCall (fun s => start ⟨record.reservationId, time⟩ s.ledger)
        fun _ => some (.started call record.reservationId)) s₁ := by
    refine ledgerCall_steps rfl (fun s' => start_remains _) (fun s' s'' a e hinv hown ha he htrace hledger => ?_)
      (fun s' a hinv ha => ⟨fun _ _ => ?_, fun _ _ h => by cases h⟩) (fun _ _ h => by cases h) fun _ _ h => by cases h
    · cases he
      exact ⟨rfl, hinv.push htrace (hledger ▸ start_remains _) trivial fun _ _ h => by cases h⟩
    · refine ⟨h.push rfl, ?_⟩
      exact (List.singleton_sublist.2 h.reserved).append (List.Sublist.refl _)
  refine hcall.imp fun r s₂ hr => ?_
  cases r with
  | error => exact fun h => by cases h
  | ok answer =>
    cases answer with
    | error refusal => exact fun h => by cases h
    | ok a => exact fun _ => hr a rfl

/-- A reservation that was made by the call is settled by it; as having no effect only when it had none. -/
theorem settleRequest_steps {settlement : EffectSettlement} (hr : .reserved call record ∈ own call s)
    (hnone : settlement.effectState = .none →
      Pending call record (own call s) ∨ .unsent call record.reservationId ∈ own call s) :
    Steps host authorities call
      (fun r events => .reserved call record ∈ events ∧ ∀ e, r = .error e → e.cancelledUnsent = false)
      (settleRequest call authority record.reservationId settlement) s := by
  refine safe_bind.2 ((nowString_steps (P := fun events => .reserved call record ∈ events ∧ (settlement.effectState = .none →
    Pending call record events ∨ .unsent call record.reservationId ∈ events)) ⟨hr, hnone⟩).imp fun r s₁ hs => ?_)
  obtain ⟨⟨hr, hnone⟩, hplain⟩ := hs
  cases r with
  | error e => exact ⟨hr, fun e he => hplain e (by cases he; rfl)⟩
  | ok time =>
    refine safe_bind.2 ?_
    have hcall : Steps host authorities call
        (fun r events => .reserved call record ∈ events ∧ ∀ e, r = .error e → e.cancelledUnsent = false)
        (ledgerCall (fun s => settle
            { reservationId := record.reservationId, settledAt := time, effectState := settlement.effectState
              outcome := settlement.outcome, notInFlight := settlement.notInFlight } s.ledger)
          fun _ => some (.settled call record.reservationId settlement.effectState)) s₁ := by
      refine ledgerCall_steps rfl (fun s' => settle_remains _) (fun s' s'' a e hinv hown ha he htrace hledger => ?_)
        (fun s' a hinv ha => ⟨⟨List.mem_append_left _ hr, ?_⟩, fun _ => ⟨List.mem_append_left _ hr, ?_⟩⟩)
        (fun _ => ⟨hr, ?_⟩) fun _ => ⟨hr, ?_⟩
      · cases he
        refine ⟨rfl, hinv.push htrace (hledger ▸ settle_remains _) ⟨⟨record, rfl, ?_⟩, fun hn => ?_⟩ fun _ _ h => by cases h⟩
        · exact (mem_history.1 (hown ▸ hr)).1
        · rcases hnone hn with hp | hu
          · exact .inl (hinv.unconcluded (hown ▸ hp)).1
          · exact .inr (mem_history.1 (hown ▸ hu)).1
      all_goals
        intro e he
        cases he
        try rfl
    refine hcall.imp fun r s₂ hr => ?_
    cases r with
    | error e => exact ⟨hr.1, fun e he => hr.2 e (by cases he; rfl)⟩
    | ok answer =>
      cases answer with
      | error refusal =>
        refine ⟨hr.1, fun e he => ?_⟩
        cases he
        rfl
      | ok a => exact ⟨hr.1, fun e he => nomatch he⟩

/-- The `catch` ends in an error, whatever happens. -/
theorem settleFailure_steps {dispatched : Bool} {error : RequestError} (hr : .reserved call record ∈ own call s)
    (hpending : dispatched = false → Pending call record (own call s))
    (hunsent : error.cancelledUnsent = true → dispatched = true → .unsent call record.reservationId ∈ own call s) :
    Steps host authorities call (fun r _ => ∀ a, r ≠ .ok a)
      (settleFailure call authority record.reservationId dispatched error) s := by
  have hnone : (failureSettlement error dispatched).effectState = .none →
      Pending call record (own call s) ∨ .unsent call record.reservationId ∈ own call s := by
    unfold failureSettlement
    split
    · rename_i h
      intro _
      cases dispatched with
      | false => exact .inl (hpending rfl)
      | true => exact .inr (hunsent (h.2.resolve_left (by decide)) rfl)
    · exact fun h => nomatch h
  refine safe_bind.2 (safe_orElse.2 ((settleRequest_steps hr hnone).imp fun r s₁ _ => ?_))
  cases r with
  | ok a => exact fun _ h => nomatch h
  | error e => exact fun _ h => nomatch h

/-- The effect is called once its request was reserved and started and the lease was asserted after that. -/
theorem callEffect_steps (h : Started call record (own call s))
    (hlease : (startedEvents call record ++ [AuthorityEvent.leaseAsserted call]).Sublist (own call s))
    (hidentity : recordIdentity record = requestIdentity host authorities authority requestKey) :
    Steps host authorities call (fun r events => .reserved call record ∈ events ∧ r = .ok ⟨⟩)
      (callEffect call authority requestKey record.reservationId) s := by
  refine steps_perform fun s' hinv hR => leads_push (hinv.push rfl (fun _ h => h) ?_ fun _ _ h => nomatch h) rfl rfl
    ⟨List.mem_append_left _ (hR ▸ h.pending.reserved), rfl⟩
  have hfree := hinv.unconcluded (hR ▸ h.pending)
  exact ⟨⟨record, rfl, hidentity, (hR ▸ hlease : _).trans history_sublist⟩, hidentity ▸ hfree.2.2,
    fun other => hfree.2.1 other .none⟩

theorem awaitEffect_steps (hr : .reserved call record ∈ own call s) :
    Steps host authorities call
      (fun r events => .reserved call record ∈ events ∧
        ∀ e, r = .error e → e.cancelledUnsent = true → .unsent call record.reservationId ∈ events)
      (awaitEffect call record.reservationId) s := by
  refine steps_perform fun s' hinv hR => ?_
  have hr' : .reserved call record ∈ own call s' := hR ▸ hr
  cases hfailure : s'.surroundings.effectFailure call with
  | none => exact leads_same hinv rfl (fun _ h => h) ⟨hr', fun _ h => nomatch h⟩
  | some error =>
    dsimp only
    split
    · exact leads_push (hinv.push rfl (fun _ h => h) trivial fun _ _ h => nomatch h) rfl rfl
        ⟨List.mem_append_left _ hr', fun _ _ _ => List.mem_append_right _ List.mem_cons_self⟩
    · rename_i hsent
      refine leads_same hinv rfl (fun _ h => h) ⟨hr', fun e he hunsent => ?_⟩
      cases he
      exact absurd hunsent hsent

/-- The lease and the signal are looked at again before the effect. -/
theorem recheck_steps (h : Started call record (own call s)) :
    Steps host authorities call
      (fun r events => Started call record events ∧ (r = .ok ⟨⟩ →
        (startedEvents call record ++ [AuthorityEvent.leaseAsserted call]).Sublist events))
      (do
        assertOwnedLease call authority
        checkCancellation call : AuthorityScript PUnit) s := by
  refine safe_bind.2 ?_
  have hlease : Steps host authorities call
      (fun r events => Started call record events ∧ (r = .ok ⟨⟩ →
        (startedEvents call record ++ [AuthorityEvent.leaseAsserted call]).Sublist events))
      (assertOwnedLease call authority) s :=
    assertOwnedLease_steps ⟨h.push rfl, fun _ => h.ordered.append (List.Sublist.refl _)⟩
      fun e => ⟨h, fun he => nomatch he⟩
  refine hlease.imp fun r s₁ hs => ?_
  cases r with
  | error e => exact ⟨hs.1, fun he => nomatch he⟩
  | ok _ =>
    obtain ⟨hstarted, hordered⟩ := hs
    have hordered := hordered rfl
    refine (quiet_checkCancellation (fun events => Started call record events ∧
      (startedEvents call record ++ [AuthorityEvent.leaseAsserted call]).Sublist events) s₁
      (fun events h => ⟨h.1.push rfl, h.2.trans (List.sublist_append_left _ _)⟩) ⟨hstarted, hordered⟩).imp ?_
    exact fun r s₂ hs => ⟨hs.1, fun _ => hs.2⟩

theorem settledEffect_steps (h : Started call record (own call s))
    (hlease : (startedEvents call record ++ [AuthorityEvent.leaseAsserted call]).Sublist (own call s))
    (hidentity : recordIdentity record = requestIdentity host authorities authority requestKey) :
    Steps host authorities call
      (fun r events => .reserved call record ∈ events ∧
        ∀ e, r = .error e → e.cancelledUnsent = true → .unsent call record.reservationId ∈ events)
      (do
        runEffect call authority requestKey record.reservationId
        settleRequest call authority record.reservationId ⟨.settled, .succeeded, by decide⟩ : AuthorityScript PUnit)
      s := by
  have hsettle : ∀ s₁, .reserved call record ∈ own call s₁ → Steps host authorities call
      (fun r events => .reserved call record ∈ events ∧
        ∀ e, r = .error e → e.cancelledUnsent = true → .unsent call record.reservationId ∈ events)
      (settleRequest call authority record.reservationId ⟨.settled, .succeeded, by decide⟩) s₁ := by
    intro s₁ hr
    have hsettled : Steps host authorities call
        (fun r events => .reserved call record ∈ events ∧ ∀ e, r = .error e → e.cancelledUnsent = false)
        (settleRequest call authority record.reservationId ⟨.settled, .succeeded, by decide⟩) s₁ :=
      settleRequest_steps hr fun h => nomatch h
    refine hsettled.imp fun r s₂ hs => ⟨hs.1, fun e he hunsent => ?_⟩
    rw [hs.2 e he] at hunsent
    cases hunsent
  refine safe_bind.2 (safe_bind.2 ((callEffect_steps h hlease hidentity).imp fun r s₁ hs => ?_))
  obtain ⟨hr, rfl⟩ := hs
  refine (awaitEffect_steps hr).imp fun r s₂ hs => ?_
  cases r with
  | error e => exact hs
  | ok _ => exact hsettle s₂ hs.1

theorem dispatchRequest_steps (h : Pending call record (own call s))
    (hidentity : recordIdentity record = requestIdentity host authorities authority requestKey) :
    Steps host authorities call (fun _ _ => True) (dispatchRequest call authority requestKey record.reservationId) s := by
  refine quiet_assertOwnedLease.steps (Pending call record) (fun _ h => h.push rfl) h (fun _ s₁ h => ?_)
    fun _ _ _ => trivial
  refine safe_bind.2 ((startRequest_steps h).imp fun r s₂ hstarted => ?_)
  cases r with
  | error => trivial
  | ok _ =>
    refine safe_bind.2 (safe_orElse.2 ((recheck_steps (hstarted rfl)).imp fun r s₃ hs => ?_))
    cases r with
    | error e =>
      have hfailure : Steps host authorities call (fun r _ => ∀ a, r ≠ .ok a)
          (settleFailure call authority record.reservationId false e) s₃ :=
        settleFailure_steps hs.1.pending.reserved (fun _ => hs.1.pending) fun _ h => nomatch h
      refine hfailure.imp fun r s₄ hr => ?_
      cases r with
      | error => trivial
      | ok a => exact absurd rfl (hr a)
    | ok _ =>
      refine safe_orElse.2 ((settledEffect_steps hs.1 (hs.2 rfl) hidentity).imp fun r s₄ hr => ?_)
      cases r with
      | ok _ => trivial
      | error e =>
        have hfailure : Steps host authorities call (fun r _ => ∀ a, r ≠ .ok a)
            (settleFailure call authority record.reservationId true e) s₄ :=
          settleFailure_steps hr.1 (fun h => nomatch h) fun hu _ => hr.2 e rfl hu
        exact hfailure.imp fun _ _ _ => trivial

end Dispatch

theorem admitRequest_steps {authority : Nat} {requestKey : String} {waits rounds : Nat} (h : Idle (own call s)) :
    Steps host authorities call (fun _ _ => True) (admitRequest host authorities call authority requestKey waits rounds) s := by
  refine quiet_now.steps Idle (fun _ h => h.push rfl) h (fun time s₁ h => ?_) fun _ _ _ => trivial
  refine safe_bind.2 ((reserveWithin_steps rounds s₁ h).imp fun r s₂ hr => ?_)
  cases r with
  | error => trivial
  | ok admission =>
    rcases admission with refusal | ⟨record, duplicate⟩
    · have hdeny : Quiet host authorities call (denyAdmission authority refusal) := by
        unfold denyAdmission
        split
        · refine Quiet.bind (quiet_change ?_) fun _ => quiet_done
          exact fun _ => ⟨rfl, rfl⟩
        · exact quiet_done
      exact hdeny (fun _ => True) s₂ (fun _ _ => trivial) trivial
    · cases duplicate with
      | true => trivial
      | false => exact dispatchRequest_steps hr.1 hr.2

/-! ## Reconciliation -/

/-- A record carries the account, the lease and the operation of the owner. -/
def OwnedBy (host : Host) (input : AuthorityInput) (record : ProviderInteractionRecord) : Prop :=
  (normalizeKey host.table input.scope.provider "provider" : Checked String) = .ok record.scope.provider ∧
    (normalizeKey host.table input.scope.tenantKey "tenantKey" : Checked String) = .ok record.scope.tenantKey ∧
    record.tabLeaseId = some input.tabLeaseId ∧ record.operationId = input.operationId

theorem listRecords_steps {authority : Nat} :
    Steps host authorities call
      (fun r events => ∀ records, r = .ok records → ∃ ledger, .listed call ledger ∈ events ∧
        list host.table (some (authorities authority).input.scope.provider)
          (some (authorities authority).input.scope.tenantKey) ledger = .ok records)
      (listRecords host authorities call authority) s := by
  have hcall : Steps host authorities call
      (fun r events => ∀ records ledger, r = .ok (.ok (records, ledger)) → .listed call ledger ∈ events ∧
        list host.table (some (authorities authority).input.scope.provider)
          (some (authorities authority).input.scope.tenantKey) ledger = .ok records)
      (ledgerCall (fun s => ((list host.table (some (authorities authority).input.scope.provider)
          (some (authorities authority).input.scope.tenantKey) s.ledger).map (·, s.ledger), s.ledger))
        fun result => some (.listed call result.2)) s := by
    refine ledgerCall_steps rfl (fun s' _ h => h) (fun s' s'' a e hinv hown ha he htrace hledger => ?_)
      (fun s' a hinv ha => ⟨fun records ledger h => ?_, fun _ _ _ h => nomatch h⟩) (fun _ _ _ h => nomatch h)
      fun _ _ _ h => nomatch h
    · cases he
      exact ⟨rfl, hinv.push htrace (fun _ h => hledger ▸ h) trivial fun _ _ h => nomatch h⟩
    · cases h
      refine ⟨List.mem_append_right _ List.mem_cons_self, ?_⟩
      cases hlist : list host.table (some (authorities authority).input.scope.provider)
          (some (authorities authority).input.scope.tenantKey) s'.ledger with
      | error stop =>
        rw [hlist] at ha
        cases ha
      | ok listed =>
        rw [hlist] at ha
        cases ha
        exact hlist
  refine safe_bind.2 (hcall.imp fun r s₁ hr => ?_)
  cases r with
  | error => exact fun _ h => nomatch h
  | ok answer =>
    cases answer with
    | error refusal => exact fun _ h => nomatch h
    | ok result =>
      intro records h
      cases h
      exact ⟨result.2, hr result.1 result.2 rfl⟩

/-- A list of the owner's account has every record of the owner. -/
theorem mem_list {input : AuthorityInput} {ledger : InteractionLedger} {records : List ProviderInteractionRecord}
    (h : list host.table (some input.scope.provider) (some input.scope.tenantKey) ledger = .ok records)
    {record : ProviderInteractionRecord} (hm : record ∈ ledger.records) (howned : OwnedBy host input record) :
    record ∈ records := by
  obtain ⟨hprovider, htenant, -, -⟩ := howned
  simp only [list, Option.mapM_some, bind_eq_ok, pure_eq_ok, Functor.map, Except.map] at h
  obtain ⟨provider, hp, tenant, ht, rfl⟩ := h
  rw [hprovider] at hp
  rw [htenant] at ht
  cases hp
  cases ht
  simpa using KeyedMap.mem_def.1 hm

/-- The call has listed a ledger in which no record of the owner may have an effect, the parent's apart. -/
def ListedNoEffect (host : Host) (input : AuthorityInput) (call : Nat) (events : List AuthorityEvent) : Prop :=
  ∃ ledger, .listed call ledger ∈ events ∧ ∀ record ∈ ledger.records, OwnedBy host input record →
    some record.reservationId ≠ input.parentReservationId →
      record.state ≠ .started ∧ record.effectState ≠ .outcomeUnknown

theorem reconcileEffectState_steps {authority : Nat} {effectState : TabLeaseEffectState} {failure : RequestError} :
    Steps host authorities call
      (fun r events => r = .ok .none → ListedNoEffect host (authorities authority).input call events)
      (reconcileEffectState host authorities call authority effectState failure) s := by
  unfold reconcileEffectState
  split
  · exact fun h => nomatch h
  · refine safe_bind.2 (listRecords_steps.imp fun r s₁ hr => ?_)
    cases r with
    | error => exact fun h => nomatch h
    | ok listed =>
      dsimp only
      split
      · exact fun h => nomatch h
      · rename_i hany
        obtain ⟨ledger, hlisted, hlist⟩ := hr listed rfl
        have hnone : ListedNoEffect host (authorities authority).input call (own call s₁) := by
          refine ⟨ledger, hlisted, fun record hm howned hparent => ?_⟩
          have hin : record ∈ listed.filter (reconciles (authorities authority).input) := by
            refine List.mem_filter.2 ⟨mem_list hlist hm howned, ?_⟩
            simp [reconciles, hparent, howned.2.2.1, howned.2.2.2]
          simpa [mayHaveEffect] using fun heffect => hany (List.any_eq_true.2 ⟨record, hin, heffect⟩)
        have hstable : ∀ events, ListedNoEffect host (authorities authority).input call events →
            ListedNoEffect host (authorities authority).input call (events ++ [.leaseAsserted call]) :=
          fun events ⟨ledger, hmem, hrest⟩ => ⟨ledger, List.mem_append_left _ hmem, hrest⟩
        change Steps host authorities call
          (fun r events => r = .ok TabLeaseEffectState.none →
            ListedNoEffect host (authorities authority).input call events) _ s₁
        refine quiet_look.steps _ hstable hnone (fun denied s₂ h => ?_) fun _ _ _ h => nomatch h
        split
        · exact fun h => nomatch h
        · exact fun _ => h

/-- A reconciliation that reports no effect has found none. -/
theorem authorityCall_steps (input : AuthorityCall) (h : Idle (own call s)) :
    Steps host authorities call
      (fun r events => ∀ authority, r = .ok (.reconciled authority .none) →
        ListedNoEffect host (authorities authority).input call events)
      (authorityCall host authorities call input) s := by
  cases input with
  | admitRequest authority requestKey waits rounds =>
    refine safe_bind.2 ((admitRequest_steps h).imp fun r s₁ _ => ?_)
    cases r with
    | error => exact fun _ h => nomatch h
    | ok _ => exact fun _ h => nomatch h
  | reconcile authority effectState failure =>
    refine safe_bind.2 (reconcileEffectState_steps.imp fun r s₁ hr => ?_)
    cases r with
    | error => exact fun _ h => nomatch h
    | ok reported =>
      intro authority' h
      cases h
      exact hr rfl

end Steps

/-! ## All runs -/

section Runs

variable {host : Host} {authorities : Nat → OwnedBackendRequestAuthority}
  {c : Threads AuthorityState RequestError AuthorityReply}

theorem authorities_compatible :
    Threads.Compatible Fresh (authorityCall host authorities) (disturb host) (TraceInv host authorities)
      (fun call s s' => own call s' = own call s) (fun call s s' => ∀ other, other ≠ call → own other s' = own other s)
      (fun call _ r s => ∀ authority, r = .ok (.reconciled authority .none) →
        ListedNoEffect host (authorities authority).input call (own call s)) where
  refl _ _ := rfl
  trans h h' := h'.trans h
  init s hs := by
    have hnone : ∀ event, event ∉ s.trace := fun event he => by
      rw [hs.1] at he
      cases he
    exact ⟨hs.1 ▸ lawful_nil, fun _ _ h => absurd h (hnone _), fun _ _ _ _ h => absurd h (hnone _)⟩
  outside {s event s'} hinv h := by
    cases event with
    | surroundings surroundings =>
      cases h
      exact ⟨hinv.ledger rfl fun _ h => h, fun _ => rfl⟩
    | ledger call =>
      cases h
      exact ⟨hinv.ledger rfl (remains_of_effect (perform_effect host.table call s.ledger)), fun _ => rfl⟩
  others hne _ h := h _ hne.symm
  call call input s₀ s hs₀ hown _ := by
    refine authorityCall_steps input fun event he => ?_
    have hempty : own call s₀ = [] := by rw [own, hs₀.1, history_nil]
    rw [hown, hempty] at he
    cases he

/-- **Backend requests run at most once.** In every run no request is dispatched twice; before each dispatch, its call
has reserved the request, started the reservation, and then asserted the lease. A reservation that is settled as having
no effect is never dispatched, or its effect was cancelled before it was sent. And where a reconciliation reports no
effect, it has listed a ledger in which no record of the owner, other than the parent's, was started or has an unknown
outcome. -/
theorem backend_requests_at_most_once (hc : (authoritySystem host authorities).Reachable c) :
    (c.state.trace.filterMap (dispatchedRequest host authorities)).Nodup ∧
    (∀ before after call authority requestKey reservationId,
      c.state.trace = before ++ .dispatched call authority requestKey reservationId :: after →
        ∃ record, record.reservationId = reservationId ∧
          recordIdentity record = requestIdentity host authorities authority requestKey ∧
          [.reserved call record, .started call reservationId, .leaseAsserted call].Sublist before) ∧
    (∀ call reservationId, .settled call reservationId .none ∈ c.state.trace →
      (∀ other authority requestKey, .dispatched other authority requestKey reservationId ∉ c.state.trace) ∨
        .unsent call reservationId ∈ c.state.trace) ∧
    ∀ call authority, c.scripts[call]? = some (.done (.ok (.reconciled authority .none))) →
      ListedNoEffect host (authorities authority).input call c.state.trace := by
  have hinv := (Threads.safe_of_reachable authorities_compatible hc).inv
  refine ⟨?_, fun before after call authority requestKey reservationId heq => ?_, fun call reservationId hsettled => ?_,
    fun call authority hdone => ?_⟩
  · refine hinv.lawful.nodup fun before event key hallowed htag e he heq => ?_
    cases event with
    | dispatched call authority requestKey reservationId => exact hallowed.2.1 e he (heq.trans htag.symm)
    | reserved | started | leaseAsserted | unsent | settled | listed => cases htag
  · exact (hinv.lawful before _ after heq).1
  · obtain ⟨before, after, heq, -, hnone⟩ := hinv.lawful.of_mem hsettled
    rcases hnone rfl with hfree | hunsent
    · refine .inl fun other authority requestKey hd => ?_
      rw [heq, List.mem_append, List.mem_cons] at hd
      rcases hd with hd | hd | hd
      · exact hfree other authority requestKey hd
      · cases hd
      · obtain ⟨done, rest, hsplit⟩ := List.append_of_mem hd
        have hallowed := hinv.lawful (before ++ .settled call reservationId .none :: done) _ rest
          (by rw [heq, hsplit, List.append_assoc, List.cons_append])
        exact hallowed.2.2 call (List.mem_append_right _ List.mem_cons_self)
    · exact .inr (heq ▸ List.mem_append_left _ hunsent)
  · obtain ⟨input, s, hs, hlisted⟩ := Threads.end_of_reachable authorities_compatible hc hdone
    obtain ⟨ledger, hmem, hrest⟩ := hlisted authority rfl
    exact ⟨ledger, (mem_history.1 (hs ▸ hmem)).1, hrest⟩

end Runs

/-! ## A prompt and a backend request of its page -/

section Sample

def sampleHost : Host := ⟨.lowered, fun _ _ => true⟩

/-- The requests of a prompt, whose own reservation is the parent. -/
def promptAuthority : OwnedBackendRequestAuthority where
  input := {
    scope := sampleScope, workloadId := "chat:1", operationId := "operation", tabLeaseId := "lease"
    backendRequestLimit := some (.finite 30), observeWithoutLocalCeiling := false
    parentReservationId := some "prompt", budgetWaitTimeoutMs := none }
  budgetWaitTimeoutMs := 0
  limited := nofun
  positive limit h := by
    cases h
    decide
  waits := by decide

def promptKey : String := "sha256:0123456789abcdef0123456789abcdef0123456789abcdef0123456789abcdef"

/-- Nothing fails; the next reservation gets the name. -/
def calm (createReservationId : String) : Surroundings where
  ledgerFault := none
  leaseFailure _ := none
  aborted _ := false
  effectFailure _ := none
  clock := 1000
  createReservationId

def quietState : AuthorityState := ⟨.empty, calm "request", fun _ => none, fun _ => false, []⟩

/-- The prompt is reserved and started; its page sends a request, and then the effects are reconciled. -/
def promptSchedule : List (Threads.Event AuthorityCall Disturbance) :=
  [.other (.ledger ⟨"prompt", .reserve {
      scope := sampleScope, workloadId := "chat:1", operationId := "operation", tabLeaseId := some "lease"
      interactionClass := .promptContinuation, mutability := .providerMutating, startsNewConversation := false
      now := .at 1000, reservationTtlMs := .finite 30000, policy := ⟨none, none, none, none, none⟩ }⟩),
    .other (.ledger ⟨"", .start ⟨"prompt", .at 1000⟩⟩), .start (.admitRequest 0 promptKey 0 1)] ++
    List.replicate 14 (.act 0) ++ [.start (.reconcile 0 .none (.value "undefined"))] ++ List.replicate 2 (.act 1)

def promptRun : Option (Threads AuthorityState RequestError AuthorityReply) :=
  TransitionSystem.execute (Threads.next (authorityCall sampleHost fun _ => promptAuthority) (disturb sampleHost))
    ⟨quietState, []⟩ promptSchedule

/-- What a call has reported. -/
def reply (c : Threads AuthorityState RequestError AuthorityReply) (call : Nat) : Option AuthorityReply :=
  match c.scripts[call]? with
  | some (.done (.ok reply)) => some reply
  | _ => none

theorem done_of_reply {c : Threads AuthorityState RequestError AuthorityReply} {call : Nat} {answer : AuthorityReply}
    (h : reply c call = some answer) : c.scripts[call]? = some (.done (.ok answer)) := by
  unfold reply at h
  split at h
  · rename_i hdone
    cases h
    exact hdone
  · cases h

/-- The request runs once, and the reconciliation finds no effect besides that of the prompt. -/
theorem promptRequest_once : ∃ c, promptRun = some c ∧
    (c.state.trace.filterMap (dispatchedRequest sampleHost fun _ => promptAuthority)).length = 1 ∧
    (c.state.trace.filterMap (dispatchedRequest sampleHost fun _ => promptAuthority)).Nodup ∧
    ListedNoEffect sampleHost promptAuthority.input 1 c.state.trace := by
  have hinit : (authoritySystem sampleHost fun _ => promptAuthority).Reachable ⟨quietState, []⟩ :=
    .init ⟨⟨rfl, fun _ => rfl, fun _ => rfl⟩, rfl⟩
  have hobserved : promptRun.bind (fun c => if
      (c.state.trace.filterMap (dispatchedRequest sampleHost fun _ => promptAuthority)).length = 1 then reply c 1
      else none) = some (.reconciled 0 .none) := by decide +kernel
  obtain ⟨c, hrun, hreply⟩ := Option.bind_eq_some_iff.1 hobserved
  have hc : (authoritySystem sampleHost fun _ => promptAuthority).Reachable c :=
    TransitionSystem.reachable_execute hinit hrun
  split at hreply
  · rename_i hlength
    have hsafe := backend_requests_at_most_once hc
    exact ⟨c, hrun, hlength, hsafe.1, hsafe.2.2.2 1 0 (done_of_reply hreply)⟩
  · cases hreply

/-- The ledger has the started reservation of the prompt. -/
def hasStartedPrompt (ledger : InteractionLedger) : Bool :=
  ledger.records.values.any fun record => record.scope == sampleScope && record.tabLeaseId == some "lease" &&
    record.operationId == "operation" && record.state == .started

/-- The last ledger that was listed has the started reservation of the prompt. -/
def listedPrompt (trace : List AuthorityEvent) : Bool :=
  trace.any fun event => match event with
    | .listed 1 ledger => hasStartedPrompt ledger
    | _ => false

/-- The reservation of the prompt is one of the owner's, and it is started when no effect is reported. -/
theorem prompt_excluded : ¬ ∀ c, (authoritySystem sampleHost fun _ => promptAuthority).Reachable c →
    c.scripts[1]? = some (.done (.ok (.reconciled 0 .none))) → ∀ ledger, .listed 1 ledger ∈ c.state.trace →
      ∀ record ∈ ledger.records, OwnedBy sampleHost promptAuthority.input record →
        record.state ≠ .started ∧ record.effectState ≠ .outcomeUnknown := by
  intro hclaim
  have hinit : (authoritySystem sampleHost fun _ => promptAuthority).Reachable ⟨quietState, []⟩ :=
    .init ⟨⟨rfl, fun _ => rfl, fun _ => rfl⟩, rfl⟩
  have hobserved : promptRun.bind (fun c => if listedPrompt c.state.trace then reply c 1 else none) =
      some (.reconciled 0 .none) := by decide +kernel
  obtain ⟨c, hrun, hreply⟩ := Option.bind_eq_some_iff.1 hobserved
  have hc : (authoritySystem sampleHost fun _ => promptAuthority).Reachable c :=
    TransitionSystem.reachable_execute hinit hrun
  split at hreply
  · rename_i hlisted
    obtain ⟨event, hmem, hevent⟩ := List.any_eq_true.1 hlisted
    split at hevent
    · rename_i ledger
      obtain ⟨record, hm, hrecord⟩ := List.any_eq_true.1 hevent
      simp only [Bool.and_eq_true, beq_iff_eq] at hrecord
      obtain ⟨⟨⟨hscope, hlease⟩, hoperation⟩, hstarted⟩ := hrecord
      have howned : OwnedBy sampleHost promptAuthority.input record := by
        refine ⟨?_, ?_, hlease, hoperation⟩ <;> rw [hscope] <;> rfl
      exact (hclaim c hc (done_of_reply hreply) ledger hmem record hm howned).1 hstarted
    · cases hevent
  · cases hreply

end Sample

end AuraCall.BackendRequests
