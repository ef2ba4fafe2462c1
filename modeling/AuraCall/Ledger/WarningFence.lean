import AuraCall.Ledger.StartLimits

/-!
# The fence of a provider warning

`recordProviderWarning` stores the warning of an account and freezes its live records; `reserve` refuses while the
warning is active, and `start` relies on there being no reserved record. `clearProviderWarning` with a cooldown can
activate again a warning that has expired, and it freezes nothing: the records reserved since the expiry are then live
under an active warning, and `start` starts them (`reactivated_not_fenced`). As long as no call does that to an account
with a live record, an active warning fences its account (`warning_fences`).

A further warning replaces the one before it, whichever lasts longer. The fence is kept exactly when the new warning has
no end or ends no earlier (`recordProviderWarning_monotone`).
-/

namespace AuraCall.Ledger

variable {table : CaseTable} {clock : Int} {ledger ledger' : InteractionLedger}

/-! ## What a call does to the warnings -/

/-- The warning `clearProviderWarning` leaves when it is given a cooldown. -/
def ProviderWarningRecord.cooled (previous : ProviderWarningRecord) (reason : String)
    (clearedAt cooldownUntil : IsoTime) : ProviderWarningRecord :=
  { previous with reason, observedAt := clearedAt, cooldownUntil := some cooldownUntil }

/-- What a call does to the warnings. -/
inductive WarningEffect (table : CaseTable) (ledger : InteractionLedger) (operation : Operation)
    (ledger' : InteractionLedger) : Prop
  | kept : ledger'.warnings = ledger.warnings → WarningEffect table ledger operation ledger'
  | recorded (input : RecordProviderWarningInput) (scope : ProviderInteractionScope) (warning : ProviderWarningRecord) :
      operation = .recordProviderWarning input → buildWarning table input ledger = .ok (scope, warning) →
      ledger' = storeWarning scope warning ledger → WarningEffect table ledger operation ledger'
  | cooled (input : ClearProviderWarningInput) (scope : ProviderInteractionScope) (clearedAt cooldownUntil : IsoTime)
      (previous : ProviderWarningRecord) : operation = .clearProviderWarning input →
      checkClear table input = .ok (scope, clearedAt, some cooldownUntil) →
      ledger.warnings.get? (aggregateScopeKey scope) = some previous → trim input.reason ≠ "" →
      ledger'.records = ledger.records →
      ledger'.warnings = ledger.warnings.set (previous.cooled (trim input.reason) clearedAt cooldownUntil) →
      WarningEffect table ledger operation ledger'
  | lifted (account : String) : ledger'.records = ledger.records → ledger'.warnings = ledger.warnings.delete account →
      WarningEffect table ledger operation ledger'

theorem transit_warnings (ledger : InteractionLedger) (transition : Checked Transition) :
    (transit ledger transition).2.warnings = ledger.warnings := by
  cases transition with
  | error stop => rfl
  | ok transition => cases transition <;> rfl

theorem reserve_warnings (createReservationId : String) (input : ReserveProviderInteractionInput)
    (ledger : InteractionLedger) : (reserve table createReservationId input ledger).2.warnings = ledger.warnings := by
  simp only [reserve]
  split
  · unfold storeAdmission
    split <;> rfl
  · rfl
  · rfl

theorem clearProviderWarning_effect (input : ClearProviderWarningInput) (ledger : InteractionLedger) :
    WarningEffect table ledger (.clearProviderWarning input) (clearProviderWarning table input ledger).2 := by
  simp only [clearProviderWarning]
  cases hc : checkClear table input with
  | error stop => exact .kept rfl
  | ok checked =>
    obtain ⟨scope, clearedAt, cooldownUntil⟩ := checked
    dsimp only
    cases hk : cooledWarning input clearedAt cooldownUntil (ledger.warnings.get? (aggregateScopeKey scope)) with
    | error stop => exact .kept rfl
    | ok warning =>
      cases hp : ledger.warnings.get? (aggregateScopeKey scope) with
      | none =>
        have hnone : none = warning := by
          cases cooldownUntil <;> simpa only [cooledWarning, hp, pure_eq_ok] using hk
        subst hnone
        cases (requireNonEmpty input.reason "reason" : Checked String) <;> exact .lifted _ rfl rfl
      | some previous =>
        cases cooldownUntil with
        | none =>
          have hnone : none = warning := by simpa only [cooledWarning, hp, pure_eq_ok] using hk
          subst hnone
          cases (requireNonEmpty input.reason "reason" : Checked String) <;> exact .lifted _ rfl rfl
        | some cooldownUntil =>
          simp only [cooledWarning, hp, bind_eq_ok, pure_eq_ok, requireNonEmpty_eq_ok] at hk
          obtain ⟨_, ⟨hreason, rfl⟩, rfl⟩ := hk
          refine .cooled input scope clearedAt cooldownUntil previous rfl hc hp hreason ?_ ?_ <;>
            (cases (requireNonEmpty input.reason "reason" : Checked String) <;> rfl)

/-- **A call does to the warnings what `WarningEffect` lists.** -/
theorem perform_warningEffect (table : CaseTable) (call : Call) (ledger : InteractionLedger) :
    WarningEffect table ledger call.operation (perform table call ledger).2 := by
  obtain ⟨createReservationId, operation⟩ := call
  cases operation with
  | reserve input =>
    simp only [perform]
    exact .kept (reserve_warnings createReservationId input ledger)
  | bindTabLease input =>
    simp only [perform]
    exact .kept (transit_warnings ledger (binding input ledger))
  | start input =>
    simp only [perform]
    exact .kept (transit_warnings ledger (starting input ledger))
  | settle input =>
    simp only [perform]
    exact .kept (transit_warnings ledger (settling input ledger))
  | observePassive input =>
    simp only [perform, observePassive]
    cases passiveEvent table input <;> exact .kept rfl
  | recordProviderWarning input =>
    simp only [perform, recordProviderWarning]
    cases hb : buildWarning table input ledger with
    | error stop => exact .kept rfl
    | ok result => exact .recorded input result.1 result.2 rfl hb rfl
  | clearProviderWarning input =>
    simp only [perform]
    exact clearProviderWarning_effect input ledger
  | summarizeUsage input =>
    simp only [perform, summarizeUsage]
    split <;> exact .kept rfl
  | summarizeAggregateUsage now =>
    simp only [perform, summarizeAggregateUsage]
    cases (parseTime now "now" : Checked IsoTime) <;> exact .kept rfl
  | summarizeBackendRequestUsage input =>
    simp only [perform, summarizeBackendRequestUsage]
    cases (parseTime input.now "now" : Checked IsoTime) with
    | error stop => exact .kept rfl
    | ok time =>
      dsimp only
      cases list table input.provider input.tenantKey (expireReservations time ledger) <;> exact .kept rfl

/-! ## Active warnings -/

theorem isWarningActive_eq_true {warning : ProviderWarningRecord} {t : Int} :
    isWarningActive warning t = true ↔
      ∀ cooldownUntil, warning.cooldownUntil = some cooldownUntil → t < cooldownUntil.ms := by
  cases h : warning.cooldownUntil <;> simp [isWarningActive, h]

theorem isWarningActive_mono {warning : ProviderWarningRecord} {t t' : Int} (h : isWarningActive warning t' = true)
    (hle : t ≤ t') : isWarningActive warning t = true :=
  isWarningActive_eq_true.2 fun cooldownUntil hc => by
    have := isWarningActive_eq_true.1 h cooldownUntil hc
    omega

/-- A cooldown that is accepted ends after the call. -/
theorem checkClear_eq_ok {input : ClearProviderWarningInput} {scope : ProviderInteractionScope}
    {clearedAt cooldownUntil : IsoTime} (h : checkClear table input = .ok (scope, clearedAt, some cooldownUntil)) :
    input.clearedAt.parse = some clearedAt.ms ∧ clearedAt.ms < cooldownUntil.ms := by
  simp only [checkClear, parseCooldown, bind_eq_ok, pure_eq_ok, Prod.mk.injEq, throwIf_eq_ok] at h
  obtain ⟨_, _, now, hparse, _, ⟨_, _, _, hlater, rfl⟩, _, hnow, hcooldown⟩ := h
  rw [hcooldown] at hlater
  simp only [Option.any_some, decide_eq_false_iff_not, not_le] at hlater
  exact ⟨hnow ▸ parseTime_eq_ok hparse, hnow ▸ hlater⟩

theorem buildWarning_eq_ok {input : RecordProviderWarningInput} {scope : ProviderInteractionScope}
    {warning : ProviderWarningRecord} (h : buildWarning table input ledger = .ok (scope, warning)) :
    normalizeScope table input.scope = .ok scope ∧ warning.account = aggregateScopeKey scope ∧
      warning.cooldownUntil.map (·.ms) = input.cooldownUntil.bind (·.parse) ∧
      (warning.cooldownUntil.isSome = input.cooldownUntil.isSome) := by
  simp only [buildWarning, bind_eq_ok, pure_eq_ok, Prod.mk.injEq] at h
  obtain ⟨scope, hscope, _, _, cooldownUntil, hcool, _, _, _, _, rfl, rfl⟩ := h
  refine ⟨hscope, rfl, ?_⟩
  simp only [parseCooldown, bind_eq_ok, pure_eq_ok] at hcool
  obtain ⟨parsed, hparse, _, _, rfl⟩ := hcool
  cases hi : input.cooldownUntil with
  | none =>
    rw [hi] at hparse
    cases hparse
    exact ⟨rfl, rfl⟩
  | some value =>
    rw [hi] at hparse
    simp only [Option.mapM_some] at hparse
    cases hv : (parseTime value "cooldownUntil" : Checked IsoTime) with
    | error stop => rw [hv] at hparse; cases hparse
    | ok time =>
      rw [hv] at hparse
      cases hparse
      exact ⟨(parseTime_eq_ok hv).symm, rfl⟩

/-! ## The fence -/

/-- The reply is a reservation or a start of the account. -/
def Grants (account : String) : Operation → Reply → Prop
  | .reserve _, .admission admission => admission.reservation.account = account
  | .start _, .record record => record.account = account
  | _, _ => False

/-- While its warning is active, an account has no reserved or started record. -/
def Idle (s : Int × InteractionLedger) : Prop :=
  ∀ warning ∈ s.2.warnings, isWarningActive warning s.1 = true →
    ∀ record ∈ s.2.records, record.account = warning.account → ¬Live record

/-- An active warning fences its account: no record is live, and no call that is made while it is active reserves or
starts one. -/
structure Fenced (table : CaseTable) (s : Int × InteractionLedger) : Prop where
  idle : Idle s
  refused : ∀ warning ∈ s.2.warnings, ∀ call t, s.1 ≤ t → call.operation.time.parse = some t →
    isWarningActive warning t = true → ∀ reply, (perform table call s.2).1 = .ok reply →
      ¬Grants warning.account call.operation reply

/-- The call puts a cooldown on a warning of the account that has expired. -/
def Reactivates (table : CaseTable) (account : String) (ledger : InteractionLedger) (call : Call) : Prop :=
  ∃ input scope clearedAt cooldownUntil previous, call.operation = .clearProviderWarning input ∧
    checkClear table input = .ok (scope, clearedAt, some cooldownUntil) ∧ trim input.reason ≠ "" ∧
    account = aggregateScopeKey scope ∧ ledger.warnings.get? account = some previous ∧
    isWarningActive previous clearedAt.ms = false

/-- A call activates an expired warning again only while the account has no live record. -/
def ReactivatesIdle (table : CaseTable) (s : Int × InteractionLedger) (call : Call) : Prop :=
  ∀ account, Reactivates table account s.2 call → ∀ record ∈ s.2.records, record.account = account → ¬Live record

theorem activeWarning_eq_some {warning : ProviderWarningRecord} {t : Int} (hm : warning ∈ ledger.warnings)
    (ha : isWarningActive warning t = true) : activeWarning warning.account t ledger = some warning := by
  have hget : ledger.warnings.get? warning.account = some warning := KeyedMap.get?_self hm
  rw [activeWarning, hget, Option.filter_some, if_pos ha]

/-- A live record was live before the call, or the call has admitted it. -/
theorem live_source {call : Call} {record' : ProviderInteractionRecord}
    (hm : record' ∈ (perform table call ledger).2.records) (hl : Live record') :
    (∃ record ∈ ledger.records, record.account = record'.account ∧ Live record) ∨
      ∃ (input : ReserveProviderInteractionInput) (now : IsoTime), call.operation = .reserve input ∧
        input.now.parse = some now.ms ∧ activeWarning record'.account now.ms ledger = none := by
  have hsource : ∀ now ledger', Evolved now ledger ledger' → record' ∈ ledger'.records →
      ∃ record ∈ ledger.records, record.account = record'.account ∧ Live record := by
    intro now ledger' he hin
    obtain ⟨record, hr, hs⟩ := he.source hin
    exact ⟨record, hr, congrArg aggregateScopeKey hs.fixed.1.symm, hs.live hl⟩
  cases perform_effect table call ledger with
  | kept hr =>
    rw [hr] at hm
    exact .inl ⟨record', hm, rfl, hl⟩
  | evolved now _ he => exact .inl (hsource now _ he hm)
  | admitted input now new hop hp ha hv =>
    rw [KeyedMap.mem_def, hv, List.mem_append, List.mem_singleton] at hm
    rcases hm with hm | rfl
    · exact .inl (hsource now _ (expireReservations_evolved now ledger) hm)
    · exact .inr ⟨input, now, hop, hp, ha.unwarned⟩

theorem storeWarning_idle {scope : ProviderInteractionScope} {warning : ProviderWarningRecord}
    {record : ProviderInteractionRecord} (hm : record ∈ (storeWarning scope warning ledger).records)
    (hacc : record.account = warning.account) : ¬Live record := by
  have hfrozen : record ∈ ledger.records.mapValues (fun record => (frozen warning record).getD record)
      (frozen_reservationId warning) := hm
  obtain ⟨old, _, rfl⟩ := KeyedMap.mem_mapValues.1 hfrozen
  unfold frozen at hacc ⊢
  split
  · rename_i hskip
    rw [if_pos hskip] at hacc
    have hold : old.account = warning.account := hacc
    intro hlive
    rcases hlive with hs | hs <;> (simp only [Option.getD_none] at hs; simp [hold, hs] at hskip)
  · rintro (hs | hs) <;> cases hs

/-- A call at a later time keeps accounts with an active warning idle. -/
theorem Idle.step {call : Call} {clock' : Int} (h : Idle (clock, ledger)) (hle : clock ≤ clock')
    (htime : ∀ t, call.operation.time.parse = some t → clock' = t)
    (hok : ReactivatesIdle table (clock, ledger) call) : Idle (clock', (perform table call ledger).2) := by
  intro warning hw hactive record hm hacc hlive
  -- a warning that was stored before the call
  have hold : warning ∈ ledger.warnings → (∀ input, call.operation ≠ .reserve input) → False := by
    intro hin hreserve
    rcases live_source hm hlive with ⟨old, hr, hsame, hl⟩ | ⟨input, _, hop, _, _⟩
    · exact h warning hin (isWarningActive_mono hactive hle) old hr (hsame.trans hacc) hl
    · exact hreserve input hop
  cases perform_warningEffect table call ledger with
  | kept hkept =>
    have hin : warning ∈ ledger.warnings := by rwa [hkept] at hw
    rcases live_source hm hlive with ⟨old, hr, hsame, hl⟩ | ⟨input, now, hop, hp, hnone⟩
    · exact h warning hin (isWarningActive_mono hactive hle) old hr (hsame.trans hacc) hl
    · have hnow : clock' = now.ms := htime now.ms (by rw [hop]; exact hp)
      rw [hacc, activeWarning_eq_some hin (hnow ▸ hactive)] at hnone
      cases hnone
  | recorded input scope stored hop _ heq =>
    rw [heq] at hw hm
    rcases KeyedMap.mem_set.1 hw with rfl | ⟨hin, _⟩
    · exact storeWarning_idle hm hacc hlive
    · exact hold hin fun _ hr => by rw [hop] at hr; cases hr
  | cooled input scope clearedAt cooldownUntil previous hop hc hp hreason hrecords hwarnings =>
    rw [hwarnings] at hw
    rcases KeyedMap.mem_set.1 hw with rfl | ⟨hin, _⟩
    · obtain ⟨hin, hkey⟩ := KeyedMap.get?_eq_some.1 hp
      have hsame : record.account = previous.account := hacc
      rw [hrecords] at hm
      by_cases hstill : isWarningActive previous clearedAt.ms = true
      · have hnow : clock' = clearedAt.ms := htime clearedAt.ms (by rw [hop]; exact (checkClear_eq_ok hc).1)
        exact h previous hin (isWarningActive_mono hstill (by omega)) record hm hsame hlive
      · exact hok (aggregateScopeKey scope) ⟨input, scope, clearedAt, cooldownUntil, previous, hop, hc, hreason, rfl,
          hp, by simpa using hstill⟩ record hm (hsame.trans hkey) hlive
    · exact hold hin fun _ hr => by rw [hop] at hr; cases hr
  | lifted account hrecords hwarnings =>
    rw [hwarnings] at hw
    rw [hrecords] at hm
    exact h warning (KeyedMap.mem_delete.1 hw).1 (isWarningActive_mono hactive hle) record hm hacc hlive

/-! ## Refused calls -/

/-- A backend request is answered by a record of its own account. -/
theorem existingBackendRequest_account {scope : ProviderInteractionScope} {input : ReserveProviderInteractionInput}
    {existing : ProviderInteractionRecord} (h : existingBackendRequest scope input ledger = .ok (some existing)) :
    existing.account = aggregateScopeKey scope := by
  unfold existingBackendRequest at h
  split at h
  · cases h
  · simp only [bind_eq_ok] at h
    obtain ⟨_, _, _, _, h⟩ := h
    split at h
    · cases h
    · rename_i found hfind
      simp only [bind_eq_ok, pure_eq_ok, Option.some.injEq] at h
      obtain ⟨_, _, _, _, rfl⟩ := h
      have hfound := List.find?_some hfind
      simp only [Bool.and_eq_true, beq_iff_eq] at hfound
      exact hfound.1.2

/-- A reservation succeeds only while its account has no active warning. -/
theorem reserve_unwarned {createReservationId : String} {input : ReserveProviderInteractionInput}
    {admission : ProviderInteractionAdmission}
    (h : (reserve table createReservationId input ledger).1 = .ok admission) : ∃ now : IsoTime,
      input.now.parse = some now.ms ∧ activeWarning admission.reservation.account now.ms ledger = none := by
  obtain ⟨scope, now, -, hnow, hadmission⟩ := reserve_eq_ok.1 h
  obtain ⟨hwarning, hadmission⟩ := checkAdmission_eq_ok.1 hadmission
  have hacc : admission.reservation.account = aggregateScopeKey scope := by
    rcases hadmission with ⟨existing, hexisting, rfl⟩ | ⟨-, -, -, -, new, hbuild, rfl⟩
    · exact existingBackendRequest_account hexisting
    · exact congrArg aggregateScopeKey (buildReservation_eq_ok hbuild).1
  refine ⟨now, parseTime_eq_ok hnow, ?_⟩
  rw [hacc]
  exact hwarning

/-- A start succeeds only on a reserved record of its account. -/
theorem start_eq_ok {input : StartInput} {record' : ProviderInteractionRecord}
    (h : (start input ledger).1 = .ok record') :
    ∃ record ∈ ledger.records, record.account = record'.account ∧ Live record := by
  simp only [start] at h
  cases ht : starting input ledger with
  | error stop => rw [ht] at h; cases h
  | ok transition =>
    rw [ht] at h
    simp only [starting, bind_eq_ok, orRefuse_eq_ok, refuseIf_eq_ok, bne_eq_false_iff_eq] at ht
    obtain ⟨record, hg, _, hs, _, _, ht⟩ := ht
    split at ht
    · cases ht; cases h
    · cases ht
      cases h
      exact ⟨record, (KeyedMap.get?_eq_some.1 hg).1, rfl, .inl hs⟩

theorem Idle.fenced {s : Int × InteractionLedger} (h : Idle s) : Fenced table s := by
  refine ⟨h, ?_⟩
  rintro warning hw ⟨createReservationId, operation⟩ t hle htime hactive reply hreply hgrants
  cases operation with
  | reserve input =>
    simp only [perform] at hreply
    cases hr : (reserve table createReservationId input s.2).1 with
    | error stop => rw [hr] at hreply; cases hreply
    | ok admission =>
      rw [hr] at hreply
      cases hreply
      obtain ⟨now, hp, hnone⟩ := reserve_unwarned hr
      have hnow : now.ms = t := Option.some.inj (hp.symm.trans htime)
      have hacc : admission.reservation.account = warning.account := hgrants
      rw [hacc, activeWarning_eq_some hw (hnow ▸ hactive)] at hnone
      cases hnone
  | start input =>
    simp only [perform] at hreply
    cases hr : (start input s.2).1 with
    | error stop => rw [hr] at hreply; cases hreply
    | ok record' =>
      rw [hr] at hreply
      cases hreply
      obtain ⟨record, hm, hsame, hlive⟩ := start_eq_ok hr
      exact h warning hw (isWarningActive_mono hactive hle) record hm (hsame.trans hgrants) hlive
  | _ => exact hgrants

theorem reachable_idle {s : Int × InteractionLedger}
    (h : ((timedSystem table).restrict (ReactivatesIdle table)).Reachable s) : Idle s := by
  refine h.invariant ?_ ?_
  · rintro ⟨clock, _⟩ rfl warning hw
    exact absurd hw (KeyedMap.not_mem_empty warning)
  · rintro ⟨clock, ledger⟩ call ⟨clock', ledger'⟩ _ hidle ⟨hok, hle, htime, hstep⟩
    cases hstep
    exact hidle.step hle htime hok

/-- A call that activates an expired warning again while a record of the account is live leaves the account unfenced. -/
theorem reactivated_unfenced {s : Int × InteractionLedger} {call : Call} {clock' : Int}
    (htime : ∀ t, call.operation.time.parse = some t → clock' = t) (h : ¬ReactivatesIdle table s call) :
    ¬Fenced table (clock', (perform table call s.2).2) := by
  intro hfenced
  apply h
  rintro account ⟨input, scope, clearedAt, cooldownUntil, previous, hop, hc, hreason, rfl, hp, _⟩ record hm hacc
  obtain ⟨hreported, hlater⟩ := checkClear_eq_ok hc
  have hkept : (requireNonEmpty input.reason "reason" : Checked String) = .ok (trim input.reason) :=
    requireNonEmpty_eq_ok.2 ⟨hreason, rfl⟩
  have hcooled : cooledWarning input clearedAt (some cooldownUntil) (some previous) =
      .ok (some (previous.cooled (trim input.reason) clearedAt cooldownUntil)) := by
    simp only [cooledWarning, hkept]
    rfl
  have hafter : (perform table call s.2).2.records = s.2.records ∧ (perform table call s.2).2.warnings =
      s.2.warnings.set (previous.cooled (trim input.reason) clearedAt cooldownUntil) := by
    simp only [perform, hop, clearProviderWarning, hc, hp, hcooled, hkept]
    exact ⟨rfl, rfl⟩
  have hnow : clock' = clearedAt.ms := htime clearedAt.ms (by rw [hop]; exact hreported)
  refine hfenced.idle (previous.cooled (trim input.reason) clearedAt cooldownUntil) ?_ ?_ record ?_ ?_
  · exact hafter.2 ▸ KeyedMap.mem_set_self _ _
  · refine isWarningActive_eq_true.2 fun time ht => ?_
    cases ht
    omega
  · exact hafter.1 ▸ hm
  · exact hacc.trans (KeyedMap.get?_eq_some.1 hp).2.symm

/-- **Under a clock that never goes back, an active warning fences its account as long as no call activates an expired
warning again while the account has a live record; such a call always leaves the account unfenced.** -/
theorem warning_fences (table : CaseTable) :
    (∀ s, ((timedSystem table).restrict (ReactivatesIdle table)).Reachable s → Fenced table s) ∧
    (∀ s call s', (timedSystem table).Reachable s → (timedSystem table).Step s call s' →
      ¬ReactivatesIdle table s call → ¬Fenced table s') := by
  refine ⟨fun s h => (reachable_idle h).fenced, ?_⟩
  rintro s call ⟨clock', _⟩ _ ⟨_, htime, hstep⟩ hviolated
  cases hstep
  exact reactivated_unfenced htime hviolated

def sampleWarning (classification : ProviderWarningClassification) (observedMs : Int) (cooldownMs : Option Int) :
    Call :=
  ⟨"", .recordProviderWarning {
    scope := sampleScope, classification, reason := "visible warning", observedAt := .at observedMs
    cooldownUntil := cooldownMs.map .at }⟩

def sampleClear (clearedMs : Int) (cooldownMs : Option Int) : Call :=
  ⟨"", .clearProviderWarning {
    scope := sampleScope, clearedAt := .at clearedMs, cooldownUntil := cooldownMs.map .at, reason := "quiet period" }⟩

/-- A conversation start is reserved after a warning has expired, and then the warning gets a new cooldown. -/
def reactivated : InteractionLedger :=
  runCalls .lowered [sampleWarning .rateLimit 0 (some 1000),
    sampleReserve hourlyPolicy "reservation-1" "workload-1" 2000, sampleClear 3000 (some 600000)] .empty

/-- The reservation stays, and starts under the active warning. -/
theorem reactivated_not_fenced : ¬∀ s, (timedSystem .lowered).Reachable s → Fenced .lowered s := by
  intro h
  have hwarned := timed_step (timed_init .lowered fun _ _ => True) (sampleWarning .rateLimit 0 (some 1000)) 0 trivial
    rfl (by decide)
  have hreserved := timed_step hwarned (sampleReserve hourlyPolicy "reservation-1" "workload-1" 2000) 2000 trivial rfl
    (by decide)
  have hreach : (timedSystem .lowered).Reachable (3000, reactivated) :=
    (timed_step hreserved (sampleClear 3000 (some 600000)) 3000 trivial rfl (by decide)).of_restrict
  have hactive : ∃ warning ∈ reactivated.warnings.values, isWarningActive warning 4000 = true ∧
      (perform .lowered (sampleStart "reservation-1" 4000) reactivated).1.toOption.any (fun
        | .record record => record.account == warning.account
        | _ => false) = true := by decide +kernel
  obtain ⟨warning, hw, hactive, hstarts⟩ := hactive
  obtain ⟨reply, hreply, hgrants⟩ := (Option.any_eq_true _ _).1 hstarts
  refine (h _ hreach).refused warning hw (sampleStart "reservation-1" 4000) 4000 (by decide) rfl hactive reply ?_ ?_
  · cases hr : (perform .lowered (sampleStart "reservation-1" 4000) reactivated).1 with
    | error stop => rw [hr] at hreply; cases hreply
    | ok result =>
      rw [hr] at hreply
      cases hreply
      rfl
  · cases reply with
    | record record => exact beq_iff_eq.1 hgrants
    | _ => cases hgrants

/-! ## Further warnings -/

/-- The account is fenced at the time `t`. -/
def FencedAt (account : String) (t : Int) (ledger : InteractionLedger) : Prop :=
  ∃ warning ∈ ledger.warnings, warning.account = account ∧ isWarningActive warning t = true

/-- The new warning has no end, or the one it replaces ends no later. -/
def EndsNoEarlier (table : CaseTable) (input : RecordProviderWarningInput) (ledger : InteractionLedger) : Prop :=
  ∀ scope cooldownMs, normalizeScope table input.scope = .ok scope →
    input.cooldownUntil.bind (·.parse) = some cooldownMs →
    ∀ previous, ledger.warnings.get? (aggregateScopeKey scope) = some previous →
      ∃ cooldownUntil, previous.cooldownUntil = some cooldownUntil ∧ cooldownUntil.ms ≤ cooldownMs

/-- What a call of `recordProviderWarning` that returns has stored. -/
theorem recordProviderWarning_eq_ok {input : RecordProviderWarningInput} {result : ProviderWarningRecord × List String}
    (h : (recordProviderWarning table input ledger).1 = .ok result) :
    ∃ scope, buildWarning table input ledger = .ok (scope, result.1) ∧
      (recordProviderWarning table input ledger).2.warnings = ledger.warnings.set result.1 := by
  simp only [recordProviderWarning] at h ⊢
  cases hb : buildWarning table input ledger with
  | error stop => rw [hb] at h; cases h
  | ok built =>
    rw [hb] at h
    cases h
    exact ⟨built.1, rfl, rfl⟩

/-- **A warning that is recorded keeps its account fenced at every instant at which it was fenced exactly when it has no
end or ends no earlier than the warning before it.** -/
theorem recordProviderWarning_monotone (table : CaseTable) (input : RecordProviderWarningInput)
    (ledger : InteractionLedger) :
    (∀ account t, FencedAt account t ledger → FencedAt account t (recordProviderWarning table input ledger).2) ↔
      ∀ result, (recordProviderWarning table input ledger).1 = .ok result → EndsNoEarlier table input ledger := by
  constructor
  · intro hmono result hok scope cooldownMs hscope hcooldown previous hp
    obtain ⟨scope', hb, hset⟩ := recordProviderWarning_eq_ok hok
    obtain ⟨hscope', hacc, hend, _⟩ := buildWarning_eq_ok hb
    obtain rfl : scope' = scope := Except.ok.inj (hscope'.symm.trans hscope)
    obtain ⟨hm, hkey⟩ := KeyedMap.get?_eq_some.1 hp
    rw [hcooldown] at hend
    obtain ⟨newEnd, hnew, hms⟩ := Option.map_eq_some_iff.1 hend
    -- the account was fenced at the end of the new cooldown, unless the old one is over by then
    by_contra hshort
    have hactive : isWarningActive previous cooldownMs = true := isWarningActive_eq_true.2 fun oldEnd hold => by
      by_contra hle
      exact hshort ⟨oldEnd, hold, by omega⟩
    obtain ⟨warning, hw, hsame, hstill⟩ := hmono previous.account cooldownMs ⟨previous, hm, rfl, hactive⟩
    have hwarning : warning = result.1 := by
      rw [hset] at hw
      rcases KeyedMap.mem_set.1 hw with h | ⟨_, hne⟩
      · exact h
      · exact absurd (hsame.trans (hkey.trans hacc.symm)) hne
    subst hwarning
    have := isWarningActive_eq_true.1 hstill newEnd hnew
    omega
  · rintro hend account t ⟨previous, hm, hkey, hactive⟩
    cases hr : (recordProviderWarning table input ledger).1 with
    | error stop =>
      have hsame : (recordProviderWarning table input ledger).2 = ledger := by
        simp only [recordProviderWarning] at hr ⊢
        cases hb : buildWarning table input ledger with
        | error stop => rfl
        | ok built => rw [hb] at hr; cases hr
      rw [hsame]
      exact ⟨previous, hm, hkey, hactive⟩
    | ok result =>
      obtain ⟨scope, hb, hset⟩ := recordProviderWarning_eq_ok hr
      obtain ⟨hscope, hacc, hcooldown, _⟩ := buildWarning_eq_ok hb
      by_cases hsame : previous.account = result.1.account
      · refine ⟨result.1, hset ▸ KeyedMap.mem_set_self _ _, hsame.symm.trans hkey, ?_⟩
        refine isWarningActive_eq_true.2 fun newEnd hnew => ?_
        rw [hnew] at hcooldown
        have hget : ledger.warnings.get? (aggregateScopeKey scope) = some previous :=
          KeyedMap.get?_eq_some.2 ⟨hm, hsame.trans hacc⟩
        obtain ⟨oldEnd, hold, hle⟩ := hend result hr scope newEnd.ms hscope hcooldown.symm previous hget
        have := isWarningActive_eq_true.1 hactive oldEnd hold
        omega
      · exact ⟨previous, hset ▸ KeyedMap.mem_set_of_ne hm hsame, hkey, hactive⟩

/-- A warning without an end, and then one of a minute. -/
def overwritten : InteractionLedger :=
  runCalls .lowered [sampleWarning .humanVerification 0 none, sampleWarning .rateLimit 1000 (some 61000)] .empty

/-- The account was fenced for good, and is not a minute later. -/
theorem overwritten_not_fenced :
    ¬∀ ledger, (system .lowered).Reachable ledger → ∀ input account t, FencedAt account t ledger →
      FencedAt account t (recordProviderWarning .lowered input ledger).2 := by
  intro h
  have hreach : (system .lowered).Reachable (runCalls .lowered [sampleWarning .humanVerification 0 none] .empty) :=
    (runCalls_run _ _ _).reachable (.init rfl)
  have hfenced := h _ hreach {
    scope := sampleScope, classification := .rateLimit, reason := "visible warning", observedAt := .at 1000
    cooldownUntil := some (.at 61000) } (aggregateScopeKey sampleScope) 61000
  have hbefore : ∃ warning ∈ (runCalls .lowered [sampleWarning .humanVerification 0 none] .empty).warnings.values,
      warning.account = aggregateScopeKey sampleScope ∧ isWarningActive warning 61000 = true := by decide +kernel
  have hafter : ¬∃ warning ∈ overwritten.warnings.values,
      warning.account = aggregateScopeKey sampleScope ∧ isWarningActive warning 61000 = true := by decide +kernel
  exact hafter (hfenced hbefore)

end AuraCall.Ledger
