import AuraCall.Ledger.System

/-!
# The strictest limit of the minute

`reserve` takes the smallest of its own limit and the limits of the records that are still inside the minute, and
admits only below it. The fold is read off by what it ends at or below (`AtMost`): its own limit to begin with, and the
limit of each record it passes.

An interaction is dated by its start, and by its reservation until it starts; `countsInteraction` dates a reserved
record by its reservation, which is the same as long as no reserved record has a start (`Unstarted`).
-/

namespace AuraCall.Ledger

variable {table : CaseTable} {ledger ledger' : InteractionLedger} {record record' new : ProviderInteractionRecord}
  {now : IsoTime} {account : String} {backendRequest : Bool}

/-! ## The interactions of a minute -/

/-- The interactions that one limit is about: those of an account that are backend requests, or those that are not. -/
def ofClass (account : String) (backendRequest : Bool) (record : ProviderInteractionRecord) : Bool :=
  record.account == account && (record.interactionClass == .backendRequest) == backendRequest

/-- The minute that ends at `nowMs` is not over for the record: it was started, or else reserved, since its beginning. -/
def insideMinute (nowMs : Int) (record : ProviderInteractionRecord) : Bool :=
  decide (nowMs - minuteMs ≤ (record.startedAt.getD record.reservedAt).ms)

/-- A record is an interaction unless it was abandoned, or ended without an effect. -/
def isInteraction (record : ProviderInteractionRecord) : Bool :=
  match record.state with
  | .reserved | .started => true
  | .settled | .frozen => record.effectState != .none
  | .abandoned => false

/-- The interactions of an account and class in the minute that ends at `nowMs`. -/
def interactionsOfMinute (account : String) (backendRequest : Bool) (nowMs : Int) (ledger : InteractionLedger) : Nat :=
  ledger.records.values.countP fun record =>
    ofClass account backendRequest record && isInteraction record && insideMinute nowMs record

/-- No reserved record has a start. -/
def Unstarted (ledger : InteractionLedger) : Prop :=
  ∀ record ∈ ledger.records, record.state = .reserved → record.startedAt = none

theorem RecordStep.unstarted (h : RecordStep now record record')
    (hold : record.state = .reserved → record.startedAt = none) :
    record'.state = .reserved → record'.startedAt = none := by
  intro hs
  cases h with
  | same => exact hold hs
  | bind _ _ => exact hold hs
  | start _ _ => cases hs
  | settle _ _ _ _ _ => cases hs
  | abandon _ _ => cases hs
  | freeze _ _ _ => cases hs

theorem Unstarted.evolve (h : Unstarted ledger) (he : Evolved now ledger ledger') : Unstarted ledger' := by
  intro record' hm
  obtain ⟨record, hin, hs⟩ := he.source hm
  exact hs.unstarted (h record hin)

theorem Unstarted.effect {operation : Operation} (h : Unstarted ledger)
    (he : StepEffect table ledger operation ledger') : Unstarted ledger' := by
  cases he with
  | kept hr => rwa [Unstarted, hr]
  | evolved now _ he => exact h.evolve he
  | admitted input now new _ _ ha hv =>
    intro record hm hs
    rw [KeyedMap.mem_def, hv, List.mem_append, List.mem_singleton] at hm
    rcases hm with hm | rfl
    · exact h.evolve (expireReservations_evolved now ledger) record hm hs
    · exact ha.startedAt

theorem reachable_unstarted (h : (system table).Reachable ledger) : Unstarted ledger := by
  refine h.invariant ?_ ?_
  · rintro _ rfl record hm
    exact absurd hm (KeyedMap.not_mem_empty record)
  · rintro ledger call _ - hold hstep
    cases hstep
    exact hold.effect (perform_effect table call ledger)

theorem countInteractions_eq (h : Unstarted ledger) (account : String) (nowMs : Int) (backendRequest : Bool) :
    countInteractions account (nowMs - minuteMs) backendRequest ledger =
      interactionsOfMinute account backendRequest nowMs ledger := by
  refine List.countP_congr fun record hm => ?_
  have hreserved := h record hm
  cases hs : record.state with
  | reserved => simp [countsInteraction, ofClass, isInteraction, insideMinute, hs, hreserved hs, and_comm]
  | started => simp [countsInteraction, ofClass, isInteraction, insideMinute, hs, and_comm]
  | settled =>
    simp only [countsInteraction, ofClass, isInteraction, insideMinute, hs, Bool.and_eq_true]
    tauto
  | abandoned => simp [countsInteraction, isInteraction, hs]
  | frozen =>
    simp only [countsInteraction, ofClass, isInteraction, insideMinute, hs, Bool.and_eq_true]
    tauto

/-- A reservation that expires is no interaction any more. -/
theorem interactionsOfMinute_expire (account : String) (backendRequest : Bool) (nowMs : Int) (ledger : InteractionLedger) :
    interactionsOfMinute account backendRequest nowMs (expireReservations now ledger) ≤
      interactionsOfMinute account backendRequest nowMs ledger := by
  simp only [interactionsOfMinute, expireReservations, sweep, KeyedMap.mapValues, List.countP_map]
  refine List.countP_mono_left fun record _ hc => ?_
  simp only [Function.comp, expired] at hc
  split at hc
  · exact hc
  · simp [isInteraction] at hc

/-! ## The strictest limit -/

/-- The limit is there, and at most the bound. -/
def AtMost (bound : Int) (limit : Option Int) : Prop := ∃ m, limit = some m ∧ m ≤ bound

/-- The record is one whose limit is asked for. -/
def contributes (account : String) (nowMs : Int) (record : ProviderInteractionRecord) : Bool :=
  record.account == account && insideMinute nowMs record

theorem normalizeLimit_finite {limit : Int} {name : String} {result : Option Int}
    (h : normalizeLimit (some (.finite limit)) name = .ok result) : result = some limit := by
  simp only [normalizeLimit, bind_eq_ok, pure_eq_ok, normalizePositiveInteger] at h
  obtain ⟨_, hn, rfl⟩ := h
  split at hn
  · cases hn
  · cases hn
    rw [Int.floor_intCast]

theorem stricterLimit_atMost {field : LimitField} {nowMs : Int} {limit next : Option Int}
    (h : stricterLimit field account nowMs limit record = .ok next) :
    (∀ bound, AtMost bound limit → AtMost bound next) ∧
      ∀ contributed, contributes account nowMs record = true → field.contributed record = some contributed →
        AtMost contributed next := by
  unfold stricterLimit at h
  split at h
  · rename_i hskip
    cases h
    refine ⟨fun _ h => h, fun contributed hc => ?_⟩
    simp only [contributes, insideMinute, Bool.and_eq_true, beq_iff_eq, decide_eq_true_eq] at hc
    simp only [Bool.or_eq_true, bne_iff_ne, decide_eq_true_eq] at hskip
    rcases hskip with hother | hearlier
    · exact absurd hc.1 hother
    · omega
  · simp only [bind_eq_ok, pure_eq_ok] at h
    obtain ⟨own, hown, rfl⟩ := h
    cases hf : field.contributed record with
    | none =>
      rw [hf] at hown
      cases hown
      refine ⟨fun bound hb => ?_, fun _ _ hc => by cases hc⟩
      obtain ⟨m, rfl, hle⟩ := hb
      exact ⟨m, rfl, hle⟩
    | some contributed =>
      rw [hf] at hown
      obtain rfl := normalizeLimit_finite hown
      cases limit with
      | none =>
        refine ⟨fun bound hb => ?_, fun _ _ hc => ?_⟩
        · obtain ⟨_, hm, _⟩ := hb
          cases hm
        · cases hc
          exact ⟨contributed, rfl, le_refl _⟩
      | some limit =>
        refine ⟨fun bound hb => ?_, fun _ _ hc => ?_⟩
        · obtain ⟨_, hm, hle⟩ := hb
          cases hm
          exact ⟨min limit contributed, rfl, by omega⟩
        · cases hc
          exact ⟨min limit contributed, rfl, by omega⟩

/-- What the fold ends with is at most what it begins with, and at most every limit on the way. -/
theorem strictest_atMost {field : LimitField} {nowMs : Int} :
    ∀ {records : List ProviderInteractionRecord} {own strictest : Option Int},
      records.foldlM (stricterLimit field account nowMs) own = .ok strictest →
      (∀ bound, AtMost bound own → AtMost bound strictest) ∧
        ∀ record ∈ records, ∀ contributed, contributes account nowMs record = true →
          field.contributed record = some contributed → AtMost contributed strictest := by
  intro records
  induction records with
  | nil =>
    intro own strictest h
    cases h
    exact ⟨fun _ h => h, fun record hm => nomatch hm⟩
  | cons first rest ih =>
    intro own strictest h
    rw [List.foldlM_cons, bind_eq_ok] at h
    obtain ⟨next, hfirst, hrest⟩ := h
    obtain ⟨hown, hcontributed⟩ := stricterLimit_atMost hfirst
    obtain ⟨hnext, hlater⟩ := ih hrest
    refine ⟨fun bound hb => hnext bound (hown bound hb), fun record hm contributed hc hf => ?_⟩
    rcases List.mem_cons.1 hm with rfl | hm
    · exact hnext contributed (hcontributed contributed hc hf)
    · exact hlater record hm contributed hc hf

/-- The limit of the minute that a policy sets. -/
def policyLimit (policy : ProviderInteractionPolicy) (backendRequest : Bool) : Checked (Option Int) :=
  normalizeLimit ((limitField backendRequest).limit policy) (limitField backendRequest).name

/-- **What the check of the minute establishes**: there are fewer interactions than its own limit, and fewer than every
limit inside the minute. -/
theorem checkMinuteLimit_eq_ok {nowMs : Int} {input : ReserveProviderInteractionInput}
    (hclass : (input.interactionClass == .backendRequest) = backendRequest)
    (h : checkMinuteLimit account nowMs input ledger = .ok ()) :
    (∀ limit, policyLimit input.policy backendRequest = .ok (some limit) →
        (countInteractions account (nowMs - minuteMs) backendRequest ledger : Int) < limit) ∧
      ∀ record ∈ ledger.records, contributes account nowMs record = true →
        ∀ limit, (limitField backendRequest).contributed record = some limit →
          (countInteractions account (nowMs - minuteMs) backendRequest ledger : Int) < limit := by
  simp only [checkMinuteLimit, hclass, bind_eq_ok, refuseIf_eq_ok] at h
  obtain ⟨own, hown, strictest, hfold, hbelow⟩ := h
  obtain ⟨hstart, hrecords⟩ := strictest_atMost hfold
  have hcount : ∀ bound, AtMost bound strictest →
      (countInteractions account (nowMs - minuteMs) backendRequest ledger : Int) < bound := by
    rintro bound ⟨m, rfl, hle⟩
    simp only [Option.any_some, decide_eq_false_iff_not, not_le] at hbelow
    omega
  constructor
  · intro limit hlimit
    rw [policyLimit, hown] at hlimit
    cases hlimit
    exact hcount limit (hstart limit ⟨limit, rfl, le_refl _⟩)
  · intro record hm hc limit hf
    exact hcount limit (hrecords record hm limit hc hf)

/-! ## Where the limits come from -/

theorem RecordStep.contributed (h : RecordStep now record record') (backendRequest : Bool) :
    (limitField backendRequest).contributed record' = (limitField backendRequest).contributed record := by
  cases backendRequest <;> cases h <;> rfl

theorem buildReservation_contributes {createReservationId : String} {scope : ProviderInteractionScope}
    {input : ReserveProviderInteractionInput} (hclass : (input.interactionClass == .backendRequest) = backendRequest)
    (h : buildReservation createReservationId scope now input ledger = .ok new) :
    policyLimit input.policy backendRequest = .ok ((limitField backendRequest).contributed new) := by
  simp only [buildReservation, hclass, bind_eq_ok, pure_eq_ok] at h
  obtain ⟨_, _, _, _, _, _, _, _, _, _, _, _, _, _, limit, hlimit, rfl⟩ := h
  cases backendRequest with
  | false => exact hlimit
  | true => exact hlimit

/-- The record was reserved by one of the calls, and contributes the limit of the policy the call brought. -/
def Brought (calls : List Call) (record : ProviderInteractionRecord) : Prop :=
  ∃ call ∈ calls, ∃ input, call.operation = .reserve input ∧
    policyLimit input.policy (record.interactionClass == .backendRequest) =
      .ok ((limitField (record.interactionClass == .backendRequest)).contributed record)

theorem RecordStep.brought {calls : List Call} (h : RecordStep now record record') (hb : Brought calls record) :
    Brought calls record' := by
  obtain ⟨call, hm, input, hop, hlimit⟩ := hb
  obtain ⟨-, -, hclass, -, -⟩ := h.fixed
  refine ⟨call, hm, input, hop, ?_⟩
  rw [hclass, h.contributed]
  exact hlimit

theorem Brought.mono {calls calls' : List Call} (h : Brought calls record) (hsub : ∀ call ∈ calls, call ∈ calls') :
    Brought calls' record := by
  obtain ⟨call, hm, input, hop, hlimit⟩ := h
  exact ⟨call, hsub call hm, input, hop, hlimit⟩

/-- What a reservation admits brings the limit of its policy. -/
theorem reserve_contributes {createReservationId : String} {input : ReserveProviderInteractionInput}
    (h : (reserve table createReservationId input ledger).1 = .ok ⟨new, false⟩) :
    new.interactionClass = input.interactionClass ∧
      policyLimit input.policy (new.interactionClass == .backendRequest) =
        .ok ((limitField (new.interactionClass == .backendRequest)).contributed new) := by
  obtain ⟨scope, now, -, -, hadmission⟩ := reserve_eq_ok.1 h
  obtain ⟨-, ⟨existing, -, heq⟩ | ⟨-, -, -, -, built, hbuild, heq⟩⟩ := checkAdmission_eq_ok.1 hadmission
  · cases heq
  · cases heq
    obtain ⟨-, -, -, -, -, -, hclass, -⟩ := buildReservation_eq_ok hbuild
    exact ⟨hclass, buildReservation_contributes (by rw [hclass]) hbuild⟩

theorem run_brought {calls before : List Call} (h : (system table).Run ledger calls ledger')
    (hb : ∀ record ∈ ledger.records, Brought before record) :
    ∀ record ∈ ledger'.records, Brought (before ++ calls) record := by
  induction h generalizing before with
  | nil => simpa using hb
  | @cons ledger next ledger' call calls hstep _ ih =>
    rw [List.append_cons]
    refine ih fun record hm => ?_
    cases hstep
    rcases perform_source hm with ⟨now, old, hin, hs⟩ | ⟨input, hop, hnew⟩
    · exact hs.brought ((hb old hin).mono fun call hm => List.mem_append_left _ hm)
    · obtain ⟨-, hlimit⟩ := reserve_contributes hnew
      exact ⟨call, List.mem_append_right _ List.mem_cons_self, input, hop, hlimit⟩

/-! ## Admissions -/

/-- An admitted interaction, in the ledger it leaves: it counts, and with it there are no more interactions of its
account and class in the minute than its own limit and the limit of every record of the account inside the minute. -/
structure WithinLimits (policy : ProviderInteractionPolicy) (nowMs : Int) (ledger' : InteractionLedger)
    (reservation : ProviderInteractionRecord) : Prop where
  counted : ofClass reservation.account (reservation.interactionClass == .backendRequest) reservation = true ∧
    isInteraction reservation = true ∧ insideMinute nowMs reservation = true
  own : ∀ limit, policyLimit policy (reservation.interactionClass == .backendRequest) = .ok (some limit) →
    (interactionsOfMinute reservation.account (reservation.interactionClass == .backendRequest) nowMs ledger' : Int) ≤
      limit
  contributed : ∀ record ∈ ledger'.records, contributes reservation.account nowMs record = true →
    ∀ limit, (limitField (reservation.interactionClass == .backendRequest)).contributed record = some limit →
      (interactionsOfMinute reservation.account (reservation.interactionClass == .backendRequest) nowMs ledger' : Int) ≤
        limit

/-- A new record, in a ledger where no reserved record has a start. -/
theorem reserve_withinLimits {createReservationId : String} {input : ReserveProviderInteractionInput}
    (hunstarted : Unstarted ledger) (h : (reserve table createReservationId input ledger).1 = .ok ⟨new, false⟩) :
    ∃ nowMs, input.now.parse = some nowMs ∧ new ∈ (reserve table createReservationId input ledger).2.records ∧
      WithinLimits input.policy nowMs (reserve table createReservationId input ledger).2 new := by
  obtain ⟨hclass, hpolicy⟩ := reserve_contributes h
  obtain ⟨scope, now, hscope, hnow, hadmission⟩ := reserve_eq_ok.1 h
  have hadmitted := checkAdmission_admitted hscope hadmission
  have hvalues : (reserve table createReservationId input ledger).2.records.values =
      (expireReservations now ledger).records.values ++ [new] := by
    rw [reserve_ledger hscope hnow, hadmission]
    exact KeyedMap.values_set_of_fresh hadmitted.fresh
  have hexpired : Unstarted (expireReservations now ledger) := hunstarted.evolve (expireReservations_evolved now ledger)
  have hcounted : ofClass new.account (new.interactionClass == .backendRequest) new = true ∧
      isInteraction new = true ∧ insideMinute now.ms new = true := by
    refine ⟨by simp [ofClass], by simp [isInteraction, hadmitted.state], ?_⟩
    simp only [insideMinute, hadmitted.startedAt, hadmitted.reservedAt, Option.getD_none, minuteMs, decide_eq_true_eq]
    omega
  have hsame : (input.interactionClass == .backendRequest) = (new.interactionClass == .backendRequest) := by rw [hclass]
  obtain ⟨hbelow, hbelowOthers⟩ := checkMinuteLimit_eq_ok hsame hadmitted.minute
  rw [countInteractions_eq hexpired] at hbelow hbelowOthers
  have hcount : interactionsOfMinute new.account (new.interactionClass == .backendRequest) now.ms
      (reserve table createReservationId input ledger).2 =
        interactionsOfMinute new.account (new.interactionClass == .backendRequest) now.ms
          (expireReservations now ledger) + 1 := by
    simp only [interactionsOfMinute, hvalues, List.countP_append, List.countP_singleton, hcounted, Bool.and_self, if_true]
  refine ⟨now.ms, parseTime_eq_ok hnow, ?_, hcounted, fun limit hlimit => ?_, fun record hm hc limit hlimit => ?_⟩
  · rw [KeyedMap.mem_def, hvalues]
    exact List.mem_append_right _ List.mem_cons_self
  · have := hbelow limit hlimit
    omega
  · rw [KeyedMap.mem_def, hvalues, List.mem_append, List.mem_singleton] at hm
    rcases hm with hm | rfl
    · have := hbelowOthers record hm hc limit hlimit
      omega
    · rw [hlimit] at hpolicy
      have := hbelow limit hpolicy
      omega

/-- **Every admission respects every limit inside the minute.** After any run, what a reservation admits is counted, and
with it there are no more interactions of its account and class in the minute than its own policy allows and than any
record inside the minute allows, which is what the call that reserved the record brought. A reservation that is answered
by an earlier record admits nothing. -/
theorem admitted_within_limits (table : CaseTable) {calls : List Call}
    (h : (system table).Run .empty calls ledger) (createReservationId : String) (input : ReserveProviderInteractionInput)
    {admission : ProviderInteractionAdmission}
    (hadmitted : (reserve table createReservationId input ledger).1 = .ok admission) :
    (∀ record ∈ (reserve table createReservationId input ledger).2.records,
        Brought (calls ++ [⟨createReservationId, .reserve input⟩]) record) ∧
      (admission.duplicate = false → ∃ nowMs, input.now.parse = some nowMs ∧
        admission.reservation ∈ (reserve table createReservationId input ledger).2.records ∧
        WithinLimits input.policy nowMs (reserve table createReservationId input ledger).2 admission.reservation) ∧
      (admission.duplicate = true → ∀ account backendRequest nowMs,
        interactionsOfMinute account backendRequest nowMs (reserve table createReservationId input ledger).2 ≤
          interactionsOfMinute account backendRequest nowMs ledger) := by
  obtain ⟨reservation, duplicate⟩ := admission
  refine ⟨?_, ?_, ?_⟩
  · rw [← perform_reserve]
    refine run_brought (.cons rfl (.nil _)) fun record hm => ?_
    have hstart : ∀ record ∈ InteractionLedger.empty.records, Brought [] record :=
      fun record hm => absurd hm (KeyedMap.not_mem_empty record)
    have hbrought := run_brought h hstart record hm
    rwa [List.nil_append] at hbrought
  · rintro rfl
    exact reserve_withinLimits (reachable_unstarted (h.reachable (.init rfl))) hadmitted
  · rintro rfl account backendRequest nowMs
    obtain ⟨scope, now, hscope, hnow, hadmission⟩ := reserve_eq_ok.1 hadmitted
    rw [reserve_ledger hscope hnow, hadmission]
    exact interactionsOfMinute_expire account backendRequest nowMs ledger

/-! ## Two policies -/

/-- A policy with a limit on the interactions of a minute. -/
def minutePolicy (limit : JsNumber) : ProviderInteractionPolicy := ⟨none, none, none, some limit, none⟩

/-- A read of a conversation. -/
def sampleRead (limit : JsNumber) (workloadId : String) (nowMs : Int) : ReserveProviderInteractionInput where
  scope := sampleScope
  workloadId
  operationId := "operation"
  interactionClass := .conversationRead
  mutability := .readOnly
  startsNewConversation := false
  now := .at nowMs
  reservationTtlMs := .finite 30000
  policy := minutePolicy limit

/-- A caller that allows two interactions a minute has made one of them. -/
def strictRead : InteractionLedger :=
  runCalls .lowered [⟨"reservation-1", .reserve (sampleRead (.finite 2) "workload-1" 0)⟩] .empty

/-- A caller that allows five makes the second. -/
def secondRead : InteractionLedger :=
  (reserve .lowered "reservation-2" (sampleRead (.finite 5) "workload-2" 1000) strictRead).2

theorem secondRead_within_limits :
    interactionsOfMinute (aggregateScopeKey sampleScope) false 1000 secondRead = 2 ∧
      (interactionsOfMinute (aggregateScopeKey sampleScope) false 1000 secondRead : Int) ≤ 2 := by
  have hadmission : ∃ reservation, (reserve .lowered "reservation-2" (sampleRead (.finite 5) "workload-2" 1000)
      strictRead).1 = .ok ⟨reservation, false⟩ ∧ reservation.account = aggregateScopeKey sampleScope ∧
        reservation.interactionClass = .conversationRead := ⟨_, rfl, rfl, rfl⟩
  obtain ⟨reservation, hadmitted, haccount, hclass⟩ := hadmission
  obtain ⟨-, hnew, -⟩ := admitted_within_limits .lowered (runCalls_run .lowered _ .empty) "reservation-2"
    (sampleRead (.finite 5) "workload-2" 1000) hadmitted
  obtain ⟨nowMs, hnow, -, hwithin⟩ := hnew rfl
  cases hnow
  have hfirst : ∃ record ∈ secondRead.records, contributes reservation.account 1000 record = true ∧
      (limitField (reservation.interactionClass == .backendRequest)).contributed record = some 2 := by
    rw [haccount, hclass]
    decide +kernel
  obtain ⟨record, hm, hcontributes, hlimit⟩ := hfirst
  have hle := hwithin.contributed record hm hcontributes 2 hlimit
  rw [haccount, hclass] at hle
  exact ⟨by decide +kernel, hle⟩

end AuraCall.Ledger
