import AuraCall.Ledger.System

/-!
# One record for a backend request

The ledger keeps a record of every request it has reserved (`Remembers`), under the account and the key of the request
(`recordIdentity`), and a reservation that is no duplicate is of a request no record stands for: so there is one record
for a request (`RequestsUnique`), and it is the one `reserve` finds.

What a repeated reservation comes to is decided by that record and by the warning of its account (`RepeatOutcome`).
Between two batches only the records of the snapshot file count, and a batch is committed as a whole or not at all
(`storedLedger`).
-/

namespace AuraCall.BackendRequests

open Ledger

/-! ## Requests in the ledger -/

section Records

variable {table : CaseTable} {ledger ledger' : InteractionLedger} {record stored new : ProviderInteractionRecord}

/-- The request a record stands for: its account and key. -/
def recordIdentity (record : ProviderInteractionRecord) : Option String × Option String :=
  (some record.account, record.backendRequestKey)

/-- The record of a request is stored. -/
def Remembers (ledger : InteractionLedger) (record : ProviderInteractionRecord) : Prop :=
  ∃ stored ∈ ledger.records, stored.reservationId = record.reservationId ∧
    recordIdentity stored = recordIdentity record ∧ stored.interactionClass = .backendRequest

/-- What was remembered is remembered. -/
def Remains (ledger ledger' : InteractionLedger) : Prop := ∀ record, Remembers ledger record → Remembers ledger' record

theorem Remembers.of_image {now : IsoTime} (h : Evolved now ledger ledger') (hr : Remembers ledger record) :
    Remembers ledger' record := by
  obtain ⟨stored, hm, hid, hidentity, hclass⟩ := hr
  obtain ⟨stored', hm', hs⟩ := h.image hm
  obtain ⟨hscope, -, hclass', -, -⟩ := hs.fixed
  obtain ⟨hid', hkey'⟩ := hs.request
  refine ⟨stored', hm', hid'.trans hid, ?_, hclass'.trans hclass⟩
  rw [← hidentity, recordIdentity, recordIdentity, ProviderInteractionRecord.account, hscope, hkey']
  rfl

theorem remains_of_effect {operation : Operation} (h : StepEffect table ledger operation ledger') :
    Remains ledger ledger' := by
  intro record hr
  cases h with
  | kept h => rwa [Remembers, h]
  | evolved now _ h => exact hr.of_image h
  | admitted input now new _ _ _ hvalues =>
    obtain ⟨stored, hm, hrest⟩ := hr.of_image (expireReservations_evolved now ledger)
    refine ⟨stored, ?_, hrest⟩
    rw [KeyedMap.mem_def, hvalues]
    exact List.mem_append_left _ hm

theorem reserve_remains (createReservationId : String) (input : ReserveProviderInteractionInput) :
    Remains ledger (reserve table createReservationId input ledger).2 :=
  remains_of_effect (reserve_effect table createReservationId input ledger)

theorem start_remains (input : StartInput) : Remains ledger (start input ledger).2 :=
  remains_of_effect (perform_effect .lowered ⟨"", .start input⟩ ledger)

theorem settle_remains (input : SettleInput) : Remains ledger (settle input ledger).2 :=
  remains_of_effect (perform_effect .lowered ⟨"", .settle input⟩ ledger)

theorem existingBackendRequest_none {scope : ProviderInteractionScope} {input : ReserveProviderInteractionInput}
    (hclass : input.interactionClass = .backendRequest) (h : existingBackendRequest scope input ledger = .ok none) :
    ∀ record ∈ ledger.records, record.interactionClass = .backendRequest →
      recordIdentity record ≠ (some (aggregateScopeKey scope), requestedKey input) := by
  simp only [existingBackendRequest, hclass, bne_self_eq_false, Bool.false_eq_true, if_false, bind_eq_ok] at h
  obtain ⟨_, _, _, _, h⟩ := h
  split at h
  · rename_i hfind
    intro record hm hrecord hidentity
    simp only [recordIdentity, Prod.mk.injEq, Option.some.injEq] at hidentity
    have hfound := List.find?_eq_none.1 hfind record hm
    simp [hrecord, hidentity] at hfound
  · simp only [bind_eq_ok, pure_eq_ok, reduceCtorEq, and_false, exists_const] at h

theorem buildReservation_key {createReservationId : String} {scope : ProviderInteractionScope} {now : IsoTime}
    {input : ReserveProviderInteractionInput}
    (h : buildReservation createReservationId scope now input ledger = .ok new) :
    new.backendRequestKey = requestedKey input := by
  simp only [buildReservation, bind_eq_ok, throwIf_eq_ok, pure_eq_ok] at h
  obtain ⟨_, _, _, _, _, _, _, _, _, _, _, _, _, _, _, _, rfl⟩ := h
  rfl

/-- **A reservation that is no duplicate** is of a request that was not remembered, and now is. -/
theorem reserve_request {createReservationId : String} {input : ReserveProviderInteractionInput}
    (hclass : input.interactionClass = .backendRequest)
    (h : (reserve table createReservationId input ledger).1 = .ok ⟨new, false⟩) :
    (∃ scope, normalizeScope table input.scope = .ok scope ∧
        recordIdentity new = (some (aggregateScopeKey scope), requestedKey input)) ∧
      Remembers (reserve table createReservationId input ledger).2 new ∧
      ∀ record, Remembers ledger record →
        record.reservationId ≠ new.reservationId ∧ recordIdentity record ≠ recordIdentity new := by
  obtain ⟨scope, now, hscope, hnow, hadmission⟩ := reserve_eq_ok.1 h
  obtain ⟨-, ⟨_, -, heq⟩ | ⟨hexisting, -, -, -, built, hbuild, heq⟩⟩ := checkAdmission_eq_ok.1 hadmission
  · cases heq
  cases heq
  obtain ⟨hnew, hfresh, -, -, -, -, hbackend, -⟩ := buildReservation_eq_ok hbuild
  have hidentity : recordIdentity new = (some (aggregateScopeKey scope), requestedKey input) := by
    rw [recordIdentity, buildReservation_key hbuild, ← hnew]
    rfl
  refine ⟨⟨scope, hscope, hidentity⟩, ?_, fun record hr => ?_⟩
  · rw [reserve_ledger hscope hnow, hadmission]
    exact ⟨new, KeyedMap.mem_set_self _ _, rfl, rfl, hbackend.trans hclass⟩
  · obtain ⟨stored, hm, hid, hstored, hrequest⟩ := hr.of_image (expireReservations_evolved now ledger)
    refine ⟨fun heq => hfresh stored hm (hid.trans heq), fun heq => ?_⟩
    exact existingBackendRequest_none hclass hexisting stored hm hrequest (hstored.trans (heq.trans hidentity))

end Records

/-! ## One record for a request -/

section Unique

variable {table : CaseTable} {ledger ledger' : InteractionLedger} {record record' new : ProviderInteractionRecord}
  {now : IsoTime}

/-- A record with a key is of a backend request, and no other record stands for the same one. -/
structure RequestsUnique (ledger : InteractionLedger) : Prop where
  keyed : ∀ record ∈ ledger.records, ∀ key, record.backendRequestKey = some key →
    record.interactionClass = .backendRequest ∧ isBackendRequestKey key = true
  unique : ∀ record ∈ ledger.records, ∀ other ∈ ledger.records, record.account = other.account →
    ∀ key, record.backendRequestKey = some key → other.backendRequestKey = some key → record = other

/-- The key of a new record is the one that was asked for, of a backend request with a hashed key. -/
theorem reserve_key {createReservationId : String} {input : ReserveProviderInteractionInput}
    (h : (reserve table createReservationId input ledger).1 = .ok ⟨new, false⟩) {key : String}
    (hkey : new.backendRequestKey = some key) : input.interactionClass = .backendRequest ∧
      new.interactionClass = .backendRequest ∧ requestedKey input = some key ∧ isBackendRequestKey key = true := by
  obtain ⟨scope, now, -, -, hadmission⟩ := reserve_eq_ok.1 h
  obtain ⟨-, ⟨existing, -, heq⟩ | ⟨hexisting, -, -, -, built, hbuild, heq⟩⟩ := checkAdmission_eq_ok.1 hadmission
  · cases heq
  cases heq
  have hrequested : requestedKey input = some key := (buildReservation_key hbuild).symm.trans hkey
  have hclass : input.interactionClass = .backendRequest := by
    by_contra hne
    have hnone : requestedKey input = none := by simp [requestedKey, hne]
    rw [hnone] at hrequested
    cases hrequested
  obtain ⟨-, -, -, -, -, -, hnew, -⟩ := buildReservation_eq_ok hbuild
  refine ⟨hclass, hnew.trans hclass, hrequested, ?_⟩
  simp only [existingBackendRequest, hclass, bne_self_eq_false, Bool.false_eq_true, if_false, bind_eq_ok,
    throwIf_eq_ok, hrequested] at hexisting
  obtain ⟨_, hhashed, -⟩ := hexisting
  simpa using hhashed

/-- Two records that come from records of the ledger, and stand for one request, come from one record. -/
theorem RequestsUnique.same {now' : IsoTime} {other other' : ProviderInteractionRecord} (h : RequestsUnique ledger)
    (hm : record ∈ ledger.records) (hm' : other ∈ ledger.records) (hs : RecordStep now record record')
    (hs' : RecordStep now' other other') (haccount : record'.account = other'.account) {key : String}
    (hkey : record'.backendRequestKey = some key) (hkey' : other'.backendRequestKey = some key) :
    record'.reservationId = other'.reservationId := by
  have hsame : record = other := by
    refine h.unique record hm other hm' ?_ key (hs.request.2 ▸ hkey) (hs'.request.2 ▸ hkey')
    rw [ProviderInteractionRecord.account, ← hs.fixed.1, ProviderInteractionRecord.account, ← hs'.fixed.1]
    exact haccount
  rw [hs.request.1, hs'.request.1, hsame]

theorem RequestsUnique.evolve (h : RequestsUnique ledger) (he : Evolved now ledger ledger') :
    RequestsUnique ledger' where
  keyed record' hm key hkey := by
    obtain ⟨record, hin, hs⟩ := he.source hm
    obtain ⟨-, -, hclass, -, -⟩ := hs.fixed
    obtain ⟨hold, hhashed⟩ := h.keyed record hin key (hs.request.2 ▸ hkey)
    exact ⟨hclass.trans hold, hhashed⟩
  unique record' hm other' hm' haccount key hkey hkey' := by
    obtain ⟨record, hin, hs⟩ := he.source hm
    obtain ⟨other, hin', hs'⟩ := he.source hm'
    exact KeyedMap.eq_of_key hm hm' (h.same hin hin' hs hs' haccount hkey hkey')

/-- A record that was there before the reservation does not stand for the request of a new one. -/
theorem RequestsUnique.other {createReservationId : String} {input : ReserveProviderInteractionInput}
    (h : RequestsUnique ledger) (hnew : (reserve table createReservationId input ledger).1 = .ok ⟨new, false⟩)
    (hm : record ∈ ledger.records) (haccount : record'.account = new.account) (hs : RecordStep now record record')
    {key : String} (hkey : record'.backendRequestKey = some key) (hkey' : new.backendRequestKey = some key) : False := by
  obtain ⟨hclass, -, -, -⟩ := reserve_key hnew hkey'
  obtain ⟨-, -, hothers⟩ := reserve_request hclass hnew
  have hold : record.backendRequestKey = some key := hs.request.2 ▸ hkey
  have hremembers : Remembers ledger record := ⟨record, hm, rfl, rfl, (h.keyed record hm key hold).1⟩
  refine (hothers record hremembers).2 ?_
  rw [recordIdentity, recordIdentity, hold, hkey', ← haccount, ProviderInteractionRecord.account, ← hs.fixed.1]
  rfl

theorem RequestsUnique.perform (h : RequestsUnique ledger) (call : Call) :
    RequestsUnique (Ledger.perform table call ledger).2 where
  keyed record' hm key hkey := by
    rcases perform_source hm with ⟨now, record, hin, hs⟩ | ⟨input, -, hnew⟩
    · obtain ⟨hold, hhashed⟩ := h.keyed record hin key (hs.request.2 ▸ hkey)
      exact ⟨hs.fixed.2.2.1.trans hold, hhashed⟩
    · obtain ⟨-, hclass, -, hhashed⟩ := reserve_key hnew hkey
      exact ⟨hclass, hhashed⟩
  unique record' hm other' hm' haccount key hkey hkey' := by
    rcases perform_source hm with ⟨now, record, hin, hs⟩ | ⟨input, hop, hnew⟩
    · rcases perform_source hm' with ⟨now', other, hin', hs'⟩ | ⟨input', hop', hnew'⟩
      · exact KeyedMap.eq_of_key hm hm' (h.same hin hin' hs hs' haccount hkey hkey')
      · exact (h.other hnew' hin haccount hs hkey hkey').elim
    · rcases perform_source hm' with ⟨now', other, hin', hs'⟩ | ⟨input', hop', hnew'⟩
      · exact (h.other hnew hin' haccount.symm hs' hkey' hkey).elim
      · rw [hop] at hop'
        cases hop'
        rw [hnew] at hnew'
        cases hnew'
        rfl

theorem RequestsUnique.runCalls (h : RequestsUnique ledger) (calls : List Call) :
    RequestsUnique (Ledger.runCalls table calls ledger) := by
  induction calls generalizing ledger with
  | nil => exact h
  | cons call calls ih => exact ih (h.perform call)

/-! ## What a record keeps -/

/-- The request is not to be started any more. -/
def Fenced (record : ProviderInteractionRecord) : Prop := record.state = .abandoned ∨ record.state = .frozen

instance (record : ProviderInteractionRecord) : Decidable (Fenced record) := inferInstanceAs (Decidable (_ ∨ _))

/-- A record later on: it stands for the same request, in the same profile and under the same lease, and stays fenced. -/
structure Continues (record later : ProviderInteractionRecord) : Prop where
  reservationId : later.reservationId = record.reservationId
  scope : later.scope = record.scope
  key : later.backendRequestKey = record.backendRequestKey
  lease : ∀ tabLeaseId, record.tabLeaseId = some tabLeaseId → later.tabLeaseId = some tabLeaseId
  fenced : Fenced record → Fenced later ∧ later.startedAt = record.startedAt

theorem Continues.refl (record : ProviderInteractionRecord) : Continues record record :=
  ⟨rfl, rfl, rfl, fun _ h => h, fun h => ⟨h, rfl⟩⟩

theorem Continues.trans {later latest : ProviderInteractionRecord} (h : Continues record later)
    (h' : Continues later latest) : Continues record latest where
  reservationId := h'.reservationId.trans h.reservationId
  scope := h'.scope.trans h.scope
  key := h'.key.trans h.key
  lease tabLeaseId hl := h'.lease tabLeaseId (h.lease tabLeaseId hl)
  fenced hf := ⟨(h'.fenced (h.fenced hf).1).1, ((h'.fenced (h.fenced hf).1).2).trans (h.fenced hf).2⟩

theorem Fenced.not_live (h : Fenced record) : ¬Live record := by
  rintro (hl | hl) <;> rcases h with h | h <;> rw [hl] at h <;> cases h

/-- A change of a live record that keeps its request and its lease. -/
theorem Continues.of_live (hlive : Live record) (hid : record'.reservationId = record.reservationId)
    (hscope : record'.scope = record.scope) (hkey : record'.backendRequestKey = record.backendRequestKey)
    (hlease : ∀ tabLeaseId, record.tabLeaseId = some tabLeaseId → record'.tabLeaseId = some tabLeaseId) :
    Continues record record' :=
  ⟨hid, hscope, hkey, hlease, fun h => absurd hlive h.not_live⟩

theorem expired_continues (now : IsoTime) (record : ProviderInteractionRecord) :
    Continues record ((expired now record).getD record) := by
  unfold expired
  split
  · exact .refl record
  · rename_i h
    simp only [Bool.or_eq_true, bne_iff_ne, ne_eq, decide_eq_true_eq, not_or, not_not, not_lt] at h
    exact .of_live (.inl h.1) rfl rfl rfl fun _ h => h

theorem frozen_continues (warning : ProviderWarningRecord) (record : ProviderInteractionRecord) :
    Continues record ((frozen warning record).getD record) := by
  unfold frozen
  split
  · exact .refl record
  · rename_i h
    simp only [Bool.or_eq_true, Bool.and_eq_true, bne_iff_ne, ne_eq, not_or, not_and, not_not] at h
    refine .of_live ?_ rfl rfl rfl fun _ h => h
    by_cases hr : record.state = .reserved
    · exact .inl hr
    · exact .inr (h.2 hr)

/-- Every record has its place in a later ledger. -/
def AllContinue (ledger ledger' : InteractionLedger) : Prop :=
  ∀ record ∈ ledger.records, ∃ later ∈ ledger'.records, Continues record later

theorem AllContinue.refl (ledger : InteractionLedger) : AllContinue ledger ledger :=
  fun record hm => ⟨record, hm, .refl record⟩

theorem AllContinue.trans {ledger'' : InteractionLedger} (h : AllContinue ledger ledger')
    (h' : AllContinue ledger' ledger'') : AllContinue ledger ledger'' := by
  intro record hm
  obtain ⟨later, hlater, hc⟩ := h record hm
  obtain ⟨latest, hlatest, hc'⟩ := h' later hlater
  exact ⟨latest, hlatest, hc.trans hc'⟩

theorem AllContinue.of_records (h : ledger'.records = ledger.records) : AllContinue ledger ledger' :=
  fun record hm => ⟨record, h ▸ hm, .refl record⟩

theorem expireReservations_continues (now : IsoTime) (ledger : InteractionLedger) :
    AllContinue ledger (expireReservations now ledger) := fun record hm =>
  ⟨(expired now record).getD record, List.mem_map.2 ⟨record, hm, rfl⟩, expired_continues now record⟩

theorem storeWarning_continues (scope : ProviderInteractionScope) (warning : ProviderWarningRecord)
    (ledger : InteractionLedger) : AllContinue ledger (storeWarning scope warning ledger) := fun record hm =>
  ⟨(frozen warning record).getD record, List.mem_map.2 ⟨record, hm, rfl⟩, frozen_continues warning record⟩

theorem set_continues {new : ProviderInteractionRecord} (hm : record ∈ ledger.records) (hc : Continues record new) :
    AllContinue ledger { ledger with records := ledger.records.set new } := by
  intro other hin
  by_cases hsame : other.reservationId = new.reservationId
  · have heq : other = record := KeyedMap.eq_of_key hin hm (hsame.trans hc.reservationId)
    exact ⟨new, KeyedMap.mem_set_self _ _, heq ▸ hc⟩
  · exact ⟨other, KeyedMap.mem_set_of_ne hin hsame, .refl other⟩

theorem start_continues (input : StartInput) (ledger : InteractionLedger) :
    AllContinue ledger (start input ledger).2 := by
  unfold start
  cases ht : starting input ledger with
  | error stop => exact .refl ledger
  | ok transition =>
    simp only [starting, bind_eq_ok, orRefuse_eq_ok, refuseIf_eq_ok, bne_eq_false_iff_eq] at ht
    obtain ⟨record, hg, _, hs, _, _, ht⟩ := ht
    have hm := (KeyedMap.get?_eq_some.1 hg).1
    split at ht
    · cases ht
      exact set_continues hm (.of_live (.inl hs) rfl rfl rfl fun _ h => h)
    · cases ht
      exact set_continues hm (.of_live (.inl hs) rfl rfl rfl fun _ h => h)

theorem bindTabLease_continues (input : BindTabLeaseInput) (ledger : InteractionLedger) :
    AllContinue ledger (bindTabLease input ledger).2 := by
  unfold bindTabLease
  cases ht : binding input ledger with
  | error stop => exact .refl ledger
  | ok transition =>
    simp only [binding, bind_eq_ok, orRefuse_eq_ok, refuseIf_eq_ok] at ht
    obtain ⟨record, hg, _, hs, tabLeaseId, _, ht⟩ := ht
    have hm := (KeyedMap.get?_eq_some.1 hg).1
    have hlive : Live record := by
      cases hst : record.state <;> simp [hst] at hs
      · exact .inl hst
      · exact .inr hst
    split at ht
    · simp only [bind_eq_ok, pure_eq_ok] at ht
      obtain ⟨_, _, rfl⟩ := ht
      exact .refl ledger
    · rename_i hunbound
      simp only [bind_eq_ok, bindingUnbound] at ht
      obtain ⟨boundAt, _, _, _, ht⟩ := ht
      split at ht
      · cases ht
        exact expireReservations_continues boundAt ledger
      · cases ht
        refine set_continues hm (.of_live hlive rfl rfl rfl fun _ hbound => ?_)
        rw [hunbound] at hbound
        cases hbound

theorem settle_continues (input : SettleInput) (ledger : InteractionLedger) :
    AllContinue ledger (settle input ledger).2 := by
  unfold settle
  cases ht : settling input ledger with
  | error stop => exact .refl ledger
  | ok transition =>
    simp only [settling, bind_eq_ok, orRefuse_eq_ok, refuseIf_eq_ok, throwIf_eq_ok, pure_eq_ok,
      bne_eq_false_iff_eq] at ht
    obtain ⟨record, hg, _, hs, _, _, _, _, _, _, rfl⟩ := ht
    exact set_continues (KeyedMap.get?_eq_some.1 hg).1 (.of_live (.inr hs) rfl rfl rfl fun _ h => h)

theorem reserve_continues (table : CaseTable) (createReservationId : String) (input : ReserveProviderInteractionInput)
    (ledger : InteractionLedger) : AllContinue ledger (reserve table createReservationId input ledger).2 := by
  cases hscope : normalizeScope table input.scope with
  | error stop =>
    simp only [reserve, hscope]
    exact .refl ledger
  | ok scope =>
    cases hnow : (parseTime input.now "now" : Checked IsoTime) with
    | error stop =>
      simp only [reserve, hscope, hnow]
      exact .refl ledger
    | ok now =>
      rw [reserve_ledger hscope hnow]
      have hexpired := expireReservations_continues now ledger
      cases hadmission : checkAdmission createReservationId scope now input (expireReservations now ledger) with
      | error stop => cases stop with
        | refused refusal => cases refusal <;> exact hexpired
        | thrown message => exact hexpired
      | ok admission =>
        obtain ⟨new, duplicate⟩ := admission
        cases duplicate with
        | true => exact hexpired
        | false =>
          have hfresh := (checkAdmission_admitted hscope hadmission).fresh
          exact hexpired.trans fun record hm => ⟨record, KeyedMap.mem_set_of_ne hm (hfresh record hm), .refl record⟩

/-- **A call keeps every record**: its request, its profile and lease, and that it is fenced. -/
theorem perform_continues (table : CaseTable) (call : Call) (ledger : InteractionLedger) :
    AllContinue ledger (Ledger.perform table call ledger).2 := by
  obtain ⟨createReservationId, operation⟩ := call
  cases operation with
  | reserve input =>
    rw [perform_reserve]
    exact reserve_continues table createReservationId input ledger
  | bindTabLease input => exact bindTabLease_continues input ledger
  | start input => exact start_continues input ledger
  | settle input => exact settle_continues input ledger
  | observePassive input =>
    simp only [Ledger.perform, observePassive]
    cases passiveEvent table input <;> exact .of_records rfl
  | recordProviderWarning input =>
    simp only [Ledger.perform, recordProviderWarning]
    cases hb : buildWarning table input ledger with
    | error stop => exact .refl ledger
    | ok result => exact storeWarning_continues result.1 result.2 ledger
  | clearProviderWarning input =>
    simp only [Ledger.perform, clearProviderWarning]
    refine .of_records ?_
    split
    · rfl
    split
    · rfl
    rename_i warning _
    cases warning <;> cases (requireNonEmpty input.reason "reason" : Checked String) <;> rfl
  | summarizeUsage input =>
    simp only [Ledger.perform, summarizeUsage]
    split
    · exact .refl ledger
    · exact expireReservations_continues _ ledger
  | summarizeAggregateUsage now =>
    simp only [Ledger.perform, summarizeAggregateUsage]
    cases (parseTime now "now" : Checked IsoTime) with
    | error stop => exact .refl ledger
    | ok time => exact expireReservations_continues time ledger
  | summarizeBackendRequestUsage input =>
    simp only [Ledger.perform, summarizeBackendRequestUsage]
    cases (parseTime input.now "now" : Checked IsoTime) with
    | error stop => exact .refl ledger
    | ok time =>
      dsimp only
      cases list table input.provider input.tenantKey (expireReservations time ledger) <;>
        exact expireReservations_continues time ledger

theorem runCalls_continues (table : CaseTable) (calls : List Call) :
    ∀ ledger, AllContinue ledger (Ledger.runCalls table calls ledger) := by
  induction calls with
  | nil => exact AllContinue.refl
  | cons call calls ih => exact fun ledger => (perform_continues table call ledger).trans (ih _)

/-! ## A request that is reserved again -/

/-- The input asks for the request of the record, and is one `reserve` takes: it names a lease and starts no
conversation. -/
structure Repeats (table : CaseTable) (input : ReserveProviderInteractionInput) (scope : ProviderInteractionScope)
    (record : ProviderInteractionRecord) : Prop where
  normalized : normalizeScope table input.scope = .ok scope
  account : aggregateScopeKey scope = record.account
  interactionClass : input.interactionClass = .backendRequest
  key : requestedKey input = record.backendRequestKey
  lease : (trimmed input.tabLeaseId).isSome = true
  noStart : input.startsNewConversation = false

/-- It asks from the profile and under the lease of the record. -/
def SameOwner (input : ReserveProviderInteractionInput) (scope : ProviderInteractionScope)
    (record : ProviderInteractionRecord) : Prop :=
  record.scope.managedBrowserProfile = scope.managedBrowserProfile ∧ record.tabLeaseId = input.tabLeaseId.map trim

/-- What becomes of a request that is reserved again, when `record` is its record at the time of the call. -/
inductive RepeatOutcome (input : ReserveProviderInteractionInput) (scope : ProviderInteractionScope)
    (record : ProviderInteractionRecord) (warning : Option ProviderWarningRecord) :
    Checked ProviderInteractionAdmission → Prop
  | warned (active : ProviderWarningRecord) : warning = some active →
      RepeatOutcome input scope record warning (.error (.refused (.admission .providerWarning (some active))))
  | conflict : warning = none → ¬SameOwner input scope record →
      RepeatOutcome input scope record warning (.error (.refused (.admission .backendRequestIdentityConflict none)))
  | fenced : warning = none → SameOwner input scope record → Fenced record →
      RepeatOutcome input scope record warning (.error (.refused (.admission .backendRequestFenced none)))
  | answered : warning = none → SameOwner input scope record → ¬Fenced record →
      RepeatOutcome input scope record warning (.ok ⟨record, true⟩)

theorem find_request (h : RequestsUnique ledger) (hm : record ∈ ledger.records) {key : String}
    (hkey : record.backendRequestKey = some key) :
    ledger.records.values.find? (fun other => other.interactionClass == .backendRequest &&
      other.account == record.account && other.backendRequestKey == some key) = some record := by
  have hclass := (h.keyed record hm key hkey).1
  cases hfind : ledger.records.values.find? (fun other => other.interactionClass == .backendRequest &&
      other.account == record.account && other.backendRequestKey == some key) with
  | none =>
    have := List.find?_eq_none.1 hfind record hm
    simp [hclass, hkey] at this
  | some other =>
    have hother := List.find?_some hfind
    simp only [Bool.and_eq_true, beq_iff_eq] at hother
    obtain ⟨⟨-, haccount⟩, hkey'⟩ := hother
    rw [h.unique record hm other (List.mem_of_find?_eq_some hfind) haccount.symm key hkey hkey']

/-- The search of a request whose record is `record`, after the checks of the input. -/
theorem existingBackendRequest_repeated {scope : ProviderInteractionScope} {input : ReserveProviderInteractionInput}
    (h : RequestsUnique ledger) (hm : record ∈ ledger.records) {key : String}
    (hkey : record.backendRequestKey = some key) (hr : Repeats table input scope record) :
    existingBackendRequest scope input ledger = (do
      refuseIf (record.scope.managedBrowserProfile != scope.managedBrowserProfile ||
        record.tabLeaseId != input.tabLeaseId.map trim) (.admission .backendRequestIdentityConflict none)
      refuseIf (record.state == .abandoned || record.state == .frozen) (.admission .backendRequestFenced none)
      return some record) := by
  have hhashed := (h.keyed record hm key hkey).2
  have hrequested : requestedKey input = some key := hr.key.trans hkey
  have hlease : (trimmed input.tabLeaseId).isNone = false := by
    obtain ⟨lease, hlease⟩ := Option.isSome_iff_exists.1 hr.lease
    rw [hlease]
    rfl
  have hfind := find_request h hm hkey
  rw [← hr.account] at hfind
  simp only [existingBackendRequest, hr.interactionClass, bne_self_eq_false, Bool.false_eq_true, if_false, hrequested,
    Option.any_some, hhashed, Bool.not_true, throwIf, hlease, hr.noStart, Bool.or_self, hfind, bind, Except.bind]

/-- The answer to a request whose record is `record`. -/
theorem checkAdmission_repeated (createReservationId : String) (now : IsoTime) {scope : ProviderInteractionScope}
    {input : ReserveProviderInteractionInput} (h : RequestsUnique ledger) (hm : record ∈ ledger.records) {key : String}
    (hkey : record.backendRequestKey = some key) (hr : Repeats table input scope record) :
    RepeatOutcome input scope record (activeWarning record.account now.ms ledger)
      (checkAdmission createReservationId scope now input ledger) := by
  have hexisting := existingBackendRequest_repeated h hm hkey hr
  have haccount := hr.account
  cases hw : activeWarning record.account now.ms ledger with
  | some active =>
    have hrefused : checkAdmission createReservationId scope now input ledger =
        .error (.refused (.admission .providerWarning (some active))) := by
      simp only [checkAdmission, haccount, hw, refuseFound, bind, Except.bind]
    rw [hrefused]
    exact .warned active rfl
  | none =>
    have hsearch : checkAdmission createReservationId scope now input ledger = (do
        refuseIf (record.scope.managedBrowserProfile != scope.managedBrowserProfile ||
          record.tabLeaseId != input.tabLeaseId.map trim) (.admission .backendRequestIdentityConflict none)
        refuseIf (record.state == .abandoned || record.state == .frozen) (.admission .backendRequestFenced none)
        return ⟨record, true⟩) := by
      simp only [checkAdmission, haccount, hw, hexisting, refuseFound]
      cases refuseIf (record.scope.managedBrowserProfile != scope.managedBrowserProfile ||
          record.tabLeaseId != input.tabLeaseId.map trim) (Refusal.admission .backendRequestIdentityConflict none) with
      | error stop => rfl
      | ok _ =>
        cases refuseIf (record.state == .abandoned || record.state == .frozen)
            (Refusal.admission .backendRequestFenced none) with
        | error stop => rfl
        | ok _ => rfl
    rw [hsearch]
    have howned : (record.scope.managedBrowserProfile != scope.managedBrowserProfile ||
        record.tabLeaseId != input.tabLeaseId.map trim) = false ↔ SameOwner input scope record := by
      simp [SameOwner]
    have hfenced : (record.state == .abandoned || record.state == .frozen) = true ↔ Fenced record := by
      simp [Fenced]
    by_cases howner : SameOwner input scope record
    · rw [howned.2 howner]
      by_cases hf : Fenced record
      · rw [hfenced.2 hf]
        exact .fenced rfl howner hf
      · rw [Bool.eq_false_iff.2 fun hf' => hf (hfenced.1 hf')]
        exact .answered rfl howner hf
    · rw [Bool.of_not_eq_false fun howner' => howner (howned.1 howner')]
      exact .conflict rfl howner

/-- The record of a request at the time of a call. -/
def current (now : IsoTime) (record : ProviderInteractionRecord) : ProviderInteractionRecord :=
  (expired now record).getD record

/-- **A request that is reserved again gets the answer of its record**, and an answer that is no refusal leaves the
ledger as the expiry of reservations does. -/
theorem reserve_repeated {createReservationId : String} {scope : ProviderInteractionScope}
    {input : ReserveProviderInteractionInput} (h : RequestsUnique ledger) (hm : record ∈ ledger.records) {key : String}
    (hkey : record.backendRequestKey = some key) (hr : Repeats table input scope record)
    (hnow : (parseTime input.now "now" : Checked IsoTime) = .ok now) :
    RepeatOutcome input scope (current now record) (activeWarning record.account now.ms ledger)
        (reserve table createReservationId input ledger).1 ∧
      (reserve table createReservationId input ledger).2.records = (expireReservations now ledger).records ∧
      ((∃ admission, (reserve table createReservationId input ledger).1 = .ok admission) →
        (reserve table createReservationId input ledger).2 = expireReservations now ledger) := by
  have hs := expired_step now record
  have hin : current now record ∈ (expireReservations now ledger).records := List.mem_map.2 ⟨record, hm, rfl⟩
  have haccount : (current now record).account = record.account := congrArg aggregateScopeKey hs.fixed.1
  have hr' : Repeats table input scope (current now record) :=
    ⟨hr.normalized, hr.account.trans haccount.symm, hr.interactionClass, hr.key.trans hs.request.2.symm, hr.lease,
      hr.noStart⟩
  have houtcome := checkAdmission_repeated createReservationId now
    (h.evolve (expireReservations_evolved now ledger)) hin (hs.request.2.trans hkey) hr'
  have hwarning : activeWarning record.account now.ms (expireReservations now ledger) =
      activeWarning record.account now.ms ledger := rfl
  rw [haccount, hwarning] at houtcome
  have hfirst : (reserve table createReservationId input ledger).1 =
      checkAdmission createReservationId scope now input (expireReservations now ledger) := by
    simp only [reserve, hr.normalized, hnow]
  rw [reserve_ledger hr.normalized hnow, hfirst]
  refine ⟨houtcome, ?_, ?_⟩
  · generalize checkAdmission createReservationId scope now input (expireReservations now ledger) = outcome at houtcome ⊢
    cases houtcome <;> rfl
  · rintro ⟨admission, hadmitted⟩
    rw [hadmitted] at houtcome ⊢
    cases houtcome
    rfl

/-! ## Runs of the store -/

/-- The calls that are run on the snapshot together; they are committed unless one of them throws or the commit fails. -/
structure Batch where
  calls : List Call
  committed : Bool

/-- All runs of the store, of which only the records are followed: a snapshot may change the warnings and the events. -/
def storedLedger (table : CaseTable) : TransitionSystem InteractionLedger Batch where
  Init ledger := ledger = .empty
  Step ledger batch ledger' :=
    ledger'.records = (if batch.committed then Ledger.runCalls table batch.calls ledger else ledger).records

theorem RequestsUnique.of_records (h : RequestsUnique ledger) (hr : ledger'.records = ledger.records) :
    RequestsUnique ledger' := by
  constructor
  · rw [hr]
    exact h.keyed
  · rw [hr]
    exact h.unique

theorem RequestsUnique.batch {batch : Batch} (h : RequestsUnique ledger)
    (hs : (storedLedger table).Step ledger batch ledger') : RequestsUnique ledger' := by
  refine RequestsUnique.of_records ?_ hs
  split
  · exact h.runCalls batch.calls
  · exact h

theorem reachable_unique (h : (storedLedger table).Reachable ledger) : RequestsUnique ledger := by
  refine h.invariant ?_ ?_
  · rintro _ rfl
    exact ⟨fun record hm => absurd hm (KeyedMap.not_mem_empty record),
      fun record hm => absurd hm (KeyedMap.not_mem_empty record)⟩
  · exact fun ledger batch ledger' _ hold hs => hold.batch hs

theorem batch_continues {batch : Batch} (hs : (storedLedger table).Step ledger batch ledger') :
    AllContinue ledger ledger' := by
  refine AllContinue.trans ?_ (.of_records hs)
  split
  · exact runCalls_continues table batch.calls ledger
  · exact .refl ledger

theorem run_continues {batches : List Batch} (h : (storedLedger table).Run ledger batches ledger') :
    AllContinue ledger ledger' := by
  induction h with
  | nil => exact .refl _
  | cons hs _ ih => exact (batch_continues hs).trans ih

theorem start_fenced (hm : record ∈ ledger.records) (hf : Fenced record) (startedAt : DateString) :
    (start ⟨record.reservationId, startedAt⟩ ledger).1 = .error (.refused .invalidState) := by
  have hstate : (record.state != .reserved) = true := by
    rcases hf with hf | hf <;> rw [hf] <;> rfl
  simp only [start, starting, KeyedMap.get?_self hm, orRefuse, hstate, refuseIf, if_true, bind, Except.bind, transit]

/-- **Backend requests are idempotent.** In every state of the store there is one record for a provider, tenant and key;
a request that is reserved again from its profile and under its lease is answered by its record, with nothing done
besides the expiry of reservations, unless it is fenced or its account has an active warning; every other repetition is
refused. A record keeps its request, its profile and its lease over every run, and once it is fenced it stays so and is
not started. -/
theorem backend_requests_idempotent (h : (storedLedger table).Reachable ledger) :
    (∀ record ∈ ledger.records, ∀ other ∈ ledger.records, record.scope.provider = other.scope.provider →
        record.scope.tenantKey = other.scope.tenantKey → ∀ key, record.backendRequestKey = some key →
          other.backendRequestKey = some key → record = other) ∧
      (∀ record ∈ ledger.records, ∀ key, record.backendRequestKey = some key → ∀ createReservationId input scope now,
        Repeats table input scope record → (parseTime input.now "now" : Checked IsoTime) = .ok now →
          RepeatOutcome input scope (current now record) (activeWarning record.account now.ms ledger)
              (reserve table createReservationId input ledger).1 ∧
            (reserve table createReservationId input ledger).2.records = (expireReservations now ledger).records ∧
            ((∃ admission, (reserve table createReservationId input ledger).1 = .ok admission) →
              (reserve table createReservationId input ledger).2 = expireReservations now ledger)) ∧
      ∀ batches ledger', (storedLedger table).Run ledger batches ledger' → ∀ record ∈ ledger.records,
        ∃ later ∈ ledger'.records, Continues record later ∧ (Fenced record → ∀ startedAt,
          (start ⟨record.reservationId, startedAt⟩ ledger').1 = .error (.refused .invalidState)) := by
  have hunique := reachable_unique h
  refine ⟨fun record hm other hm' hprovider htenant => hunique.unique record hm other hm' ?_, ?_, ?_⟩
  · rw [ProviderInteractionRecord.account, ProviderInteractionRecord.account, aggregateScopeKey, aggregateScopeKey,
      hprovider, htenant]
  · exact fun record hm key hkey _ _ _ _ hr hnow => reserve_repeated hunique hm hkey hr hnow
  · intro batches ledger' hrun record hm
    obtain ⟨later, hlater, hc⟩ := run_continues hrun record hm
    refine ⟨later, hlater, hc, fun hf startedAt => ?_⟩
    rw [← hc.reservationId]
    exact start_fenced hlater (hc.fenced hf).1 startedAt

end Unique

/-! ## A request that is repeated -/

def sampleKey : String := "sha256:0123456789abcdef0123456789abcdef0123456789abcdef0123456789abcdef"

/-- A backend request under a lease. -/
def sampleRequest (nowMs : Int) : ReserveProviderInteractionInput where
  scope := sampleScope
  workloadId := "workload-1"
  operationId := "operation"
  tabLeaseId := some "lease-1"
  interactionClass := .backendRequest
  mutability := .readOnly
  startsNewConversation := false
  now := .at nowMs
  reservationTtlMs := .finite 30000
  policy := ⟨none, none, none, none, none⟩
  backendRequestKey := some sampleKey

/-- The request is reserved, and carried out. -/
def settledRequest : List Call :=
  [⟨"reservation-1", .reserve (sampleRequest 0)⟩, ⟨"", .start ⟨"reservation-1", .at 1000⟩⟩,
    ⟨"", .settle ⟨"reservation-1", .at 2000, .settled, .succeeded, none, settledEffect_notInFlight⟩⟩]

/-- The record of the request, once it has been carried out. -/
def settledRecord : ProviderInteractionRecord where
  reservationId := "reservation-1"
  scope := sampleScope
  workloadId := "workload-1"
  operationId := "operation"
  tabLeaseId := some "lease-1"
  interactionClass := .backendRequest
  mutability := .readOnly
  startsNewConversation := false
  state := .settled
  effectState := .settled
  reservedAt := ⟨0, IsoTime.epoch_valid⟩
  reservationExpiresAt := ⟨30000, by decide⟩
  startedAt := some ⟨1000, by decide⟩
  settledAt := some ⟨2000, by decide⟩
  frozenAt := none
  providerWarning := none
  stopReason := none
  outcome := some .succeeded
  maxInteractionsPerMinute := none
  maxBackendRequestsPerMinute := none
  backendRequestKey := some sampleKey

theorem sampleRequest_repeats (nowMs : Int) : Repeats .lowered (sampleRequest nowMs) sampleScope settledRecord where
  normalized := (by decide +kernel : normalizeScope .lowered sampleScope = .ok sampleScope)
  account := rfl
  interactionClass := rfl
  key := (by decide +kernel : requestedKey (sampleRequest 0) = some sampleKey)
  lease := (by decide +kernel : (trimmed (some "lease-1")).isSome = true)
  noStart := rfl

theorem sampleRequest_owner (nowMs : Int) : SameOwner (sampleRequest nowMs) sampleScope settledRecord :=
  ⟨rfl, (by decide +kernel : some "lease-1" = (some "lease-1").map trim)⟩

theorem settledRequest_observed :
    settledRecord ∈ (Ledger.runCalls .lowered settledRequest .empty).records.values ∧
      activeWarning settledRecord.account 3000 (Ledger.runCalls .lowered settledRequest .empty) = none := by
  decide +kernel

/-- A request that has been carried out is answered by its record. -/
theorem settledRequest_repeated :
    (reserve .lowered "reservation-2" (sampleRequest 3000) (Ledger.runCalls .lowered settledRequest .empty)).1 =
        .ok ⟨settledRecord, true⟩ ∧
      (reserve .lowered "reservation-2" (sampleRequest 3000) (Ledger.runCalls .lowered settledRequest .empty)).2 =
        expireReservations ⟨3000, by decide⟩ (Ledger.runCalls .lowered settledRequest .empty) := by
  have hreach : (storedLedger .lowered).Reachable (Ledger.runCalls .lowered settledRequest .empty) :=
    .step (a := ⟨settledRequest, true⟩) (.init rfl) rfl
  obtain ⟨-, hrepeated, -⟩ := backend_requests_idempotent hreach
  obtain ⟨hm, hwarning⟩ := settledRequest_observed
  obtain ⟨houtcome, -, hledger⟩ := hrepeated settledRecord (KeyedMap.mem_def.2 hm) sampleKey rfl "reservation-2"
    (sampleRequest 3000) sampleScope ⟨3000, by decide⟩ (sampleRequest_repeats 3000) rfl
  have hanswer : (reserve .lowered "reservation-2" (sampleRequest 3000)
      (Ledger.runCalls .lowered settledRequest .empty)).1 = .ok ⟨settledRecord, true⟩ := by
    generalize (reserve .lowered "reservation-2" (sampleRequest 3000)
      (Ledger.runCalls .lowered settledRequest .empty)).1 = answer at houtcome
    cases houtcome with
    | warned active hw =>
      rw [hwarning] at hw
      cases hw
    | conflict _ howner => exact absurd (sampleRequest_owner 3000) howner
    | fenced _ _ hf => exact absurd hf (by decide)
    | answered _ _ _ => rfl
  exact ⟨hanswer, hledger ⟨_, hanswer⟩⟩

/-- The account of the request gets a warning after the request has been carried out. -/
def warnedRequest : List Call :=
  settledRequest ++ [⟨"", .recordProviderWarning
    { scope := sampleScope, classification := .rateLimit, reason := "slow down", observedAt := .at 2500 }⟩]

/-- A reservation of the account expires after the request has been carried out. -/
def besideRequest : List Call :=
  settledRequest ++ [⟨"reservation-3", .reserve
    { sampleRequest 3000 with interactionClass := .conversationRead, backendRequestKey := none }⟩]

/-- What every request is to come to that is reserved again from its profile and under its lease and is not fenced, when
`P` is about its record, the ledger before, and the answer and the ledger after. -/
def EveryRepetition
    (P : ProviderInteractionRecord → InteractionLedger → Checked ProviderInteractionAdmission × InteractionLedger → Prop) :
    Prop :=
  ∀ ledger, (system .lowered).Reachable ledger → ∀ record ∈ ledger.records, ∀ createReservationId input scope now,
    Repeats .lowered input scope record → (parseTime input.now "now" : Checked IsoTime) = .ok now →
      SameOwner input scope record → ¬Fenced (current now record) →
        P (current now record) ledger (reserve .lowered createReservationId input ledger)

/-- A warning stops repeated requests too, and a repeated request logs the reservations it finds expired. -/
theorem repetition_refused_or_logged :
    (¬EveryRepetition fun record _ out => out.1.toOption.map (·.reservation) = some record) ∧
      ¬EveryRepetition fun _ ledger out => out.2.events = ledger.events := by
  constructor
  · intro h
    obtain ⟨hm, hanswer⟩ : settledRecord ∈ (Ledger.runCalls .lowered warnedRequest .empty).records.values ∧
        (reserve .lowered "reservation-2" (sampleRequest 3000)
          (Ledger.runCalls .lowered warnedRequest .empty)).1.toOption.map (·.reservation) ≠ some settledRecord := by
      decide +kernel
    exact hanswer (h _ ((runCalls_run .lowered warnedRequest .empty).reachable (.init rfl)) settledRecord
      (KeyedMap.mem_def.2 hm) "reservation-2" (sampleRequest 3000) sampleScope ⟨3000, by decide⟩
      (sampleRequest_repeats 3000) rfl (sampleRequest_owner 3000) (by decide))
  · intro h
    obtain ⟨hm, hevents⟩ : settledRecord ∈ (Ledger.runCalls .lowered besideRequest .empty).records.values ∧
        (reserve .lowered "reservation-2" (sampleRequest 40000)
          (Ledger.runCalls .lowered besideRequest .empty)).2.events ≠
            (Ledger.runCalls .lowered besideRequest .empty).events := by
      decide +kernel
    exact hevents (h _ ((runCalls_run .lowered besideRequest .empty).reachable (.init rfl)) settledRecord
      (KeyedMap.mem_def.2 hm) "reservation-2" (sampleRequest 40000) sampleScope ⟨40000, by decide⟩
      (sampleRequest_repeats 40000) rfl (sampleRequest_owner 40000) (by decide))

end AuraCall.BackendRequests
