import AuraCall.Lib.SlidingWindow
import AuraCall.Ledger.System

/-!
# The rolling limits on conversation starts

`reserve` compares the limits with `countConversationStarts`, and `start` does not count again. The count dates a frozen
record by its start and a settled one by its end, which is no earlier, but a reserved or started record by its
reservation. A conversation start reserved before the window and started within it is overlooked, and then the window
holds more starts than the limit (`lateStart_exceeds`). `countInteractions` dates a started record by its start.

As long as no count overlooks a live record, the limits hold over every window of every run: a reservation is admitted
only when fewer than `limit` records before it have started within the window that ends at the reservation or may still
start, which is what `SlidingWindow.Metered` asks for.
-/

namespace AuraCall.Ledger

open SlidingWindow

/-! ## Windows -/

inductive StartWindow
  | hour | day

namespace StartWindow

def ms : StartWindow → Int
  | hour => hourMs
  | day => dayMs

/-- The limit of a policy on the starts within the window. -/
def limit (policy : ProviderInteractionPolicy) : StartWindow → Option JsNumber
  | hour => policy.maxConversationStartsPerHour
  | day => policy.maxConversationStartsPerDay

def name : StartWindow → String
  | hour => "maxConversationStartsPerHour"
  | day => "maxConversationStartsPerDay"

end StartWindow

theorem checkStartLimit_eq_ok {account name : String} {cutoffMs : Int} {value : Option JsNumber}
    {reason : ProviderInteractionAdmissionRejectionReason} {ledger : InteractionLedger} {limit : Int}
    (h : checkStartLimit account cutoffMs value name reason ledger = .ok ())
    (hlimit : normalizeLimit value name = .ok (some limit)) :
    (countConversationStarts account cutoffMs ledger : Int) < limit := by
  simpa [checkStartLimit, hlimit, bind_eq_ok] using h

theorem checkStartLimits_eq_ok {account : String} {nowMs limit : Int} {input : ReserveProviderInteractionInput}
    {ledger : InteractionLedger} {window : StartWindow}
    (h : checkStartLimits account nowMs input ledger = .ok ()) (hnew : input.startsNewConversation = true)
    (hlimit : normalizeLimit (window.limit input.policy) window.name = .ok (some limit)) :
    (countConversationStarts account (nowMs - window.ms) ledger : Int) < limit := by
  simp only [checkStartLimits, hnew, if_true, bind_eq_ok] at h
  obtain ⟨_, hhour, hday⟩ := h
  cases window with
  | hour => exact checkStartLimit_eq_ok hhour hlimit
  | day => exact checkStartLimit_eq_ok hday hlimit

/-! ## The times of a record -/

/-- What a start time says in each state. -/
def StartEvidence (record : ProviderInteractionRecord) (startedAt : IsoTime) : Prop :=
  match record.state with
  | .reserved | .abandoned => False
  | .started => True
  | .settled => ∃ settledAt, record.settledAt = some settledAt ∧ startedAt.ms ≤ settledAt.ms
  | .frozen => record.effectState = .outcomeUnknown

/-- The times of a record at the time `clock`. -/
structure Dated (clock : Int) (record : ProviderInteractionRecord) : Prop where
  reserved : record.reservedAt.ms ≤ clock
  started : ∀ startedAt, record.startedAt = some startedAt → record.reservedAt.ms ≤ startedAt.ms
  evidence : ∀ startedAt, record.startedAt = some startedAt → StartEvidence record startedAt

variable {clock : Int} {now : IsoTime} {record record' : ProviderInteractionRecord} {account : String}
  {window : StartWindow} {limit : Int} {ledger ledger' : InteractionLedger}

theorem Dated.mono {clock' : Int} (h : Dated clock record) (hle : clock ≤ clock') : Dated clock' record :=
  ⟨h.reserved.trans hle, h.started, h.evidence⟩

theorem Dated.not_started (h : Dated clock record) (hs : record.state = .reserved) : record.startedAt = none := by
  cases hst : record.startedAt with
  | none => rfl
  | some startedAt =>
    have := h.evidence startedAt hst
    simp [StartEvidence, hs] at this

/-- A step at a later time keeps the times in order. -/
theorem Dated.step (h : Dated clock record) (hle : clock ≤ now.ms) (hs : RecordStep now record record') :
    Dated now.ms record' := by
  have hd := h.mono hle
  cases hs with
  | same => exact hd
  | bind tabLeaseId hl => exact ⟨hd.reserved, hd.started, hd.evidence⟩
  | start hr _ =>
    refine ⟨hd.reserved, fun startedAt hst => ?_, fun _ _ => trivial⟩
    cases hst
    exact hd.reserved
  | settle effectState stopReason outcome hr hlate =>
    exact ⟨hd.reserved, hd.started, fun startedAt hst => ⟨now, rfl, hlate startedAt hst⟩⟩
  | abandon hr _ =>
    refine ⟨hd.reserved, hd.started, fun startedAt hst => ?_⟩
    have hnone := hd.not_started hr
    rw [show record.startedAt = some startedAt from hst] at hnone
    cases hnone
  | freeze classification reason hl =>
    refine ⟨hd.reserved, hd.started, fun startedAt hst => ?_⟩
    rcases hl with hr | hr
    · have hnone := hd.not_started hr
      rw [show record.startedAt = some startedAt from hst] at hnone
      cases hnone
    · simp [StartEvidence, hr]

theorem Admitted.dated {table : CaseTable} {input : ReserveProviderInteractionInput}
    (h : Admitted table input now ledger record) : Dated now.ms record := by
  refine ⟨by rw [h.reservedAt], fun startedAt hst => ?_, fun startedAt hst => ?_⟩ <;>
    (rw [h.startedAt] at hst; cases hst)

/-! ## Starts that count -/

/-- The start of a record is one the limits are about, unless it was settled as having no effect. -/
def hadEffect (record : ProviderInteractionRecord) : Bool :=
  !(record.state == .settled && record.effectState == .none)

/-- A conversation start of the account. -/
def isConversationStart (account : String) (record : ProviderInteractionRecord) : Bool :=
  record.startsNewConversation && record.account == account

/-- A conversation start of the account that has started since the cutoff, or may still start. -/
def holdsStart (account : String) (cutoffMs : Int) (record : ProviderInteractionRecord) : Bool :=
  isConversationStart account record &&
    (record.state == .reserved || (record.startedAt.any (cutoffMs ≤ ·.ms) && hadEffect record))

theorem holdsStart_eq_true {cutoffMs : Int} : holdsStart account cutoffMs record = true ↔
    isConversationStart account record = true ∧ (record.state = .reserved ∨
      (∃ startedAt, record.startedAt = some startedAt ∧ cutoffMs ≤ startedAt.ms) ∧ hadEffect record = true) := by
  simp [holdsStart, Option.any_eq_true]

theorem RecordStep.isConversationStart (h : RecordStep now record record') :
    Ledger.isConversationStart account record' = Ledger.isConversationStart account record := by
  obtain ⟨hscope, _, _, hnew, _⟩ := h.fixed
  simp only [Ledger.isConversationStart, ProviderInteractionRecord.account, hscope, hnew]

/-- Only a reserved record starts, so a step makes no record count. -/
theorem RecordStep.holdsStart {cutoffMs : Int} (h : RecordStep now record record')
    (hc : Ledger.holdsStart account cutoffMs record' = true) : Ledger.holdsStart account cutoffMs record = true := by
  obtain ⟨his, hstart⟩ := holdsStart_eq_true.1 hc
  refine holdsStart_eq_true.2 ⟨h.isConversationStart ▸ his, ?_⟩
  cases h with
  | same => exact hstart
  | bind tabLeaseId hl => exact hstart
  | start hr _ => exact .inl hr
  | settle effectState stopReason outcome hr _ =>
    rcases hstart with hr' | ⟨hsince, _⟩
    · cases hr'
    · exact .inr ⟨hsince, by simp [hadEffect, hr]⟩
  | abandon hr _ => exact .inl hr
  | freeze classification reason hl =>
    rcases hl with hr | hr
    · exact .inl hr
    · rcases hstart with hr' | ⟨hsince, _⟩
      · cases hr'
      · exact .inr ⟨hsince, by simp [hadEffect, hr]⟩

/-! ## What the count overlooks -/

/-- A live record that was reserved before the cutoff has also started before it. -/
def Noticed (cutoffMs : Int) (record : ProviderInteractionRecord) : Prop :=
  Live record → record.reservedAt.ms < cutoffMs →
    ∃ startedAt, record.startedAt = some startedAt ∧ startedAt.ms < cutoffMs

/-- `countConversationStarts` counts every start that may fall into the window, unless it overlooks the record. -/
theorem countsConversationStart_of_holdsStart {cutoffMs : Int} (hd : Dated clock record) (hn : Noticed cutoffMs record)
    (h : holdsStart account cutoffMs record = true) : countsConversationStart account cutoffMs record = true := by
  obtain ⟨his, hstart⟩ := holdsStart_eq_true.1 h
  simp only [isConversationStart] at his
  rcases hstart with hr | ⟨⟨startedAt, hst, hsince⟩, heffect⟩
  · have hrecent : cutoffMs ≤ record.reservedAt.ms := by
      by_contra hlate
      obtain ⟨startedAt, hst, _⟩ := hn (.inl hr) (by omega)
      rw [hd.not_started hr] at hst
      cases hst
    simp [countsConversationStart, his, hr, hrecent]
  · have hevidence := hd.evidence startedAt hst
    cases hs : record.state with
    | reserved => simp [StartEvidence, hs] at hevidence
    | abandoned => simp [StartEvidence, hs] at hevidence
    | started =>
      have hrecent : cutoffMs ≤ record.reservedAt.ms := by
        by_contra hlate
        obtain ⟨startedAt', hst', hbefore⟩ := hn (.inr hs) (by omega)
        rw [hst] at hst'
        cases hst'
        omega
      simp [countsConversationStart, his, hs, hrecent]
    | settled =>
      obtain ⟨settledAt, hset, hle⟩ : ∃ settledAt, record.settledAt = some settledAt ∧ startedAt.ms ≤ settledAt.ms := by
        simpa [StartEvidence, hs] using hevidence
      have hne : record.effectState ≠ .none := by simpa [hadEffect, hs] using heffect
      have hrecent : cutoffMs ≤ settledAt.ms := hsince.trans hle
      simp [countsConversationStart, his, hs, hset, hne, hrecent]
    | frozen =>
      have hunknown : record.effectState = .outcomeUnknown := by simpa [StartEvidence, hs] using hevidence
      simp [countsConversationStart, his, hs, hunknown, hst, hsince]

/-- The count of a conversation start that is to be reserved overlooks no record of its account. -/
def OverlooksNone (table : CaseTable) (window : StartWindow) (ledger : InteractionLedger) (call : Call) : Prop :=
  ∀ input scope now, call.operation = .reserve input → input.startsNewConversation = true →
    normalizeScope table input.scope = .ok scope → input.now.parse = some now.ms →
    ∀ record ∈ (expireReservations now ledger).records,
      isConversationStart (aggregateScopeKey scope) record = true → Noticed (now.ms - window.ms) record

/-! ## The invariant -/

/-- Every reservation was admitted when fewer than `limit` starts before it could fall into its window. -/
structure StartsMetered (window : StartWindow) (limit : Int) (s : Int × InteractionLedger) : Prop where
  dated : ∀ record ∈ s.2.records, Dated s.1 record
  metered : ∀ account, Metered limit (isConversationStart account) (fun record => record.reservedAt.ms - window.ms)
    (holdsStart account) s.2.records.values

theorem StartsMetered.evolve (h : StartsMetered window limit (clock, ledger)) (hle : clock ≤ now.ms)
    (he : Evolved now ledger ledger') : StartsMetered window limit (now.ms, ledger') where
  dated record' hm := by
    obtain ⟨record, hin, hs⟩ := he.source hm
    exact (h.dated record hin).step hle hs
  metered account := (h.metered account).change he
    (fun _ _ hs hm => ⟨hs.isConversationStart ▸ hm, by rw [hs.fixed.2.2.2.2]⟩) fun _ _ _ hs hc => hs.holdsStart hc

/-- An admitted record is metered, when its count has overlooked none. -/
theorem StartsMetered.reserve {table : CaseTable} {input : ReserveProviderInteractionInput}
    (h : StartsMetered window limit (now.ms, ledger)) (ha : Admitted table input now ledger record)
    (hlimit : normalizeLimit (window.limit input.policy) window.name = .ok (some limit))
    (hnoticed : input.startsNewConversation = true → ∀ other ∈ ledger.records,
      isConversationStart record.account other = true → Noticed (now.ms - window.ms) other)
    (hv : ledger'.records.values = ledger.records.values ++ [record]) :
    StartsMetered window limit (now.ms, ledger') where
  dated other hm := by
    rw [KeyedMap.mem_def, hv, List.mem_append, List.mem_singleton] at hm
    rcases hm with hm | rfl
    · exact h.dated other hm
    · exact ha.dated
  metered account := by
    rw [hv]
    refine (h.metered account).append fun his => ?_
    simp only [isConversationStart, Bool.and_eq_true, beq_iff_eq] at his
    obtain ⟨hnew, rfl⟩ := his
    rw [ha.startsNewConversation] at hnew
    have hcount := checkStartLimits_eq_ok ha.starts hnew hlimit
    have hle : ledger.records.values.countP (holdsStart record.account (record.reservedAt.ms - window.ms)) ≤
        countConversationStarts record.account (now.ms - window.ms) ledger := by
      rw [ha.reservedAt]
      refine List.countP_mono_left fun other hm hc => ?_
      exact countsConversationStart_of_holdsStart (h.dated other hm)
        (hnoticed hnew other hm (holdsStart_eq_true.1 hc).1) hc
    dsimp only
    omega

/-! ## Runs under a clock -/

/-- All runs under a clock that never goes back. -/
def timedSystem (table : CaseTable) : TransitionSystem (Int × InteractionLedger) Call :=
  (system table).clocked fun call => call.operation.time.parse

/-- Every reservation asks for the policy, and its count overlooks none. -/
def MeetsLimit (table : CaseTable) (policy : ProviderInteractionPolicy) (window : StartWindow)
    (s : Int × InteractionLedger) (call : Call) : Prop :=
  UsesPolicy policy s.2 call ∧ OverlooksNone table window s.2 call

theorem reachable_startsMetered {table : CaseTable} {policy : ProviderInteractionPolicy}
    (hlimit : normalizeLimit (window.limit policy) window.name = .ok (some limit)) {s : Int × InteractionLedger}
    (h : ((timedSystem table).restrict (MeetsLimit table policy window)).Reachable s) :
    StartsMetered window limit s := by
  refine h.invariant ?_ ?_
  · rintro ⟨clock, _⟩ rfl
    exact ⟨fun record hm => absurd hm (KeyedMap.not_mem_empty record), fun _ => .nil⟩
  · rintro ⟨clock, ledger⟩ call ⟨clock', ledger'⟩ _ hb ⟨⟨hpolicy, hnone⟩, hle, htime, hstep⟩
    cases hstep
    cases perform_effect table call ledger with
    | kept hr =>
      refine ⟨fun record hm => (hb.dated record ?_).mono hle, fun account => ?_⟩
      · rwa [← hr]
      · have := hb.metered account
        rwa [← hr] at this
    | evolved now hp he =>
      obtain rfl := htime now.ms hp
      exact hb.evolve hle he
    | admitted input now new hop hp ha hv =>
      have hreported : call.operation.time.parse = some now.ms := by rw [hop]; exact hp
      obtain rfl := htime now.ms hreported
      exact (hb.evolve hle (expireReservations_evolved now ledger)).reserve ha (hpolicy input hop ▸ hlimit)
        (fun hnew => hnone input new.scope now hop hnew ha.scope hp) hv

/-- A count overlooks none while no record is older than the window. -/
theorem overlooksNone_of_recent {table : CaseTable} {call : Call}
    (h : ∀ t, call.operation.time.parse = some t → ∀ record ∈ ledger.records, t - window.ms ≤ record.reservedAt.ms) :
    OverlooksNone table window ledger call := by
  intro input scope now hop _ _ hp record' hm _ _ hold
  obtain ⟨record, hin, hs⟩ := (expireReservations_evolved now ledger).source hm
  have hreported : call.operation.time.parse = some now.ms := by rw [hop]; exact hp
  have hrecent := h now.ms hreported record hin
  rw [hs.fixed.2.2.2.2] at hold
  omega

theorem timed_init (table : CaseTable) (ok : Int × InteractionLedger → Call → Prop) :
    ((timedSystem table).restrict ok).Reachable (0, .empty) :=
  .init rfl

theorem timed_step {table : CaseTable} {ok : Int × InteractionLedger → Call → Prop}
    (h : ((timedSystem table).restrict ok).Reachable (clock, ledger)) (call : Call) (t : Int)
    (hok : ok (clock, ledger) call) (htime : call.operation.time.parse = some t) (hle : clock ≤ t) :
    ((timedSystem table).restrict ok).Reachable (t, (perform table call ledger).2) :=
  h.step ⟨hok, hle, fun _ hp => Option.some.inj (htime.symm.trans hp), rfl⟩

/-! ## The starts within a window -/

/-- A conversation start of the provider and tenant that started in the window that ends at `t`, and was not settled as
having no effect. -/
def startedWithin (provider tenantKey : String) (window : StartWindow) (t : Int) (record : ProviderInteractionRecord) :
    Bool :=
  record.startsNewConversation && record.scope.provider == provider && record.scope.tenantKey == tenantKey &&
    record.startedAt.any (fun startedAt => t - window.ms ≤ startedAt.ms && startedAt.ms ≤ t) && hadEffect record

def startsWithin (provider tenantKey : String) (window : StartWindow) (t : Int) (ledger : InteractionLedger) : Nat :=
  ledger.records.values.countP (startedWithin provider tenantKey window t)

theorem startedWithin_spec {provider tenantKey : String} {t : Int}
    (h : startedWithin provider tenantKey window t record = true) :
    isConversationStart (aggregateKey provider tenantKey) record = true ∧ hadEffect record = true ∧
      ∃ startedAt, record.startedAt = some startedAt ∧ t - window.ms ≤ startedAt.ms ∧ startedAt.ms ≤ t := by
  simp only [startedWithin, Bool.and_eq_true, beq_iff_eq, Option.any_eq_true, decide_eq_true_eq] at h
  obtain ⟨⟨⟨⟨hnew, rfl⟩, rfl⟩, hwithin⟩, heffect⟩ := h
  exact ⟨by simp [isConversationStart, hnew, ProviderInteractionRecord.account, aggregateScopeKey], heffect, hwithin⟩

/-- **Under one policy and a clock that never goes back, as long as no count overlooks a live record, no provider and
tenant ever has more conversation starts within an hour or a day than the policy allows.** -/
theorem starts_bounded (table : CaseTable) (policy : ProviderInteractionPolicy) (window : StartWindow) {limit : Int}
    (hlimit : normalizeLimit (window.limit policy) window.name = .ok (some limit)) {s : Int × InteractionLedger}
    (h : ((timedSystem table).restrict (MeetsLimit table policy window)).Reachable s) (provider tenantKey : String)
    (t : Int) : (startsWithin provider tenantKey window t s.2 : Int) ≤ limit := by
  have hb := reachable_startsMetered hlimit h
  refine (hb.metered (aggregateKey provider tenantKey)).countP_le (normalizeLimit_nonneg hlimit)
    (fun record _ hw => (startedWithin_spec hw).1) fun record hm other _ hw hw' => ?_
  obtain ⟨_, _, startedAt, hst, _, hle⟩ := startedWithin_spec hw
  obtain ⟨his, heffect, startedAt', hst', hsince, _⟩ := startedWithin_spec hw'
  have hreserved := (hb.dated record hm).started startedAt hst
  exact holdsStart_eq_true.2 ⟨his, .inr ⟨⟨startedAt', hst', by omega⟩, heffect⟩⟩

/-! ## One start an hour -/

/-- One conversation start an hour. -/
def hourlyPolicy : ProviderInteractionPolicy := ⟨none, some (.finite 1), none, none, none⟩

def sampleStart (reservationId : String) (nowMs : Int) : Call := ⟨"", .start ⟨reservationId, .at nowMs⟩⟩

theorem sampleReserve_usesPolicy (reservationId workloadId : String) (nowMs : Int) (ledger : InteractionLedger) :
    UsesPolicy hourlyPolicy ledger (sampleReserve hourlyPolicy reservationId workloadId nowMs) := by
  intro input hop
  cases hop
  rfl

theorem sampleStart_usesPolicy (reservationId : String) (nowMs : Int) (ledger : InteractionLedger) :
    UsesPolicy hourlyPolicy ledger (sampleStart reservationId nowMs) := fun _ hop => nomatch hop

/-- The second reservation is refused while the first start is in its window. -/
def sampleStarts : InteractionLedger :=
  runCalls .lowered [sampleReserve hourlyPolicy "reservation-1" "workload-1" 0, sampleStart "reservation-1" 20000,
    sampleReserve hourlyPolicy "reservation-2" "workload-2" 25000] .empty

theorem sampleStarts_bounded :
    startsWithin "chatgpt" "tenant" .hour 25000 sampleStarts = 1 ∧
      (startsWithin "chatgpt" "tenant" .hour 25000 sampleStarts : Int) ≤ 1 := by
  have hempty := timed_init .lowered (MeetsLimit .lowered hourlyPolicy .hour)
  have hreserved := timed_step hempty (sampleReserve hourlyPolicy "reservation-1" "workload-1" 0) 0
    ⟨sampleReserve_usesPolicy _ _ _ _, overlooksNone_of_recent fun _ _ record hm =>
      absurd hm (KeyedMap.not_mem_empty record)⟩ rfl (by decide)
  have hstarted := timed_step hreserved (sampleStart "reservation-1" 20000) 20000
    ⟨sampleStart_usesPolicy _ _ _, fun _ _ _ hop => nomatch hop⟩ rfl (by decide)
  have hreach := timed_step hstarted (sampleReserve hourlyPolicy "reservation-2" "workload-2" 25000) 25000
    ⟨sampleReserve_usesPolicy _ _ _ _, overlooksNone_of_recent fun t ht => by
      cases ht
      decide +kernel⟩ rfl (by decide)
  exact ⟨by decide +kernel,
    starts_bounded .lowered hourlyPolicy .hour (by decide +kernel) hreach "chatgpt" "tenant" 25000⟩

/-- The first conversation starts twenty seconds after its reservation and still runs an hour after the reservation: the
second reservation does not count it. -/
def lateStart : InteractionLedger :=
  runCalls .lowered [sampleReserve hourlyPolicy "reservation-1" "workload-1" 0, sampleStart "reservation-1" 20000,
    sampleReserve hourlyPolicy "reservation-2" "workload-2" 3600001, sampleStart "reservation-2" 3600001] .empty

/-- Two conversations start within the hour. -/
theorem lateStart_exceeds :
    ¬∀ s, ((timedSystem .lowered).restrict fun s call => UsesPolicy hourlyPolicy s.2 call).Reachable s →
      ∀ t, (startsWithin "chatgpt" "tenant" .hour t s.2 : Int) ≤ 1 := by
  intro h
  have hempty := timed_init .lowered fun s call => UsesPolicy hourlyPolicy s.2 call
  have hreserved := timed_step hempty (sampleReserve hourlyPolicy "reservation-1" "workload-1" 0) 0
    (sampleReserve_usesPolicy _ _ _ _) rfl (by decide)
  have hstarted := timed_step hreserved (sampleStart "reservation-1" 20000) 20000 (sampleStart_usesPolicy _ _ _) rfl
    (by decide)
  have hsecond := timed_step hstarted (sampleReserve hourlyPolicy "reservation-2" "workload-2" 3600001) 3600001
    (sampleReserve_usesPolicy _ _ _ _) rfl (by decide)
  have hreach : ((timedSystem .lowered).restrict fun s call => UsesPolicy hourlyPolicy s.2 call).Reachable
      (3600001, lateStart) :=
    timed_step hsecond (sampleStart "reservation-2" 3600001) 3600001 (sampleStart_usesPolicy _ _ _) rfl (by decide)
  exact absurd (h _ hreach 3600001) (by decide +kernel)

end AuraCall.Ledger
