import AuraCall.Runtime.TenantGate

/-!
# The chats of a tenant

A chat of a tenant is granted, from the answer of the gate until its reservation has lived its time or its run is
terminal, or it is running, under a lease. A decision counts the reservations that its pruning keeps, and the pruning
goes by a listing that may be older than a reservation: a listing without the run drops it, for this decision and for
every later one (`keepsReservation_unexpired`, `stale_listing_over_limit`).

Where the listing of every decision shows the runs with unexpired reservations and leases are taken only under a grant,
a decision weighs every chat of the tenant (`Tracked.weighs_chats`), and the tenant stays within its limit
(`tenant_admission`).
-/

namespace AuraCall.Runtime

variable {deps : TenantGateDeps} {tenantKey : String} {s s' : GateState} {id : Nat} {call : GateCall}

namespace GateState

/-- The runs with an unexpired grant of the tenant. -/
def grantedChats (s : GateState) (tenantKey : String) : Finset String :=
  ((s.granted.filter fun grant =>
    grant.tenantKey == tenantKey && decide (s.clock - grant.reservedAtMs ≤ tenantReservationTtlMs)).map
      (·.runId)).toFinset

/-- The runs of the tenant that are executed under a lease. -/
def runningChats (deps : TenantGateDeps) (s : GateState) (tenantKey : String) : Finset String :=
  ((s.stored.values.filter fun run => isActiveTenantChat deps tenantKey run.record).map (·.runId)).toFinset

/-- The chats of the tenant, granted or running. -/
def chats (deps : TenantGateDeps) (s : GateState) (tenantKey : String) : Finset String :=
  s.grantedChats tenantKey ∪ s.runningChats deps tenantKey

/-- The reservations that the call prunes its tenant's to. -/
def pruned (deps : TenantGateDeps) (s : GateState) (call : GateCall) : TenantReservations :=
  pruneTenantReservations deps call.records (s.reservationsByTenant call.scope.tenantKey) call.scope.tenantKey call.nowMs

/-- The chats that the call weighs against the limit: its own, and those it counts. -/
def weighed (deps : TenantGateDeps) (s : GateState) (call : GateCall) : Finset String :=
  insert call.runId
    (activeTenantChats deps call.records (s.pruned deps call) call.scope.tenantKey call.runId call.nowMs)

end GateState

theorem mem_grantedChats {runId : String} : runId ∈ s.grantedChats tenantKey ↔
    ∃ grant ∈ s.granted, grant.runId = runId ∧ grant.tenantKey = tenantKey ∧
      s.clock - grant.reservedAtMs ≤ tenantReservationTtlMs := by
  simp only [GateState.grantedChats, List.mem_toFinset, List.mem_map, List.mem_filter, Bool.and_eq_true, beq_iff_eq,
    decide_eq_true_eq]
  constructor
  · rintro ⟨grant, ⟨hm, hk, ht⟩, rfl⟩
    exact ⟨grant, hm, rfl, hk, ht⟩
  · rintro ⟨grant, hm, rfl, hk, ht⟩
    exact ⟨grant, ⟨hm, hk, ht⟩, rfl⟩

theorem mem_runningChats {runId : String} : runId ∈ s.runningChats deps tenantKey ↔
    ∃ run ∈ s.stored, run.runId = runId ∧ isActiveTenantChat deps tenantKey run.record = true := by
  simp only [GateState.runningChats, List.mem_toFinset, List.mem_map, List.mem_filter, ← KeyedMap.mem_def]
  constructor
  · rintro ⟨run, ⟨hm, ha⟩, rfl⟩
    exact ⟨run, hm, rfl, ha⟩
  · rintro ⟨run, hm, rfl, ha⟩
    exact ⟨run, ⟨hm, ha⟩, rfl⟩

theorem isActiveTenantChat_eq_true {record : ExecutionRunStoredRecord} :
    isActiveTenantChat deps tenantKey record = true ↔ isTerminalRun record = false ∧
      recordHasActiveLease record = true ∧ recordMatchesTenantScope deps.table deps.config tenantKey record = true := by
  simp [isActiveTenantChat, and_assoc]

theorem isExpired_eq_false {reservation : TenantExecutionReservation} {nowMs : Int} :
    reservation.isExpired nowMs = false ↔ nowMs - reservation.reservedAtMs ≤ tenantReservationTtlMs := by
  simp [TenantExecutionReservation.isExpired]

theorem isTerminal_of_running {runId : String} (h : runId ∈ s.runningChats deps tenantKey) :
    s.isTerminal runId = false := by
  obtain ⟨run, hm, rfl, ha⟩ := mem_runningChats.1 h
  simp [GateState.isTerminal, KeyedMap.get?_self hm, (isActiveTenantChat_eq_true.1 ha).1]

/-! ## Pruning -/

/-- The listing of the call shows the run as a run of the tenant that is not terminal. -/
def GateCall.Shows (deps : TenantGateDeps) (tenantKey : String) (call : GateCall) (runId : String) : Prop :=
  ∃ record ∈ call.listing.records, runIdOf record = runId ∧ isTerminalRun record = false ∧
    recordMatchesTenantScope deps.table deps.config tenantKey record = true

/-- **An unexpired reservation is kept exactly if the listing shows its run.** -/
theorem keepsReservation_unexpired {reservation : TenantExecutionReservation}
    (h : reservation.isExpired call.nowMs = false) :
    keepsReservation deps call.records tenantKey call.nowMs reservation = true ↔
      call.Shows deps tenantKey reservation.runId := by
  unfold keepsReservation GateCall.records GateCall.Shows
  rw [KeyedMap.ofList_values]
  cases hg : call.listing.records.get? reservation.runId with
  | none =>
    have hnone := KeyedMap.get?_eq_none.1 hg
    constructor
    · intro hc
      cases hc
    · rintro ⟨record, hm, hid, -⟩
      exact absurd hid (hnone record hm)
  | some record =>
    obtain ⟨hm, hid⟩ := KeyedMap.get?_eq_some.1 hg
    simp only [h, Bool.false_and, Bool.not_false, Bool.and_true, Bool.and_eq_true, Bool.not_eq_true']
    constructor
    · rintro ⟨hlive, hmatch⟩
      exact ⟨record, hm, hid, hlive, hmatch⟩
    · rintro ⟨record', hm', hid', hlive, hmatch⟩
      cases KeyedMap.eq_of_key hm' hm (hid'.trans hid.symm)
      exact ⟨hlive, hmatch⟩

/-- The reservation of a run that the listing shows under a lease is kept, expired or not. -/
theorem keepsReservation_running {reservation : TenantExecutionReservation} {record : ExecutionRunStoredRecord}
    (hm : record ∈ call.listing.records) (hid : runIdOf record = reservation.runId)
    (ha : isActiveTenantChat deps tenantKey record = true) :
    keepsReservation deps call.records tenantKey call.nowMs reservation = true := by
  obtain ⟨hlive, hlease, hmatch⟩ := isActiveTenantChat_eq_true.1 ha
  unfold keepsReservation GateCall.records
  rw [KeyedMap.ofList_values, KeyedMap.get?_eq_some.2 ⟨hm, hid⟩]
  simp [hlive, hlease, hmatch]

/-! ## The condition -/

/-- The listing of the call shows every run with an unexpired reservation of its tenant, unless the run is terminal. -/
def ShowsReserved (deps : TenantGateDeps) (s : GateState) (call : GateCall) : Prop :=
  ∀ reservation ∈ s.reservationsByTenant call.scope.tenantKey, reservation.isExpired call.nowMs = false →
    s.isTerminal reservation.runId = false → call.Shows deps call.scope.tenantKey reservation.runId

/-- The call has read the clock no earlier than the calls that reserved a place for its run. -/
def InOrder (s : GateState) (call : GateCall) : Prop :=
  ∀ reservation ∈ s.reservationsByTenant call.scope.tenantKey, reservation.runId = call.runId →
    reservation.reservedAtMs ≤ call.nowMs

/-- A run of the tenant takes a lease only as a chat of the tenant; a listing does not leave out a running chat for the
age of its file; and a decision has a listing that shows the reserved runs, and comes in order. -/
def Attentive (deps : TenantGateDeps) (tenantKey : String) (s : GateState) : GateStep → Prop
  | .write record => isActiveTenantChat deps tenantKey record = true → runIdOf record ∈ s.chats deps tenantKey
  | .list id (.stat runId) => ∀ call ∈ s.calls id, call.scope.tenantKey = tenantKey →
      ∀ run ∈ s.stored.get? runId, isActiveTenantChat deps tenantKey run.record = true →
        call.nowMs - dayMs ≤ run.mtimeMs
  | .decide id => ∀ call ∈ s.calls id, call.scope.tenantKey = tenantKey → ShowsReserved deps s call ∧ InOrder s call
  | _ => True

instance (deps : TenantGateDeps) (tenantKey : String) (call : GateCall) (runId : String) :
    Decidable (call.Shows deps tenantKey runId) := by
  unfold GateCall.Shows
  infer_instance

instance (deps : TenantGateDeps) (s : GateState) (call : GateCall) : Decidable (ShowsReserved deps s call) := by
  unfold ShowsReserved
  infer_instance

instance (s : GateState) (call : GateCall) : Decidable (InOrder s call) := by
  unfold InOrder
  infer_instance

instance (deps : TenantGateDeps) (tenantKey : String) (s : GateState) (step : GateStep) :
    Decidable (Attentive deps tenantKey s step) := by
  unfold Attentive
  split <;> infer_instance

/-! ## What a call has seen -/

/-- The run has a reservation of the tenant made at `since` or later. -/
def Reserved (s : GateState) (tenantKey runId : String) (since : Int) : Prop :=
  ∃ reservation ∈ s.reservationsByTenant tenantKey, reservation.runId = runId ∧ since ≤ reservation.reservedAtMs

/-- The listing has shown the run as a running chat, or has still to read it. -/
def RunListing.Brings (deps : TenantGateDeps) (tenantKey : String) (listing : RunListing) (runId : String) : Prop :=
  ∀ entries, listing.entries = some entries → runId ∈ entries ∨ runId ∈ listing.candidates ∨
    ∃ record ∈ listing.records, runIdOf record = runId ∧ isActiveTenantChat deps tenantKey record = true

/-- A complete listing has nothing left to read. -/
theorem RunListing.Brings.shown {listing : RunListing} {runId : String} (h : listing.Brings deps tenantKey runId)
    (hcomplete : listing.isComplete = true) :
    ∃ record ∈ listing.records, runIdOf record = runId ∧ isActiveTenantChat deps tenantKey record = true := by
  obtain ⟨hentries, hcandidates⟩ : listing.entries = some [] ∧ listing.candidates = [] := by
    simpa [RunListing.isComplete] using hcomplete
  rcases h [] hentries with hm | hm | hshown
  · cases hm
  · rw [hcandidates] at hm
    cases hm
  · exact hshown

/-- A running chat of its tenant has a reservation that the call takes as unexpired, or the listing of the call brings
it. -/
structure CallTracked (deps : TenantGateDeps) (tenantKey : String) (s : GateState) (call : GateCall) : Prop where
  past : call.nowMs ≤ s.clock
  inScope : resolveTenantExecutionScope deps.table deps.config call.record = some call.scope
  seen : call.scope.tenantKey = tenantKey → ∀ runId ∈ s.runningChats deps tenantKey,
    Reserved s tenantKey runId (call.nowMs - tenantReservationTtlMs) ∨ call.listing.Brings deps tenantKey runId

/-- An unexpired grant has its reservation. -/
structure Tracked (deps : TenantGateDeps) (tenantKey : String) (s : GateState) : Prop where
  calls : ∀ id call, s.calls id = some call → CallTracked deps tenantKey s call
  live : ∀ grant ∈ s.granted, s.isTerminal grant.runId = false
  reserved : ∀ grant ∈ s.granted, grant.tenantKey = tenantKey →
    s.clock - grant.reservedAtMs ≤ tenantReservationTtlMs → Reserved s tenantKey grant.runId grant.reservedAtMs

theorem gateStart_tracked (deps : TenantGateDeps) (tenantKey : String) (clock : Int)
    (stored : KeyedMap StoredRun.runId) : Tracked deps tenantKey (gateStart clock stored) where
  calls _ _ h := by cases h
  live _ h := by cases h
  reserved _ h := by cases h

/-! ## A decision weighs every chat -/

/-- A decision refuses and leaves the pruned reservations, or it reserves, and no more chats are weighed than the limit.
-/
theorem decision_cases (deps : TenantGateDeps) (s : GateState) (call : GateCall) :
    (∃ reason, s.decision deps call = (s.pruned deps call, .refused reason)) ∨
    (s.decision deps call = ((s.pruned deps call).set ⟨call.runId, call.nowMs⟩, .allowed) ∧
      ∀ max, call.scope.limits.maxConcurrentChats = some max → ((s.weighed deps call).card : Int) ≤ max) := by
  rcases decideTenantGate_cases deps call.scope call.runId call.nowMs call.records
    (s.reservationsByTenant call.scope.tenantKey) with hrefused | ⟨hallowed, hbelow⟩
  · exact .inl hrefused
  · refine .inr ⟨hallowed, fun max hmax => ?_⟩
    have hlt := hbelow max hmax
    have hle := Finset.card_insert_le call.runId
      (activeTenantChats deps call.records (s.pruned deps call) call.scope.tenantKey call.runId call.nowMs)
    unfold GateState.weighed
    unfold GateState.pruned at hle ⊢
    omega

theorem decided_reservations_self (deps : TenantGateDeps) (s : GateState) (id : Nat) (call : GateCall) :
    (s.decided deps id call).reservationsByTenant call.scope.tenantKey = (s.decision deps call).1 :=
  Function.update_self ..

theorem decided_reservations_of_ne (deps : TenantGateDeps) (s : GateState) (id : Nat) {call : GateCall}
    (hk : call.scope.tenantKey ≠ tenantKey) :
    (s.decided deps id call).reservationsByTenant tenantKey = s.reservationsByTenant tenantKey :=
  Function.update_of_ne (Ne.symm hk) ..

section Decision

variable (ht : Tracked deps tenantKey s) (hcall : s.calls id = some call) (hk : call.scope.tenantKey = tenantKey)
  (hcomplete : call.listing.isComplete = true) (hshows : ShowsReserved deps s call)

include ht hcall hk hcomplete hshows

/-- A decision keeps the reservations that are unexpired, and those of running chats, unless the run is terminal. -/
theorem Tracked.keeps {reservation : TenantExecutionReservation}
    (hr : reservation ∈ s.reservationsByTenant tenantKey) (hlive : s.isTerminal reservation.runId = false)
    (h : reservation.isExpired call.nowMs = false ∨ reservation.runId ∈ s.runningChats deps tenantKey) :
    reservation ∈ s.pruned deps call := by
  subst hk
  refine KeyedMap.mem_filter.2 ⟨hr, ?_⟩
  by_cases hexp : reservation.isExpired call.nowMs = false
  · exact (keepsReservation_unexpired hexp).2 (hshows reservation hr hexp hlive)
  · have hrunning := h.resolve_left hexp
    rcases (ht.calls id call hcall).seen rfl reservation.runId hrunning with ⟨other, hm, hid, hsince⟩ | hbrings
    · -- The reservation is the one the call takes as unexpired.
      cases KeyedMap.eq_of_key hm hr hid
      exact absurd (isExpired_eq_false.2 (by omega)) hexp
    · obtain ⟨record, hm, hid, ha⟩ := hbrings.shown hcomplete
      exact keepsReservation_running hm hid ha

/-- A reservation that the decision takes as unexpired is weighed. -/
theorem Tracked.weighs_reserved {runId : String} {since : Int} (hr : Reserved s tenantKey runId since)
    (hsince : call.nowMs - tenantReservationTtlMs ≤ since) (hlive : s.isTerminal runId = false) :
    runId ∈ s.weighed deps call := by
  obtain ⟨reservation, hm, rfl, hle⟩ := hr
  have hexp : reservation.isExpired call.nowMs = false := isExpired_eq_false.2 (by omega)
  have hkept := ht.keeps hcall hk hcomplete hshows hm hlive (.inl hexp)
  by_cases hid : reservation.runId = call.runId
  · exact Finset.mem_insert.2 (.inl hid)
  · exact Finset.mem_insert_of_mem (mem_activeTenantChats.2 ⟨hid, .inr ⟨reservation, hkept, rfl, hexp⟩⟩)

theorem Tracked.weighs_granted : s.grantedChats tenantKey ⊆ s.weighed deps call := by
  intro runId hm
  obtain ⟨grant, hg, rfl, hgk, hunexpired⟩ := mem_grantedChats.1 hm
  have hpast := (ht.calls id call hcall).past
  exact ht.weighs_reserved hcall hk hcomplete hshows (ht.reserved grant hg hgk hunexpired) (by omega) (ht.live grant hg)

theorem Tracked.weighs_running : s.runningChats deps tenantKey ⊆ s.weighed deps call := by
  intro runId hm
  rcases (ht.calls id call hcall).seen hk runId hm with hr | hbrings
  · exact ht.weighs_reserved hcall hk hcomplete hshows hr (le_refl _) (isTerminal_of_running hm)
  · obtain ⟨record, hrecord, hid, ha⟩ := hbrings.shown hcomplete
    by_cases hown : runId = call.runId
    · exact Finset.mem_insert.2 (.inl hown)
    · exact Finset.mem_insert_of_mem (mem_activeTenantChats.2 ⟨hown, .inl ⟨record, hrecord, hid, hk ▸ ha⟩⟩)

theorem Tracked.weighs_chats : s.chats deps tenantKey ⊆ s.weighed deps call :=
  Finset.union_subset (ht.weighs_granted hcall hk hcomplete hshows) (ht.weighs_running hcall hk hcomplete hshows)

/-- What a decision keeps has a reservation of its run afterwards that was made no earlier. -/
theorem Tracked.reserved_decided (horder : InOrder s call) {reservation : TenantExecutionReservation}
    (hr : reservation ∈ s.reservationsByTenant tenantKey) (hlive : s.isTerminal reservation.runId = false)
    (h : reservation.isExpired call.nowMs = false ∨ reservation.runId ∈ s.runningChats deps tenantKey) :
    Reserved (s.decided deps id call) tenantKey reservation.runId reservation.reservedAtMs := by
  have hkept := ht.keeps hcall hk hcomplete hshows hr hlive h
  subst hk
  unfold Reserved
  rw [decided_reservations_self]
  rcases decision_cases deps s call with ⟨reason, hd⟩ | ⟨hd, -⟩
  · rw [hd]
    exact ⟨reservation, hkept, rfl, le_refl _⟩
  · rw [hd]
    by_cases hown : reservation.runId = call.runId
    · exact ⟨_, KeyedMap.mem_set_self _ _, hown.symm, horder reservation hr hown⟩
    · exact ⟨reservation, KeyedMap.mem_set_of_ne hkept hown, rfl, le_refl _⟩

end Decision

/-! ## Every step keeps track -/

theorem Reserved.mono {runId : String} {since since' : Int} (h : Reserved s tenantKey runId since)
    (hle : since' ≤ since) : Reserved s tenantKey runId since' := by
  obtain ⟨reservation, hm, hid, hr⟩ := h
  exact ⟨reservation, hm, hid, hle.trans hr⟩

theorem mem_granted_decided {grant : TenantGrant} (h : grant ∈ (s.decided deps id call).granted) :
    s.isTerminal grant.runId = false ∧ (grant ∈ s.granted ∨ ((s.decision deps call).2 = .allowed ∧
      grant = ⟨call.scope.tenantKey, call.runId, call.nowMs⟩)) := by
  obtain ⟨hm, hlive⟩ := List.mem_filter.1 h
  have hlive' : (! s.isTerminal grant.runId) = true := hlive
  refine ⟨by simpa using hlive', ?_⟩
  dsimp only at hm
  split at hm
  · rename_i hallowed
    rcases List.mem_append.1 hm with hm | hm
    · exact .inl hm
    · exact .inr ⟨hallowed, List.mem_singleton.1 hm⟩
  · exact .inl hm

/-- A reservation that a pending call or a grant relies on outlives a decision. -/
theorem Tracked.reserved_after (ht : Tracked deps tenantKey s) (hcall : s.calls id = some call)
    (hcomplete : call.listing.isComplete = true)
    (hok : call.scope.tenantKey = tenantKey → ShowsReserved deps s call ∧ InOrder s call)
    {runId : String} {since : Int} (hr : Reserved s tenantKey runId since) (hlive : s.isTerminal runId = false)
    (h : s.clock - tenantReservationTtlMs ≤ since ∨ runId ∈ s.runningChats deps tenantKey) :
    Reserved (s.decided deps id call) tenantKey runId since := by
  by_cases hk : call.scope.tenantKey = tenantKey
  · obtain ⟨hshows, horder⟩ := hok hk
    obtain ⟨reservation, hm, rfl, hle⟩ := hr
    have hpast := (ht.calls id call hcall).past
    have hcause : reservation.isExpired call.nowMs = false ∨ reservation.runId ∈ s.runningChats deps tenantKey :=
      h.imp (fun hc => isExpired_eq_false.2 (by omega)) fun hrunning => hrunning
    exact (ht.reserved_decided hcall hk hcomplete hshows horder hm hlive hcause).mono hle
  · unfold Reserved
    rw [decided_reservations_of_ne deps s id hk]
    exact hr

theorem Tracked.decide (ht : Tracked deps tenantKey s) (hcall : s.calls id = some call)
    (hcomplete : call.listing.isComplete = true)
    (hok : call.scope.tenantKey = tenantKey → ShowsReserved deps s call ∧ InOrder s call) :
    Tracked deps tenantKey (s.decided deps id call) where
  calls id' call' hc := by
    have hne : id' ≠ id := by
      rintro rfl
      have hnone : (s.decided deps id' call).calls id' = none := Function.update_self ..
      rw [hnone] at hc
      cases hc
    have hc' : s.calls id' = some call' := by
      have heq : (s.decided deps id call).calls id' = s.calls id' := Function.update_of_ne hne ..
      rwa [← heq]
    have hold := ht.calls id' call' hc'
    refine ⟨hold.past, hold.inScope, fun hk runId hm => ?_⟩
    refine (hold.seen hk runId hm).imp (fun hr => ?_) fun hbrings => hbrings
    exact ht.reserved_after hcall hcomplete hok hr (isTerminal_of_running hm) (.inr hm)
  live grant hg := (mem_granted_decided hg).1
  reserved grant hg hk hunexpired := by
    obtain ⟨hlive, hold | ⟨hallowed, rfl⟩⟩ := mem_granted_decided hg
    · exact ht.reserved_after hcall hcomplete hok (ht.reserved grant hold hk hunexpired) hlive (.inl (by
        have : s.clock - grant.reservedAtMs ≤ tenantReservationTtlMs := hunexpired
        omega))
    · subst hk
      unfold Reserved
      rw [decided_reservations_self]
      rcases decision_cases deps s call with ⟨reason, hd⟩ | ⟨hd, -⟩
      · rw [hd] at hallowed
        cases hallowed
      · rw [hd]
        exact ⟨_, KeyedMap.mem_set_self _ _, rfl, le_refl _⟩

/-- A step of a listing reads a running chat, unless it passes over it for the age of its file. -/
theorem RunListing.Brings.next {listing listing' : RunListing} {step : ListingStep} {cutoffMs : Int} {runId : String}
    (h : listing.Brings deps tenantKey runId) (hn : listing.next s.stored cutoffMs step = some listing')
    (hm : runId ∈ s.runningChats deps tenantKey)
    (hrecent : step = .stat runId → ∀ run, s.stored.get? runId = some run → cutoffMs ≤ run.mtimeMs) :
    listing'.Brings deps tenantKey runId := by
  obtain ⟨run, hrun, rfl, ha⟩ := mem_runningChats.1 hm
  have hget := KeyedMap.get?_self hrun
  intro entries hentries
  cases step with
  | readDirectory =>
    simp only [RunListing.next, Option.ite_none_right_eq_some, Option.some.injEq] at hn
    obtain ⟨-, rfl⟩ := hn
    cases hentries
    exact .inl (List.mem_map.2 ⟨run, hrun, rfl⟩)
  | stat entry =>
    simp only [RunListing.next, Option.bind_eq_some_iff, Option.ite_none_right_eq_some, Option.some.injEq] at hn
    obtain ⟨old, hold, -, rfl⟩ := hn
    cases hentries
    by_cases he : entry = run.runId
    · subst he
      have hle := hrecent rfl run hget
      simp [hget, hle]
    · rcases h old hold with hin | hin | hshown
      · exact .inl ((List.mem_erase_of_ne (Ne.symm he)).2 hin)
      · refine .inr (.inl ?_)
        dsimp only
        split
        · exact List.mem_append_left _ hin
        · exact hin
      · exact .inr (.inr hshown)
  | readRecord candidate =>
    simp only [RunListing.next, Option.ite_none_right_eq_some, Option.some.injEq] at hn
    obtain ⟨⟨hold, -⟩, rfl⟩ := hn
    cases hentries.symm.trans hold
    by_cases he : candidate = run.runId
    · subst he
      refine .inr (.inr ⟨run.record, ?_, rfl, ha⟩)
      simp only [hget]
      exact KeyedMap.mem_set_self _ _
    · rcases h [] hold with hin | hin | ⟨record, hin, hid, hactive⟩
      · cases hin
      · exact .inr (.inl ((List.mem_erase_of_ne (Ne.symm he)).2 hin))
      · refine .inr (.inr ?_)
        cases hc : s.stored.get? candidate with
        | none => exact ⟨record, hin, hid, hactive⟩
        | some other =>
          have hother := (KeyedMap.get?_eq_some.1 hc).2
          have hkey : runIdOf record ≠ runIdOf other.record := by
            rw [hid]
            exact fun heq => he (hother.symm.trans heq.symm)
          exact ⟨record, KeyedMap.mem_set_of_ne hin hkey, hid, hactive⟩

/-- A run that is a running chat after a write was a chat of the tenant before. -/
theorem mem_chats_of_write {record : ExecutionRunStoredRecord} {runId : String}
    (hok : Attentive deps tenantKey s (.write record))
    (hm : runId ∈ (GateState.dropTerminal { s with stored := s.stored.set ⟨record, s.clock⟩ }).runningChats deps
      tenantKey) : runId ∈ s.chats deps tenantKey := by
  obtain ⟨run, hrun, rfl, ha⟩ := mem_runningChats.1 hm
  rcases KeyedMap.mem_set.1 hrun with rfl | ⟨hold, -⟩
  · exact hok ha
  · exact Finset.mem_union_right _ (mem_runningChats.2 ⟨run, hold, rfl, ha⟩)

/-- A chat of the tenant is one that the call has seen. -/
theorem Tracked.seen_of_chat (ht : Tracked deps tenantKey s) (hcall : s.calls id = some call)
    (hk : call.scope.tenantKey = tenantKey) {runId : String} (hm : runId ∈ s.chats deps tenantKey) :
    Reserved s tenantKey runId (call.nowMs - tenantReservationTtlMs) ∨ call.listing.Brings deps tenantKey runId := by
  have hold := ht.calls id call hcall
  rcases Finset.mem_union.1 hm with hgranted | hrunning
  · obtain ⟨grant, hg, rfl, hgk, hunexpired⟩ := mem_grantedChats.1 hgranted
    have hpast := hold.past
    exact .inl ((ht.reserved grant hg hgk hunexpired).mono (by omega))
  · exact hold.seen hk runId hrunning

theorem Tracked.write (ht : Tracked deps tenantKey s) {record : ExecutionRunStoredRecord}
    (hok : Attentive deps tenantKey s (.write record)) :
    Tracked deps tenantKey (GateState.dropTerminal { s with stored := s.stored.set ⟨record, s.clock⟩ }) where
  calls id call hc :=
    { past := (ht.calls id call hc).past
      inScope := (ht.calls id call hc).inScope
      seen := fun hk _ hm => ht.seen_of_chat hc hk (mem_chats_of_write hok hm) }
  live grant hg := by
    have hlive := (List.mem_filter.1 hg).2
    rwa [Bool.not_eq_true'] at hlive
  reserved grant hg := ht.reserved grant (List.mem_filter.1 hg).1

theorem CallTracked.setCall (h : CallTracked deps tenantKey s call) {call? : Option GateCall} :
    CallTracked deps tenantKey (s.setCall id call?) call := ⟨h.past, h.inScope, h.seen⟩

/-- A call that starts, lists or fails touches only itself. -/
theorem Tracked.setCall (ht : Tracked deps tenantKey s) {call? : Option GateCall}
    (h : ∀ call, call? = some call → CallTracked deps tenantKey s call) :
    Tracked deps tenantKey (s.setCall id call?) where
  calls id' call hc := by
    by_cases he : id' = id
    · subst he
      have hself : (s.setCall id' call?).calls id' = call? := Function.update_self ..
      exact (h call (hself.symm.trans hc)).setCall
    · have hother : (s.setCall id call?).calls id' = s.calls id' := Function.update_of_ne he ..
      exact (ht.calls id' call (hother.symm.trans hc)).setCall
  live := ht.live
  reserved := ht.reserved

/-- **Every attentive step keeps track.** -/
theorem Tracked.step (ht : Tracked deps tenantKey s) {step : GateStep} (hn : gateNext deps s step = some s')
    (hok : Attentive deps tenantKey s step) : Tracked deps tenantKey s' := by
  cases gateNext_effect hn with
  | tick hle =>
    refine ⟨fun id call hc => ?_, ht.live, fun grant hg hk hunexpired => ?_⟩
    · have hold := ht.calls id call hc
      exact ⟨hold.past.trans hle, hold.inScope, hold.seen⟩
    · dsimp only at hunexpired
      exact ht.reserved grant hg hk (by omega)
  | write record => exact ht.write hok
  | unlimited id record => exact ht
  | called hscope =>
    refine ht.setCall fun call hc => ?_
    cases hc
    exact ⟨le_refl _, hscope, fun _ _ _ => .inr fun _ hentries => by cases hentries⟩
  | listed hcall hnext =>
    have hold := ht.calls _ _ hcall
    refine ht.setCall fun call' hc => ?_
    cases hc
    refine ⟨hold.past, hold.inScope, fun hk runId hm => ?_⟩
    refine (hold.seen hk runId hm).imp (fun hr => hr) fun hbrings => ?_
    refine hbrings.next hnext hm fun hstat run hget => ?_
    subst hstat
    obtain ⟨other, hother, hid, ha⟩ := mem_runningChats.1 hm
    have heq := (KeyedMap.get?_self hother).symm.trans (hid ▸ hget)
    cases heq
    exact hok _ hcall hk run hget ha
  | failed id => exact ht.setCall fun _ hc => by cases hc
  | decided hcall hcomplete => exact ht.decide hcall hcomplete (hok _ hcall)

/-! ## The number of chats -/

theorem grantedChats_subset (hclock : s.clock ≤ s'.clock) (hgranted : s'.granted ⊆ s.granted) :
    s'.grantedChats tenantKey ⊆ s.grantedChats tenantKey := by
  intro runId hm
  obtain ⟨grant, hg, hid, hk, hunexpired⟩ := mem_grantedChats.1 hm
  exact mem_grantedChats.2 ⟨grant, hgranted hg, hid, hk, by omega⟩

/-- A decision adds at most the chat of its own call, and none to another tenant. -/
theorem decided_chats_subset (deps : TenantGateDeps) (tenantKey : String) (s : GateState) (id : Nat) (call : GateCall) :
    (s.decided deps id call).chats deps tenantKey ⊆ s.chats deps tenantKey ∨
    ((s.decision deps call).2 = .allowed ∧ call.scope.tenantKey = tenantKey ∧
      (s.decided deps id call).chats deps tenantKey ⊆ insert call.runId (s.chats deps tenantKey)) := by
  have hrunning : (s.decided deps id call).runningChats deps tenantKey = s.runningChats deps tenantKey := rfl
  have hnew : ∀ runId ∈ (s.decided deps id call).grantedChats tenantKey, runId ∈ s.grantedChats tenantKey ∨
      ((s.decision deps call).2 = .allowed ∧ call.scope.tenantKey = tenantKey ∧ runId = call.runId) := by
    intro runId hm
    obtain ⟨grant, hg, rfl, hk, hunexpired⟩ := mem_grantedChats.1 hm
    obtain ⟨-, hold | ⟨hallowed, rfl⟩⟩ := mem_granted_decided hg
    · exact .inl (mem_grantedChats.2 ⟨grant, hold, rfl, hk, hunexpired⟩)
    · exact .inr ⟨hallowed, hk, rfl⟩
  by_cases h : (s.decision deps call).2 = .allowed ∧ call.scope.tenantKey = tenantKey
  · refine .inr ⟨h.1, h.2, Finset.union_subset (fun runId hm => ?_) fun runId hm => ?_⟩
    · rcases hnew runId hm with hold | ⟨-, -, rfl⟩
      · exact Finset.mem_insert_of_mem (Finset.mem_union_left _ hold)
      · exact Finset.mem_insert_self _ _
    · exact Finset.mem_insert_of_mem (Finset.mem_union_right _ hm)
  · refine .inl (Finset.union_subset (fun runId hm => ?_) fun runId hm => Finset.mem_union_right _ hm)
    exact Finset.mem_union_left _ ((hnew runId hm).resolve_right fun hc => h ⟨hc.1, hc.2.1⟩)

/-- **An attentive step keeps the tenant within its limit.** -/
theorem Tracked.chats_le (ht : Tracked deps tenantKey s) {step : GateStep} (hn : gateNext deps s step = some s')
    (hok : Attentive deps tenantKey s step) {limit : Int}
    (hlimit : ConcurrencyLimit deps.table deps.config tenantKey limit)
    (hle : ((s.chats deps tenantKey).card : Int) ≤ limit) : ((s'.chats deps tenantKey).card : Int) ≤ limit := by
  have hsub : ∀ {t : GateState}, t.chats deps tenantKey ⊆ s.chats deps tenantKey →
      ((t.chats deps tenantKey).card : Int) ≤ limit := by
    intro t h
    have := Finset.card_le_card h
    omega
  cases gateNext_effect hn with
  | tick hclock =>
    exact hsub (Finset.union_subset_union (grantedChats_subset hclock fun _ hg => hg) (Finset.Subset.refl _))
  | write record =>
    refine hsub (Finset.union_subset (fun runId hm => ?_) fun runId hm => mem_chats_of_write hok hm)
    refine Finset.mem_union_left _ (grantedChats_subset ?_ ?_ hm)
    · exact le_refl s.clock
    · exact fun grant hg => (List.mem_filter.1 hg).1
  | unlimited | called | listed | failed => exact hle
  | @decided id call hcall hcomplete =>
    rcases decided_chats_subset deps tenantKey s id call with h | ⟨hallowed, hk, h⟩
    · exact hsub h
    · -- What is weighed are the chats so far and the one of the call.
      have hweighed : insert call.runId (s.chats deps tenantKey) ⊆ s.weighed deps call :=
        Finset.insert_subset (Finset.mem_insert_self _ _)
          (ht.weighs_chats hcall hk hcomplete (hok call hcall hk).1)
      have hcard := Finset.card_le_card (h.trans hweighed)
      obtain ⟨max, hmax, hscope⟩ := hlimit.scope (ht.calls id call hcall).inScope hk
      rcases decision_cases deps s call with ⟨reason, hd⟩ | ⟨-, hbelow⟩
      · rw [hd] at hallowed
        cases hallowed
      · have := hbelow max hscope
        omega

/-! ## Admission -/

theorem Tracked.of_reachable {clock : Int} {stored : KeyedMap StoredRun.runId}
    (h : ((gateSystem deps clock stored).restrict (Attentive deps tenantKey)).Reachable s) : Tracked deps tenantKey s := by
  refine h.invariant ?_ fun s step s' _ ht hs => ?_
  · rintro _ rfl
    exact gateStart_tracked deps tenantKey clock stored
  · exact ht.step hs.2 hs.1

/-- **While its listings show the reserved runs, a decision counts every grant of its tenant, and the tenant stays
within its limit.** -/
theorem tenant_admission (deps : TenantGateDeps) (tenantKey : String) (clock : Int)
    (stored : KeyedMap StoredRun.runId) {s : GateState}
    (h : ((gateSystem deps clock stored).restrict (Attentive deps tenantKey)).Reachable s) :
    (∀ id call s', s.calls id = some call → call.scope.tenantKey = tenantKey →
      ((gateSystem deps clock stored).restrict (Attentive deps tenantKey)).Step s (.decide id) s' →
        s.grantedChats tenantKey ⊆ s.weighed deps call) ∧
    ∀ limit, ConcurrencyLimit deps.table deps.config tenantKey limit →
      (((gateStart clock stored).chats deps tenantKey).card : Int) ≤ limit →
        ((s.chats deps tenantKey).card : Int) ≤ limit := by
  have ht := Tracked.of_reachable h
  refine ⟨fun id call s' hcall hk hstep => ?_, fun limit hlimit hstart => ?_⟩
  · obtain ⟨hok, hn⟩ := hstep
    cases gateNext_effect hn with
    | decided hcall' hcomplete =>
      cases hcall.symm.trans hcall'
      exact ht.weighs_granted hcall hk hcomplete (hok call hcall hk).1
  · refine h.invariant (I := fun s => ((s.chats deps tenantKey).card : Int) ≤ limit) ?_ fun s step s' hr hle hs => ?_
    · rintro _ rfl
      exact hstart
    · exact (Tracked.of_reachable hr).chats_le hs.2 hs.1 hlimit hle

/-! ## Two calls -/

/-- One chat at a time. -/
def oneChatDeps : TenantGateDeps where
  config := [("services", .object [("chatgpt", .object [("tenantLimits", .object
    [("maxConcurrentChats", .number (.finite 1))])])])]
  table := .lowered
  dates := ⟨fun _ => none, fun _ => ""⟩

/-- A run whose step waits for a chat. -/
def waitingRun (id : String) : ExecutionRunStoredRecord where
  revision := 1
  value :=
    { run := ⟨id, .direct, .planned, "t0", "t0", [], .failFast⟩
      steps := [⟨"step", some "default", none, some .chatgpt, .runnable, 1, [], ⟨[]⟩, none, none, none, none⟩]
      handoffs := []
      localActionRequests := []
      sharedState := ⟨.active, [], [], [], [], "t0"⟩
      events := []
      leases := [] }

/-- The tenant of the waiting runs. -/
def defaultTenant : String := "runtime-profile:chatgpt:default"

theorem oneChatDeps_limit : ConcurrencyLimit oneChatDeps.table oneChatDeps.config defaultTenant 1 := by
  intro runtimeProfileId _ _
  refine ⟨1, le_refl 1, ?_⟩
  have hprofile : configuredRuntimeProfile oneChatDeps.config runtimeProfileId = none := by
    unfold configuredRuntimeProfile
    cases truthy runtimeProfileId <;> rfl
  unfold resolveChatgptTenantLimits
  rw [hprofile]
  decide +kernel

/-- The store when the gate is created: the first run waits. -/
def firstWaits : KeyedMap StoredRun.runId := KeyedMap.empty.set ⟨waitingRun "run-a", 0⟩

/-- The listing of a call, of two runs. -/
def listRuns (id : Nat) : List GateStep :=
  [.list id .readDirectory, .list id (.stat "run-a"), .list id (.stat "run-b"), .list id (.readRecord "run-a"),
    .list id (.readRecord "run-b")]

/-- The call for the first run reads the directory; then the second run is created, and granted its place by a call of
its own. -/
def granting : List GateStep :=
  [.call 0 (waitingRun "run-a"), .list 0 .readDirectory, .write (waitingRun "run-b"), .call 1 (waitingRun "run-b")] ++
    listRuns 1 ++ [.decide 1, .list 0 (.stat "run-a"), .list 0 (.readRecord "run-a")]

/-- The state in which the call for the first run decides by its old listing. -/
def staleListing : GateState :=
  (TransitionSystem.execute (gateNext oneChatDeps) (gateStart 0 firstWaits) granting).get (by decide +kernel)

/-- That call. -/
def staleCall : GateCall := (staleListing.calls 0).get (by decide +kernel)

/-- Both runs have a grant. -/
def bothGranted : GateState := (gateNext oneChatDeps staleListing (.decide 0)).get (by decide +kernel)

/-- The second run's grant is not weighed, and the tenant has two chats of one. -/
theorem stale_listing_over_limit : (gateSystem oneChatDeps 0 firstWaits).Reachable staleListing ∧
    (gateSystem oneChatDeps 0 firstWaits).Step staleListing (.decide 0) bothGranted ∧
    staleListing.calls 0 = some staleCall ∧ staleCall.scope.tenantKey = defaultTenant ∧
    ¬ staleListing.grantedChats defaultTenant ⊆ staleListing.weighed oneChatDeps staleCall ∧
    ConcurrencyLimit oneChatDeps.table oneChatDeps.config defaultTenant 1 ∧
    ((gateStart 0 firstWaits).chats oneChatDeps defaultTenant).card = 0 ∧
    (bothGranted.chats oneChatDeps defaultTenant).card = 2 := by
  have hr : (gateSystem oneChatDeps 0 firstWaits).Reachable staleListing :=
    TransitionSystem.reachable_execute (.init rfl) (Option.some_get _).symm
  have hdropped : ¬ staleListing.grantedChats defaultTenant ⊆ staleListing.weighed oneChatDeps staleCall := by
    decide +kernel
  have hchats : (bothGranted.chats oneChatDeps defaultTenant).card = 2 := by decide +kernel
  exact ⟨hr, (Option.some_get _).symm, (Option.some_get _).symm, by decide +kernel, hdropped, oneChatDeps_limit,
    by decide +kernel, hchats⟩

/-- The call for the second run starts when the first run has its grant. -/
def secondAsks : GateState :=
  (TransitionSystem.execute
    (fun s step => if decide (Attentive oneChatDeps defaultTenant s step) then gateNext oneChatDeps s step else none)
    (gateStart 0 firstWaits)
    ([.call 0 (waitingRun "run-a"), .list 0 .readDirectory, .list 0 (.stat "run-a"), .list 0 (.readRecord "run-a"),
      .decide 0, .write (waitingRun "run-b"), .call 1 (waitingRun "run-b")] ++ listRuns 1)).get (by decide +kernel)

/-- That call. -/
def secondCall : GateCall := (secondAsks.calls 1).get (by decide +kernel)

/-- The second run is refused. -/
def secondRefused : GateState := (gateNext oneChatDeps secondAsks (.decide 1)).get (by decide +kernel)

/-- The decision on the second run weighs the grant of the first. -/
theorem tenant_admission_inTurn :
    secondAsks.grantedChats defaultTenant = {"run-a"} ∧
    secondAsks.grantedChats defaultTenant ⊆ secondAsks.weighed oneChatDeps secondCall ∧
    ((secondRefused.chats oneChatDeps defaultTenant).card : Int) ≤ 1 := by
  have hr : ((gateSystem oneChatDeps 0 firstWaits).restrict (Attentive oneChatDeps defaultTenant)).Reachable secondAsks :=
    TransitionSystem.reachable_execute_where (fun _ _ h => of_decide_eq_true h) (.init rfl) (Option.some_get _).symm
  have hstep : ((gateSystem oneChatDeps 0 firstWaits).restrict (Attentive oneChatDeps defaultTenant)).Step secondAsks
      (.decide 1) secondRefused := ⟨by decide +kernel, (Option.some_get _).symm⟩
  refine ⟨by decide +kernel, ?_, ?_⟩
  · exact (tenant_admission oneChatDeps defaultTenant 0 firstWaits hr).1 1 secondCall secondRefused
      (Option.some_get _).symm (by decide +kernel) hstep
  · exact (tenant_admission oneChatDeps defaultTenant 0 firstWaits (hr.step hstep)).2 1 oneChatDeps_limit
      (by decide +kernel)

end AuraCall.Runtime
