import AuraCall.Runtime.LeaseReuse

/-!
# The heartbeats of a lease

While a step is executed its lease is renewed by a loop: a heartbeat is called by a timer or with evidence of the step's
liveness, and the heartbeats reach the store one after the other. The instant of a heartbeat is the one its evidence was
observed at, when that is a date, and the clock's otherwise; the lease then expires a fixed time after it.

So an expiry is always later than its heartbeat, but it moves with the instants of the heartbeats. The loop does not compare
it with the one that is stored: an expiry moves back when the evidence does, and only then (`lease_renewals`).
-/

namespace AuraCall.Runtime

open TransitionSystem

/-! ## A heartbeat -/

/-- The texts that a lease event keeps of runtime evidence. -/
def evidenceTexts : List String := ["observedAt", "state", "source", "evidenceRef", "confidence"]

def normalizeRuntimeEvidenceForLeaseEvent (evidence : Option JsonRecord) : Option JsonRecord :=
  evidence.bind fun evidence =>
    let normalized := (evidenceTexts.filterMap fun key =>
        ((evidence.string? key).filter fun text => !(trim text).isEmpty).map fun text => (key, Json.string text)) ++
      ((evidence.record? "details").map fun details => ("details", Json.object details)).toList
    if normalized.isEmpty then none else some normalized

def normalizeRuntimeEvidenceTimestamp (dates : Dates) (timestamp : Option String) : Option String :=
  (timestamp.filter (! ·.isEmpty)).bind fun timestamp => (dates.parse timestamp).map dates.toISOString

def resolveRuntimeEvidenceHeartbeatAt (dates : Dates) (evidence : JsonRecord) (now : String) : String :=
  (normalizeRuntimeEvidenceTimestamp dates (evidence.string? "observedAt")).getD now

/-- What the loop is started with. -/
structure HeartbeatLoopInput where
  dates : Dates
  leaseId : String
  leaseHeartbeatTtlMs : Int

def HeartbeatLoopInput.ttlMs (input : HeartbeatLoopInput) : Int := max 1 input.leaseHeartbeatTtlMs

/-- The heartbeat that a call puts in flight, unless the call throws: `toISOString` does, of a time that is none. -/
def HeartbeatLoopInput.request (input : HeartbeatLoopInput) (evidence : Option JsonRecord) (now : String) :
    Option HeartbeatInput :=
  let runtimeEvidence := normalizeRuntimeEvidenceForLeaseEvent evidence
  let heartbeatAt := runtimeEvidence.elim now fun evidence => resolveRuntimeEvidenceHeartbeatAt input.dates evidence now
  if (input.dates.parse heartbeatAt).any fun parsed => decide (maxTime < parsed + input.ttlMs) then none
  else some {
    leaseId := input.leaseId
    heartbeatAt
    expiresAt := addMillisecondsToIsoTimestamp input.dates heartbeatAt input.ttlMs
    runtimeEvidence }

/-! ## The loop -/

structure HeartbeatLoop where
  stopped : Bool
  inFlight : List HeartbeatInput
  bundle : ExecutionRunRecordBundle

inductive HeartbeatLabel
  | heartbeat (evidence : Option JsonRecord) (now : String)
  /-- The first heartbeat in flight reaches the store; in a conflict another write was faster. -/
  | beat (conflict : Bool)
  | stop
  /-- Another writer of the record. -/
  | write

/-- The active lease is the one that was active, with its heartbeat and its expiry. -/
def KeepsHeartbeat (leaseId : String) (bundle bundle' : ExecutionRunRecordBundle) : Prop :=
  ∀ lease', getActiveExecutionRunLease bundle' = some lease' → lease'.id = leaseId →
    ∃ lease, getActiveExecutionRunLease bundle = some lease ∧ lease.id = leaseId ∧
      lease'.heartbeatAt = lease.heartbeatAt ∧ lease'.expiresAt = lease.expiresAt

/-- The lease of the loop is active. -/
def HeartbeatLoop.Holds (leaseId : String) (s : HeartbeatLoop) (lease : ExecutionRunLease) : Prop :=
  getActiveExecutionRunLease s.bundle = some lease ∧ lease.id = leaseId

/-- The expiry that goes with a heartbeat. -/
def HeartbeatLoopInput.Expires (input : HeartbeatLoopInput) (heartbeatAt expiresAt : String) : Prop :=
  expiresAt = addMillisecondsToIsoTimestamp input.dates heartbeatAt input.ttlMs

def heartbeatLoop (input : HeartbeatLoopInput) : TransitionSystem HeartbeatLoop HeartbeatLabel where
  Init s := s.stopped = false ∧ s.inFlight = [] ∧ OnlyLastActive s.bundle.leases ∧
    ∃ lease, s.Holds input.leaseId lease ∧ input.Expires lease.heartbeatAt lease.expiresAt
  Step s a s' := match a with
    | .heartbeat evidence now =>
      s' = if s.stopped then s else { s with inFlight := s.inFlight ++ (input.request evidence now).toList }
    | .beat conflict => ∃ request rest, s.inFlight = request :: rest ∧
      s' = { s with
        inFlight := rest
        bundle := if s.stopped || conflict then s.bundle
          else match heartbeatExecutionRunLease s.bundle request with
            | .ok result => result.bundle
            | .error _ => s.bundle }
    | .stop => s' = { s with stopped := true }
    | .write => KeepsHeartbeat input.leaseId s.bundle s'.bundle ∧ OnlyLastActive s'.bundle.leases ∧
      s' = { s with bundle := s'.bundle }

/-! ## Other writers -/

section Writers

variable {bundle bundle' : ExecutionRunRecordBundle} {leaseId : String}

theorem OnlyLastActive.active_of_mem (ho : OnlyLastActive bundle.leases) {lease : ExecutionRunLease}
    (hm : lease ∈ bundle.leases) (ha : lease.status = .active) : getActiveExecutionRunLease bundle = some lease := by
  cases hfind : getActiveExecutionRunLease bundle with
  | none => exact absurd ha (getActiveExecutionRunLease_eq_none hfind lease hm)
  | some active =>
    obtain ⟨hm', ha'⟩ := getActiveExecutionRunLease_eq_some hfind
    rw [ho.unique hm' hm ha' ha]

theorem KeepsHeartbeat.of_mem (ho : OnlyLastActive bundle.leases)
    (h : ∀ lease ∈ bundle'.leases, lease.status = .active → lease ∈ bundle.leases) :
    KeepsHeartbeat leaseId bundle bundle' := by
  intro lease hactive hid
  obtain ⟨hm, ha⟩ := getActiveExecutionRunLease_eq_some hactive
  exact ⟨lease, ho.active_of_mem (h lease hm ha) ha, hid, rfl, rfl⟩

/-- A heartbeat, or the acquisition of a lease. -/
def Renews (bundle bundle' : ExecutionRunRecordBundle) : Prop :=
  (∃ input result, heartbeatExecutionRunLease bundle input = .ok result ∧ bundle' = result.bundle) ∨
    ∃ input result, acquireExecutionRunLease bundle input = .ok result ∧ bundle' = result.bundle

/-- Every other operation keeps the heartbeat and the expiry of the active lease. -/
theorem Operation.keepsHeartbeat (h : Operation bundle bundle') (ho : OnlyLastActive bundle.leases) :
    KeepsHeartbeat leaseId bundle bundle' ∨ Renews bundle bundle' := by
  have hsame : bundle'.leases = bundle.leases → KeepsHeartbeat leaseId bundle bundle' := fun hl =>
    .of_mem ho fun lease hm _ => hl ▸ hm
  cases h with
  | acquire h => exact .inr (.inr ⟨_, _, h, rfl⟩)
  | heartbeat h => exact .inr (.inl ⟨_, _, h, rfl⟩)
  | release h =>
    obtain ⟨existing, -, -, hl, he⟩ := releaseExecutionRunLease_eq_ok h
    refine .inl (.of_mem ho fun lease hm ha => ?_)
    rw [he] at hm
    obtain ⟨entry, hentry, rfl⟩ := List.mem_map.1 hm
    split at ha
    · rw [hl] at ha
      cases ha
    · rwa [if_neg ‹_›]
  | expire =>
    refine .inl ?_
    rcases expireExecutionRunLeases_cases bundle _ with ⟨-, he⟩ | ⟨_, he, -⟩
    · rw [he]
      exact .of_mem ho fun lease hm _ => hm
    · refine .of_mem ho fun lease hm ha => ?_
      rw [he] at hm
      obtain ⟨entry, hentry, rfl⟩ := List.mem_map.1 hm
      rwa [(expireLease_active ha).2.2]
  | start h => exact .inl (hsame (startExecutionRunStep_eq_ok h).2.2.leases)
  | succeed h => exact .inl (hsame (succeedExecutionRunStep_eq_ok h).2.2.leases)
  | fail h => exact .inl (hsame (failExecutionRunStep_eq_ok h).2.2.leases)
  | escalate h => exact .inl (hsame (cancelExecutionRunStepForHumanEscalation_eq_ok h).2.2.leases)
  | cancel h =>
    obtain ⟨-, _, hr⟩ := cancelExecutionRun_eq_ok h
    exact .inl (hsame hr.leases)
  | resume h =>
    obtain ⟨_, -, -, -, -, hr⟩ := resumeExecutionRunAfterHumanEscalation_eq_ok h
    exact .inl (hsame hr.leases)
  | recover h =>
    refine .inl (hsame (recoverStrandedRunningExecutionRun_keeps (P := fun b => b.leases = bundle.leases) ?_ h rfl))
    intro b b' hb _ _ _ _ hr
    rw [hr.leases, hb]
  | resolve h => exact .inl (hsame (resolveLocalActionRequest_eq_some h).2.1)
  | drain => exact .inl (hsame rfl)
  | schedule => exact .inl (hsame rfl)

theorem heartbeatExecutionRunLease_renews (ho : OnlyLastActive bundle.leases) {input : HeartbeatInput}
    {result : LeaseMutationResult} (h : heartbeatExecutionRunLease bundle input = .ok result) :
    ∃ lease, getActiveExecutionRunLease bundle = some lease ∧ lease.id = input.leaseId ∧
      getActiveExecutionRunLease result.bundle =
        some { lease with heartbeatAt := input.heartbeatAt, expiresAt := input.expiresAt } := by
  obtain ⟨existing, hf, hs, hl, he⟩ := heartbeatExecutionRunLease_eq_ok h
  have hid : existing.id = input.leaseId := by simpa using List.find?_some hf
  have hactive := ho.active_of_mem (List.mem_of_find?_eq_some hf) hs
  rw [← hid] at hf
  have hkeep : result.lease.id = existing.id := by rw [hl]
  obtain ⟨-, hr⟩ := find?_active_replace hkeep (by rw [hl, hs]) hs hactive hf
  refine ⟨existing, hactive, hid, ?_⟩
  rw [getActiveExecutionRunLease, he, ← hl]
  exact hr

end Writers

/-! ## The runs of the loop -/

section Runs

variable {input : HeartbeatLoopInput} {s s' : HeartbeatLoop} {a : HeartbeatLabel} {lease' : ExecutionRunLease}

/-- What every step of the loop keeps. -/
structure HeartbeatLoop.Sound (input : HeartbeatLoopInput) (s : HeartbeatLoop) : Prop where
  onlyLastActive : OnlyLastActive s.bundle.leases
  inFlight : ∀ request ∈ s.inFlight,
    request.leaseId = input.leaseId ∧ input.Expires request.heartbeatAt request.expiresAt
  expires : ∀ lease, s.Holds input.leaseId lease → input.Expires lease.heartbeatAt lease.expiresAt

theorem HeartbeatLoopInput.request_spec {evidence : Option JsonRecord} {now : String} {request : HeartbeatInput}
    (h : input.request evidence now = some request) :
    request.leaseId = input.leaseId ∧ input.Expires request.heartbeatAt request.expiresAt := by
  unfold HeartbeatLoopInput.request at h
  simp only [Option.ite_none_left_eq_some, Option.some.injEq] at h
  obtain ⟨-, rfl⟩ := h
  exact ⟨rfl, rfl⟩

/-- **The lease after a step**: it is as it was, or the first heartbeat in flight has renewed it. -/
theorem lease_of_step (hs : s.Sound input) (h : (heartbeatLoop input).Step s a s') (hl : s'.Holds input.leaseId lease') :
    ∃ lease, s.Holds input.leaseId lease ∧
      ((lease'.heartbeatAt = lease.heartbeatAt ∧ lease'.expiresAt = lease.expiresAt) ∨
        a = .beat false ∧ ∃ request, s.inFlight.head? = some request ∧
          lease'.heartbeatAt = request.heartbeatAt ∧ lease'.expiresAt = request.expiresAt) := by
  have hkept : s'.bundle = s.bundle → ∃ lease, s.Holds input.leaseId lease ∧
      ((lease'.heartbeatAt = lease.heartbeatAt ∧ lease'.expiresAt = lease.expiresAt) ∨
        a = .beat false ∧ ∃ request, s.inFlight.head? = some request ∧
          lease'.heartbeatAt = request.heartbeatAt ∧ lease'.expiresAt = request.expiresAt) := fun hb =>
    ⟨lease', by rw [HeartbeatLoop.Holds, ← hb]; exact hl, .inl ⟨rfl, rfl⟩⟩
  cases a with
  | heartbeat evidence now =>
    refine hkept ?_
    rw [show s' = _ from h]
    split <;> rfl
  | stop =>
    refine hkept ?_
    rw [show s' = _ from h]
  | write =>
    obtain ⟨lease, hactive, hid, heq⟩ := h.1 lease' hl.1 hl.2
    exact ⟨lease, ⟨hactive, hid⟩, .inl heq⟩
  | beat conflict =>
    obtain ⟨request, rest, hqueue, rfl⟩ := h
    by_cases hskip : (s.stopped || conflict) = true
    · exact hkept (if_pos hskip)
    · cases hbeat : heartbeatExecutionRunLease s.bundle request with
      | error e =>
        refine hkept ?_
        simp only [if_neg hskip, hbeat]
      | ok result =>
        obtain ⟨lease, hactive, hid, hrenewed⟩ := heartbeatExecutionRunLease_renews hs.onlyLastActive hbeat
        have hrequest := (hs.inFlight request (hqueue ▸ List.mem_cons_self)).1
        have hconflict : conflict = false := by
          cases conflict with
          | false => rfl
          | true => exact absurd (Bool.or_true _) hskip
        have heq := hl.1
        simp only [if_neg hskip, hbeat, hrenewed, Option.some.injEq] at heq
        subst heq
        exact ⟨lease, ⟨hactive, hid.trans hrequest⟩,
          .inr ⟨by rw [hconflict], request, by rw [hqueue]; rfl, rfl, rfl⟩⟩

theorem sound_of_init (h : (heartbeatLoop input).Init s) : s.Sound input := by
  obtain ⟨-, hqueue, ho, lease, hl, he⟩ := h
  refine ⟨ho, hqueue ▸ nofun, fun lease' hl' => ?_⟩
  obtain rfl := Option.some.inj (hl'.1.symm.trans hl.1)
  exact he

theorem HeartbeatLoop.Sound.step (hs : s.Sound input) (h : (heartbeatLoop input).Step s a s') : s'.Sound input := by
  have hqueue : ∀ request ∈ s'.inFlight,
      request.leaseId = input.leaseId ∧ input.Expires request.heartbeatAt request.expiresAt := by
    intro request hm
    cases a with
    | heartbeat evidence now =>
      rw [show s' = _ from h] at hm
      split at hm
      · exact hs.inFlight request hm
      · rcases List.mem_append.1 hm with hm | hm
        · exact hs.inFlight request hm
        · exact HeartbeatLoopInput.request_spec (Option.mem_toList.1 hm)
    | stop =>
      rw [show s' = _ from h] at hm
      exact hs.inFlight request hm
    | write =>
      rw [h.2.2] at hm
      exact hs.inFlight request hm
    | beat conflict =>
      obtain ⟨first, rest, heq, rfl⟩ := h
      exact hs.inFlight request (heq ▸ List.mem_cons_of_mem _ hm)
  refine ⟨?_, hqueue, fun lease' hl' => ?_⟩
  · cases a with
    | heartbeat evidence now =>
      rw [show s' = _ from h]
      split <;> exact hs.onlyLastActive
    | stop =>
      rw [show s' = _ from h]
      exact hs.onlyLastActive
    | write => exact h.2.1
    | beat conflict =>
      obtain ⟨first, rest, -, rfl⟩ := h
      dsimp only
      split
      · exact hs.onlyLastActive
      · split
        · exact (Operation.heartbeat ‹_›).onlyLastActive hs.onlyLastActive
        · exact hs.onlyLastActive
  · obtain ⟨lease, hl, ⟨hh, he⟩ | ⟨-, request, hfirst, hh, he⟩⟩ := lease_of_step hs h hl'
    · rw [hh, he]
      exact hs.expires lease hl
    · rw [hh, he]
      exact (hs.inFlight request (List.mem_of_mem_head? hfirst)).2

theorem heartbeats_sound (h : (heartbeatLoop input).Reachable s) : s.Sound input :=
  h.invariant (fun _ => sound_of_init) fun _ _ _ _ hs ha => hs.step ha

/-- The heartbeat of the step, if it reaches the store, is not before the last one of the lease. -/
def NotBack (input : HeartbeatLoopInput) (s : HeartbeatLoop) (a : HeartbeatLabel) : Prop :=
  a = .beat false → ∀ request ∈ s.inFlight.head?, ∀ lease, s.Holds input.leaseId lease →
    ∃ t t', input.dates.parse lease.heartbeatAt = some t ∧ input.dates.parse request.heartbeatAt = some t' ∧ t ≤ t'

/-- The lease of the loop is active, and expires at the instant or later. -/
def ExpiresFrom (input : HeartbeatLoopInput) (instant : Int) (s : HeartbeatLoop) : Prop :=
  ∃ lease t, s.Holds input.leaseId lease ∧ input.dates.parse lease.heartbeatAt = some t ∧
    lease.expiresAt = input.dates.toISOString (t + input.ttlMs) ∧ instant ≤ t + input.ttlMs

theorem HeartbeatLoopInput.Expires.eq {heartbeatAt expiresAt : String} (h : input.Expires heartbeatAt expiresAt) {t : Int}
    (ht : input.dates.parse heartbeatAt = some t) : expiresAt = input.dates.toISOString (t + input.ttlMs) := by
  rw [show expiresAt = _ from h, addMillisecondsToIsoTimestamp, ht]

/-- **The renewals of a lease.** A heartbeat that succeeds at an instant leaves an expiry strictly after it, and in a run
whose heartbeats do not go back the expiry of the lease, while it is active, does not go back. -/
theorem lease_renewals (input : HeartbeatLoopInput) {s : HeartbeatLoop} (hr : (heartbeatLoop input).Reachable s) :
    (∀ request ∈ s.inFlight.head?, ∀ result, heartbeatExecutionRunLease s.bundle request = .ok result →
      s.stopped = false → ∀ s', (heartbeatLoop input).Step s (.beat false) s' → ∃ lease, s'.Holds input.leaseId lease ∧
        lease.heartbeatAt = request.heartbeatAt ∧ ∀ t, input.dates.parse request.heartbeatAt = some t →
          lease.expiresAt = input.dates.toISOString (t + input.ttlMs) ∧ t < t + input.ttlMs) ∧
    ∀ labels s', (((heartbeatLoop input).restrict (NotBack input)).keeping fun s =>
        ∃ lease, s.Holds input.leaseId lease).Run s labels s' →
      ∀ instant, ExpiresFrom input instant s → ExpiresFrom input instant s' := by
  have hs := heartbeats_sound hr
  refine ⟨fun request hfirst result hbeat hstopped s' hstep => ?_, fun labels s' h instant hfrom => ?_⟩
  · obtain ⟨lease, -, hid, hrenewed⟩ := heartbeatExecutionRunLease_renews hs.onlyLastActive hbeat
    obtain ⟨hleaseId, hexpires⟩ := hs.inFlight request (List.mem_of_mem_head? hfirst)
    obtain ⟨first, rest, hqueue, rfl⟩ := hstep
    rw [hqueue] at hfirst
    obtain rfl := Option.some.inj hfirst
    have hpositive : 1 ≤ input.ttlMs := le_max_left _ _
    simp only [HeartbeatLoop.Holds, hstopped, hbeat, Bool.or_self, Bool.false_eq_true, if_false, hrenewed]
    exact ⟨_, ⟨rfl, hid.trans hleaseId⟩, rfl, fun t ht => ⟨hexpires.eq ht, by omega⟩⟩
  · induction h with
    | nil => exact hfrom
    | @cons s₀ s₁ s₂ a as ha _ ih =>
      obtain ⟨⟨hback, hstep⟩, lease', hl'⟩ := ha
      refine ih (hr.step hstep) (hs.step hstep) ?_
      obtain ⟨lease, t, hl, ht, he, hle⟩ := hfrom
      obtain ⟨before, hbefore, ⟨hh', he'⟩ | ⟨rfl, request, hfirst, hh', he'⟩⟩ := lease_of_step hs hstep hl'
      · obtain rfl := Option.some.inj (hbefore.1.symm.trans hl.1)
        exact ⟨lease', t, hl', by rw [hh', ht], by rw [he', he], hle⟩
      · obtain ⟨t₀, t', ht₀, ht', hnotBack⟩ := hback rfl request hfirst lease hl
        obtain rfl := Option.some.inj (ht.symm.trans ht₀)
        have hexpires := (hs.step hstep).expires lease' hl'
        refine ⟨lease', t', hl', by rw [hh', ht'], hexpires.eq (by rw [hh', ht']), by omega⟩

end Runs

/-! ## A minute -/

/-- The seconds of a minute. -/
def second (n : Nat) : String := s!"2026-01-01T00:00:{n / 10}{n % 10}.000Z"

def minuteDates : Dates where
  parse text := ((List.range 60).find? fun n => second n == text).map fun n => 1767225600000 + 1000 * (n : Int)
  toISOString ms := second ((ms - 1767225600000) / 1000).toNat

/-- A step that reports what it has observed, at a second. -/
def observed (n : Nat) : HeartbeatLabel := .heartbeat (some [("observedAt", .string (second n))]) (second 12)

def minuteLoop : HeartbeatLoopInput := ⟨minuteDates, "lease", 15000⟩

/-- A run whose lease was acquired at the tenth second. -/
def minuteStart : HeartbeatLoop where
  stopped := false
  inFlight := []
  bundle := { oneStepRun.bundle with
    leases := [⟨"lease", "run", "owner", .active, second 10, second 10, second 25, none, none⟩] }

theorem minuteStart_init : (heartbeatLoop minuteLoop).Init minuteStart := by
  refine ⟨rfl, rfl, onlyLastActive_append _ (fun _ (hm : _ ∈ []) => by cases hm), _, ⟨rfl, rfl⟩, ?_⟩
  show second 25 = addMillisecondsToIsoTimestamp minuteDates (second 10) 15000
  decide +kernel

theorem holds_of_any {leaseId : String} {s : HeartbeatLoop}
    (h : (getActiveExecutionRunLease s.bundle).any (·.id == leaseId) = true) : ∃ lease, s.Holds leaseId lease := by
  obtain ⟨lease, hactive, hid⟩ := (Option.any_eq_true _ _).1 h
  exact ⟨lease, hactive, beq_iff_eq.1 hid⟩

theorem renewal_of_next_second : ∃ s', (((heartbeatLoop minuteLoop).restrict (NotBack minuteLoop)).keeping fun s =>
      ∃ lease, s.Holds "lease" lease).Run minuteStart [observed 11, .beat false] s' ∧
    ExpiresFrom minuteLoop 1767225625000 s' := by
  have hrun : ∃ s', (((heartbeatLoop minuteLoop).restrict (NotBack minuteLoop)).keeping fun s =>
      ∃ lease, s.Holds "lease" lease).Run minuteStart [observed 11, .beat false] s' := by
    refine ⟨_, .cons ⟨⟨nofun, rfl⟩, holds_of_any ?_⟩ (.cons ⟨⟨?_, _, _, rfl, rfl⟩, holds_of_any ?_⟩ (.nil _))⟩
    · decide +kernel
    · rintro - request hfirst lease ⟨hactive, -⟩
      obtain rfl := Option.some.inj hfirst
      obtain rfl := Option.some.inj hactive
      exact ⟨1767225610000, 1767225611000, by decide +kernel, by decide +kernel, by decide⟩
    · decide +kernel
  obtain ⟨s', hrun⟩ := hrun
  exact ⟨s', hrun, (lease_renewals minuteLoop (.init minuteStart_init)).2 _ _ hrun _
    ⟨_, 1767225610000, ⟨rfl, rfl⟩, by decide +kernel, by decide +kernel, by decide⟩⟩

/-- **Stale evidence shortens a lease.** -/
theorem stale_heartbeat_shortens : ∃ s', (heartbeatLoop minuteLoop).Init minuteStart ∧
    (heartbeatLoop minuteLoop).Run minuteStart [observed 5, .beat false] s' ∧
    (getActiveExecutionRunLease minuteStart.bundle).map (·.expiresAt) = some "2026-01-01T00:00:25.000Z" ∧
    (getActiveExecutionRunLease s'.bundle).map (·.expiresAt) = some "2026-01-01T00:00:20.000Z" := by
  refine ⟨_, minuteStart_init, .cons rfl (.cons ⟨_, _, rfl, rfl⟩ (.nil _)), ?_, ?_⟩
  · decide +kernel
  · decide +kernel

end AuraCall.Runtime
