import AuraCall.TabLease.System

/-!
# Exclusive groups

A lease of an exclusive group should be granted only while nothing else of the group works or may still have an effect
(`ExclusiveGrant`). The admission test asks for other active or retiring leases and for unknown outcomes, but not for
effects in flight: these belong to active leases, until `markLost` parks one on a lost lease.

`exclusiveGroup_safe` says exactly which grants are exclusive, and `lostInFlight_not_exclusive` runs the case that is
not.
-/

namespace AuraCall.TabLease

variable {table : CaseTable} {registry registry' : Registry}

/-! ## Grants -/

/-- The lease that `reserve`, `acquire` or `acquireProcess` grants. -/
def grantedLease (table : CaseTable) (call : Call) (registry : Registry) : Option BrowserTabLease :=
  match call.operation, (perform table call registry).1 with
  | .reserve _, .ok (.granted lease _) => some lease
  | .lease (.acquire _), .ok (.granted lease _) => some lease
  | .lease (.acquireProcess _), .ok (.granted lease _) => some lease
  | _, _ => none

/-- The account and the group an operation asks admission to: those of the reservation, or of the lease to acquire. -/
def admissionOf (table : CaseTable) (registry : Registry) : Operation → Option (TabLeaseScope × Option String)
  | .reserve input =>
    (normalizeReserveInput table input).toOption.map fun normalized => (normalized.scope, normalized.exclusiveGroup)
  | .lease (.acquire input) => do
    let scope ← (normalizeScope table input.scope).toOption
    let workload ← (normalizeWorkload input.workload).toOption
    let existing ← registry.leases.values.find? fun lease =>
      fenced lease.state && sameOwnershipScope lease.scope scope && sameWorkload lease.workload workload
    return (scope, existing.exclusiveGroup)
  | .lease (.acquireProcess input) =>
    (registry.leases.get? input.leaseId).map fun existing => (existing.scope, existing.exclusiveGroup)
  | _ => none

/-- Two leases of one account and one exclusive group. -/
def SameGroup (scope : TabLeaseScope) (exclusiveGroup : Option String) (other : BrowserTabLease) : Prop :=
  exclusiveGroup ≠ none ∧ other.exclusiveGroup = exclusiveGroup ∧ sameOwnershipScope other.scope scope = true

/-- No other lease of the group is active, retiring, or has an unresolved effect. -/
def ExclusiveGrant (registry : Registry) (lease : BrowserTabLease) : Prop :=
  ∀ other ∈ registry.leases, other.leaseId ≠ lease.leaseId → SameGroup lease.scope lease.exclusiveGroup other →
    other.state ≠ .released →
    other.state ≠ .active ∧ other.state ≠ .retiring ∧ other.effectState ≠ .inFlight ∧
      other.effectState ≠ .outcomeUnknown

/-- The group has no lost lease with an effect in flight. -/
def NoneLostInFlight (registry : Registry) (admission : Option (TabLeaseScope × Option String)) : Prop :=
  ∀ scope exclusiveGroup, admission = some (scope, exclusiveGroup) → ∀ other ∈ registry.leases,
    SameGroup scope exclusiveGroup other → other.state = .lost → other.effectState ≠ .inFlight

/-! ## Where effects are in flight -/

structure EffectCustody (registry : Registry) : Prop where
  named : ∀ lease ∈ registry.leases, lease.exclusiveGroup ≠ some ""
  inFlight : ∀ lease ∈ registry.leases, lease.effectState = .inFlight → lease.state ≠ .idle ∧ lease.state ≠ .retiring

/-- No move leaves an effect in flight on an idle or retiring lease: only `markLost` takes it out of an active one. -/
theorem Lifecycle.inFlight {move : Move} {s s' : TabLeaseState} {e e' : TabLeaseEffectState}
    (h : Lifecycle move (s, e) (s', e')) (he : e' = .inFlight) : s' ≠ .idle ∧ s' ≠ .retiring := by
  subst he
  cases h with
  | idle _ hne => exact absurd rfl hne
  | beginRetirement hne => exact absurd rfl hne
  | finishRetirement _ hs => rcases hs with rfl | rfl <;> decide
  | _ => decide

theorem EffectCustody.set {new : BrowserTabLease} (h : EffectCustody registry) (hnamed : new.exclusiveGroup ≠ some "")
    (hinFlight : new.effectState = .inFlight → new.state ≠ .idle ∧ new.state ≠ .retiring) :
    EffectCustody { registry with leases := registry.leases.set new } where
  named := by
    intro lease hm
    rcases KeyedMap.mem_set.1 hm with rfl | ⟨hold, _⟩
    · exact hnamed
    · exact h.named lease hold
  inFlight := by
    intro lease hm
    rcases KeyedMap.mem_set.1 hm with rfl | ⟨hold, _⟩
    · exact hinFlight
    · exact h.inFlight lease hold

theorem StepEffect.custody {operation : Operation} {outcome : Checked Reply}
    (he : StepEffect registry operation outcome registry') (h : EffectCustody registry) : EffectCustody registry' := by
  cases he with
  | reserved hr =>
    have hnone := hr.effectState
    exact EffectCustody.set ⟨h.named, h.inFlight⟩ hr.exclusiveGroup fun e => by simp [hnone] at e
  | rewritten hr =>
    obtain ⟨old, _, hs⟩ := hr
    exact h.set (hs.exclusiveGroup ▸ h.named old hs.mem) hs.lifecycle.inFlight
  | _ => exact ⟨h.named, h.inFlight⟩

theorem reachable_custody (h : (system table).Reachable registry) : EffectCustody registry :=
  reachable_invariant ⟨fun lease hm => absurd hm (KeyedMap.not_mem_empty lease),
    fun lease hm => absurd hm (KeyedMap.not_mem_empty lease)⟩ (fun _ _ _ _ hi he => he.custody hi) h

/-! ## What a grant has checked -/

/-- A granted lease was idle or is new, belongs to the account and group asked for, and passed the admission test. -/
structure Admitted (table : CaseTable) (call : Call) (registry : Registry) (lease : BrowserTabLease) : Prop where
  stored : ∀ other, other ∈ (perform table call registry).2.leases ↔
    other = lease ∨ (other ∈ registry.leases ∧ other.leaseId ≠ lease.leaseId)
  self : ∀ other ∈ registry.leases, other.leaseId = lease.leaseId → other.state = .idle
  admission : ∃ scope, admissionOf table registry call.operation = some (scope, lease.exclusiveGroup) ∧
    sameOwnershipScope lease.scope scope = true
  unblocked : ∀ other ∈ registry.leases, other.leaseId ≠ lease.leaseId →
    blocksExclusiveGroupAdmission other lease.scope lease.exclusiveGroup = false

theorem Lifecycle.acquire_source {s s' : TabLeaseState} {e e' : TabLeaseEffectState}
    (h : Lifecycle .acquire (s, e) (s', e')) : s = .idle := by cases h; rfl

theorem Successor.admitted {options : RegistryOptions} {operation : LeaseOperation} {old lease : BrowserTabLease}
    (hs : Successor registry .acquire old lease) (hr : operation.rewrite table options registry = .ok lease)
    (ha : ∃ scope, admissionOf table registry (.lease operation) = some (scope, lease.exclusiveGroup) ∧
      sameOwnershipScope lease.scope scope = true) : Admitted table ⟨options, .lease operation⟩ registry lease where
  stored := fun other => by simp only [perform, hr, storeLease, KeyedMap.mem_set]
  self := fun other hm hid => by
    have heq : other = old := KeyedMap.eq_of_key hm hs.mem (hid.trans hs.leaseId)
    rw [heq]
    exact hs.lifecycle.acquire_source
  admission := ha
  unblocked := hs.admission rfl

theorem reserve_admitted {options : RegistryOptions} {input : ReserveTabLeaseInput} {lease : BrowserTabLease}
    (h : (reserve table options input registry).1 = .ok lease) :
    Admitted table ⟨options, .reserve input⟩ registry lease := by
  cases hn : normalizeReserveInput table input with
  | error stop => simp [reserve, hn] at h
  | ok normalized =>
    simp only [reserve, hn] at h
    have hspec := reservedLease_spec (normalizeReserveInput_group hn) h
    have hscope : lease.scope = normalized.scope ∧ lease.exclusiveGroup = normalized.exclusiveGroup := by
      simp only [reservedLease, bind_eq_ok, pure_eq_ok] at h
      obtain ⟨_, _, _, _, _, _, _, _, _, _, _, _, rfl⟩ := h
      exact ⟨rfl, rfl⟩
    exact {
      stored := fun other => by simp only [perform, reserve, hn, h, storeLease]; exact KeyedMap.mem_set
      self := fun other hm hid => absurd hid (hspec.fresh other hm)
      admission := ⟨normalized.scope, by simp [admissionOf, hn, Except.toOption, hscope.2],
        by rw [hscope.1]; exact sameOwnershipScope_refl _⟩
      unblocked := fun other hm _ => hspec.admission other hm }

theorem acquire_admitted {options : RegistryOptions} {input : AcquireInput} {lease : BrowserTabLease}
    (h : acquire table options input registry = .ok lease) :
    Admitted table ⟨options, .lease (.acquire input)⟩ registry lease := by
  obtain ⟨old, _, hs⟩ := acquire_spec h
  refine hs.admitted h ?_
  simp only [acquire, bind_eq_ok, orRefuse_eq_ok, pure_eq_ok] at h
  obtain ⟨scope, hscope, workload, hworkload, _, _, _, _, existing, hfind, _, _, _, _, _, _, _, _, _, _, _, _, _, _,
    rfl⟩ := h
  exact ⟨scope, by simp [admissionOf, hscope, hworkload, hfind, Except.toOption], sameOwnershipScope_refl _⟩

theorem acquireProcess_admitted {options : RegistryOptions} {input : AcquireProcessInput} {lease : BrowserTabLease}
    (h : acquireProcess table options input registry = .ok lease) :
    Admitted table ⟨options, .lease (.acquireProcess input)⟩ registry lease := by
  obtain ⟨old, hp, hs⟩ := acquireProcess_spec h
  refine hs.admitted h ⟨old.scope, ?_, hs.scope⟩
  obtain ⟨hid, _⟩ := hp _ _ rfl
  simp only [admissionOf, ← hid, KeyedMap.get?_self hs.mem, Option.map_some, hs.exclusiveGroup]

theorem grantedLease_admitted {call : Call} {lease : BrowserTabLease}
    (h : grantedLease table call registry = some lease) : Admitted table call registry lease := by
  obtain ⟨options, operation⟩ := call
  cases operation with
  | reserve input =>
    refine reserve_admitted ?_
    cases hr : (reserve table options input registry).1 with
    | error stop => simp [grantedLease, perform, hr, Except.map] at h
    | ok new => simpa [grantedLease, perform, hr, Except.map] using h
  | lease operation =>
    cases operation with
    | acquire input =>
      refine acquire_admitted ?_
      cases hr : acquire table options input registry with
      | error stop => simp [grantedLease, perform, LeaseOperation.rewrite, hr, Except.map] at h
      | ok new => simpa [grantedLease, perform, LeaseOperation.rewrite, LeaseOperation.reply, hr, Except.map] using h
    | acquireProcess input =>
      refine acquireProcess_admitted ?_
      cases hr : acquireProcess table options input registry with
      | error stop => simp [grantedLease, perform, LeaseOperation.rewrite, hr, Except.map] at h
      | ok new => simpa [grantedLease, perform, LeaseOperation.rewrite, LeaseOperation.reply, hr, Except.map] using h
    | _ => simp [grantedLease] at h
  | _ => simp [grantedLease] at h

/-! ## Exclusive grants -/

/-- The admission test misses no other way for a lease of the group to be at work. -/
theorem Admitted.exclusive {call : Call} {lease : BrowserTabLease} (ha : Admitted table call registry lease)
    (hc : EffectCustody registry) (hc' : lease.exclusiveGroup ≠ some "")
    (hlost : NoneLostInFlight registry (admissionOf table registry call.operation)) :
    ExclusiveGrant (perform table call registry).2 lease := by
  obtain ⟨scope, hadm, hscope⟩ := ha.admission
  intro other hm hid hgroup hrel
  have hin : other ∈ registry.leases := by
    rcases (ha.stored other).1 hm with rfl | ⟨hin, _⟩
    · exact absurd rfl hid
    · exact hin
  have hblock := ha.unblocked other hin hid
  obtain ⟨hsome, heq, hsame⟩ := hgroup
  obtain ⟨group, hg⟩ := Option.ne_none_iff_exists'.1 hsome
  have hne : group ≠ "" := fun e => hc' (by rw [hg, e])
  simp only [blocksExclusiveGroupAdmission, hg, Option.any_some, hne, ne_eq, not_false_eq_true, decide_true, heq,
    BEq.rfl, fenced_eq_true.2 hrel, hsame, Bool.and_self, Bool.true_and, Bool.or_eq_false_iff,
    beq_eq_false_iff_ne] at hblock
  obtain ⟨⟨hactive, hretiring⟩, hunknown⟩ := hblock
  refine ⟨hactive, hretiring, fun hflight => ?_, hunknown⟩
  have hidle := (hc.inFlight other hin hflight).1
  have hlostState : other.state = .lost := by cases hst : other.state <;> simp_all
  have hsame' : sameOwnershipScope other.scope scope = true := by
    obtain ⟨h1, h2, h3⟩ := sameOwnershipScope_eq_true.1 hsame
    obtain ⟨s1, s2, s3⟩ := sameOwnershipScope_eq_true.1 hscope
    exact sameOwnershipScope_eq_true.2 ⟨h1.trans s1, h2.trans s2, h3.trans s3⟩
  exact hlost scope lease.exclusiveGroup hadm other hin ⟨hsome, heq, hsame'⟩ hlostState hflight

/-- A lost lease of the group with an effect in flight makes the grant one that is not exclusive. -/
theorem Admitted.noneLostInFlight {call : Call} {lease : BrowserTabLease} (ha : Admitted table call registry lease)
    (he : ExclusiveGrant (perform table call registry).2 lease) :
    NoneLostInFlight registry (admissionOf table registry call.operation) := by
  obtain ⟨scope, hadm, hscope⟩ := ha.admission
  intro scope' exclusiveGroup hadm' other hm hgroup hlost hflight
  simp only [hadm, Option.some.injEq, Prod.mk.injEq] at hadm'
  obtain ⟨rfl, rfl⟩ := hadm'
  have hid : other.leaseId ≠ lease.leaseId := fun e => by
    have hidle := ha.self other hm e
    rw [hlost] at hidle
    cases hidle
  obtain ⟨hsome, heq, hsame⟩ := hgroup
  have hsame' : sameOwnershipScope other.scope lease.scope = true := by
    obtain ⟨h1, h2, h3⟩ := sameOwnershipScope_eq_true.1 hsame
    obtain ⟨s1, s2, s3⟩ := sameOwnershipScope_eq_true.1 hscope
    exact sameOwnershipScope_eq_true.2 ⟨h1.trans s1.symm, h2.trans s2.symm, h3.trans s3.symm⟩
  have hrel : other.state ≠ .released := by rw [hlost]; decide
  exact (he other ((ha.stored other).2 (Or.inr ⟨hm, hid⟩)) hid ⟨hsome, heq, hsame'⟩ hrel).2.2.1 hflight

/-! ## Runs -/

/-- The run of the calls grants the lease by a call at `registry`, which leaves `registry'`. -/
def Grants (table : CaseTable) (calls : List Call) (registry : Registry) (call : Call) (registry' : Registry)
    (lease : BrowserTabLease) : Prop :=
  (system table).Takes calls registry call registry' ∧ grantedLease table call registry = some lease

/-- Every grant of the run is exclusive. -/
def GrantsExclusive (table : CaseTable) (calls : List Call) : Prop :=
  ∀ registry call registry' lease, Grants table calls registry call registry' lease → ExclusiveGrant registry' lease

/-- **The grants of a run are exclusive if and only if none is made to a group that has a lost lease with an effect in
flight.** -/
theorem exclusiveGroup_safe (table : CaseTable) (calls : List Call) :
    GrantsExclusive table calls ↔ ∀ registry call registry' lease, Grants table calls registry call registry' lease →
      NoneLostInFlight registry (admissionOf table registry call.operation) := by
  constructor
  · intro h registry call registry' lease hgrant
    have hstep : some (perform table call registry).2 = some registry' := hgrant.1.step
    cases hstep
    exact (grantedLease_admitted hgrant.2).noneLostInFlight (h registry call _ lease hgrant)
  · intro h registry call registry' lease hgrant
    have hstep : some (perform table call registry).2 = some registry' := hgrant.1.step
    cases hstep
    have hr := hgrant.1.reachable
    have ha := grantedLease_admitted hgrant.2
    exact ha.exclusive (reachable_custody hr)
      ((reachable_custody (hr.step hgrant.1.step)).named lease ((ha.stored lease).2 (Or.inl rfl)))
      (h registry call _ lease hgrant)

/-! ## A lost lease with an effect in flight -/

/-- The first process starts an effect, its lease is marked lost, and the second process reserves for the same group. -/
def lostInFlight : List Call :=
  [sampleReserve 10 "lease-1" "target-1" "conversation-1" (some "group"),
    ⟨sampleOptions 10 "lease-2", .lease (.recordMeaningfulUse {
      claim := ⟨"lease-1", 1, "operation"⟩, now := .at 1000, idleTtlMs := .finite 60000
      effectState := some .inFlight })⟩,
    ⟨sampleOptions 20 "lease-2", .lease (.markLost {
      leaseId := "lease-1", expectedRevision := 2, now := .at 2000, reason := .restartUnverified })⟩,
    sampleReserve 20 "lease-2" "target-2" "conversation-2" (some "group")]

/-- The second lease is granted while the first one's effect is in flight. -/
theorem lostInFlight_not_exclusive : ¬GrantsExclusive .lowered lostInFlight := by
  intro h
  have hgrant : Grants .lowered lostInFlight _ _ _ _ :=
    ⟨⟨.empty, lostInFlight.take 3, [], rfl, rfl, runCalls_run _ _ _, rfl⟩, (Option.some_get (by decide)).symm⟩
  have hlost := h _ _ _ _ hgrant ((runCalls .lowered lostInFlight .empty).leases.values.get ⟨0, by decide⟩)
    (List.get_mem _ _) (by decide) ⟨by decide, by decide, by decide⟩ (by decide)
  exact hlost.2.2.1 (by decide)

end AuraCall.TabLease
