import AuraCall.TabLease.Operations

/-!
# What a lease operation does to its lease

The abstract view of a lease is its phase, the pair of its state and its effect state, and the resources it holds while
it is not released: its target, its workload and the process bound to it. A `Move` is one kind of step of the phase
(`Lifecycle`).

`Successor` says what the record an operation stores has to do with the record it found: same identifier and group, the
next revision, one move of the phase, and no resource taken that another lease holds. `rewrite_successor` is the
specification of the fourteen operations; nothing after it unfolds them.
-/

namespace AuraCall.TabLease

/-! ## Moves of the phase -/

inductive Move
  | use | idle | acquire | beginRetirement | finishRetirement | lose | reconcile | release
  deriving DecidableEq

/-- The steps of state and effect state. -/
inductive Lifecycle : Move → TabLeaseState × TabLeaseEffectState → TabLeaseState × TabLeaseEffectState → Prop
  | use (e e' : TabLeaseEffectState) : Lifecycle .use (.active, e) (.active, e')
  | idle (e : TabLeaseEffectState) {e' : TabLeaseEffectState} : e' ≠ .inFlight →
      Lifecycle .idle (.active, e) (.idle, e')
  | acquire {e : TabLeaseEffectState} : e ≠ .outcomeUnknown → Lifecycle .acquire (.idle, e) (.active, e)
  | beginRetirement {e : TabLeaseEffectState} : e ≠ .inFlight →
      Lifecycle .beginRetirement (.idle, e) (.retiring, e)
  | finishRetirement (e : TabLeaseEffectState) {s : TabLeaseState} : s = .lost ∨ s = .released →
      Lifecycle .finishRetirement (.retiring, e) (s, e)
  | lose {s : TabLeaseState} (e : TabLeaseEffectState) : s ≠ .released → s ≠ .lost → Lifecycle .lose (s, e) (.lost, e)
  | reconcile {s : TabLeaseState} : s = .idle ∨ s = .lost → Lifecycle .reconcile (s, .outcomeUnknown) (s, .settled)
  | release {s : TabLeaseState} (e : TabLeaseEffectState) : s = .idle ∨ s = .lost →
      Lifecycle .release (s, e) (.released, e)

/-- A released lease makes no move. -/
theorem Lifecycle.fenced_source {m : Move} {s s' : TabLeaseState} {e e' : TabLeaseEffectState}
    (h : Lifecycle m (s, e) (s', e')) : fenced s = true := by
  cases h with
  | lose _ hr _ => exact fenced_eq_true.2 hr
  | reconcile hs => rcases hs with rfl | rfl <;> rfl
  | release _ hs => rcases hs with rfl | rfl <;> rfl
  | _ => rfl

/-- A lease is not released by its use, by resting, or by its loss. -/
theorem Lifecycle.fenced_target {move : Move} {s s' : TabLeaseState} {e e' : TabLeaseEffectState}
    (h : Lifecycle move (s, e) (s', e')) (hmove : move = .use ∨ move = .idle ∨ move = .lose) : fenced s' = true := by
  cases h with
  | use => rfl
  | idle => rfl
  | lose => rfl
  | _ => rcases hmove with h | h | h <;> cases h

/-! ## Resources -/

/-- What a lease can hold: a target of a browser profile and service, a workload or a process of an account. -/
inductive Resource
  | target (managedBrowserProfile service targetId : String)
  | workload (managedBrowserProfile service tenantKey : String) (workload : TabLeaseWorkload)
  | process (managedBrowserProfile service tenantKey : String) (processId : Int)

/-- The resources of a lease, released or not. -/
def Names (lease : BrowserTabLease) : Resource → Prop
  | .target profile service targetId =>
    lease.scope.managedBrowserProfile = profile ∧ lease.scope.service = service ∧ lease.targetId = targetId
  | .workload profile service tenantKey workload =>
    lease.scope.managedBrowserProfile = profile ∧ lease.scope.service = service ∧
      lease.scope.tenantKey = tenantKey ∧ lease.workload = workload
  | .process profile service tenantKey processId =>
    lease.scope.managedBrowserProfile = profile ∧ lease.scope.service = service ∧
      lease.scope.tenantKey = tenantKey ∧ lease.processBinding.map (·.processId) = some processId

/-- A lease that is not released holds the resources it names. -/
def Holds (lease : BrowserTabLease) (resource : Resource) : Prop := fenced lease.state = true ∧ Names lease resource

/-- Nobody but the lease `leaseId` holds the resource. -/
def Free (registry : Registry) (leaseId : String) (resource : Resource) : Prop :=
  ∀ other ∈ registry.leases, other.leaseId ≠ leaseId → ¬Holds other resource

/-- Only the workload and the bound process tell the resources of two leases of one account and target apart. -/
theorem Names.of_same {old new : BrowserTabLease} (hs : sameOwnershipScope new.scope old.scope = true)
    (ht : new.targetId = old.targetId) {x : Resource} (hx : Names new x) :
    Names old x ∨ (∃ p s t, x = .workload p s t new.workload ∧ new.workload ≠ old.workload) ∨
      ∃ p s t i, x = .process p s t i ∧ new.processBinding ≠ old.processBinding := by
  obtain ⟨hm, hv, hk⟩ := sameOwnershipScope_eq_true.1 hs
  cases x with
  | target p s t => exact Or.inl ⟨hm ▸ hx.1, hv ▸ hx.2.1, ht ▸ hx.2.2⟩
  | workload p s t w =>
    obtain ⟨h1, h2, h3, rfl⟩ := hx
    by_cases hw : new.workload = old.workload
    · exact Or.inl ⟨hm ▸ h1, hv ▸ h2, hk ▸ h3, hw.symm⟩
    · exact Or.inr (Or.inl ⟨p, s, t, rfl, hw⟩)
  | process p s t i =>
    obtain ⟨h1, h2, h3, h4⟩ := hx
    by_cases hb : new.processBinding = old.processBinding
    · exact Or.inl ⟨hm ▸ h1, hv ▸ h2, hk ▸ h3, by rw [← hb]; exact h4⟩
    · exact Or.inr (Or.inr ⟨p, s, t, i, rfl, hb⟩)

/-! ## The specification of an operation -/

/-- The record `new` that follows the record `old` by a move. -/
structure Successor (registry : Registry) (move : Move) (old new : BrowserTabLease) : Prop where
  mem : old ∈ registry.leases
  leaseId : new.leaseId = old.leaseId
  revision : new.revision = old.revision + 1
  scope : sameOwnershipScope new.scope old.scope = true
  targetId : new.targetId = old.targetId
  exclusiveGroup : new.exclusiveGroup = old.exclusiveGroup
  lifecycle : Lifecycle move (old.state, old.effectState) (new.state, new.effectState)
  workload : new.workload ≠ old.workload → ∀ p s t, Names new (.workload p s t new.workload) →
    Free registry new.leaseId (.workload p s t new.workload)
  process : new.processBinding ≠ old.processBinding → ∀ p s t i, Names new (.process p s t i) →
    Holds old (.process p s t i) ∨ Free registry new.leaseId (.process p s t i)
  admission : move = .acquire → ∀ other ∈ registry.leases, other.leaseId ≠ new.leaseId →
    blocksExclusiveGroupAdmission other new.scope new.exclusiveGroup = false

/-- What the successor holds, its predecessor held or nobody else holds. -/
theorem Successor.holds {registry : Registry} {move : Move} {old new : BrowserTabLease}
    (h : Successor registry move old new) {x : Resource} (hx : Holds new x) :
    Holds old x ∨ Free registry new.leaseId x := by
  have hf := h.lifecycle.fenced_source
  rcases Names.of_same h.scope h.targetId hx.2 with ho | ⟨p, s, t, rfl, hw⟩ | ⟨p, s, t, i, rfl, hb⟩
  · exact Or.inl ⟨hf, ho⟩
  · exact Or.inr (h.workload hw p s t hx.2)
  · exact h.process hb p s t i hx.2

@[simp] theorem fencedLease_eq_ok {leaseId : String} {revision : Nat} {registry : Registry} {old : BrowserTabLease} :
    fencedLease leaseId revision registry = .ok old ↔
      registry.leases.get? leaseId = some old ∧ old.revision = revision := by
  simp only [fencedLease, bind_eq_ok, orRefuse_eq_ok, refuseIf_eq_ok, pure_eq_ok, bne_eq_false_iff_eq]
  constructor
  · rintro ⟨_, hg, _, hr, rfl⟩; exact ⟨hg, hr⟩
  · rintro ⟨hg, hr⟩; exact ⟨old, hg, (), hr, rfl⟩

@[simp] theorem claimedLease_eq_ok {claim : TabLeaseClaim} {registry : Registry} {old : BrowserTabLease} :
    claimedLease claim registry = .ok old ↔ registry.leases.get? claim.leaseId = some old ∧
      old.revision = claim.revision ∧ old.ownerOperationId = some claim.operationId := by
  simp only [claimedLease, bind_eq_ok, orRefuse_eq_ok, refuseIf_eq_ok, pure_eq_ok, Bool.or_eq_false_iff,
    bne_eq_false_iff_eq]
  constructor
  · rintro ⟨_, hg, _, ⟨hr, ho⟩, rfl⟩; exact ⟨hg, hr, ho⟩
  · rintro ⟨hg, hr, ho⟩; exact ⟨old, hg, (), ⟨hr, ho⟩, rfl⟩

end AuraCall.TabLease
