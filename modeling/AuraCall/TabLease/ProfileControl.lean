import AuraCall.TabLease.System

/-!
# Profile control excludes leases and other profile control

`ControlExclusion` is the invariant: a profile and service has one active control, and none while a lease of it is not
released. The control side keeps it by looking for leases, the lease side by looking for controls; pruning and releasing
only take active controls away, and a lease is rewritten only while it is fenced.

The expiry of a control plays no part: a control excludes leases until some call prunes it.
-/

namespace AuraCall.TabLease

variable {registry registry' : Registry}

/-! ## The invariant -/

/-- An active control controls its profile and service. -/
def Controls (control : BrowserProfileControlRecord) (domain : String × String) : Prop :=
  control.state = .active ∧ (control.scope.managedBrowserProfile, control.scope.service) = domain

/-- A fenced lease of the profile and service. -/
def Leases (lease : BrowserTabLease) (domain : String × String) : Prop :=
  fenced lease.state = true ∧ (lease.scope.managedBrowserProfile, lease.scope.service) = domain

structure ControlExclusion (registry : Registry) : Prop where
  alone : KeyedMap.Owned Controls registry.controls
  unleased : ∀ domain, ∀ control ∈ registry.controls, Controls control domain → ∀ lease ∈ registry.leases,
    ¬Leases lease domain

theorem ControlExclusion.empty : ControlExclusion .empty :=
  ⟨KeyedMap.Owned.empty, fun _ control hm => absurd hm (KeyedMap.not_mem_empty control)⟩

/-- Two control scopes of one profile and service are the same. -/
theorem sameControlScope_of_domain {a b : BrowserProfileControlScope} {domain : String × String}
    (ha : (a.managedBrowserProfile, a.service) = domain) (hb : (b.managedBrowserProfile, b.service) = domain) :
    sameControlScope a b = true := by
  subst ha
  simp only [Prod.mk.injEq] at hb
  exact sameControlScope_eq_true.2 ⟨hb.1.symm, hb.2.symm⟩

/-! ## Pruning -/

/-- An active control that pruning leaves was there before, unchanged. -/
theorem pruneControl_active {nowMs : Int} {control : BrowserProfileControlRecord}
    (h : (pruneControl nowMs control).state = .active) : pruneControl nowMs control = control := by
  unfold pruneControl at h ⊢
  split at h
  · rename_i hc; simp only [hc, ↓reduceIte]
  · cases h

theorem Controls.of_prune {nowMs : Int} {control : BrowserProfileControlRecord} {domain : String × String}
    (h : Controls (pruneControl nowMs control) domain) : Controls control domain := by
  rwa [pruneControl_active h.1] at h

theorem ControlExclusion.prune (h : ControlExclusion registry) (nowMs : Int) :
    ControlExclusion (pruneExpiredControls nowMs registry) where
  alone := h.alone.mapValues (pruneControl_controlId nowMs) fun _ _ hc => hc.of_prune
  unleased := by
    intro domain control hm hc
    rw [pruneExpiredControls, KeyedMap.mem_mapValues] at hm
    obtain ⟨old, hold, rfl⟩ := hm
    exact h.unleased domain old hold hc.of_prune

/-! ## Steps -/

/-- A new active control finds its domain without control and without leases. -/
theorem ControlAcquired.exclusion {control : BrowserProfileControlRecord} (hc : ControlAcquired registry control)
    (h : ControlExclusion registry) : ControlExclusion { registry with controls := registry.controls.set control } where
  alone := by
    refine h.alone.set fun domain hnew other hm _ hother => ?_
    have hfalse := hc.alone other hm hother.1
    rw [sameControlScope_of_domain hother.2 hnew.2] at hfalse
    cases hfalse
  unleased := by
    intro domain control' hm hcontrols lease hlease hl
    rcases KeyedMap.mem_set.1 hm with rfl | ⟨hold, _⟩
    · have hfalse := hc.unleased lease hlease hl.1
      rw [sameControlScope_of_domain hl.2 hcontrols.2] at hfalse
      cases hfalse
    · exact h.unleased domain control' hold hcontrols lease hlease hl

theorem ControlReleased.exclusion {control : BrowserProfileControlRecord} (hc : ControlReleased registry control)
    (h : ControlExclusion registry) : ControlExclusion { registry with controls := registry.controls.set control } where
  alone := by
    refine h.alone.set fun domain hnew => ?_
    have hstate := hnew.1
    rw [hc.state] at hstate
    cases hstate
  unleased := by
    intro domain control' hm hcontrols
    rcases KeyedMap.mem_set.1 hm with rfl | ⟨hold, _⟩
    · have hstate := hcontrols.1
      rw [hc.state] at hstate
      cases hstate
    · exact h.unleased domain control' hold hcontrols

/-- Storing a lease whose domain nobody controls. -/
theorem ControlExclusion.set {new : BrowserTabLease} (h : ControlExclusion registry)
    (hnew : ∀ domain, Leases new domain → ∀ control ∈ registry.controls, ¬Controls control domain) :
    ControlExclusion { registry with leases := registry.leases.set new } where
  alone := h.alone
  unleased := by
    intro domain control hm hcontrols lease hlease hl
    rcases KeyedMap.mem_set.1 hlease with rfl | ⟨hold, _⟩
    · exact hnew domain hl control hm hcontrols
    · exact h.unleased domain control hm hcontrols lease hold hl

theorem Reserved.exclusion {new : BrowserTabLease} (hr : Reserved registry new) (h : ControlExclusion registry) :
    ControlExclusion { registry with leases := registry.leases.set new } := by
  refine h.set fun domain hl control hm hcontrols => ?_
  have hfalse := hr.uncontrolled control hm hcontrols.1
  rw [sameControlScope_of_domain hcontrols.2 hl.2] at hfalse
  cases hfalse

theorem Successor.exclusion {move : Move} {old new : BrowserTabLease} (hs : Successor registry move old new)
    (h : ControlExclusion registry) : ControlExclusion { registry with leases := registry.leases.set new } := by
  refine h.set fun domain hl control hm hcontrols => ?_
  obtain ⟨hp, hv, _⟩ := sameOwnershipScope_eq_true.1 hs.scope
  -- the lease was fenced before, in the same domain
  refine h.unleased domain control hm hcontrols old hs.mem ⟨hs.lifecycle.fenced_source, ?_⟩
  rw [← hp, ← hv]
  exact hl.2

theorem StepEffect.exclusion {operation : Operation} {outcome : Checked Reply}
    (he : StepEffect registry operation outcome registry') (h : ControlExclusion registry) :
    ControlExclusion registry' := by
  cases he with
  | refused => exact h
  | reserveRefused => exact h.prune _
  | reserved hr => exact hr.exclusion (h.prune _)
  | controlRefused => exact h.prune _
  | controlAcquired hc => exact hc.exclusion (h.prune _)
  | controlKept => exact h
  | controlReleased hc => exact hc.exclusion h
  | rewritten hr => obtain ⟨_, _, hs⟩ := hr; exact hs.exclusion h

/-- **A profile and service has at most one active control, and no lease but released ones while it has one.** -/
theorem profileControl_exclusive (table : CaseTable) {registry : Registry} (h : (system table).Reachable registry) :
    (∀ a ∈ registry.controls, ∀ b ∈ registry.controls, a.state = .active → b.state = .active →
      a.scope.managedBrowserProfile = b.scope.managedBrowserProfile → a.scope.service = b.scope.service → a = b) ∧
    ∀ control ∈ registry.controls, control.state = .active → ∀ lease ∈ registry.leases,
      lease.scope.managedBrowserProfile = control.scope.managedBrowserProfile →
      lease.scope.service = control.scope.service → lease.state = .released := by
  have hinv := reachable_invariant ControlExclusion.empty (fun _ _ _ _ hi he => he.exclusion hi) h
  constructor
  · intro a ha b hb hsa hsb hp hv
    exact hinv.alone a ha b hb (a.scope.managedBrowserProfile, a.scope.service) ⟨hsa, rfl⟩ ⟨hsb, by rw [hp, hv]⟩
  · intro control hm hactive lease hlease hp hv
    by_contra hne
    exact hinv.unleased (control.scope.managedBrowserProfile, control.scope.service) control hm ⟨hactive, rfl⟩ lease
      hlease ⟨fenced_eq_true.2 hne, by rw [hp, hv]⟩

/-! ## A controlled profile -/

/-- A login controls the sample profile; the reservation after it is refused. -/
def sampleControlled : Registry :=
  runCalls .lowered [⟨sampleOptions 10 "lease-1", .acquireProfileControl {
      scope := sampleScope.control, kind := .login, operationId := "operation", now := .at 0, ttlMs := .finite 60000 }⟩,
    sampleReserve 10 "lease-1" "target-1" "conversation-1" none] .empty

theorem sampleControlled_exclusive :
    sampleControlled.controls.values.map (fun control => (control.controlId, control.state)) =
      [("control-1", .active)] ∧
    sampleControlled.leases.values = [] ∧
    ∀ control ∈ sampleControlled.controls, control.state = .active → ∀ lease ∈ sampleControlled.leases,
      lease.scope.managedBrowserProfile = control.scope.managedBrowserProfile →
      lease.scope.service = control.scope.service → lease.state = .released :=
  ⟨by decide +kernel, by decide +kernel, (profileControl_exclusive .lowered (runCalls_reachable _ _)).2⟩

end AuraCall.TabLease
