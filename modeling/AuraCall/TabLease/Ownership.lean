import AuraCall.TabLease.System

/-!
# Targets, workloads and processes have one lease

Every resource is held by at most one lease in every reachable registry (`reachable_owned`): a reservation takes free
resources only, and the successor of a lease holds what its predecessor held or what nobody holds. Uniqueness of targets
and workloads (`tabLease_unique`) and of process bindings (`processBinding_unique`) are instances.

A released lease is never rewritten, since no move starts from the released state (`released_stable`).
-/

namespace AuraCall.TabLease

variable {table : CaseTable} {registry registry' : Registry}

/-! ## The ownership invariant -/

theorem Reserved.owned {new : BrowserTabLease} (h : Reserved registry new)
    (ho : KeyedMap.Owned Holds registry.leases) : KeyedMap.Owned Holds (registry.leases.set new) :=
  ho.set fun x hx other hm hne => h.free x hx.2 other hm hne

theorem Successor.owned {move : Move} {old new : BrowserTabLease} (h : Successor registry move old new)
    (ho : KeyedMap.Owned Holds registry.leases) : KeyedMap.Owned Holds (registry.leases.set new) := by
  refine ho.set fun x hx other hm hne => ?_
  rcases h.holds hx with hold | hfree
  · exact ho.free h.mem hold other hm (by rwa [h.leaseId] at hne)
  · exact hfree other hm hne

/-- Every effect of a call keeps exclusive ownership. -/
theorem StepEffect.owned {operation : Operation} {outcome : Checked Reply}
    (h : StepEffect registry operation outcome registry') (ho : KeyedMap.Owned Holds registry.leases) :
    KeyedMap.Owned Holds registry'.leases := by
  cases h with
  | reserved hr => exact hr.owned ho
  | rewritten hr => obtain ⟨_, _, hs⟩ := hr; exact hs.owned ho
  | _ => exact ho

/-- **No resource is ever held by two leases.** -/
theorem reachable_owned (h : (system table).Reachable registry) : KeyedMap.Owned Holds registry.leases :=
  reachable_invariant (I := fun registry => KeyedMap.Owned Holds registry.leases) KeyedMap.Owned.empty
    (fun _ _ _ _ ho he => he.owned ho) h

/-! ## Released leases -/

/-- Every effect of a call keeps a released lease. -/
theorem StepEffect.released {operation : Operation} {outcome : Checked Reply} {lease : BrowserTabLease}
    (h : StepEffect registry operation outcome registry') (hm : lease ∈ registry.leases)
    (hr : lease.state = .released) : lease ∈ registry'.leases := by
  cases h with
  | reserved hres => exact KeyedMap.mem_set_of_ne hm (hres.fresh lease hm)
  | rewritten hrw =>
    obtain ⟨old, _, hs⟩ := hrw
    refine KeyedMap.mem_set_of_ne hm fun hid => ?_
    have heq : lease = old := KeyedMap.eq_of_key hm hs.mem (hid.trans hs.leaseId)
    have hf := hs.lifecycle.fenced_source
    rw [← heq, hr] at hf
    cases hf
  | _ => exact hm

/-- No run rewrites a released lease. -/
theorem released_stable {calls : List Call} (hrun : (system table).Run registry calls registry')
    (hreach : (system table).Reachable registry) {lease : BrowserTabLease} (hm : lease ∈ registry.leases)
    (hr : lease.state = .released) : lease ∈ registry'.leases :=
  hrun.stable (P := fun registry => lease ∈ registry.leases)
    (fun s call _ _ hin hstep => by cases hstep; exact (perform_effect table call s).released hin hr) hreach hm

/-! ## Uniqueness -/

/-- What identifies the browser tab of a lease. -/
def BrowserTabLease.targetKey (lease : BrowserTabLease) : String × String × String :=
  (lease.scope.managedBrowserProfile, lease.scope.service, lease.targetId)

/-- What identifies the work of a lease. -/
def BrowserTabLease.workloadKey (lease : BrowserTabLease) : String × String × String × TabLeaseWorkload :=
  (lease.scope.managedBrowserProfile, lease.scope.service, lease.scope.tenantKey, lease.workload)

/-- **Two distinct leases that are not released share neither a target nor a workload, and released leases stay.** -/
theorem tabLease_unique (table : CaseTable) {registry : Registry} (h : (system table).Reachable registry) :
    (∀ a ∈ registry.leases, ∀ b ∈ registry.leases, a ≠ b → a.state ≠ .released → b.state ≠ .released →
      a.targetKey ≠ b.targetKey ∧ a.workloadKey ≠ b.workloadKey) ∧
    ∀ calls registry', (system table).Run registry calls registry' →
      ∀ lease ∈ registry.leases, lease.state = .released → lease ∈ registry'.leases := by
  refine ⟨fun a ha b hb hne hfa hfb => ⟨fun he => hne ?_, fun he => hne ?_⟩,
    fun calls registry' hrun lease hm hr => released_stable hrun h hm hr⟩
  · simp only [BrowserTabLease.targetKey, Prod.mk.injEq] at he
    exact reachable_owned h a ha b hb (.target _ _ _) ⟨fenced_eq_true.2 hfa, rfl, rfl, rfl⟩
      ⟨fenced_eq_true.2 hfb, he.1.symm, he.2.1.symm, he.2.2.symm⟩
  · simp only [BrowserTabLease.workloadKey, Prod.mk.injEq] at he
    exact reachable_owned h a ha b hb (.workload _ _ _ _) ⟨fenced_eq_true.2 hfa, rfl, rfl, rfl, rfl⟩
      ⟨fenced_eq_true.2 hfb, he.1.symm, he.2.1.symm, he.2.2.1.symm, he.2.2.2.symm⟩

/-- In the sample account, which has two leases. -/
theorem samplePair_unique :
    samplePair.leases.values.map (·.leaseId) = ["lease-1", "lease-2"] ∧
    (∀ a ∈ samplePair.leases, ∀ b ∈ samplePair.leases, a ≠ b → a.state ≠ .released → b.state ≠ .released →
      a.targetKey ≠ b.targetKey ∧ a.workloadKey ≠ b.workloadKey) :=
  ⟨by decide, (tabLease_unique .lowered samplePair_reachable).1⟩

/-- **A process is bound to at most one lease of an account, and `findByProcess` finds that lease.** -/
theorem processBinding_unique (table : CaseTable) {registry : Registry} (h : (system table).Reachable registry) :
    (∀ (scope : TabLeaseScope) (processId : Int), ∀ a ∈ registry.leases, ∀ b ∈ registry.leases,
      a.state ≠ .released → b.state ≠ .released →
      sameOwnershipScope a.scope scope = true → sameOwnershipScope b.scope scope = true →
      a.processBinding.map (·.processId) = some processId → b.processBinding.map (·.processId) = some processId →
      a = b) ∧
    ∀ (options : RegistryOptions) (scope normalized : TabLeaseScope), normalizeScope table scope = .ok normalized →
      ∀ lease ∈ registry.leases, lease.state ≠ .released → sameOwnershipScope lease.scope normalized = true →
      ownsProcessBinding options lease = true → findByProcess options table scope registry = .ok (some lease) := by
  have huniq : ∀ (scope : TabLeaseScope) (processId : Int), ∀ a ∈ registry.leases, ∀ b ∈ registry.leases,
      a.state ≠ .released → b.state ≠ .released →
      sameOwnershipScope a.scope scope = true → sameOwnershipScope b.scope scope = true →
      a.processBinding.map (·.processId) = some processId → b.processBinding.map (·.processId) = some processId →
      a = b := by
    intro scope processId a ha b hb hfa hfb hsa hsb hpa hpb
    obtain ⟨a1, a2, a3⟩ := sameOwnershipScope_eq_true.1 hsa
    obtain ⟨b1, b2, b3⟩ := sameOwnershipScope_eq_true.1 hsb
    exact reachable_owned h a ha b hb (.process _ _ _ processId) ⟨fenced_eq_true.2 hfa, a1, a2, a3, hpa⟩
      ⟨fenced_eq_true.2 hfb, b1, b2, b3, hpb⟩
  refine ⟨huniq, fun options scope normalized hn lease hm hf hs howns => ?_⟩
  have hfind : findByProcess options table normalized registry = findByProcess options table scope registry := by
    simp only [findByProcess, hn, normalizeScope_idem hn]
  cases htab : findByProcess options table normalized registry with
  | error stop => simp [findByProcess, normalizeScope_idem hn, bind, Except.bind, pure, Except.pure] at htab
  | ok tab =>
    rw [← hfind, htab]
    rcases findByProcess_own (normalizeScope_idem hn) htab with hnone | ⟨own, rfl, hmo, hfo, hso, hoo⟩
    · have := hnone lease hm (fenced_eq_true.2 hf) hs
      rw [howns] at this
      cases this
    · rw [huniq normalized _ own hmo lease hm (fenced_eq_true.1 hfo) hf hso hs (ownsProcessBinding_eq_true.1 hoo)
        (ownsProcessBinding_eq_true.1 howns)]

/-- The second process of the sample account finds the second lease. -/
theorem samplePair_findByProcess :
    ∃ lease ∈ samplePair.leases, lease.leaseId = "lease-2" ∧
      findByProcess (sampleOptions 20 "lease-3") .lowered sampleScope samplePair = .ok (some lease) :=
  ⟨samplePair.leases.values.get ⟨1, by decide⟩, List.get_mem _ _, by decide,
    (processBinding_unique .lowered samplePair_reachable).2 _ sampleScope sampleScope rfl _ (List.get_mem _ _)
      (by decide) (by decide) (by decide)⟩

end AuraCall.TabLease
