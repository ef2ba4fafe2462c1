import AuraCall.TabLease.Lifecycle

/-!
# The specification of the lease operations

Each of the fourteen operations that rewrite a lease stores a successor of the lease it found (`rewrite_successor`), by
the move of its kind (`LeaseOperation.move`) and at the revision its caller presented (`LeaseOperation.presented`). A
reservation stores a new lease none of whose resources is held (`reservedLease_spec`).
-/

namespace AuraCall.TabLease

/-! ## The operations as data -/

inductive LeaseOperation
  | acquireProcess (input : AcquireProcessInput)
  | bindConversation (input : BindConversationInput)
  | heartbeat (input : HeartbeatInput)
  | recordMeaningfulUse (input : RecordMeaningfulUseInput)
  | recordTargetAction (input : RecordTargetActionInput)
  | idle (input : IdleInput)
  | acquire (input : AcquireInput)
  | beginRetirement (input : BeginRetirementInput)
  | finishRetirement (input : FinishRetirementInput)
  | markLost (input : MarkLostInput)
  | releaseLost (input : ReleaseLostInput)
  | reconcileEffect (input : ReconcileEffectInput)
  | abandonUnknownEffect (input : AbandonUnknownEffectInput)
  | releasePreserved (input : ReleasePreservedInput)

namespace LeaseOperation

/-- The record an operation stores. -/
def rewrite (table : CaseTable) (options : RegistryOptions) : LeaseOperation → Registry → Checked BrowserTabLease
  | .acquireProcess input => TabLease.acquireProcess table options input
  | .bindConversation input => TabLease.bindConversation input
  | .heartbeat input => TabLease.heartbeat input
  | .recordMeaningfulUse input => TabLease.recordMeaningfulUse input
  | .recordTargetAction input => TabLease.recordTargetAction input
  | .idle input => TabLease.idle input
  | .acquire input => TabLease.acquire table options input
  | .beginRetirement input => TabLease.beginRetirement input
  | .finishRetirement input => TabLease.finishRetirement input
  | .markLost input => TabLease.markLost input
  | .releaseLost input => TabLease.releaseLost input
  | .reconcileEffect input => TabLease.reconcileEffect table input
  | .abandonUnknownEffect input => TabLease.abandonUnknownEffect table input
  | .releasePreserved input => TabLease.releasePreserved input

/-- The kind of an operation. -/
def move : LeaseOperation → Move
  | .bindConversation _ | .heartbeat _ | .recordMeaningfulUse _ | .recordTargetAction _ => .use
  | .idle _ => .idle
  | .acquire _ | .acquireProcess _ => .acquire
  | .beginRetirement _ => .beginRetirement
  | .finishRetirement _ => .finishRetirement
  | .markLost _ => .lose
  | .reconcileEffect _ => .reconcile
  | .releaseLost _ | .abandonUnknownEffect _ | .releasePreserved _ => .release

/-- The lease and revision the caller presents: a claim, or an expected revision. `acquire` presents neither. -/
def presented : LeaseOperation → Option (String × Nat)
  | .bindConversation input => some (input.claim.leaseId, input.claim.revision)
  | .heartbeat input => some (input.claim.leaseId, input.claim.revision)
  | .recordMeaningfulUse input => some (input.claim.leaseId, input.claim.revision)
  | .recordTargetAction input => some (input.claim.leaseId, input.claim.revision)
  | .idle input => some (input.claim.leaseId, input.claim.revision)
  | .acquire _ => none
  | .acquireProcess input => some (input.leaseId, input.expectedRevision)
  | .beginRetirement input => some (input.leaseId, input.expectedRevision)
  | .finishRetirement input => some (input.leaseId, input.retirementRevision)
  | .markLost input => some (input.leaseId, input.expectedRevision)
  | .releaseLost input => some (input.leaseId, input.expectedRevision)
  | .reconcileEffect input => some (input.leaseId, input.expectedRevision)
  | .abandonUnknownEffect input => some (input.leaseId, input.expectedRevision)
  | .releasePreserved input => some (input.leaseId, input.expectedRevision)

end LeaseOperation

/-- The lease an operation found, and the record that follows it. -/
def Rewrites (registry : Registry) (move : Move) (presented : Option (String × Nat)) (new : BrowserTabLease) : Prop :=
  ∃ old, (∀ id revision, presented = some (id, revision) → old.leaseId = id ∧ old.revision = revision) ∧
    Successor registry move old new

/-! ## Operations that keep scope, workload and process binding -/

section Plain

variable {registry : Registry} {old new : BrowserTabLease} {id : String} {revision : Nat}

/-- A record that differs from the one found in none of the resources. -/
theorem rewrites_plain {move : Move} (hg : registry.leases.get? id = some old) (hr : old.revision = revision)
    (hid : new.leaseId = old.leaseId) (hrev : new.revision = old.revision + 1) (hs : new.scope = old.scope)
    (ht : new.targetId = old.targetId) (hx : new.exclusiveGroup = old.exclusiveGroup)
    (hw : new.workload = old.workload) (hb : new.processBinding = old.processBinding)
    (hl : Lifecycle move (old.state, old.effectState) (new.state, new.effectState)) (hm : move ≠ .acquire) :
    Rewrites registry move (some (id, revision)) new := by
  obtain ⟨hmem, rfl⟩ := KeyedMap.get?_eq_some.1 hg
  refine ⟨old, fun _ _ e => by cases e; exact ⟨rfl, hr⟩, ?_⟩
  exact {
    mem := hmem, leaseId := hid, revision := hrev, targetId := ht, exclusiveGroup := hx, lifecycle := hl
    scope := by rw [hs]; simp [sameOwnershipScope]
    workload := fun h => absurd hw h
    process := fun h => absurd hb h
    admission := fun h => absurd h hm }

theorem renewHeartbeat_spec {input : RecordMeaningfulUseInput} {meaningfulUse : Bool}
    (h : renewHeartbeat input meaningfulUse registry = .ok new) :
    Rewrites registry .use (some (input.claim.leaseId, input.claim.revision)) new := by
  simp only [renewHeartbeat, bind_eq_ok, claimedLease_eq_ok, refuseIf_eq_ok, pure_eq_ok, bne_eq_false_iff_eq] at h
  obtain ⟨old, ⟨hg, hr, _⟩, _, hs, _, _, _, _, _, _, _, _, _, _, _, _, _, _, _, _, rfl⟩ := h
  refine rewrites_plain hg hr rfl rfl rfl rfl rfl rfl rfl ?_ (by decide)
  dsimp only
  rw [hs]
  exact .use _ _

theorem heartbeat_spec {input : HeartbeatInput} (h : heartbeat input registry = .ok new) :
    Rewrites registry .use (some (input.claim.leaseId, input.claim.revision)) new := renewHeartbeat_spec h

theorem recordTargetAction_spec {input : RecordTargetActionInput} (h : recordTargetAction input registry = .ok new) :
    Rewrites registry .use (some (input.claim.leaseId, input.claim.revision)) new := by
  simp only [recordTargetAction, bind_eq_ok, claimedLease_eq_ok, refuseIf_eq_ok, pure_eq_ok,
    bne_eq_false_iff_eq] at h
  obtain ⟨old, ⟨hg, hr, _⟩, _, hs, _, _, _, _, _, _, _, _, _, _, rfl⟩ := h
  refine rewrites_plain hg hr rfl rfl rfl rfl rfl rfl rfl ?_ (by decide)
  dsimp only
  rw [hs]
  exact .use _ _

theorem idle_spec {input : IdleInput} (h : idle input registry = .ok new) :
    Rewrites registry .idle (some (input.claim.leaseId, input.claim.revision)) new := by
  simp only [idle, bind_eq_ok, claimedLease_eq_ok, refuseIf_eq_ok, pure_eq_ok, bne_eq_false_iff_eq] at h
  obtain ⟨old, ⟨hg, hr, _⟩, _, hs, _, _, _, _, rfl⟩ := h
  refine rewrites_plain hg hr rfl rfl rfl rfl rfl rfl rfl ?_ (by decide)
  dsimp only
  rw [hs]
  exact .idle _ input.notInFlight

theorem beginRetirement_spec {input : BeginRetirementInput} (h : beginRetirement input registry = .ok new) :
    Rewrites registry .beginRetirement (some (input.leaseId, input.expectedRevision)) new := by
  simp only [beginRetirement, bind_eq_ok, fencedLease_eq_ok, refuseIf_eq_ok, pure_eq_ok, Bool.or_eq_false_iff,
    bne_eq_false_iff_eq, beq_eq_false_iff_ne] at h
  obtain ⟨old, ⟨hg, hr⟩, _, _, _, _, _, ⟨⟨⟨hs, _⟩, he⟩, _⟩, _, _, rfl⟩ := h
  refine rewrites_plain hg hr rfl rfl rfl rfl rfl rfl rfl ?_ (by decide)
  dsimp only
  rw [hs]
  exact .beginRetirement he

theorem finishRetirement_spec {input : FinishRetirementInput} (h : finishRetirement input registry = .ok new) :
    Rewrites registry .finishRetirement (some (input.leaseId, input.retirementRevision)) new := by
  simp only [finishRetirement, bind_eq_ok, fencedLease_eq_ok, refuseIf_eq_ok, pure_eq_ok, bne_eq_false_iff_eq] at h
  obtain ⟨old, ⟨hg, hr⟩, _, hs, _, _, _, _, rfl⟩ := h
  refine rewrites_plain hg hr rfl rfl rfl rfl rfl rfl rfl ?_ (by decide)
  dsimp only
  rw [hs]
  refine .finishRetirement _ ?_
  split
  · exact Or.inl rfl
  · exact Or.inr rfl

theorem markLost_spec {input : MarkLostInput} (h : markLost input registry = .ok new) :
    Rewrites registry .lose (some (input.leaseId, input.expectedRevision)) new := by
  simp only [markLost, bind_eq_ok, fencedLease_eq_ok, refuseIf_eq_ok, pure_eq_ok, Bool.or_eq_false_iff,
    beq_eq_false_iff_ne] at h
  obtain ⟨old, ⟨hg, hr⟩, _, ⟨hrel, hlost⟩, _, _, _, _, rfl⟩ := h
  exact rewrites_plain hg hr rfl rfl rfl rfl rfl rfl rfl (.lose _ hrel hlost) (by decide)

theorem releaseLost_spec {input : ReleaseLostInput} (h : releaseLost input registry = .ok new) :
    Rewrites registry .release (some (input.leaseId, input.expectedRevision)) new := by
  simp only [releaseLost, bind_eq_ok, fencedLease_eq_ok, refuseIf_eq_ok, pure_eq_ok, bne_eq_false_iff_eq] at h
  obtain ⟨old, ⟨hg, hr⟩, _, hs, _, _, _, _, rfl⟩ := h
  exact rewrites_plain hg hr rfl rfl rfl rfl rfl rfl rfl (.release _ (Or.inr hs)) (by decide)

theorem ownerFree_state (h : ownerFree old = true) : old.state = .idle ∨ old.state = .lost := by
  simp only [ownerFree, Bool.and_eq_true, Bool.or_eq_true, beq_iff_eq] at h
  exact h.1.1.1

theorem reconcileEffect_spec {table : CaseTable} {input : ReconcileEffectInput}
    (h : reconcileEffect table input registry = .ok new) :
    Rewrites registry .reconcile (some (input.leaseId, input.expectedRevision)) new := by
  simp only [reconcileEffect, bind_eq_ok, fencedLease_eq_ok, refuseIf_eq_ok, pure_eq_ok, Bool.or_eq_false_iff,
    Bool.not_eq_false', bne_eq_false_iff_eq] at h
  obtain ⟨_, _, _, _, _, _, _, _, old, ⟨hg, hr⟩, _, _, _, ⟨⟨_, hf⟩, he⟩, rfl⟩ := h
  refine rewrites_plain hg hr rfl rfl rfl rfl rfl rfl rfl ?_ (by decide)
  dsimp only
  rw [he]
  exact .reconcile (ownerFree_state hf)

theorem abandonUnknownEffect_spec {table : CaseTable} {input : AbandonUnknownEffectInput}
    (h : abandonUnknownEffect table input registry = .ok new) :
    Rewrites registry .release (some (input.leaseId, input.expectedRevision)) new := by
  simp only [abandonUnknownEffect, bind_eq_ok, fencedLease_eq_ok, refuseIf_eq_ok, pure_eq_ok, Bool.or_eq_false_iff,
    Bool.not_eq_false', bne_eq_false_iff_eq] at h
  obtain ⟨_, _, _, _, _, _, old, ⟨hg, hr⟩, _, _, _, ⟨⟨⟨⟨_, hf⟩, _⟩, _⟩, _⟩, _, _, _, _, _, _, rfl⟩ := h
  exact rewrites_plain hg hr rfl rfl rfl rfl rfl rfl rfl (.release _ (ownerFree_state hf)) (by decide)

theorem releasePreserved_spec {input : ReleasePreservedInput} (h : releasePreserved input registry = .ok new) :
    Rewrites registry .release (some (input.leaseId, input.expectedRevision)) new := by
  simp only [releasePreserved, bind_eq_ok, fencedLease_eq_ok, refuseIf_eq_ok, pure_eq_ok, Bool.or_eq_false_iff,
    Bool.not_eq_false'] at h
  obtain ⟨old, ⟨hg, hr⟩, _, ⟨⟨hf, _⟩, _⟩, _, _, _, _, rfl⟩ := h
  exact rewrites_plain hg hr rfl rfl rfl rfl rfl rfl rfl (.release _ (ownerFree_state hf)) (by decide)

end Plain

/-! ## Operations that take a workload or a process -/

section Taking

variable {registry : Registry} {old new : BrowserTabLease}

/-- A scan for another fenced lease of the account with the workload found none. -/
theorem free_workload {scope : TabLeaseScope} {workload : TabLeaseWorkload} {leaseId p s t : String}
    (hn : Names new (.workload p s t new.workload)) (hs : sameOwnershipScope new.scope scope = true)
    (hf : registry.leases.values.find? (fun other => other.leaseId != leaseId && fenced other.state &&
      sameOwnershipScope other.scope scope && sameWorkload other.workload workload) = none) :
    Free registry leaseId (.workload p s t workload) := by
  rintro other hm hid ⟨hfen, h1, h2, h3, h4⟩
  obtain ⟨e1, e2, e3⟩ := sameOwnershipScope_eq_true.1 hs
  have hno := List.find?_eq_none.1 hf other hm
  simp only [Bool.and_eq_true, bne_iff_ne, sameWorkload_eq_true, sameOwnershipScope_eq_true] at hno
  exact hno ⟨⟨⟨hid, hfen⟩, h1.trans (hn.1.symm.trans e1), h2.trans (hn.2.1.symm.trans e2),
    h3.trans (hn.2.2.1.symm.trans e3)⟩, h4⟩

/-- `findByProcess` finds a tab of the caller as soon as there is one. -/
theorem findByProcess_own {table : CaseTable} {options : RegistryOptions} {scope : TabLeaseScope}
    {tab : Option BrowserTabLease} (hn : normalizeScope table scope = .ok scope)
    (h : findByProcess options table scope registry = .ok tab) :
    (∀ other ∈ registry.leases, fenced other.state = true → sameOwnershipScope other.scope scope = true →
      ownsProcessBinding options other = false) ∨
    ∃ own, tab = some own ∧ own ∈ registry.leases ∧ fenced own.state = true ∧
      sameOwnershipScope own.scope scope = true ∧ ownsProcessBinding options own = true := by
  simp only [findByProcess, bind_eq_ok, hn, pure_eq_ok, Except.ok.injEq, exists_eq_left'] at h
  subst h
  cases hf : (registry.leases.values.filter fun candidate => fenced candidate.state &&
      sameOwnershipScope candidate.scope scope).find? (ownsProcessBinding options) with
  | none =>
    refine Or.inl fun other hm hfen hs => ?_
    have hno := List.find?_eq_none.1 hf other (List.mem_filter.2 ⟨hm, by simp [hfen, hs]⟩)
    simpa using hno
  | some own =>
    have hm := List.mem_filter.1 (List.mem_of_find?_eq_some hf)
    simp only [Bool.and_eq_true] at hm
    exact Or.inr ⟨own, by simp, hm.1, hm.2.1, hm.2.2, List.find?_some hf⟩

/-- The caller's process is taken only by a lease that has it, or when no other lease of the account has it. -/
theorem holds_process {table : CaseTable} {options : RegistryOptions} {scope : TabLeaseScope}
    {tab : Option BrowserTabLease} {p s t : String} {i : Int} (hx : Names new (.process p s t i))
    (hb : new.processBinding = some options.ownerIdentity) (hsn : sameOwnershipScope new.scope old.scope = true)
    (hn : normalizeScope table scope = .ok scope) (h : findByProcess options table scope registry = .ok tab)
    (hno : ∀ own, tab = some own → ownsProcessBinding options own = true → own.leaseId = old.leaseId)
    (hold : old ∈ registry.leases) (hs : sameOwnershipScope old.scope scope = true) :
    Holds old (.process p s t i) ∨ Free registry old.leaseId (.process p s t i) := by
  obtain ⟨e1, e2, e3⟩ := sameOwnershipScope_eq_true.1 hs
  obtain ⟨n1, n2, n3⟩ := sameOwnershipScope_eq_true.1 hsn
  obtain ⟨h1, h2, h3, h4⟩ := hx
  have hi : options.ownerIdentity.processId = i := by simpa [hb] using h4
  rcases findByProcess_own hn h with hnone | ⟨own, rfl, hm, hfen, _, howns⟩
  · refine Or.inr fun other hmem _ hholds => ?_
    obtain ⟨hfo, o1, o2, o3, o4⟩ := hholds
    have hsame : sameOwnershipScope other.scope scope = true :=
      sameOwnershipScope_eq_true.2 ⟨o1.trans (h1.symm.trans (n1.trans e1)), o2.trans (h2.symm.trans (n2.trans e2)),
        o3.trans (h3.symm.trans (n3.trans e3))⟩
    have hfalse := hnone other hmem hfo hsame
    rw [ownsProcessBinding_eq_true.2 (by rw [o4, hi])] at hfalse
    cases hfalse
  · have heq : own = old := KeyedMap.eq_of_key hm hold (hno own rfl howns)
    subst heq
    exact Or.inl ⟨hfen, n1 ▸ h1, n2 ▸ h2, n3 ▸ h3, by rw [ownsProcessBinding_eq_true.1 howns, hi]⟩

/-- The scan for a lease that blocks the exclusive group found none. -/
theorem admits_group {scope : TabLeaseScope} (h : exclusiveGroupConflict old scope registry = none) :
    ∀ other ∈ registry.leases, other.leaseId ≠ old.leaseId →
      blocksExclusiveGroupAdmission other scope old.exclusiveGroup = false := by
  intro other hm hid
  have hno := List.find?_eq_none.1 h other hm
  simpa [hid] using hno

/-- The group test reads only the account of the scope. -/
theorem blocks_congr {other : BrowserTabLease} {a b : TabLeaseScope} {g : Option String}
    (h : sameOwnershipScope a b = true) :
    blocksExclusiveGroupAdmission other a g = blocksExclusiveGroupAdmission other b g := by
  obtain ⟨h1, h2, h3⟩ := sameOwnershipScope_eq_true.1 h
  simp only [blocksExclusiveGroupAdmission, sameOwnershipScope, h1, h2, h3]

theorem sameOwnershipScope_refl (scope : TabLeaseScope) : sameOwnershipScope scope scope = true := by
  simp [sameOwnershipScope]

theorem sameOwnershipScope_symm {a b : TabLeaseScope} (h : sameOwnershipScope a b = true) :
    sameOwnershipScope b a = true := by
  obtain ⟨h1, h2, h3⟩ := sameOwnershipScope_eq_true.1 h
  exact sameOwnershipScope_eq_true.2 ⟨h1.symm, h2.symm, h3.symm⟩

theorem bindConversation_spec {input : BindConversationInput} (h : bindConversation input registry = .ok new) :
    Rewrites registry .use (some (input.claim.leaseId, input.claim.revision)) new := by
  simp only [bindConversation, bind_eq_ok, claimedLease_eq_ok, refuseIf_eq_ok, refuseFound_eq_ok, pure_eq_ok,
    Bool.or_eq_false_iff, bne_eq_false_iff_eq] at h
  obtain ⟨old, ⟨hg, hr, _⟩, _, ⟨hs, _⟩, _, _, _, _, _, _, _, hfind, _, _, rfl⟩ := h
  obtain ⟨hmem, hid⟩ := KeyedMap.get?_eq_some.1 hg
  refine ⟨old, fun _ _ e => by cases e; exact ⟨hid, hr⟩, ?_⟩
  exact {
    mem := hmem, leaseId := rfl, revision := rfl, scope := sameOwnershipScope_refl _, targetId := rfl
    exclusiveGroup := rfl
    lifecycle := by dsimp only; rw [hs]; exact .use _ _
    workload := fun _ p s t hn => free_workload hn (sameOwnershipScope_refl _) hfind
    process := fun hb => absurd rfl hb
    admission := fun hm => absurd hm (by decide) }

theorem acquireProcess_spec {table : CaseTable} {options : RegistryOptions} {input : AcquireProcessInput}
    (h : acquireProcess table options input registry = .ok new) :
    Rewrites registry .acquire (some (input.leaseId, input.expectedRevision)) new := by
  simp only [acquireProcess, bind_eq_ok, fencedLease_eq_ok, refuseIf_eq_ok, refuseFound_eq_ok, pure_eq_ok,
    Bool.or_eq_false_iff, Bool.not_eq_false', bne_eq_false_iff_eq] at h
  obtain ⟨old, ⟨hg, hr⟩, scope, hscope, workload, _, tab, htab, _, hown, _, _, _, _, _, _, _, _, _,
    ⟨⟨⟨⟨hsame, _⟩, hs⟩, he⟩, _⟩, _, hfind, _, hgroup, _, _, _, _, _, _, rfl⟩ := h
  obtain ⟨hmem, hid⟩ := KeyedMap.get?_eq_some.1 hg
  have heff : old.effectState ≠ .outcomeUnknown := by
    intro e; rw [e] at he; exact absurd he (by decide)
  refine ⟨old, fun _ _ e => by cases e; exact ⟨hid, hr⟩, ?_⟩
  exact {
    mem := hmem, leaseId := rfl, revision := rfl, scope := sameOwnershipScope_refl _, targetId := rfl
    exclusiveGroup := rfl
    lifecycle := by dsimp only; rw [hs]; exact .acquire heff
    workload := fun _ p s t hn => free_workload hn hsame hfind
    process := fun _ p s t i hn =>
      holds_process hn rfl (sameOwnershipScope_refl _) (normalizeScope_idem hscope) htab
        (fun own e howns => by
          subst e
          by_contra hne
          simp [Option.filter, hne, howns] at hown)
        hmem hsame
    admission := fun _ other hm hne => by
      rw [blocks_congr hsame]; exact admits_group hgroup other hm hne }

/-- A process-bound acquisition found no other tab of the process. -/
theorem acquireProcessBound_eq_ok {table : CaseTable} {options : RegistryOptions} {scope : TabLeaseScope} {u : Unit}
    (h : acquireProcessBound table options true old scope registry = .ok u) :
    ∃ tab, findByProcess options table scope registry = .ok tab ∧
      ∀ own, tab = some own → own.leaseId = old.leaseId := by
  simp only [acquireProcessBound, ↓reduceIte, bind_eq_ok, refuseFound_eq_ok] at h
  obtain ⟨_, _, tab, htab, hno⟩ := h
  refine ⟨tab, htab, fun own e => ?_⟩
  subst e
  by_contra hne
  simp [Option.filter, hne] at hno

theorem acquire_spec {table : CaseTable} {options : RegistryOptions} {input : AcquireInput}
    (h : acquire table options input registry = .ok new) : Rewrites registry .acquire none new := by
  simp only [acquire, bind_eq_ok, orRefuse_eq_ok, refuseIf_eq_ok, refuseFound_eq_ok, pure_eq_ok,
    Bool.or_eq_false_iff, bne_eq_false_iff_eq, beq_eq_false_iff_ne] at h
  obtain ⟨scope, hscope, _, _, _, _, _, _, old, hfind, _, _, _, ⟨hs, he⟩, _, _, _, _, _, hgroup, _, hbound, _, _,
    rfl⟩ := h
  have hmem : old ∈ registry.leases := List.mem_of_find?_eq_some hfind
  have hp := List.find?_some hfind
  simp only [Bool.and_eq_true] at hp
  have hsame : sameOwnershipScope old.scope scope = true := hp.1.2
  refine ⟨old, by rintro _ _ ⟨⟩, ?_⟩
  exact {
    mem := hmem, leaseId := rfl, revision := rfl, scope := sameOwnershipScope_symm hsame, targetId := rfl
    exclusiveGroup := rfl
    lifecycle := by dsimp only; rw [hs]; exact .acquire he
    workload := fun hw => absurd rfl hw
    process := fun hb p s t i hn => by
      cases hpb : input.processBound with
      | false => simp [hpb] at hb
      | true =>
        rw [hpb] at hbound
        obtain ⟨tab, htab, hown⟩ := acquireProcessBound_eq_ok hbound
        exact holds_process hn (by simp [hpb]) (sameOwnershipScope_symm hsame) (normalizeScope_idem hscope) htab
          (fun own e _ => hown own e) hmem hsame
    admission := fun _ => admits_group hgroup }

end Taking

/-- **The specification of the lease operations.** -/
theorem rewrite_successor {table : CaseTable} {options : RegistryOptions} {operation : LeaseOperation}
    {registry : Registry} {new : BrowserTabLease} (h : operation.rewrite table options registry = .ok new) :
    Rewrites registry operation.move operation.presented new := by
  cases operation with
  | acquireProcess input => exact acquireProcess_spec h
  | bindConversation input => exact bindConversation_spec h
  | heartbeat input => exact heartbeat_spec h
  | recordMeaningfulUse input => exact renewHeartbeat_spec h
  | recordTargetAction input => exact recordTargetAction_spec h
  | idle input => exact idle_spec h
  | acquire input => exact acquire_spec h
  | beginRetirement input => exact beginRetirement_spec h
  | finishRetirement input => exact finishRetirement_spec h
  | markLost input => exact markLost_spec h
  | releaseLost input => exact releaseLost_spec h
  | reconcileEffect input => exact reconcileEffect_spec h
  | abandonUnknownEffect input => exact abandonUnknownEffect_spec h
  | releasePreserved input => exact releasePreserved_spec h

/-! ## Reservations -/

/-- What a reservation stores: a fresh active lease none of whose resources is held, which no active control and no
lease of its group blocks. -/
structure Reserved (registry : Registry) (new : BrowserTabLease) : Prop where
  fresh : ∀ other ∈ registry.leases, other.leaseId ≠ new.leaseId
  revision : new.revision = 1
  state : new.state = .active
  effectState : new.effectState = .none
  exclusiveGroup : new.exclusiveGroup ≠ some ""
  free : ∀ x, Names new x → Free registry new.leaseId x
  admission : ∀ other ∈ registry.leases, blocksExclusiveGroupAdmission other new.scope new.exclusiveGroup = false
  uncontrolled : ∀ control ∈ registry.controls, control.state = .active →
    sameControlScope control.scope new.scope.control = false

/-- A fenced lease without conflict shares no resource with the request and does not block its group. -/
theorem reserveConflict_eq_none {options : RegistryOptions} {normalized : NormalizedReserveInput}
    {existing : BrowserTabLease} (h : reserveConflict options normalized existing = none) :
    fenced existing.state = false ∨
      (blocksExclusiveGroupAdmission existing normalized.scope normalized.exclusiveGroup = false ∧
      (normalized.processBound && sameOwnershipScope existing.scope normalized.scope &&
        ownsProcessBinding options existing) = false ∧
      (sameTargetDomain existing.scope normalized.scope && existing.targetId == normalized.targetId) = false ∧
      (sameOwnershipScope existing.scope normalized.scope &&
        sameWorkload existing.workload normalized.workload) = false) := by
  unfold reserveConflict at h
  cases hf : fenced existing.state
  · exact Or.inl rfl
  · refine Or.inr ?_
    simp only [hf, Bool.not_true, Bool.false_eq_true, ↓reduceIte] at h
    split at h
    · cases h
    split at h
    · cases h
    split at h
    · cases h
    split at h
    · cases h
    rename_i h1 h2 h3 h4
    exact ⟨Bool.eq_false_iff.2 h1, Bool.eq_false_iff.2 h2, Bool.eq_false_iff.2 h3, Bool.eq_false_iff.2 h4⟩

/-- A normalized request names no group or one that is not empty. -/
theorem normalizeReserveInput_group {table : CaseTable} {input : ReserveTabLeaseInput}
    {normalized : NormalizedReserveInput} (h : normalizeReserveInput table input = .ok normalized) :
    normalized.exclusiveGroup ≠ some "" := by
  simp only [normalizeReserveInput, bind_eq_ok, pure_eq_ok] at h
  obtain ⟨_, _, _, _, _, _, _, _, _, _, _, _, _, _, _, _, _, _, group, hgroup, rfl⟩ := h
  dsimp only
  cases hg : input.exclusiveGroup with
  | none =>
    simp only [hg, normalizeExclusiveGroup, pure_eq_ok] at hgroup
    simp [← hgroup]
  | some name =>
    simp only [hg, normalizeExclusiveGroup, bind_eq_ok, requireNonEmpty_eq_ok, pure_eq_ok] at hgroup
    obtain ⟨_, ⟨hne, rfl⟩, rfl⟩ := hgroup
    simpa using hne

theorem reservedLease_spec {options : RegistryOptions} {normalized : NormalizedReserveInput} {registry : Registry}
    {new : BrowserTabLease} (hgroup : normalized.exclusiveGroup ≠ some "")
    (h : reservedLease options normalized registry = .ok new) : Reserved registry new := by
  simp only [reservedLease, bind_eq_ok, refuseFound_eq_ok, throwIf_eq_ok, pure_eq_ok, Option.isSome_eq_false_iff,
    Option.isNone_iff_eq_none] at h
  obtain ⟨_, hcontrol, _, hscan, leaseId, _, _, hid, _, _, _, _, rfl⟩ := h
  have hno := fun other hm => reserveConflict_eq_none (List.findSome?_eq_none_iff.1 hscan other hm)
  exact {
    fresh := KeyedMap.get?_eq_none.1 hid
    revision := rfl, state := rfl, effectState := rfl, exclusiveGroup := hgroup
    free := by
      rintro x hx other hm _ ⟨hf, ho⟩
      rcases hno other hm with hf' | ⟨_, hproc, htarget, hwork⟩
      · rw [hf] at hf'; cases hf'
      cases x with
      | target p s t =>
        obtain ⟨rfl, rfl, rfl⟩ := hx
        obtain ⟨h1, h2, h3⟩ := ho
        simp [sameTargetDomain, h1, h2, h3] at htarget
      | workload p s t w =>
        obtain ⟨rfl, rfl, rfl, rfl⟩ := hx
        obtain ⟨h1, h2, h3, h4⟩ := ho
        have hw : sameWorkload other.workload normalized.workload = true := sameWorkload_eq_true.2 h4
        simp [sameOwnershipScope, h1, h2, h3, hw] at hwork
      | process p s t i =>
        obtain ⟨rfl, rfl, rfl, hb⟩ := hx
        obtain ⟨h1, h2, h3, h4⟩ := ho
        cases hpb : normalized.processBound with
        | false => simp [hpb] at hb
        | true =>
          have hi : options.ownerIdentity.processId = i := by simpa [hpb] using hb
          have howns : ownsProcessBinding options other = true := ownsProcessBinding_eq_true.2 (by rw [h4, hi])
          simp [sameOwnershipScope, h1, h2, h3, hpb, howns] at hproc
    admission := fun other hm => by
      rcases hno other hm with hf | ⟨hg, _⟩
      · simp [blocksExclusiveGroupAdmission, hf]
      · exact hg
    uncontrolled := fun control hm hactive => by
      have hn := List.find?_eq_none.1 hcontrol control hm
      simpa [hactive] using hn }

end AuraCall.TabLease
