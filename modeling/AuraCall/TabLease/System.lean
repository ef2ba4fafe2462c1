import AuraCall.Lib.Transition
import AuraCall.TabLease.Specification

/-!
# Runs of the tab-lease registry

A `Call` is an operation with what it sees of its caller; `perform` runs it on the registry, and `system` is the
transition system of all calls, by any callers, with any arguments and clocks, from the empty registry.

`StepEffect` lists what a call can do, `perform_effect` proves that it does nothing else. The invariants of the registry
are proved from it.
-/

namespace AuraCall.TabLease

/-! ## Calls -/

inductive Operation
  | acquireProfileControl (input : AcquireProfileControlInput)
  | releaseProfileControl (input : ReleaseProfileControlInput)
  | reserve (input : ReserveTabLeaseInput)
  | lease (operation : LeaseOperation)

structure Call where
  options : RegistryOptions
  operation : Operation

/-- What a call returns. -/
inductive Reply
  | lease (lease : BrowserTabLease)
  | granted (lease : BrowserTabLease) (claim : TabLeaseClaim)
  | retiring (lease : BrowserTabLease) (retirementRevision : Nat)
  | control (result : BrowserProfileControlAcquireResult)
  | controlReleased (released : Bool)

/-- The claim on a stored lease: its revision, under its owner. -/
def claimOf (lease : BrowserTabLease) : TabLeaseClaim :=
  ⟨lease.leaseId, lease.revision, lease.ownerOperationId.getD ""⟩

/-- The operations on an owned lease return it with a claim, `beginRetirement` with its revision. -/
def LeaseOperation.reply (lease : BrowserTabLease) : LeaseOperation → Reply
  | .acquireProcess _ | .bindConversation _ | .heartbeat _ | .recordMeaningfulUse _ | .recordTargetAction _
  | .acquire _ => .granted lease (claimOf lease)
  | .beginRetirement _ => .retiring lease lease.revision
  | .idle _ | .finishRetirement _ | .markLost _ | .releaseLost _ | .reconcileEffect _ | .abandonUnknownEffect _
  | .releasePreserved _ => .lease lease

/-- Run a call: its outcome, and the registry it leaves. -/
def perform (table : CaseTable) (call : Call) (registry : Registry) : Checked Reply × Registry :=
  match call.operation with
  | .acquireProfileControl input =>
    let out := acquireProfileControl table call.options input registry
    (out.1.map .control, out.2)
  | .releaseProfileControl input =>
    let out := releaseProfileControl input registry
    (out.1.map .controlReleased, out.2)
  | .reserve input =>
    let out := reserve table call.options input registry
    (out.1.map fun lease => .granted lease (claimOf lease), out.2)
  | .lease operation =>
    let result := operation.rewrite table call.options registry
    (result.map fun lease => operation.reply lease, storeLease registry result)

/-- All runs of the registry. -/
def system (table : CaseTable) : TransitionSystem Registry Call :=
  .ofNext (· = .empty) fun registry call => some (perform table call registry).2

/-! ## What a call can do -/

/-- What an acquired control is: fresh and active, with no active control and no fenced lease beside it. -/
structure ControlAcquired (registry : Registry) (control : BrowserProfileControlRecord) : Prop where
  state : control.state = .active
  alone : ∀ other ∈ registry.controls, other.state = .active → sameControlScope other.scope control.scope = false
  unleased : ∀ lease ∈ registry.leases, fenced lease.state = true →
    sameControlScope lease.scope.control control.scope = false

/-- What a released control is: released. -/
structure ControlReleased (registry : Registry) (control : BrowserProfileControlRecord) : Prop where
  known : ∃ old ∈ registry.controls, old.controlId = control.controlId ∧ old.state = .active
  state : control.state = .released

inductive StepEffect (registry : Registry) : Operation → Checked Reply → Registry → Prop
  | refused (operation : Operation) (stop : Stop TabLeaseConflict) :
      StepEffect registry operation (.error stop) registry
  | reserveRefused (input : ReserveTabLeaseInput) (stop : Stop TabLeaseConflict) (nowMs : Int) :
      StepEffect registry (.reserve input) (.error stop) (pruneExpiredControls nowMs registry)
  | reserved {input : ReserveTabLeaseInput} {nowMs : Int} {new : BrowserTabLease} :
      Reserved (pruneExpiredControls nowMs registry) new →
      StepEffect registry (.reserve input) (.ok (.granted new (claimOf new)))
        (storeLease (pruneExpiredControls nowMs registry) (.ok new))
  | controlRefused (input : AcquireProfileControlInput) (outcome : Checked Reply) (nowMs : Int) :
      StepEffect registry (.acquireProfileControl input) outcome (pruneExpiredControls nowMs registry)
  | controlAcquired {input : AcquireProfileControlInput} {nowMs : Int} {control : BrowserProfileControlRecord} :
      ControlAcquired (pruneExpiredControls nowMs registry) control →
      StepEffect registry (.acquireProfileControl input) (.ok (.control (.acquired control)))
        (storeControl (pruneExpiredControls nowMs registry) (.ok (.acquired control)))
  | controlKept (input : ReleaseProfileControlInput) :
      StepEffect registry (.releaseProfileControl input) (.ok (.controlReleased false)) registry
  | controlReleased {input : ReleaseProfileControlInput} {control : BrowserProfileControlRecord} :
      ControlReleased registry control →
      StepEffect registry (.releaseProfileControl input) (.ok (.controlReleased true))
        { registry with controls := registry.controls.set control }
  | rewritten {operation : LeaseOperation} {new : BrowserTabLease} :
      Rewrites registry operation.move operation.presented new →
      StepEffect registry (.lease operation) (.ok (operation.reply new)) (storeLease registry (.ok new))

theorem blockingTargetIds_eq_nil {scope : BrowserProfileControlScope} {registry : Registry}
    (h : blockingTargetIds scope registry = []) : ∀ lease ∈ registry.leases, fenced lease.state = true →
      sameControlScope lease.scope.control scope = false := by
  intro lease hm hf
  have hl := congrArg List.length h
  simp only [blockingTargetIds, sortStrings, List.length_mergeSort, List.length_map, List.length_nil,
    List.length_eq_zero_iff, List.filter_eq_nil_iff] at hl
  simpa [hf] using hl lease hm

theorem acquirePrunedProfileControl_acquired {options : RegistryOptions} {scope : BrowserProfileControlScope}
    {nowMs : Int} {input : AcquireProfileControlInput} {registry : Registry} {control : BrowserProfileControlRecord}
    (h : acquirePrunedProfileControl options scope nowMs input registry = .ok (.acquired control)) :
    ControlAcquired registry control := by
  unfold acquirePrunedProfileControl at h
  cases hb : blockingControl scope registry with
  | some other => rw [hb] at h; simp [pure, Except.pure] at h
  | none =>
    by_cases ht : blockingTargetIds scope registry = []
    · simp only [hb, ht, ne_eq, not_true_eq_false, ↓reduceIte, bind_eq_ok, pure_eq_ok,
        BrowserProfileControlAcquireResult.acquired.injEq] at h
      obtain ⟨_, _, _, _, _, _, _, _, _, _, _, _, rfl⟩ := h
      exact {
        state := rfl
        alone := fun other hm hactive => by
          have hn := List.find?_eq_none.1 hb other hm
          simpa [hactive] using hn
        unleased := blockingTargetIds_eq_nil ht }
    · simp [hb, ht, pure, Except.pure] at h

theorem releasedControl_some {input : ReleaseProfileControlInput} {registry : Registry}
    {control : BrowserProfileControlRecord} (h : releasedControl input registry = .ok (some control)) :
    ControlReleased registry control := by
  unfold releasedControl at h
  split at h
  · simp [pure, Except.pure] at h
  · rename_i old hold
    split at h
    · simp [pure, Except.pure] at h
    · rename_i hc
      simp only [Bool.or_eq_true, bne_iff_ne, not_or, ne_eq, not_not] at hc
      simp only [bind_eq_ok, pure_eq_ok, Option.some.injEq] at h
      obtain ⟨_, _, _, _, rfl⟩ := h
      exact ⟨⟨old, (KeyedMap.get?_eq_some.1 hold).1, rfl, hc.1.1⟩, rfl⟩

/-- **A call does what `StepEffect` lists.** -/
theorem perform_effect (table : CaseTable) (call : Call) (registry : Registry) :
    StepEffect registry call.operation (perform table call registry).1 (perform table call registry).2 := by
  obtain ⟨options, operation⟩ := call
  cases operation with
  | acquireProfileControl input =>
    simp only [perform, acquireProfileControl]
    cases normalizeControlScope table input.scope with
    | error stop => exact .refused _ stop
    | ok scope =>
      cases (parseTimestamp input.now "now" : Checked Int) with
      | error stop => exact .refused _ stop
      | ok nowMs =>
        dsimp only
        cases hr : acquirePrunedProfileControl options scope nowMs input (pruneExpiredControls nowMs registry) with
        | error stop => exact .controlRefused _ _ nowMs
        | ok result =>
          cases result with
          | acquired control => exact .controlAcquired (acquirePrunedProfileControl_acquired hr)
          | profileControlActive _ => exact .controlRefused _ _ nowMs
          | tabLeasesActive _ => exact .controlRefused _ _ nowMs
  | releaseProfileControl input =>
    simp only [perform, releaseProfileControl]
    cases hr : releasedControl input registry with
    | error stop => exact .refused _ stop
    | ok result =>
      cases result with
      | none => exact .controlKept input
      | some control => exact .controlReleased (releasedControl_some hr)
  | reserve input =>
    simp only [perform, reserve]
    cases hn : normalizeReserveInput table input with
    | error stop => exact .refused _ stop
    | ok normalized =>
      dsimp only
      cases hr : reservedLease options normalized (pruneExpiredControls normalized.nowMs registry) with
      | error stop => exact .reserveRefused input stop _
      | ok new => exact .reserved (reservedLease_spec (normalizeReserveInput_group hn) hr)
  | lease operation =>
    simp only [perform]
    cases hr : operation.rewrite table options registry with
    | error stop => exact .refused _ stop
    | ok new => exact .rewritten (rewrite_successor hr)

/-- The induction rule of the registry: what holds of the empty registry and is kept by every effect of a call. -/
theorem reachable_invariant {table : CaseTable} {I : Registry → Prop} (h0 : I .empty)
    (hs : ∀ registry operation outcome registry', I registry → StepEffect registry operation outcome registry' →
      I registry') {registry : Registry} (h : (system table).Reachable registry) : I registry :=
  h.invariant (fun _ e => e ▸ h0) fun s call s' _ hi hstep => by
    cases hstep
    exact hs _ _ _ _ hi (perform_effect table call s)

/-! ## Lists of calls -/

/-- Run calls one after the other. -/
def runCalls (table : CaseTable) (calls : List Call) (registry : Registry) : Registry :=
  calls.foldl (fun registry call => (perform table call registry).2) registry

theorem runCalls_run (table : CaseTable) (calls : List Call) (registry : Registry) :
    (system table).Run registry calls (runCalls table calls registry) := TransitionSystem.run_foldl calls registry

theorem runCalls_reachable (table : CaseTable) (calls : List Call) :
    (system table).Reachable (runCalls table calls .empty) :=
  (runCalls_run table calls .empty).reachable (.init rfl)

/-! ## A sample account -/

section Sample

def sampleScope : TabLeaseScope := ⟨"default", "work", "chatgpt", "tenant"⟩

/-- A caller with a process identifier and the next lease identifier; it finds every process alive. -/
def sampleOptions (processId : Int) (leaseId : String) : RegistryOptions :=
  ⟨leaseId, "control-1", ⟨processId, "instance"⟩, fun _ => true⟩

/-- A process-bound reservation of a target for a conversation, with a group. -/
def sampleReserve (processId : Int) (leaseId targetId conversationId : String) (exclusiveGroup : Option String) :
    Call :=
  ⟨sampleOptions processId leaseId, .reserve {
    scope := sampleScope, targetId, workload := .conversation conversationId, operationId := "operation"
    now := .at 0, idleTtlMs := .finite 60000, absoluteTtlMs := .finite 600000, exclusiveGroup, processBound := true }⟩

/-- Two processes, each with its own target and conversation. -/
def samplePair : Registry :=
  runCalls .lowered [sampleReserve 10 "lease-1" "target-1" "conversation-1" none,
    sampleReserve 20 "lease-2" "target-2" "conversation-2" none] .empty

theorem samplePair_reachable : (system .lowered).Reachable samplePair := runCalls_reachable _ _

end Sample

end AuraCall.TabLease
