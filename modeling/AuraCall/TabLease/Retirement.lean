import AuraCall.Lib.EventTrace
import AuraCall.Lib.Interleaving
import AuraCall.TabLease.System

/-!
# Retirement passes

`retireExpiredTabLeases` of `tabLeaseRetirement.ts`: a pass lists the idle and the retiring leases of an account, begins
the retirement of the idle ones that have expired, closes the targets it recognizes and finishes the retirement. Every
call of the registry is one step; the passes work beside each other and beside the calls of other owners.

A trace has the leases that a step has written, and every request to close a target with what the registry has then.
-/

namespace AuraCall.TabLease

open Script

/-! ## The registry among passes -/

/-- A request to close stands there with the lease it is for, how far the trace was when the lease was like this, the
lease the registry has now, and the leases that hold the target. -/
inductive RetirementEvent
  | changed (leaseId : String)
  | closing (lease : BrowserTabLease) (position : Nat) (found : Option BrowserTabLease) (holders : List String)
  deriving DecidableEq

structure RetirementState where
  registry : Registry
  trace : List RetirementEvent

abbrev RetirementScript := Script RetirementState String

/-- The leases that one registry has and another has not. -/
def changedIds (old new : Registry) : List String :=
  (new.leases.values.filter fun lease => old.leases.get? lease.leaseId ≠ some lease).map (·.leaseId)

/-- A step of the registry. -/
def RetirementState.advance (s : RetirementState) (registry : Registry) : RetirementState :=
  ⟨registry, s.trace ++ (changedIds s.registry registry).map .changed⟩

/-- The leases that hold a target of a browser profile and service. -/
def targetHolders (scope : TabLeaseScope) (targetId : String) (registry : Registry) : List String :=
  (registry.leases.values.filter fun other =>
    fenced other.state && sameTargetDomain other.scope scope && other.targetId == targetId).map (·.leaseId)

/-- A lease, and how far the trace was when it was like this. -/
structure SeenLease where
  lease : BrowserTabLease
  position : Nat

/-! ## The input of a pass -/

structure TabLeaseRetirementEndpoint where
  host : String
  port : Nat
  browserProcessId : Option Int

structure RetirementTarget where
  url : String

/-- The callbacks answer for the candidate with this number in the list; an answer is a value, or what they throw.
The clock is read when the pass starts and when it finishes a candidate. -/
structure TabLeaseRetirementInput where
  scope : TabLeaseScope
  startedAt : IsoTime
  finishedAt : Nat → IsoTime
  resolveEndpoint : Except String (Option TabLeaseRetirementEndpoint)
  inspectTarget : Nat → TabLeaseRetirementEndpoint → String → Except String (Option RetirementTarget)
  targetMatchesLease : BrowserTabLease → RetirementTarget → Except String Bool
  closeAudit : Nat → Except String PUnit
  closeTarget : Nat → TabLeaseRetirementEndpoint → String → Except String PUnit
  inspectAfterClose : Nat → TabLeaseRetirementEndpoint → String → Except String (Option RetirementTarget)
  finishAudit : Nat → Except String PUnit
  endpointAbsenceProvesTargetsMissing : Bool

/-- `TabLeaseFinalDisposition | "deferred"`. -/
inductive RetirementDisposition
  | final (disposition : TabLeaseFinalDisposition)
  | deferred

structure TabLeaseRetirementOutcome where
  leaseId : String
  targetId : String
  reason : TabLeaseRetirementReason
  disposition : RetirementDisposition
  detail : Option String

/-! ## Candidates -/

def UNOWNED_TAB_WORKLOAD_PREFIX : String := "tab-deadline:"

def isUnownedBrowserTabLease (lease : BrowserTabLease) : Bool :=
  match lease.workload with
  | .ephemeral operationId => UNOWNED_TAB_WORKLOAD_PREFIX.toList.isPrefixOf operationId.toList
  | _ => false

def retirementReason (lease : BrowserTabLease) (nowMs : Int) : Option TabLeaseRetirementReason :=
  if lease.state = .retiring then some (lease.retirementReason.getD .operator)
  else if lease.state ≠ .idle then none
  else if lease.effectState = .inFlight then none
  else if reached nowMs lease.absoluteExpiresAt then some .absoluteExpired
  else if reached nowMs lease.idleExpiresAt then some .idleExpired
  else none

/-- `conflict.kind`. -/
def TabLeaseConflict.kind : TabLeaseConflict → String
  | processOwned _ => "process-owned"
  | targetOwned _ => "target-owned"
  | workloadOwned _ => "workload-owned"
  | notFound => "not-found"
  | staleClaim _ => "stale-claim"
  | invalidTransition _ => "invalid-transition"
  | profileControlled _ => "profile-controlled"

/-- The result of a call to the registry, unless it throws. -/
def settled {α : Type} : Checked α → Except String (Except TabLeaseConflict α)
  | .ok a => .ok (.ok a)
  | .error (.refused conflict) => .ok (.error conflict)
  | .error (.thrown message) => .error message

def TabLeaseRetirementOutcome.of (lease : BrowserTabLease) (reason : TabLeaseRetirementReason)
    (disposition : RetirementDisposition) (detail : Option String) : TabLeaseRetirementOutcome :=
  ⟨lease.leaseId, lease.targetId, reason, disposition, detail⟩

/-! ## A pass -/

section Pass

variable (input : TabLeaseRetirementInput) (endpoint : Option TabLeaseRetirementEndpoint)

/-- `registry.list({ scope, states: ["idle", "retiring"] })`. -/
def listCandidates : RetirementScript (List SeenLease) :=
  look fun s => .ok ((s.registry.leases.values.filter fun lease =>
    lease.scope == input.scope && (lease.state == .idle || lease.state == .retiring)).map (⟨·, s.trace.length⟩))

/-- `registry.beginRetirement`. -/
def beginCandidate (candidate : BrowserTabLease) (reason : TabLeaseRetirementReason) :
    RetirementScript (Except TabLeaseConflict SeenLease) :=
  Script.perform fun s =>
    let result := beginRetirement ⟨candidate.leaseId, candidate.revision, .at input.startedAt.ms, reason⟩ s.registry
    let s' := s.advance (storeLease s.registry result)
    ((settled result).map fun begun => begun.map (⟨·, s'.trace.length⟩), s')

/-- `registry.finishRetirement`; the retirement revision is the one of the retiring lease. -/
def finishCandidate (n : Nat) (lease : BrowserTabLease) (disposition : TabLeaseFinalDisposition) :
    RetirementScript (Except TabLeaseConflict BrowserTabLease) :=
  Script.perform fun s =>
    let result := finishRetirement ⟨lease.leaseId, lease.revision, .at (input.finishedAt n).ms, disposition⟩ s.registry
    (settled result, s.advance (storeLease s.registry result))

/-- `closeTarget` is called. -/
def requestClose (seen : SeenLease) : RetirementScript PUnit :=
  change fun s => { s with trace := s.trace ++ [.closing seen.lease seen.position
    (s.registry.leases.get? seen.lease.leaseId) (targetHolders seen.lease.scope seen.lease.targetId s.registry)] }

/-- The request to close a target, and what is there afterwards. -/
def closeCandidate (n : Nat) (live : TabLeaseRetirementEndpoint) (seen : SeenLease) :
    RetirementScript (TabLeaseFinalDisposition × Option String) := do
  ofExcept (input.closeAudit n)
  requestClose seen
  ofExcept (input.closeTarget n live seen.lease.targetId)
  let afterClose ← ofExcept (input.inspectAfterClose n live seen.lease.targetId)
  pure (if afterClose.isSome then (.preserved, some "target-still-live-after-close") else (.closed, none))

/-- What the pass finds under the target of a lease. -/
def inspectCandidate (n : Nat) (live : TabLeaseRetirementEndpoint) (seen : SeenLease) :
    RetirementScript (TabLeaseFinalDisposition × Option String) := do
  let target ← ofExcept (input.inspectTarget n live seen.lease.targetId)
  match target with
  | none => pure (.alreadyMissing, none)
  | some target => do
    let same ← ofExcept (input.targetMatchesLease seen.lease target)
    if same then closeCandidate input n live seen else pure (.preserved, some "target-identity-mismatch")

/-- The `try` block. -/
def disposeCandidate (n : Nat) (seen : SeenLease) : RetirementScript (TabLeaseFinalDisposition × Option String) :=
  match endpoint with
  | none => pure (.alreadyMissing, none)
  | some live => (inspectCandidate input n live seen).orElse fun message => pure (.preserved, some message)

/-- A candidate that is retiring: its target is disposed of, and its retirement finished. -/
def retireCandidate (n : Nat) (seen : SeenLease) (reason : TabLeaseRetirementReason) :
    RetirementScript TabLeaseRetirementOutcome := do
  let (disposition, detail) ← disposeCandidate input endpoint n seen
  let finished ← finishCandidate input n seen.lease disposition
  ofExcept (input.finishAudit n)
  match finished with
  | .ok _ => pure (.of seen.lease reason (.final disposition) detail)
  | .error conflict => pure (.of seen.lease reason .deferred (some conflict.kind))

/-- An idle candidate begins its retirement; one that is retiring goes on. -/
def fenceCandidate (n : Nat) (candidate : SeenLease) (reason : TabLeaseRetirementReason) :
    RetirementScript TabLeaseRetirementOutcome :=
  if candidate.lease.state = .idle then do
    let begun ← beginCandidate input candidate.lease reason
    match begun with
    | .ok seen => retireCandidate input endpoint n seen reason
    | .error conflict => pure (.of candidate.lease reason .deferred (some conflict.kind))
  else retireCandidate input endpoint n candidate reason

/-- Why a candidate is retired, if it is. -/
def candidateReason (candidate : BrowserTabLease) : Option TabLeaseRetirementReason :=
  let retainedFollow := isTabLeaseTtlExempt candidate
  if retainedFollow && endpoint.isSome && candidate.state != .retiring then none
  else if retainedFollow && endpoint.isNone && input.endpointAbsenceProvesTargetsMissing then some .operator
  else retirementReason candidate input.startedAt.ms

/-- One round of the loop. -/
def visitCandidate (n : Nat) (candidate : SeenLease) : RetirementScript (Option TabLeaseRetirementOutcome) :=
  if isUnownedBrowserTabLease candidate.lease then
    pure ((retirementReason candidate.lease input.startedAt.ms).map fun reason =>
      .of candidate.lease reason (.final .preserved) (some "cleanup-ownership-unverified"))
  else
    match candidateReason input endpoint candidate.lease with
    | none => pure none
    | some reason =>
      if endpoint.isNone && !input.endpointAbsenceProvesTargetsMissing then
        pure (some (.of candidate.lease reason .deferred (some "browser-endpoint-unavailable")))
      else do
        let outcome ← fenceCandidate input endpoint n candidate reason
        pure (some outcome)

/-- The loop, from the candidate with number `n` on. -/
def visitCandidates (n : Nat) : List SeenLease → RetirementScript (List TabLeaseRetirementOutcome)
  | [] => pure []
  | candidate :: rest => do
    let outcome ← visitCandidate input endpoint n candidate
    let outcomes ← visitCandidates (n + 1) rest
    pure (outcome.toList ++ outcomes)

end Pass

/-- An endpoint that cannot be resolved counts as none. -/
def retireExpiredTabLeases (input : TabLeaseRetirementInput) : RetirementScript (List TabLeaseRetirementOutcome) := do
  let candidates ← listCandidates input
  visitCandidates input (input.resolveEndpoint.toOption.join) 0 candidates

/-! ## Passes and other owners -/

/-- Any number of passes, among any calls of other owners. -/
def retirementSystem (table : CaseTable) :
    TransitionSystem (Threads RetirementState String (List TabLeaseRetirementOutcome))
      (Threads.Event TabLeaseRetirementInput Call) :=
  Threads.system (fun s => s = ⟨.empty, []⟩) (fun _ => retireExpiredTabLeases) fun s call =>
    some (s.advance (perform table call s.registry).2)

end AuraCall.TabLease
