import AuraCall.Lib.KeyedMap
import AuraCall.Js.Builtins

/-!
# The tab-lease registry: records, inputs and the shared predicates

The types of `tabLeaseRegistry.ts`, with the helper functions its operations share: scope and workload normalization
(`normalizeScope`, `normalizeWorkload`), the comparisons of two scopes and of two workloads, the process-binding tests,
and `blocksExclusiveGroupAdmission`. `Registry` is the state: the lease map and the profile-control map.
-/

namespace AuraCall.TabLease

/-! ## Records -/

inductive TabLeaseState
  | active | idle | retiring | released | lost
  deriving DecidableEq

inductive TabLeaseEffectState
  | none | inFlight | settled | outcomeUnknown
  deriving DecidableEq

inductive TabLeaseWorkload
  | newConversation (reservationId : String)
  | conversation (conversationId : String)
  | liveFollow (operationId : String)
  | ephemeral (operationId : String)
  deriving DecidableEq

structure TabLeaseScope where
  runtimeProfileId : String
  managedBrowserProfile : String
  service : String
  tenantKey : String
  deriving DecidableEq

structure BrowserProfileControlScope where
  runtimeProfileId : String
  managedBrowserProfile : String
  service : String
  deriving DecidableEq

inductive BrowserProfileControlKind
  | browserStartup | browserShutdown | login | setup | cookieBootstrap | profileReplacement
  deriving DecidableEq

inductive BrowserProfileControlState
  | active | released
  deriving DecidableEq

structure BrowserProfileControlRecord where
  controlId : String
  revision : Nat
  scope : BrowserProfileControlScope
  kind : BrowserProfileControlKind
  ownerOperationId : String
  state : BrowserProfileControlState
  acquiredAt : DateString
  heartbeatAt : DateString
  expiresAt : DateString
  releasedAt : Option DateString
  deriving DecidableEq

structure BrowserProfileControlClaim where
  controlId : String
  revision : Nat
  operationId : String
  deriving DecidableEq

/-- An owner: its operating-system process and the instance within it. -/
structure OwnerIdentity where
  processId : Int
  instanceId : String
  deriving DecidableEq

inductive Retention
  | liveFollow | ttl
  deriving DecidableEq

inductive TabLeaseRetirementReason
  | idleExpired | absoluteExpired | cancelled | operator
  deriving DecidableEq

inductive TabLeaseFinalDisposition
  | closed | alreadyMissing | preserved
  deriving DecidableEq

inductive TabLeaseLossReason
  | targetMissing | restartUnverified | heartbeatExpired | identityConflict | provisioningFailed
  deriving DecidableEq

structure Evidence where
  artifactRef : String
  sha256 : String
  deriving DecidableEq

structure EffectReconciliation where
  observedAt : DateString
  previousEffectState : TabLeaseEffectState
  evidence : Evidence
  deriving DecidableEq

structure UnknownEffectAbandonment where
  observedAt : DateString
  acknowledgeUnknownOutcome : Bool
  evidence : Evidence
  deriving DecidableEq

structure BrowserTabActionCounts where
  targetCreations : Nat
  adoptions : Nat
  navigations : Nat
  reloads : Nat
  focuses : Nat
  closes : Nat
  deriving DecidableEq

inductive BrowserTabTargetAction
  | targetCreated | adopted | navigation | reload | focus
  deriving DecidableEq

/-- Absent optional fields and `null` ones are `none`. -/
structure BrowserTabLease where
  leaseId : String
  revision : Nat
  scope : TabLeaseScope
  targetId : String
  workload : TabLeaseWorkload
  exclusiveGroup : Option String
  state : TabLeaseState
  ownerOperationId : Option String
  ownerProcessId : Option Int
  ownerInstanceId : Option String
  processBinding : Option OwnerIdentity
  retention : Option Retention
  effectState : TabLeaseEffectState
  effectReconciliations : List EffectReconciliation
  unknownEffectAbandonment : Option UnknownEffectAbandonment
  acquiredAt : DateString
  heartbeatAt : DateString
  lastMeaningfulUseAt : DateString
  idleExpiresAt : DateString
  absoluteExpiresAt : DateString
  targetFingerprint : Option String
  retirementReason : Option TabLeaseRetirementReason
  finalDisposition : Option TabLeaseFinalDisposition
  lossReason : Option TabLeaseLossReason
  actionCounts : BrowserTabActionCounts
  deriving DecidableEq

structure TabLeaseClaim where
  leaseId : String
  revision : Nat
  operationId : String
  deriving DecidableEq

inductive TabLeaseConflict
  | processOwned (lease : BrowserTabLease)
  | targetOwned (lease : BrowserTabLease)
  | workloadOwned (lease : BrowserTabLease)
  | notFound
  | staleClaim (lease : BrowserTabLease)
  | invalidTransition (lease : BrowserTabLease)
  | profileControlled (control : BrowserProfileControlRecord)
  deriving DecidableEq

/-- A call that returns, refuses with a conflict, or throws. -/
abbrev Checked (α : Type) := Except (Stop TabLeaseConflict) α

/-! ## State -/

/-- The two maps of `InMemoryBrowserTabLeaseRegistry`. -/
structure Registry where
  leases : KeyedMap BrowserTabLease.leaseId
  controls : KeyedMap BrowserProfileControlRecord.controlId

/-- `createInMemoryBrowserTabLeaseRegistry()` before any call. -/
def Registry.empty : Registry := ⟨.empty, .empty⟩

/-- What a call sees of its caller: the next ids its generators give, its identity, and which processes it finds
alive. -/
structure RegistryOptions where
  createLeaseId : String
  createControlId : String
  ownerIdentity : OwnerIdentity
  isOwnerAlive : Int → Bool

/-! ## Normalization -/

section Normalize

variable (table : CaseTable)

def normalizeScope (scope : TabLeaseScope) : Checked TabLeaseScope := do
  let runtimeProfileId ← requireNonEmpty scope.runtimeProfileId "scope.runtimeProfileId"
  let managedBrowserProfile ← requireNonEmpty scope.managedBrowserProfile "scope.managedBrowserProfile"
  let service ← requireNonEmpty scope.service "scope.service"
  let tenantKey ← requireNonEmpty scope.tenantKey "scope.tenantKey"
  return ⟨runtimeProfileId, managedBrowserProfile, table.toLowerCase service, tenantKey⟩

def normalizeControlScope (scope : BrowserProfileControlScope) : Checked BrowserProfileControlScope := do
  let runtimeProfileId ← requireNonEmpty scope.runtimeProfileId "scope.runtimeProfileId"
  let managedBrowserProfile ← requireNonEmpty scope.managedBrowserProfile "scope.managedBrowserProfile"
  let service ← requireNonEmpty scope.service "scope.service"
  return ⟨runtimeProfileId, managedBrowserProfile, table.toLowerCase service⟩

end Normalize

def normalizeWorkload : TabLeaseWorkload → Checked TabLeaseWorkload
  | .newConversation id => return .newConversation (← requireNonEmpty id "reservationId")
  | .conversation id => return .conversation (← requireNonEmpty id "conversationId")
  | .liveFollow id => return .liveFollow (← requireNonEmpty id "workload.operationId")
  | .ephemeral id => return .ephemeral (← requireNonEmpty id "workload.operationId")

def normalizeTtl (value : JsNumber) (name : String) : Checked Int := normalizePositiveInteger value name

/-- `normalizeOptional`. -/
def normalizeOptional (value : Option String) : Checked (Option String) :=
  match value with
  | none => return none
  | some v => return some (← requireNonEmpty v "targetFingerprint")

/-! ## Comparisons -/

/-- `FENCED_STATES.has(state)`. -/
def fenced (state : TabLeaseState) : Bool :=
  state == .active || state == .idle || state == .retiring || state == .lost

theorem fenced_eq_true {state : TabLeaseState} : fenced state = true ↔ state ≠ .released := by
  cases state <;> decide

def sameOwnershipScope (left right : TabLeaseScope) : Bool :=
  left.managedBrowserProfile == right.managedBrowserProfile && left.service == right.service &&
  left.tenantKey == right.tenantKey

def sameTargetDomain (left right : TabLeaseScope) : Bool :=
  left.managedBrowserProfile == right.managedBrowserProfile && left.service == right.service

/-- `sameControlScope` of two control scopes. -/
def sameControlScope (left right : BrowserProfileControlScope) : Bool :=
  left.managedBrowserProfile == right.managedBrowserProfile && left.service == right.service

/-- A lease scope read as the control scope it extends. -/
def TabLeaseScope.control (scope : TabLeaseScope) : BrowserProfileControlScope :=
  ⟨scope.runtimeProfileId, scope.managedBrowserProfile, scope.service⟩

/-- `sameWorkload`: the same kind and the same identifier. -/
def sameWorkload (left right : TabLeaseWorkload) : Bool :=
  match left, right with
  | .newConversation a, .newConversation b => a == b
  | .conversation a, .conversation b => a == b
  | .liveFollow a, .liveFollow b => a == b
  | .ephemeral a, .ephemeral b => a == b
  | _, _ => false

@[simp] theorem sameWorkload_eq_true {left right : TabLeaseWorkload} :
    sameWorkload left right = true ↔ left = right := by
  cases left <;> cases right <;> simp [sameWorkload]

theorem sameOwnershipScope_eq_true {left right : TabLeaseScope} :
    sameOwnershipScope left right = true ↔ left.managedBrowserProfile = right.managedBrowserProfile ∧
      left.service = right.service ∧ left.tenantKey = right.tenantKey := by
  simp [sameOwnershipScope, and_assoc]

theorem sameControlScope_eq_true {left right : BrowserProfileControlScope} :
    sameControlScope left right = true ↔
      left.managedBrowserProfile = right.managedBrowserProfile ∧ left.service = right.service := by
  simp [sameControlScope]

theorem normalizeScope_idem {table : CaseTable} {scope normalized : TabLeaseScope}
    (h : normalizeScope table scope = .ok normalized) : normalizeScope table normalized = .ok normalized := by
  simp only [normalizeScope, bind_eq_ok, requireNonEmpty_eq_ok, pure_eq_ok] at h
  obtain ⟨_, ⟨hr, rfl⟩, _, ⟨hm, rfl⟩, _, ⟨hs, rfl⟩, _, ⟨ht, rfl⟩, rfl⟩ := h
  have hlow : trim (table.toLowerCase (trim scope.service)) = table.toLowerCase (trim scope.service) := by
    rw [table.trim_toLowerCase, trim_trim]
  have hlow' : table.toLowerCase (trim scope.service) ≠ "" := fun e => hs ((table.toLowerCase_eq_empty _).1 e)
  simp only [normalizeScope, bind_eq_ok, requireNonEmpty_eq_ok, pure_eq_ok, trim_trim, hlow]
  exact ⟨_, ⟨hr, rfl⟩, _, ⟨hm, rfl⟩, _, ⟨hlow', rfl⟩, _, ⟨ht, rfl⟩, by rw [table.toLowerCase_idem]⟩

/-! ## Leases -/

def isTabLeaseTtlExempt (lease : BrowserTabLease) : Bool :=
  match lease.retention with
  | some retention => retention == .liveFollow
  | none => match lease.workload with
    | .liveFollow _ => true
    | _ => false

/-- Shared custody policy; callers retain their own conflict ordering and self-exclusion. -/
def blocksExclusiveGroupAdmission (lease : BrowserTabLease) (scope : TabLeaseScope) (exclusiveGroup : Option String) :
    Bool :=
  exclusiveGroup.any (· ≠ "") && lease.exclusiveGroup == exclusiveGroup && fenced lease.state &&
  sameOwnershipScope lease.scope scope &&
  (lease.state == .active || lease.state == .retiring || lease.effectState == .outcomeUnknown)

def emptyActionCounts : BrowserTabActionCounts := ⟨0, 0, 0, 0, 0, 0⟩

/-- `actionCounts[actionCountKey(action)] += 1`. -/
def BrowserTabActionCounts.count (counts : BrowserTabActionCounts) : BrowserTabTargetAction → BrowserTabActionCounts
  | .targetCreated => { counts with targetCreations := counts.targetCreations + 1 }
  | .adopted => { counts with adoptions := counts.adoptions + 1 }
  | .navigation => { counts with navigations := counts.navigations + 1 }
  | .reload => { counts with reloads := counts.reloads + 1 }
  | .focus => { counts with focuses := counts.focuses + 1 }

/-- `closes: existing.closes + (disposition === 'closed' ? 1 : 0)`. -/
def BrowserTabActionCounts.countClose (counts : BrowserTabActionCounts) (closed : Bool) : BrowserTabActionCounts :=
  { counts with closes := counts.closes + if closed then 1 else 0 }

section Process

variable (options : RegistryOptions)

def ownsProcessBinding (lease : BrowserTabLease) : Bool :=
  lease.processBinding.any (·.processId == options.ownerIdentity.processId)

theorem ownsProcessBinding_eq_true {options : RegistryOptions} {lease : BrowserTabLease} :
    ownsProcessBinding options lease = true ↔
      lease.processBinding.map (·.processId) = some options.ownerIdentity.processId := by
  cases h : lease.processBinding <;> simp [ownsProcessBinding, h]

def canAdoptProcessBinding (lease : BrowserTabLease) : Bool :=
  ownsProcessBinding options lease ||
  lease.processBinding.any fun binding =>
    binding.processId == options.ownerIdentity.processId || !options.isOwnerAlive binding.processId

/-- `findByProcess`: the caller's own tab in the scope, else an idle tab it can adopt. -/
def findByProcess (table : CaseTable) (scope : TabLeaseScope) (registry : Registry) :
    Checked (Option BrowserTabLease) := do
  let normalized ← normalizeScope table scope
  let candidates := registry.leases.values.filter fun candidate =>
    fenced candidate.state && sameOwnershipScope candidate.scope normalized
  return (candidates.find? (ownsProcessBinding options)).or
    (candidates.find? fun candidate => candidate.state == .idle && candidate.effectState != .outcomeUnknown &&
      canAdoptProcessBinding options candidate)

end Process

end AuraCall.TabLease
