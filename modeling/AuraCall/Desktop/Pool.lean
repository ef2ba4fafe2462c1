import Mathlib.Data.List.Sort
import AuraCall.Lib.KeyedMap
import AuraCall.Lib.Script
import AuraCall.Lib.Transition

/-!
# The pool of native desktops

`selectPoolDesktop` and `maintainDesktopPool` under the lock of one pool, with the files they keep of it: a record for
each desktop, the key of an acquisition that is not completed, and the releases that are not completed. Each is a script
of single requests and file system actions, so that it can crash, or throw, at any of them.

The provider of the pool is a parameter (`PoolProvider`): it grants one assignment for a key, and says `released` for a
key exactly when it has released under it. What the calls observe of windows, browsers and recovery references is given
(`PoolObservations`).
-/

namespace AuraCall.Desktop

open Script

/-! ## Records -/

structure RemoteViewAssignment where
  assignmentId : String
  desktopId : String
  generation : Nat
  viewingGeneration : Nat
  deriving DecidableEq

structure RemoteViewRetirement where
  desktopId : String
  generation : Nat
  routes : List String
  sessions : List String
  deriving DecidableEq

/-- The record of a desktop of the pool, in a file that is named after it. -/
structure NativeDesktop where
  desktopName : String
  assignment : RemoteViewAssignment
  deriving DecidableEq

structure PoolRelease where
  key : String
  desktop : NativeDesktop
  retirement : RemoteViewRetirement
  deriving DecidableEq

/-- `policy.pools[poolName]`. -/
structure PoolPolicy where
  minimum : Nat
  maximum : Nat
  allowScaleIn : Bool

/-- What the host computes: random identifiers, one after the other, and `localeCompare`. -/
structure PoolHost where
  randomUUID : Nat → String
  localeAtMost : String → String → Bool
  randomUUID_injective : Function.Injective randomUUID

inductive ReleaseResult
  | released | retained
  deriving DecidableEq

/-! ## The provider -/

/-- The provider of the pool, with states of type `π`. A request that fails may have had its effect.

`Granted` says which assignment was granted under a key, and `Released` which one, as the request has named it, was
released under a key. Requests are idempotent in the key: a key is granted one assignment, and a release that was
carried out under a key is never answered with `retained`. Nothing but a release takes an assignment from the pool, and
it does not come back. -/
structure PoolProvider (π : Type) where
  assignments : π → List RemoteViewAssignment
  acquire : π → String → Option RemoteViewAssignment × π
  releaseIdle : π → RemoteViewAssignment → RemoteViewRetirement → String → Option ReleaseResult × π
  Granted : π → String → String → Prop
  Released : π → String → RemoteViewAssignment → Prop
  desktopOf : String → String
  generationOf : String → Nat
  identity : ∀ {p a}, a ∈ assignments p →
    a.desktopId = desktopOf a.assignmentId ∧ a.generation = generationOf a.assignmentId
  distinct : ∀ p, ((assignments p).map (·.assignmentId)).Nodup ∧ ((assignments p).map (·.desktopId)).Nodup
  released_gone : ∀ {p key a b}, Released p key a → b ∈ assignments p → b.assignmentId ≠ a.assignmentId
  granted_unique : ∀ {p key id id'}, Granted p key id → Granted p key id' → id = id'
  granted_key : ∀ {p key key' id}, Granted p key id → Granted p key' id → key = key'
  acquire_granted : ∀ {p key key' id}, Granted (acquire p key).2 key' id → Granted p key' id ∨ key' = key
  acquire_keeps : ∀ {p key a}, a ∈ assignments p → a ∈ assignments (acquire p key).2
  acquire_new : ∀ {p key a}, a ∈ assignments (acquire p key).2 →
    a ∈ assignments p ∨ Granted (acquire p key).2 key a.assignmentId
  acquire_reply : ∀ {p key a}, (acquire p key).1 = some a →
    a ∈ assignments (acquire p key).2 ∧ Granted (acquire p key).2 key a.assignmentId
  acquire_released : ∀ {p key key' a}, Released (acquire p key).2 key' a ↔ Released p key' a
  release_granted : ∀ {p a retirement key key' id}, Granted (releaseIdle p a retirement key).2 key' id ↔
    Granted p key' id
  release_released : ∀ {p a retirement key key' b}, Released (releaseIdle p a retirement key).2 key' b →
    Released p key' b ∨ key' = key ∧ b = a
  release_keeps : ∀ {p a retirement key key' b}, Released p key' b → Released (releaseIdle p a retirement key).2 key' b
  release_assignments : ∀ {p a retirement key},
    assignments (releaseIdle p a retirement key).2 = assignments p ∨
      assignments (releaseIdle p a retirement key).2 =
          (assignments p).filter (fun b => b.assignmentId ≠ a.assignmentId) ∧
        Released (releaseIdle p a retirement key).2 key a
  release_reply : ∀ {p a retirement key}, (releaseIdle p a retirement key).1 = some .released →
    Released (releaseIdle p a retirement key).2 key a
  release_retained : ∀ {p a retirement key b}, (releaseIdle p a retirement key).1 = some .retained →
    ¬Released (releaseIdle p a retirement key).2 key b

/-! ## Files -/

/-- The provider, the files of the pool, and the number of random identifiers drawn so far. -/
structure PoolState (π : Type) where
  provider : π
  desktops : KeyedMap NativeDesktop.desktopName
  acquisition : Option String
  releases : KeyedMap PoolRelease.key
  drawn : Nat

/-- What a call observes besides the files: whether another operation has a lock, and of each assignment whether a
browser or a recovery reference holds it, its number of windows, and the retirement when it is idle. `reconcile` is
observed before a release is submitted again, `survey` of all assignments, and `again` before one is released. -/
structure PoolObservations where
  otherOperations : Bool
  reconcileReferenced : RemoteViewAssignment → Bool
  surveyReferenced : RemoteViewAssignment → Bool
  surveyWindows : RemoteViewAssignment → Nat
  surveyIdle : RemoteViewAssignment → Option RemoteViewRetirement
  windowsAgain : RemoteViewAssignment → Nat
  referencedAgain : RemoteViewAssignment → Bool
  idleAgain : RemoteViewAssignment → Option RemoteViewRetirement

inductive PoolError
  | requestFailed
  | noHealthyDesktop
  | releaseTargetNotEmpty
  deriving DecidableEq

inductive MaintenanceVerdict
  | ready | unused | deferred
  deriving DecidableEq

section Calls

variable {π : Type} (provider : PoolProvider π) (policy : PoolPolicy) (host : PoolHost) (seen : PoolObservations)

/-- `desktop-${assignment.desktopId}`. -/
def desktopNameOf (assignment : RemoteViewAssignment) : String := "desktop-" ++ assignment.desktopId

/-- `poolState`. -/
def poolState : Script (PoolState π) PoolError (List RemoteViewAssignment) :=
  look fun s => .ok (provider.assignments s.provider)

def pendingPoolAcquisition : Script (PoolState π) PoolError (Option String) := look fun s => .ok s.acquisition

/-- The key of the acquisition that is not completed, or a new one. -/
def poolAcquisition : Script (PoolState π) PoolError String := perform fun s =>
  match s.acquisition with
  | some key => (.ok key, s)
  | none =>
    (.ok ("auracall-pool-" ++ host.randomUUID s.drawn),
      { s with acquisition := some ("auracall-pool-" ++ host.randomUUID s.drawn), drawn := s.drawn + 1 })

def completePoolAcquisition : Script (PoolState π) PoolError PUnit := change fun s => { s with acquisition := none }

def recordDesktop (desktop : NativeDesktop) : Script (PoolState π) PoolError PUnit :=
  change fun s => { s with desktops := s.desktops.set desktop }

/-- The record of the desktop's name is removed if it holds the whole assignment. -/
def PoolState.forget (desktop : NativeDesktop) (s : PoolState π) : PoolState π :=
  if (s.desktops.get? desktop.desktopName).any (·.assignment == desktop.assignment) then
    { s with desktops := s.desktops.delete desktop.desktopName }
  else s

@[simp] theorem PoolState.forget_provider (desktop : NativeDesktop) (s : PoolState π) :
    (s.forget desktop).provider = s.provider := by
  unfold forget
  split <;> rfl

@[simp] theorem PoolState.forget_releases (desktop : NativeDesktop) (s : PoolState π) :
    (s.forget desktop).releases = s.releases := by
  unfold forget
  split <;> rfl

@[simp] theorem PoolState.forget_acquisition (desktop : NativeDesktop) (s : PoolState π) :
    (s.forget desktop).acquisition = s.acquisition := by
  unfold forget
  split <;> rfl

def forgetDesktop (desktop : NativeDesktop) : Script (PoolState π) PoolError PUnit := change (·.forget desktop)

/-- `recordPoolRelease`, under a new key. -/
def recordPoolRelease (desktop : NativeDesktop) (retirement : RemoteViewRetirement) :
    Script (PoolState π) PoolError PoolRelease := perform fun s =>
  let release : PoolRelease := ⟨"auracall-release-" ++ host.randomUUID s.drawn, desktop, retirement⟩
  (.ok release, { s with releases := s.releases.set release, drawn := s.drawn + 1 })

def completePoolRelease (key : String) : Script (PoolState π) PoolError PUnit :=
  change fun s => { s with releases := s.releases.delete key }

/-- `app.acquire`. -/
def requestAcquisition (key : String) : Script (PoolState π) PoolError RemoteViewAssignment := perform fun s =>
  (match (provider.acquire s.provider key).1 with
    | some assignment => .ok assignment
    | none => .error .requestFailed,
    { s with provider := (provider.acquire s.provider key).2 })

/-- `app.releaseIdle`, which checks the retirement before it asks. -/
def requestRelease (release : PoolRelease) : Script (PoolState π) PoolError ReleaseResult :=
  if release.retirement.desktopId != release.desktop.assignment.desktopId ||
      release.retirement.generation != release.desktop.assignment.generation || !release.retirement.sessions.isEmpty then
    throw .releaseTargetNotEmpty
  else perform fun s =>
    let out := provider.releaseIdle s.provider release.desktop.assignment release.retirement release.key
    (match out.1 with
      | some result => .ok result
      | none => .error .requestFailed,
      { s with provider := out.2 })

/-- Acquire under a key, record the desktop, and complete the acquisition. -/
def acquireDesktop (key : String) : Script (PoolState π) PoolError RemoteViewAssignment := do
  let assignment ← requestAcquisition provider key
  recordDesktop ⟨desktopNameOf assignment, assignment⟩
  completePoolAcquisition
  return assignment

/-- Acquire under the key that is not completed, or a new one. -/
def acquireAnother : Script (PoolState π) PoolError RemoteViewAssignment := do
  let key ← poolAcquisition host
  acquireDesktop provider key

/-- The record of an assignment, whatever its viewing generation. -/
def retainedDesktop (desktops : KeyedMap NativeDesktop.desktopName) (assignment : RemoteViewAssignment) :
    Option NativeDesktop :=
  desktops.values.find? fun desktop => desktop.assignment.assignmentId == assignment.assignmentId &&
    desktop.assignment.generation == assignment.generation

/-! ## Selection -/

/-- `observed.sort(…)[0]`. -/
def leastCrowded (observed : List (RemoteViewAssignment × Nat)) : Option RemoteViewAssignment :=
  ((observed.insertionSort fun x y => x.2 < y.2 ∨ x.2 = y.2 ∧ host.localeAtMost x.1.desktopId y.1.desktopId).head?).map
    (·.1)

/-- A free assignment, a new one while there is room, or the least crowded one. -/
def chooseAssignment (assignments : List RemoteViewAssignment) :
    Script (PoolState π) PoolError RemoteViewAssignment :=
  let observed := assignments.map fun assignment => (assignment, seen.surveyWindows assignment)
  match observed.find? (·.2 == 0) with
  | some free => return free.1
  | none =>
    if assignments.length < policy.maximum then acquireAnother provider host
    else
      match leastCrowded host observed with
      | some assignment => return assignment
      | none => throw .noHealthyDesktop

/-- Record the desktop of the assignment, under the name it has. -/
def settleDesktop (assignment : RemoteViewAssignment) : Script (PoolState π) PoolError NativeDesktop := do
  let desktops ← look fun s => .ok s.desktops
  let desktop : NativeDesktop :=
    ⟨((retainedDesktop desktops assignment).map (·.desktopName)).getD (desktopNameOf assignment), assignment⟩
  recordDesktop desktop
  return desktop

def selectPoolDesktop : Script (PoolState π) PoolError NativeDesktop := do
  match ← pendingPoolAcquisition with
  | some key => discard (acquireDesktop provider key)
  | none => pure ()
  let assignments ← poolState provider
  let assignment ← chooseAssignment provider policy host seen assignments
  settleDesktop assignment

/-! ## Maintenance -/

/-- Submit a recorded release, and forget the desktop when it is released. -/
def submitRelease (release : PoolRelease) : Script (PoolState π) PoolError ReleaseResult := do
  let result ← requestRelease provider release
  match result with
  | .released => forgetDesktop release.desktop
  | .retained => pure ()
  completePoolRelease release.key
  return result

/-- Submit the releases again that are not completed; `false` when one of them is still referenced. -/
def reconcileReleases : List PoolRelease → Script (PoolState π) PoolError Bool
  | [] => return true
  | release :: rest =>
    if seen.reconcileReferenced release.desktop.assignment then return false
    else do
      discard (submitRelease provider release)
      reconcileReleases rest

/-- The idle desktops among the assignments; `none` when one of these has no record. -/
def surveyIdle (desktops : KeyedMap NativeDesktop.desktopName) :
    List RemoteViewAssignment → Option (List NativeDesktop)
  | [] => some []
  | assignment :: rest => do
    let desktop ← retainedDesktop desktops assignment
    let idle ← surveyIdle desktops rest
    return if seen.surveyReferenced assignment || seen.surveyWindows assignment != 0 ||
        (seen.surveyIdle assignment).isNone then idle
      else ⟨desktop.desktopName, assignment⟩ :: idle

/-- Release idle desktops, as long as more than the least number remain. -/
def scaleIn : List NativeDesktop → Nat → Script (PoolState π) PoolError PUnit
  | [], _ => return ⟨⟩
  | desktop :: rest, remaining =>
    if remaining ≤ max 1 policy.minimum then return ⟨⟩
    else if seen.windowsAgain desktop.assignment != 0 || seen.referencedAgain desktop.assignment then
      scaleIn rest remaining
    else
      match seen.idleAgain desktop.assignment with
      | none => scaleIn rest remaining
      | some retirement => do
        let release ← recordPoolRelease host desktop retirement
        let result ← submitRelease provider release
        match result with
        | .released => scaleIn rest (remaining - 1)
        | .retained => scaleIn rest remaining

/-- `if (state.allowScaleIn)`: all but one of the idle desktops may be released. -/
def shrinkPool (idle : List NativeDesktop) (reserved : Nat) : Script (PoolState π) PoolError PUnit :=
  if policy.allowScaleIn then scaleIn provider policy host seen (idle.drop 1) reserved else return ⟨⟩

/-- `if (!idle.length && state.reserved < state.maximum)`: one more desktop is acquired. -/
def growPool (idle : List NativeDesktop) (reserved : Nat) : Script (PoolState π) PoolError PUnit :=
  if idle.isEmpty && reserved < policy.maximum then discard (acquireAnother provider host) else return ⟨⟩

def maintainDesktopPool : Script (PoolState π) PoolError MaintenanceVerdict := do
  let acquisition ← pendingPoolAcquisition
  if seen.otherOperations || acquisition.isSome then return .deferred
  else do
    let releases ← look fun s => .ok s.releases.values
    if !(← reconcileReleases provider seen releases) then return .deferred
    else do
      let assignments ← poolState provider
      if assignments.isEmpty then return .unused
      else do
        let desktops ← look fun s => .ok s.desktops
        match surveyIdle seen desktops assignments with
        | none => return .deferred
        | some idle => do
          shrinkPool provider policy host seen idle assignments.length
          growPool provider policy host idle assignments.length
          return .ready

/-! ## Runs -/

/-- Calls of this program, one after the other, and what happens to the pool between them. -/
inductive PoolActivity (π : Type)
  /-- a selection, up to its end or stopped after some of its actions -/
  | select (seen : PoolObservations) (stopped : Option Nat)
  | maintain (seen : PoolObservations) (stopped : Option Nat)
  /-- a request that was sent arrives after its call has stopped -/
  | lateAcquisition (key : String)
  | lateRelease (release : PoolRelease)
  /-- the pool changes by itself -/
  | change (pool : π)

/-- The state a call leaves that runs to its end, or stops. -/
def afterCall {α : Type} (call : Script (PoolState π) PoolError α) (stopped : Option Nat) (s : PoolState π) :
    PoolState π :=
  match stopped with
  | none => (call.run s).2
  | some n => call.after n s

/-- A change of the pool by itself: assignments may be viewed anew, and others may be added. -/
structure PoolChange (pool pool' : π) : Prop where
  granted : ∀ key id, provider.Granted pool' key id ↔ provider.Granted pool key id
  released : ∀ key a, provider.Released pool' key a ↔ provider.Released pool key a
  keeps : ∀ a ∈ provider.assignments pool, ∃ b ∈ provider.assignments pool', b.assignmentId = a.assignmentId
  others : ∀ b ∈ provider.assignments pool', (∃ a ∈ provider.assignments pool, a.assignmentId = b.assignmentId) ∨
    ∀ key, ¬provider.Granted pool' key b.assignmentId

inductive PoolStep (s : PoolState π) : PoolActivity π → PoolState π → Prop
  | select (seen : PoolObservations) (stopped : Option Nat) :
      PoolStep s (.select seen stopped) (afterCall (selectPoolDesktop provider policy host seen) stopped s)
  | maintain (seen : PoolObservations) (stopped : Option Nat) :
      PoolStep s (.maintain seen stopped) (afterCall (maintainDesktopPool provider policy host seen) stopped s)
  | lateAcquisition {key : String} : s.acquisition = some key →
      PoolStep s (.lateAcquisition key) { s with provider := (provider.acquire s.provider key).2 }
  | lateRelease {release : PoolRelease} : release ∈ s.releases →
      PoolStep s (.lateRelease release) { s with
        provider := (provider.releaseIdle s.provider release.desktop.assignment release.retirement release.key).2 }
  | change {pool : π} : PoolChange provider s.provider pool → PoolStep s (.change pool) { s with provider := pool }

/-- Nothing is recorded at first, and nothing was asked for. -/
structure PoolInit (s : PoolState π) : Prop where
  desktops : s.desktops = .empty
  acquisition : s.acquisition = none
  releases : s.releases = .empty
  granted : ∀ key id, ¬provider.Granted s.provider key id
  released : ∀ key a, ¬provider.Released s.provider key a

/-- All runs of a pool. -/
def desktopPool : TransitionSystem (PoolState π) (PoolActivity π) := ⟨PoolInit provider, PoolStep provider policy host⟩

end Calls

end AuraCall.Desktop
