import AuraCall.Desktop.Transition

/-!
# The lock of the native desktop store

`NativeDesktopStore.exclusive` runs an operation while it has made the directory `lock-<digest>`. A call that finds the
directory there makes a second one, `lock-<digest>.reconcile`; it reads the owner's record, looks for its process in
`/proc`, renames the directory of a dead owner away, and makes its own.

The model is any number of calls in any number of processes, with one atomic step of the file system for each step of a
call; `fs.rm` lists the directory, unlinks what it has listed, and removes the directory. Processes crash at any time,
and the number of a process may be given to a later one.
-/

namespace AuraCall.Desktop

open TransitionSystem

/-! ## Directories and calls -/

/-- A process, the one with this number, and the number the system knows it by. -/
structure StoreProcess where
  number : Nat
  pid : Nat
  deriving DecidableEq

/-- `owner`. The identifier, a random UUID, is the number of the call. -/
structure LockOwner where
  id : Nat
  pid : Nat
  deriving DecidableEq

/-- A name in the lock directory: `.<id>.tmp` and `owner.json`. -/
inductive LockName
  | temporary (id : Nat)
  | owner
  deriving DecidableEq

/-- A lock directory: the call that has made it, the temporary files in it, and the record `owner.json`. -/
structure OwnedDirectory where
  maker : Nat
  temporaries : List Nat
  owner : Option LockOwner
  deriving DecidableEq

namespace OwnedDirectory

def names (directory : OwnedDirectory) : List LockName :=
  directory.temporaries.map .temporary ++ (directory.owner.map fun _ => .owner).toList

def unlink (directory : OwnedDirectory) : LockName → OwnedDirectory
  | .temporary id => { directory with temporaries := directory.temporaries.erase id }
  | .owner => { directory with owner := none }

end OwnedDirectory

/-- `fs.rm` of the lock directory: it lists the names, and then it unlinks them; after the last one it removes the
directory. -/
inductive Removal
  | listing
  | emptying (names : List LockName)
  deriving DecidableEq

/-- Where a call stands. In `acquire`, `reconciling` says whether it runs under the reconciliation lock; opening, syncing
and closing a file are one step. The operation runs at `inside`. -/
inductive LockPoint
  | makingLock (reconciling : Bool)
  | writingTemporary (reconciling : Bool)
  | syncing (reconciling : Bool)
  | publishing (reconciling : Bool)
  | syncingDirectory (reconciling : Bool)
  | withdrawing (reconciling : Bool) (removal : Removal)
  | makingReconcile
  | readingOwner
  | probing (previous : LockOwner)
  | retiring (previous : LockOwner)
  | removingReconcile (acquired : Bool)
  | inside
  | checkingOwner
  | removingOwn (removal : Removal)
  | settled
  deriving DecidableEq

namespace LockPoint

/-- The call has made the lock and has not given it up. -/
def holds : LockPoint → Bool
  | writingTemporary _ | syncing _ | publishing _ | syncingDirectory _ | withdrawing _ _ | removingReconcile true
  | inside | checkingOwner | removingOwn _ => true
  | _ => false

/-- The call has made the reconciliation lock and has not given it up. -/
def reconciles : LockPoint → Bool
  | makingLock reconciling | writingTemporary reconciling | syncing reconciling | publishing reconciling
  | syncingDirectory reconciling | withdrawing reconciling _ => reconciling
  | readingOwner | probing _ | retiring _ | removingReconcile _ => true
  | _ => false

/-- The record the call has read under the reconciliation lock. -/
def previous : LockPoint → Option LockOwner
  | probing previous | retiring previous => some previous
  | _ => none

/-- The call is unlinking and removing what is in the lock directory. -/
def empties : LockPoint → Bool
  | withdrawing _ (.emptying _) | removingOwn (.emptying _) => true
  | _ => false

/-- `acquire` returns. -/
def acquired (reconciling : Bool) : LockPoint := if reconciling then .removingReconcile true else .inside

/-- `acquire` throws. -/
def refused (reconciling : Bool) : LockPoint := if reconciling then .removingReconcile false else .settled

end LockPoint

/-- A call of `exclusive`. -/
structure LockCall where
  process : StoreProcess
  point : LockPoint
  deriving DecidableEq

/-- The platform, the files and the calls. `retired` lists what reconcilers have renamed: the record each had read, and
the directory that was at the path. -/
structure LockState where
  linux : Bool
  crashed : List StoreProcess
  lock : Option OwnedDirectory
  reconcile : Option Nat
  retired : List (LockOwner × OwnedDirectory)
  calls : List LockCall
  deriving DecidableEq

inductive LockLabel
  | start (process : StoreProcess)
  | advance (index : Nat) (answer : Answer)
  | crash (process : StoreProcess)

namespace LockState

/-- Nothing has happened yet. -/
def new (linux : Bool) : LockState := ⟨linux, [], none, none, [], []⟩

def Alive (s : LockState) (process : StoreProcess) : Prop := process ∉ s.crashed

instance (s : LockState) (process : StoreProcess) : Decidable (s.Alive process) := inferInstanceAs (Decidable (¬ _))

/-- No call is made by a live process with this number. -/
def Vacant (s : LockState) (pid : Nat) : Prop := ∀ call ∈ s.calls, call.process.pid = pid → ¬ s.Alive call.process

instance (s : LockState) (pid : Nat) : Decidable (s.Vacant pid) := inferInstanceAs (Decidable (∀ call ∈ s.calls, _))

/-- The record at `lock/owner.json`. -/
def ownerRecord (s : LockState) : Option LockOwner := s.lock.bind OwnedDirectory.owner

def hasTemporary (s : LockState) (index : Nat) : Bool := s.lock.any fun directory => directory.temporaries.contains index

def setPoint (s : LockState) (index : Nat) (point : LockPoint) : LockState :=
  { s with calls := s.calls.modify index fun call => { call with point } }

/-- A step of `fs.rm`; `next` says where the call stands while it goes on, and `ending` when it has ended. -/
def remove (s : LockState) (index : Nat) (next : Removal → LockPoint) (ending : LockPoint) (removal : Removal) :
    LockState :=
  match removal, s.lock with
  | _, none => s.setPoint index ending
  | .listing, some directory => s.setPoint index (next (.emptying directory.names))
  | .emptying (name :: names), some directory =>
    { s with lock := some (directory.unlink name) }.setPoint index (next (.emptying names))
  | .emptying [], some directory =>
    if directory.names = [] then { s with lock := none }.setPoint index ending else s.setPoint index ending

/-- The next step of a call that has its answer. -/
def resume (s : LockState) (index : Nat) (call : LockCall) (answer : Answer) : Option LockState :=
  match call.point, answer with
  | .makingLock reconciling, .done =>
    match s.lock with
    | none => some ({ s with lock := some ⟨index, [], none⟩ }.setPoint index (.writingTemporary reconciling))
    | some _ =>
      if reconciling then some (s.setPoint index (.removingReconcile false))
      else if s.linux then some (s.setPoint index .makingReconcile)
      else some (s.setPoint index .settled)
  | .makingLock reconciling, .failed => some (s.setPoint index (.refused reconciling))
  | .writingTemporary reconciling, .done =>
    match s.lock with
    | none => some (s.setPoint index (.withdrawing reconciling .listing))
    | some directory =>
      some ({ s with lock := some { directory with temporaries := index :: directory.temporaries } }.setPoint index
        (.syncing reconciling))
  | .syncing reconciling, .done =>
    if s.hasTemporary index then some (s.setPoint index (.publishing reconciling))
    else some (s.setPoint index (.withdrawing reconciling .listing))
  | .publishing reconciling, .done =>
    match s.lock with
    | none => some (s.setPoint index (.withdrawing reconciling .listing))
    | some directory =>
      if index ∈ directory.temporaries then
        some ({ s with
          lock := some { directory with
            temporaries := directory.temporaries.erase index
            owner := some ⟨index, call.process.pid⟩ } }.setPoint index
          (if s.linux then .syncingDirectory reconciling else .acquired reconciling))
      else some (s.setPoint index (.withdrawing reconciling .listing))
  | .syncingDirectory reconciling, .done =>
    if s.lock.isSome then some (s.setPoint index (.acquired reconciling))
    else some (s.setPoint index (.withdrawing reconciling .listing))
  | .writingTemporary reconciling, .failed | .syncing reconciling, .failed | .publishing reconciling, .failed
  | .syncingDirectory reconciling, .failed => some (s.setPoint index (.withdrawing reconciling .listing))
  | .withdrawing reconciling removal, .done =>
    some (s.remove index (.withdrawing reconciling) (.refused reconciling) removal)
  | .withdrawing reconciling _, .failed => some (s.setPoint index (.refused reconciling))
  | .makingReconcile, .done =>
    match s.reconcile with
    | none => some ({ s with reconcile := some index }.setPoint index .readingOwner)
    | some _ => some (s.setPoint index .settled)
  | .readingOwner, .done =>
    match s.ownerRecord with
    | none => some (s.setPoint index (.removingReconcile false))
    | some previous => some (s.setPoint index (.probing previous))
  -- an entry is missing only when no process has the number
  | .probing previous, .noEntry => if s.Vacant previous.pid then some (s.setPoint index (.retiring previous)) else none
  | .retiring previous, .done =>
    match s.lock with
    | none => some (s.setPoint index (.removingReconcile false))
    | some directory =>
      some ({ s with lock := none, retired := s.retired ++ [(previous, directory)] }.setPoint index (.makingLock true))
  | .readingOwner, .failed | .probing _, .done | .probing _, .failed | .retiring _, .failed =>
    some (s.setPoint index (.removingReconcile false))
  | .removingReconcile acquired, .done =>
    match s.reconcile with
    | none => some (s.setPoint index .settled)
    | some _ => some ({ s with reconcile := none }.setPoint index (if acquired then .inside else .settled))
  | .inside, .done | .inside, .failed => some (s.setPoint index .checkingOwner)
  | .checkingOwner, .done =>
    if s.ownerRecord.any (·.id = index) then some (s.setPoint index (.removingOwn .listing))
    else some (s.setPoint index .settled)
  | .removingOwn removal, .done => some (s.remove index .removingOwn .settled removal)
  | .makingReconcile, .failed | .removingReconcile _, .failed | .checkingOwner, .failed | .removingOwn _, .failed =>
    some (s.setPoint index .settled)
  | .settled, _ | _, .noEntry => none

/-- One step. A process makes steps only while it is alive. -/
def step (s : LockState) : LockLabel → Option LockState
  | .start process =>
    if s.Alive process then some { s with calls := s.calls ++ [⟨process, .makingLock false⟩] } else none
  | .advance index answer =>
    match s.calls[index]? with
    | some call => if s.Alive call.process then s.resume index call answer else none
    | none => none
  | .crash process => some { s with crashed := process :: s.crashed }

end LockState

/-- The runs of all processes that use one lock of the store. -/
def lockSystem : TransitionSystem LockState LockLabel := ofNext (fun s => ∃ linux, s = .new linux) LockState.step

/-! ## What a step does -/

/-- A call goes on without taking a lock and without a record in hand. -/
structure Proceeds (before after : LockPoint) : Prop where
  holds : after.holds = true → before.holds = true
  reconciles : after.reconciles = true → before.reconciles = true
  previous : after.previous = none

/-- What a step does to the files, and to the call that makes it. -/
inductive LockEffect (s : LockState) : LockLabel → LockState → Prop
  | start (process : StoreProcess) :
      LockEffect s (.start process) { s with calls := s.calls ++ [⟨process, .makingLock false⟩] }
  | crash (process : StoreProcess) : LockEffect s (.crash process) { s with crashed := process :: s.crashed }
  | on {index : Nat} {answer : Answer} {call : LockCall} {point : LockPoint} : s.calls[index]? = some call →
      Proceeds call.point point → LockEffect s (.advance index answer) (s.setPoint index point)
  | make {index : Nat} {answer : Answer} {call : LockCall} {reconciling : Bool} : s.calls[index]? = some call →
      call.point = .makingLock reconciling → s.lock = none →
      LockEffect s (.advance index answer)
        ({ s with lock := some ⟨index, [], none⟩ }.setPoint index (.writingTemporary reconciling))
  | write {index : Nat} {answer : Answer} {call : LockCall} {point : LockPoint} {directory directory' : OwnedDirectory} :
      s.calls[index]? = some call → s.Alive call.process → call.point.holds = true → Proceeds call.point point →
      s.lock = some directory → directory'.maker = directory.maker →
      (directory'.owner = directory.owner ∨ directory'.owner = some ⟨index, call.process.pid⟩) →
      LockEffect s (.advance index answer) ({ s with lock := some directory' }.setPoint index point)
  | unlink {index : Nat} {call : LockCall} {point : LockPoint} {directory : OwnedDirectory} {name : LockName} :
      s.calls[index]? = some call → s.Alive call.process → call.point.holds = true → call.point.empties = true →
      Proceeds call.point point → s.lock = some directory →
      LockEffect s (.advance index .done) ({ s with lock := some (directory.unlink name) }.setPoint index point)
  | remove {index : Nat} {call : LockCall} {point : LockPoint} :
      s.calls[index]? = some call → s.Alive call.process → call.point.holds = true → call.point.empties = true →
      Proceeds call.point point → point.holds = false →
      LockEffect s (.advance index .done) ({ s with lock := none }.setPoint index point)
  | reconcile {index : Nat} {answer : Answer} {call : LockCall} : s.calls[index]? = some call →
      call.point = .makingReconcile → s.reconcile = none →
      LockEffect s (.advance index answer) ({ s with reconcile := some index }.setPoint index .readingOwner)
  | read {index : Nat} {answer : Answer} {call : LockCall} {previous : LockOwner} : s.calls[index]? = some call →
      call.point = .readingOwner → s.ownerRecord = some previous →
      LockEffect s (.advance index answer) (s.setPoint index (.probing previous))
  | condemn {index : Nat} {answer : Answer} {call : LockCall} {previous : LockOwner} : s.calls[index]? = some call →
      call.point = .probing previous → s.Vacant previous.pid →
      LockEffect s (.advance index answer) (s.setPoint index (.retiring previous))
  | retire {index : Nat} {call : LockCall} {previous : LockOwner} {directory : OwnedDirectory} :
      s.calls[index]? = some call → s.Alive call.process → call.point = .retiring previous → s.lock = some directory →
      LockEffect s (.advance index .done)
        ({ s with lock := none, retired := s.retired ++ [(previous, directory)] }.setPoint index (.makingLock true))
  | finish {index : Nat} {answer : Answer} {call : LockCall} {acquired : Bool} : s.calls[index]? = some call →
      s.Alive call.process → call.point = .removingReconcile acquired →
      LockEffect s (.advance index answer)
        ({ s with reconcile := none }.setPoint index (if acquired then .inside else .settled))

section Effects

variable {s s' : LockState} {index : Nat} {call : LockCall} {answer : Answer}

@[simp] theorem holds_refused (reconciling : Bool) : (LockPoint.refused reconciling).holds = false := by
  cases reconciling <;> rfl

@[simp] theorem reconciles_acquired (reconciling : Bool) : (LockPoint.acquired reconciling).reconciles = reconciling := by
  cases reconciling <;> rfl

@[simp] theorem reconciles_refused (reconciling : Bool) : (LockPoint.refused reconciling).reconciles = reconciling := by
  cases reconciling <;> rfl

@[simp] theorem previous_acquired (reconciling : Bool) : (LockPoint.acquired reconciling).previous = none := by
  cases reconciling <;> rfl

@[simp] theorem previous_refused (reconciling : Bool) : (LockPoint.refused reconciling).previous = none := by
  cases reconciling <;> rfl

/-- A call that ends. -/
theorem Proceeds.settled (point : LockPoint) : Proceeds point .settled := ⟨nofun, nofun, rfl⟩

/-- A call under the reconciliation lock that gives up. -/
theorem Proceeds.giveUp {point : LockPoint} (h : point.reconciles = true) : Proceeds point (.removingReconcile false) :=
  ⟨nofun, fun _ => h, rfl⟩

/-- **A step of `fs.rm`**, by a call that holds the lock. -/
theorem remove_effect (next : Removal → LockPoint) {ending : LockPoint} {removal : Removal}
    (hc : s.calls[index]? = some call) (ha : s.Alive call.process) (hpoint : call.point = next removal)
    (hholds : ∀ removal, (next removal).holds = true) (hempties : ∀ names, (next (.emptying names)).empties = true)
    (hnext : ∀ removal removal', Proceeds (next removal) (next removal')) (hover : Proceeds (next removal) ending)
    (hfree : ending.holds = false) : LockEffect s (.advance index .done) (s.remove index next ending removal) := by
  have hproceeds : Proceeds call.point ending := hpoint ▸ hover
  have hheld : call.point.holds = true := hpoint ▸ hholds removal
  unfold LockState.remove
  cases hlock : s.lock with
  | none => exact .on hc hproceeds
  | some directory =>
    cases removal with
    | listing => exact .on hc (hpoint ▸ hnext _ _)
    | emptying names =>
      have hemptying : call.point.empties = true := hpoint ▸ hempties names
      cases names with
      | nil =>
        simp only
        split
        · exact .remove hc ha hheld hemptying hproceeds hfree
        · exact .on hc hproceeds
      | cons name names => exact .unlink hc ha hheld hemptying (hpoint ▸ hnext _ _) hlock

theorem resume_lockEffect (hc : s.calls[index]? = some call) (ha : s.Alive call.process)
    (h : s.resume index call answer = some s') : LockEffect s (.advance index answer) s' := by
  obtain ⟨process, point⟩ := call
  cases point with
  | makingLock reconciling =>
    cases answer with
    | noEntry => cases h
    | failed =>
      cases h
      exact .on hc ⟨by simp, fun h => (reconciles_refused _).symm.trans h, by simp⟩
    | done =>
      simp only [LockState.resume] at h
      split at h
      · rename_i hlock
        cases h
        exact .make hc rfl hlock
      · cases reconciling with
        | true => cases h; exact .on hc (.giveUp rfl)
        | false =>
          simp only [Bool.false_eq_true, if_false] at h
          split at h <;> cases h
          · exact .on hc ⟨nofun, nofun, rfl⟩
          · exact .on hc (.settled _)
  | writingTemporary reconciling =>
    cases answer with
    | noEntry => cases h
    | failed => cases h; exact .on hc ⟨fun _ => rfl, id, rfl⟩
    | done =>
      simp only [LockState.resume] at h
      split at h <;> cases h
      · exact .on hc ⟨fun _ => rfl, id, rfl⟩
      · rename_i directory hlock
        exact .write hc ha rfl ⟨fun _ => rfl, id, rfl⟩ hlock rfl (.inl rfl)
  | syncing reconciling =>
    cases answer with
    | noEntry => cases h
    | failed => cases h; exact .on hc ⟨fun _ => rfl, id, rfl⟩
    | done =>
      simp only [LockState.resume] at h
      split at h <;> cases h <;>
        exact .on hc ⟨fun _ => rfl, id, rfl⟩
  | publishing reconciling =>
    cases answer with
    | noEntry => cases h
    | failed => cases h; exact .on hc ⟨fun _ => rfl, id, rfl⟩
    | done =>
      simp only [LockState.resume] at h
      split at h
      · cases h
        exact .on hc ⟨fun _ => rfl, id, rfl⟩
      · split at h <;> cases h
        · rename_i directory hlock _
          refine .write hc ha rfl ?_ hlock rfl (.inr rfl)
          split
          · exact ⟨fun _ => rfl, id, rfl⟩
          · exact ⟨fun _ => rfl, fun h => (reconciles_acquired _).symm.trans h, by simp⟩
        · exact .on hc ⟨fun _ => rfl, id, rfl⟩
  | syncingDirectory reconciling =>
    cases answer with
    | noEntry => cases h
    | failed => cases h; exact .on hc ⟨fun _ => rfl, id, rfl⟩
    | done =>
      simp only [LockState.resume] at h
      split at h <;> cases h
      · exact .on hc ⟨fun _ => rfl, fun h => (reconciles_acquired _).symm.trans h, by simp⟩
      · exact .on hc ⟨fun _ => rfl, id, rfl⟩
  | withdrawing reconciling removal =>
    have hover : ∀ removal, Proceeds (.withdrawing reconciling removal) (.refused reconciling) := fun removal =>
      ⟨by simp, fun h => (reconciles_refused _).symm.trans h, by simp⟩
    cases answer with
    | noEntry => cases h
    | failed => cases h; exact .on hc (hover removal)
    | done =>
      cases h
      refine remove_effect (.withdrawing reconciling) hc ha rfl (fun _ => rfl) (fun _ => rfl) (fun _ _ => ?_)
        (hover removal) (by simp)
      exact ⟨fun _ => rfl, id, rfl⟩
  | makingReconcile =>
    cases answer with
    | noEntry => cases h
    | failed => cases h; exact .on hc (.settled _)
    | done =>
      simp only [LockState.resume] at h
      split at h <;> cases h
      · exact .reconcile hc rfl ‹_›
      · exact .on hc (.settled _)
  | readingOwner =>
    cases answer with
    | noEntry => cases h
    | failed => cases h; exact .on hc (.giveUp rfl)
    | done =>
      simp only [LockState.resume] at h
      split at h <;> cases h
      · exact .on hc (.giveUp rfl)
      · exact .read hc rfl ‹_›
  | probing previous =>
    cases answer with
    | done | failed => cases h; exact .on hc (.giveUp rfl)
    | noEntry =>
      obtain ⟨hvacant, h⟩ := Option.ite_none_right_eq_some.mp h
      cases h
      exact .condemn hc rfl hvacant
  | retiring previous =>
    cases answer with
    | noEntry => cases h
    | failed => cases h; exact .on hc (.giveUp rfl)
    | done =>
      simp only [LockState.resume] at h
      split at h <;> cases h
      · exact .on hc (.giveUp rfl)
      · exact .retire hc ha rfl ‹_›
  | removingReconcile acquired =>
    cases answer with
    | noEntry => cases h
    | failed => cases h; exact .on hc (.settled _)
    | done =>
      simp only [LockState.resume] at h
      split at h <;> cases h
      · exact .on hc (.settled _)
      · exact .finish hc ha rfl
  | inside =>
    cases answer with
    | noEntry => cases h
    | done | failed => cases h; exact .on hc ⟨fun _ => rfl, nofun, rfl⟩
  | checkingOwner =>
    cases answer with
    | noEntry => cases h
    | failed => cases h; exact .on hc (.settled _)
    | done =>
      simp only [LockState.resume] at h
      split at h <;> cases h
      · exact .on hc ⟨fun _ => rfl, nofun, rfl⟩
      · exact .on hc (.settled _)
  | removingOwn removal =>
    cases answer with
    | noEntry => cases h
    | failed => cases h; exact .on hc (.settled _)
    | done =>
      cases h
      exact remove_effect .removingOwn hc ha rfl (fun _ => rfl) (fun _ => rfl)
        (fun _ _ => ⟨fun _ => rfl, nofun, rfl⟩) (.settled _) rfl
  | settled => cases h

/-- **A step does what `LockEffect` lists.** -/
theorem step_lockEffect {label : LockLabel} (h : s.step label = some s') : LockEffect s label s' := by
  cases label with
  | start process =>
    obtain ⟨_, h⟩ := Option.ite_none_right_eq_some.mp h
    cases h
    exact .start process
  | advance index answer =>
    simp only [LockState.step] at h
    split at h
    · rename_i call hc
      obtain ⟨ha, h⟩ := Option.ite_none_right_eq_some.mp h
      exact resume_lockEffect hc ha h
    · cases h
  | crash process => cases h; exact .crash process

end Effects

end AuraCall.Desktop
