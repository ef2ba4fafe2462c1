import AuraCall.Lib.Transition

/-!
# Transitions of a desktop control gate

`DesktopControlGate.transition` runs an operation under a lock file. A call writes its record to a file of its own and
links that file to `transitionPath`, which fails while there is a file. Then it runs `reclaimDeadTransition`, which
removes the record of a dead process: it reads the record, looks for the process in `/proc`, links the file a second time
to a path named after the record, compares inode numbers, and unlinks `transitionPath`.

The model is any number of calls in any number of processes, with one atomic step of the file system for each await, and
with processes and machines that crash at any time. An inode number may be given to a new file as soon as no link is left.
-/

namespace AuraCall.Desktop

open TransitionSystem

/-! ## Records and calls -/

/-- A process, in the boot of the machine that runs it. -/
structure Process where
  boot : Nat
  pid : Nat
  deriving DecidableEq

/-- `TransitionOwner`. The identifier, a random UUID, is the number of the call. -/
structure TransitionOwner where
  id : Nat
  ownerPid : Process
  bootId : Option Nat
  deriving DecidableEq

/-- `TransitionSnapshot`: a record and the inode number of its file. The files are all on one device. -/
structure TransitionSnapshot where
  owner : TransitionOwner
  ino : Nat
  deriving DecidableEq

/-- Where a call stands: the file system call it is going to make. The operation runs at `inside`. -/
inductive TransitionPoint
  | linking (attempt : Nat)
  | reading (attempt : Nat)
  | probing (attempt : Nat) (previous : TransitionSnapshot)
  | electing (attempt : Nat) (previous : TransitionSnapshot)
  | checkingRetired (attempt : Nat) (previous : TransitionSnapshot)
  | checkingFile (attempt : Nat) (previous : TransitionSnapshot)
  | unlinking (attempt : Nat) (previous : TransitionSnapshot)
  | inside
  | checkingOwn
  | unlinkingOwn
  | removingPending
  | settled (pendingRemoved : Bool)
  deriving DecidableEq

namespace TransitionPoint

/-- The call has linked its record and has not given it up. -/
def holds : TransitionPoint → Bool
  | inside | checkingOwn | unlinkingOwn => true
  | _ => false

/-- The record the call has read in `reclaimDeadTransition`. -/
def previous : TransitionPoint → Option TransitionSnapshot
  | probing _ previous | electing _ previous | checkingRetired _ previous | checkingFile _ previous
  | unlinking _ previous => some previous
  | _ => none

/-- The record whose process the call has found dead. -/
def condemned : TransitionPoint → Option TransitionSnapshot
  | electing _ previous | checkingRetired _ previous | checkingFile _ previous | unlinking _ previous => some previous
  | _ => none

/-- The record the call has been elected to reclaim. -/
def elected : TransitionPoint → Option TransitionSnapshot
  | checkingRetired _ previous | checkingFile _ previous | unlinking _ previous => some previous
  | _ => none

/-- The record the call is going to unlink. -/
def doomed : TransitionPoint → Option TransitionSnapshot
  | unlinking _ previous => some previous
  | _ => none

/-- The next turn of the loop: after a hundred attempts the call throws `DesktopControlBusyError`. -/
def retry (attempt : Nat) : TransitionPoint := if attempt + 1 < 100 then .linking (attempt + 1) else .removingPending

end TransitionPoint

/-- A call of `transition`: the record it has published in its pending file, and where it stands. -/
structure TransitionCall where
  published : TransitionSnapshot
  point : TransitionPoint
  deriving DecidableEq

/-- The machine, the files and the calls. `reclaimed` lists what reclaimers have unlinked: the record each had read, and
the record that was at the path. -/
structure TransitionState where
  boot : Nat
  crashed : List Process
  file : Option TransitionSnapshot
  retired : List (Nat × TransitionSnapshot)
  calls : List TransitionCall
  reclaimed : List (TransitionSnapshot × TransitionSnapshot)
  deriving DecidableEq

namespace TransitionState

/-- Nothing has happened yet. -/
def new : TransitionState := ⟨0, [], none, [], [], []⟩

/-- The process runs. -/
def Alive (s : TransitionState) (process : Process) : Prop := process.boot = s.boot ∧ process ∉ s.crashed

/-- The process has run and runs no more. -/
def Dead (s : TransitionState) (process : Process) : Prop := process.boot < s.boot ∨ process ∈ s.crashed

instance (s : TransitionState) (process : Process) : Decidable (s.Alive process) :=
  inferInstanceAs (Decidable (_ ∧ _))

instance (s : TransitionState) (process : Process) : Decidable (s.Dead process) :=
  inferInstanceAs (Decidable (_ ∨ _))

/-- The files that have a link: the one at the path, the retired ones, and the pending files that are still there. -/
def linked (s : TransitionState) : List TransitionSnapshot :=
  s.file.toList ++ s.retired.map Prod.snd ++
    (s.calls.filter fun call => call.point ≠ .settled true).map TransitionCall.published

/-- The record at `retired-<id>`. -/
def retiredRecord (s : TransitionState) (id : Nat) : Option TransitionSnapshot :=
  (s.retired.find? fun entry => entry.1 = id).map Prod.snd

/-- Moves a call. -/
def setPoint (s : TransitionState) (index : Nat) (point : TransitionPoint) : TransitionState :=
  { s with calls := s.calls.modify index fun call => { call with point } }

end TransitionState

/-- `sameTransition`: is the file at the path the one that was read? Only the inode numbers are compared. -/
def sameTransition (actual : Option TransitionSnapshot) (expected : TransitionSnapshot) : Bool :=
  match actual with
  | none => false
  | some actual => actual.ino = expected.ino

/-! ## Steps -/

/-- How a file system call, or the operation, ends: it succeeds or fails with `EEXIST` or `ENOENT` as the files are, it
finds no entry in `/proc`, or it fails in another way. -/
inductive Answer
  | done
  | noEntry
  | failed
  deriving DecidableEq

/-- What can happen. -/
inductive TransitionLabel
  | start (process : Process) (bootId : Option Nat) (ino : Nat)
  | advance (index : Nat) (answer : Answer)
  | crash (process : Process)
  | reboot

namespace TransitionState

/-- The next await of a call that has its answer. -/
def resume (s : TransitionState) (index : Nat) (call : TransitionCall) (answer : Answer) : Option TransitionState :=
  match call.point, answer with
  | .linking attempt, .done =>
    match s.file with
    | none => some ({ s with file := some call.published }.setPoint index .inside)
    | some _ =>
      match call.published.owner.bootId with
      | none => some (s.setPoint index (.retry attempt))
      | some _ => some (s.setPoint index (.reading attempt))
  | .reading attempt, .done =>
    match s.file with
    | none => some (s.setPoint index (.retry attempt))
    | some previous =>
      if previous.owner.bootId = call.published.owner.bootId then some (s.setPoint index (.probing attempt previous))
      else some (s.setPoint index (.retry attempt))
  | .probing attempt _, .done => some (s.setPoint index (.retry attempt))
  -- an entry is missing only when the process is dead
  | .probing attempt previous, .noEntry =>
    if s.Dead previous.owner.ownerPid then some (s.setPoint index (.electing attempt previous)) else none
  | .electing attempt previous, .done =>
    match s.retiredRecord previous.owner.id, s.file with
    | none, some record =>
      some ({ s with retired := (previous.owner.id, record) :: s.retired }.setPoint index
        (.checkingRetired attempt previous))
    | _, _ => some (s.setPoint index (.retry attempt))
  | .checkingRetired attempt previous, .done =>
    if sameTransition (s.retiredRecord previous.owner.id) previous then
      some (s.setPoint index (.checkingFile attempt previous))
    else some (s.setPoint index (.retry attempt))
  | .checkingFile attempt previous, .done =>
    if sameTransition s.file previous then some (s.setPoint index (.unlinking attempt previous))
    else some (s.setPoint index (.retry attempt))
  | .unlinking attempt previous, .done =>
    match s.file with
    | none => some (s.setPoint index .removingPending)
    | some record =>
      some ({ s with file := none, reclaimed := s.reclaimed ++ [(previous, record)] }.setPoint index (.retry attempt))
  | .inside, .done | .inside, .failed => some (s.setPoint index .checkingOwn)
  | .checkingOwn, .done =>
    if sameTransition s.file call.published then some (s.setPoint index .unlinkingOwn)
    else some (s.setPoint index .removingPending)
  | .unlinkingOwn, .done => some ({ s with file := none }.setPoint index .removingPending)
  | .removingPending, .done => some (s.setPoint index (.settled true))
  | .removingPending, .failed => some (s.setPoint index (.settled false))
  | .settled _, _ => none
  -- any other error is thrown, and the pending file is removed on the way out
  | _, .failed => some (s.setPoint index .removingPending)
  | _, .noEntry => none

/-- One step. A call starts by writing its pending file, and a process makes steps only while it is alive. -/
def step (s : TransitionState) : TransitionLabel → Option TransitionState
  | .start process bootId ino =>
    if s.Alive process ∧ (bootId = none ∨ bootId = some s.boot) ∧ ∀ record ∈ s.linked, record.ino ≠ ino then
      some { s with calls := s.calls ++ [⟨⟨⟨s.calls.length, process, bootId⟩, ino⟩, .linking 0⟩] }
    else none
  | .advance index answer =>
    match s.calls[index]? with
    | some call => if s.Alive call.published.owner.ownerPid then s.resume index call answer else none
    | none => none
  | .crash process => some { s with crashed := process :: s.crashed }
  | .reboot => some { s with boot := s.boot + 1 }

end TransitionState

/-- The runs of all processes that use one gate. -/
def transitionSystem : TransitionSystem TransitionState TransitionLabel := ofNext (· = .new) TransitionState.step

/-! ## What a step does -/

open TransitionPoint in
/-- What a step does to the files, and to the call that makes it. A call that moves `on` has no record of another in
hand; the moves that read, condemn, elect and confirm a record are listed one by one. -/
inductive TransitionEffect (s : TransitionState) : TransitionLabel → TransitionState → Prop
  | start (process : Process) (bootId : Option Nat) (ino : Nat) : s.Alive process →
      (∀ record ∈ s.linked, record.ino ≠ ino) →
      TransitionEffect s (.start process bootId ino)
        { s with calls := s.calls ++ [⟨⟨⟨s.calls.length, process, bootId⟩, ino⟩, .linking 0⟩] }
  | crash (process : Process) : TransitionEffect s (.crash process) { s with crashed := process :: s.crashed }
  | reboot : TransitionEffect s .reboot { s with boot := s.boot + 1 }
  | on {index : Nat} {answer : Answer} {call : TransitionCall} {point : TransitionPoint} : s.calls[index]? = some call →
      point.previous = none → (point.holds = true → call.point.holds = true) → call.point ≠ .settled true →
      TransitionEffect s (.advance index answer) (s.setPoint index point)
  | acquire {index : Nat} {answer : Answer} {call : TransitionCall} : s.calls[index]? = some call →
      s.file = none → call.point ≠ .settled true →
      TransitionEffect s (.advance index answer) ({ s with file := some call.published }.setPoint index .inside)
  | read {index attempt : Nat} {answer : Answer} {call : TransitionCall} {previous : TransitionSnapshot} :
      s.calls[index]? = some call → s.file = some previous → call.point ≠ .settled true →
      TransitionEffect s (.advance index answer) (s.setPoint index (.probing attempt previous))
  | condemn {index attempt : Nat} {answer : Answer} {call : TransitionCall} {previous : TransitionSnapshot} :
      s.calls[index]? = some call → call.point = .probing attempt previous → s.Dead previous.owner.ownerPid →
      TransitionEffect s (.advance index answer) (s.setPoint index (.electing attempt previous))
  | elect {index attempt : Nat} {answer : Answer} {call : TransitionCall} {previous record : TransitionSnapshot} :
      s.calls[index]? = some call → call.point = .electing attempt previous →
      s.retiredRecord previous.owner.id = none → s.file = some record →
      TransitionEffect s (.advance index answer)
        ({ s with retired := (previous.owner.id, record) :: s.retired }.setPoint index
          (.checkingRetired attempt previous))
  | compare {index attempt : Nat} {answer : Answer} {call : TransitionCall} {previous : TransitionSnapshot} :
      s.calls[index]? = some call → call.point = .checkingRetired attempt previous →
      TransitionEffect s (.advance index answer) (s.setPoint index (.checkingFile attempt previous))
  | confirm {index attempt : Nat} {call : TransitionCall} {previous : TransitionSnapshot} :
      s.calls[index]? = some call → s.Alive call.published.owner.ownerPid →
      call.point = .checkingFile attempt previous → sameTransition s.file previous = true →
      TransitionEffect s (.advance index .done) (s.setPoint index (.unlinking attempt previous))
  | reclaim {index attempt : Nat} {call : TransitionCall} {previous record : TransitionSnapshot} :
      s.calls[index]? = some call → s.Alive call.published.owner.ownerPid →
      call.point = .unlinking attempt previous → s.file = some record →
      TransitionEffect s (.advance index .done)
        ({ s with file := none, reclaimed := s.reclaimed ++ [(previous, record)] }.setPoint index (retry attempt))
  | release {index : Nat} {call : TransitionCall} : s.calls[index]? = some call →
      s.Alive call.published.owner.ownerPid → call.point = .unlinkingOwn →
      TransitionEffect s (.advance index .done) ({ s with file := none }.setPoint index .removingPending)

/-- A call that tries again has no record of another in hand, and no lock. -/
@[simp] theorem previous_retry (attempt : Nat) : (TransitionPoint.retry attempt).previous = none := by
  unfold TransitionPoint.retry
  split <;> rfl

@[simp] theorem holds_retry (attempt : Nat) : (TransitionPoint.retry attempt).holds = false := by
  unfold TransitionPoint.retry
  split <;> rfl

variable {s s' : TransitionState}

theorem resume_effect {index : Nat} {call : TransitionCall} {answer : Answer} (hc : s.calls[index]? = some call)
    (ha : s.Alive call.published.owner.ownerPid) (h : s.resume index call answer = some s') :
    TransitionEffect s (.advance index answer) s' := by
  obtain ⟨published, point⟩ := call
  cases point with
  | linking attempt =>
    cases answer with
    | done =>
      simp only [TransitionState.resume] at h
      split at h
      · rename_i hfile
        cases h
        exact .acquire hc hfile nofun
      · split at h <;> cases h
        · exact .on hc (by simp) (by simp) nofun
        · exact .on hc rfl nofun nofun
    | noEntry => cases h
    | failed => cases h; exact .on hc rfl nofun nofun
  | reading attempt =>
    cases answer with
    | done =>
      simp only [TransitionState.resume] at h
      split at h
      · cases h
        exact .on hc (by simp) (by simp) nofun
      · rename_i hfile
        split at h <;> cases h
        · exact .read hc hfile nofun
        · exact .on hc (by simp) (by simp) nofun
    | noEntry => cases h
    | failed => cases h; exact .on hc rfl nofun nofun
  | probing attempt previous =>
    cases answer with
    | done => cases h; exact .on hc (by simp) (by simp) nofun
    | noEntry =>
      simp only [TransitionState.resume] at h
      split at h
      · rename_i hdead
        cases h
        exact .condemn hc rfl hdead
      · cases h
    | failed => cases h; exact .on hc rfl nofun nofun
  | electing attempt previous =>
    cases answer with
    | done =>
      simp only [TransitionState.resume] at h
      split at h <;> cases h
      · exact .elect hc rfl ‹_› ‹_›
      · exact .on hc (by simp) (by simp) nofun
    | noEntry => cases h
    | failed => cases h; exact .on hc rfl nofun nofun
  | checkingRetired attempt previous =>
    cases answer with
    | done =>
      simp only [TransitionState.resume] at h
      split at h <;> cases h
      · exact .compare hc rfl
      · exact .on hc (by simp) (by simp) nofun
    | noEntry => cases h
    | failed => cases h; exact .on hc rfl nofun nofun
  | checkingFile attempt previous =>
    cases answer with
    | done =>
      simp only [TransitionState.resume] at h
      split at h <;> cases h
      · exact .confirm hc ha rfl ‹_›
      · exact .on hc (by simp) (by simp) nofun
    | noEntry => cases h
    | failed => cases h; exact .on hc rfl nofun nofun
  | unlinking attempt previous =>
    cases answer with
    | done =>
      simp only [TransitionState.resume] at h
      split at h <;> cases h
      · exact .on hc rfl nofun nofun
      · exact .reclaim hc ha rfl ‹_›
    | noEntry => cases h
    | failed => cases h; exact .on hc rfl nofun nofun
  | inside =>
    cases answer with
    | noEntry => cases h
    | done | failed => cases h; exact .on hc rfl (fun _ => rfl) nofun
  | checkingOwn =>
    cases answer with
    | done =>
      simp only [TransitionState.resume] at h
      split at h <;> cases h
      · exact .on hc rfl (fun _ => rfl) nofun
      · exact .on hc rfl nofun nofun
    | noEntry => cases h
    | failed => cases h; exact .on hc rfl nofun nofun
  | unlinkingOwn =>
    cases answer with
    | done => cases h; exact .release hc ha rfl
    | noEntry => cases h
    | failed => cases h; exact .on hc rfl nofun nofun
  | removingPending =>
    cases answer with
    | noEntry => cases h
    | done | failed => cases h; exact .on hc rfl nofun nofun
  | settled pendingRemoved => cases h

/-- **A step does what `TransitionEffect` lists.** -/
theorem step_effect {label : TransitionLabel} (h : s.step label = some s') : TransitionEffect s label s' := by
  cases label with
  | start process bootId ino =>
    obtain ⟨⟨ha, _, hfresh⟩, h⟩ := Option.ite_none_right_eq_some.mp h
    cases h
    exact .start process bootId ino ha hfresh
  | advance index answer =>
    simp only [TransitionState.step] at h
    split at h
    · rename_i call hc
      obtain ⟨ha, h⟩ := Option.ite_none_right_eq_some.mp h
      exact resume_effect hc ha h
    · cases h
  | crash process => cases h; exact .crash process
  | reboot => cases h; exact .reboot

end AuraCall.Desktop
