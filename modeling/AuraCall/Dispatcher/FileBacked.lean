import Mathlib.Logic.Function.Basic
import AuraCall.Lib.ExclusiveSlot
import AuraCall.Lib.Transition
import AuraCall.Dispatcher.Model

/-!
# The file-backed dispatcher

`FileBackedBrowserOperationDispatcher` creates the lock file of a key exclusively and then writes the operation into it.
A call that finds the file reads it, and removes it when it holds no record or the record of a dead owner.

The model is the calls on one key, each a phase between two atomic steps of the file system; `Action` is one such step.
A file that was created and not written yet reads as one without a record, so its reader removes it and `acquire` grants
the key twice (`emptyLock_granted_twice`). `fileBacked_exclusive` shows that removing the lock of a call that is still
entitled to it is the only way to this.
-/

namespace AuraCall.Dispatcher.FileBacked

/-! ## Calls and phases -/

/-- The file at `lockPath`: its inode, and what `readLock` parses from it, `none` until a record is written. -/
structure LockFile where
  inode : Nat
  content : Option BrowserOperationRecord

/-- Where a call of `acquire` stands. -/
inductive AcquirePhase
  | opening
  | writing (operation : BrowserOperationRecord) (inode : Nat)
  | granted (operation : BrowserOperationRecord) (inode : Nat)
  | contended
  | reclaiming
  | busy (result : BrowserOperationBusyResult)
  | thrown

/-- Where a call of a granted operation's `release` stands. -/
inductive ReleasePhase
  | reading | removing | finished

/-- The calls of `acquire` on one key by live processes. -/
structure Calls (ι : Type) where
  host : ι → Host
  input : ι → BrowserOperationAcquireInput
  key : String
  key_eq : ∀ i, buildBrowserOperationKey (host i) (input i) = key
  isOwnerAlive : Int → Bool
  alive : ∀ i, isOwnerAlive ((input i).ownerPid.getD (host i).pid) = true

/-- The lock file, the next inode, the identifiers given out, and the calls of `acquire` and `release`. -/
structure State (ι : Type) where
  file : Option LockFile
  inodes : Nat
  issued : List String
  acquiring : ι → AcquirePhase
  releasing : ι → Nat → ReleasePhase

/-- One atomic step of a call: `release i k` stands for the `k`-th call of the `release` of `i`. -/
inductive Action (ι : Type)
  | open (i : ι) (id : String) (nowMs : Int)
  | write (i : ι)
  | read (i : ι)
  | remove (i : ι)
  | throw (i : ι)
  | releaseRead (i : ι) (k : Nat)
  | releaseRemove (i : ι) (k : Nat)

variable {ι : Type} [DecidableEq ι]

def State.setAcquiring (s : State ι) (i : ι) (phase : AcquirePhase) : State ι :=
  { s with acquiring := Function.update s.acquiring i phase }

def State.setReleasing (s : State ι) (i : ι) (k : Nat) (phase : ReleasePhase) : State ι :=
  { s with releasing := Function.update s.releasing i (Function.update (s.releasing i) k phase) }

/-- `readLock(lockPath)`. -/
def readLock (s : State ι) : Option BrowserOperationRecord := s.file.bind (·.content)

/-- `fs.open(lockPath, 'wx')`: creates the file, or fails with `EEXIST`. -/
def openExclusive (s : State ι) (i : ι) (operation : BrowserOperationRecord) : State ι :=
  match s.file with
  | none =>
    { s with file := some ⟨s.inodes, none⟩, inodes := s.inodes + 1 }.setAcquiring i (.writing operation s.inodes)
  | some _ => s.setAcquiring i .contended

/-- `handle.writeFile(…)`: writes through the handle, whether or not its file is still the one at the path. -/
def writeRecord (s : State ι) (inode : Nat) (operation : BrowserOperationRecord) : State ι :=
  { s with file := s.file.map fun file => if file.inode = inode then { file with content := some operation } else file }

def next (calls : Calls ι) (s : State ι) : Action ι → Option (State ι)
  | .open i id nowMs => match s.acquiring i with
    | .opening =>
      if id ∈ s.issued then none
      else match (buildOperationRecord (calls.host i) (calls.input i) calls.key id nowMs :
          Except (Stop BrowserOperationBusyResult) BrowserOperationRecord) with
        | .error _ => some (s.setAcquiring i .thrown)
        | .ok operation => some (openExclusive { s with issued := id :: s.issued } i operation)
    | _ => none
  | .write i => match s.acquiring i with
    | .writing operation inode => some ((writeRecord s inode operation).setAcquiring i (.granted operation inode))
    | _ => none
  | .read i => match s.acquiring i with
    | .contended => match readLock s with
      | none => some (s.setAcquiring i .reclaiming)
      | some existing =>
        if calls.isOwnerAlive existing.ownerPid then some (s.setAcquiring i (.busy (busyResult calls.key existing)))
        else some (s.setAcquiring i .reclaiming)
    | _ => none
  | .remove i => match s.acquiring i with
    | .reclaiming => some ({ s with file := none }.setAcquiring i .opening)
    | _ => none
  | .throw i => match s.acquiring i with
    | .opening | .writing _ _ | .contended | .reclaiming => some (s.setAcquiring i .thrown)
    | _ => none
  | .releaseRead i k => match s.acquiring i, s.releasing i k with
    | .granted operation _, .reading =>
      if (readLock s).any (·.id == operation.id) then some (s.setReleasing i k .removing)
      else some (s.setReleasing i k .finished)
    | _, _ => none
  | .releaseRemove i k => match s.acquiring i, s.releasing i k with
    | .granted _ _, .removing => some ({ s with file := none }.setReleasing i k .finished)
    | _, _ => none

/-- No call has begun; a file may be left at the path. -/
def Initial (s : State ι) : Prop :=
  (∀ i, s.acquiring i = .opening) ∧ (∀ i k, s.releasing i k = .reading) ∧
    ∀ file, s.file = some file → file.inode < s.inodes

/-- All interleavings of the calls. -/
def fileBacked (calls : Calls ι) : TransitionSystem (State ι) (Action ι) := .ofNext Initial (next calls)

/-! ## Ownership of the lock file -/

/-- Granted, and no call of its `release` has finished. -/
def Held (s : State ι) (i : ι) : Prop :=
  (∃ operation inode, s.acquiring i = .granted operation inode) ∧ ∀ k, s.releasing i k ≠ .finished

/-- A call owns the file it created while it writes the record and while it holds the operation. -/
def Owns (s : State ι) (i : ι) (inode : Nat) : Prop :=
  ∃ operation, s.acquiring i = .writing operation inode ∨
    (s.acquiring i = .granted operation inode ∧ ∀ k, s.releasing i k ≠ .finished)

/-- The lock file with its owners. -/
def slot (s : State ι) : Slot ι Nat := ⟨s.file.map (·.inode), Owns s⟩

/-- The step removes no lock file but one nobody owns, or the releasing call's own. -/
def SparesOwners (s : State ι) : Action ι → Prop
  | .remove _ => ∀ j inode, Owns s j inode → s.file.map (·.inode) ≠ some inode
  | .releaseRemove i _ => ∀ j inode, j ≠ i → Owns s j inode → s.file.map (·.inode) ≠ some inode
  | _ => True

variable {calls : Calls ι} {s s' : State ι}

/-- Ownership after a step of the call `i` of `acquire`: the others own what they owned. -/
theorem Owns.of_setAcquiring {i j : ι} {phase : AcquirePhase} {inode : Nat}
    (h : Owns (s.setAcquiring i phase) j inode) : (j ≠ i ∧ Owns s j inode) ∨
      (j = i ∧ ∃ operation, phase = .writing operation inode ∨
        (phase = .granted operation inode ∧ ∀ k, s.releasing i k ≠ .finished)) := by
  by_cases hj : j = i
  · subst hj
    refine Or.inr ⟨rfl, ?_⟩
    simpa only [Owns, State.setAcquiring, Function.update_self] using h
  · refine Or.inl ⟨hj, ?_⟩
    simpa only [Owns, State.setAcquiring, Function.update_of_ne hj] using h

/-- A step of the call `i` to a phase without a file gives up no more than the file of `i`. -/
theorem owns_of_idle {i j : ι} {phase : AcquirePhase} {inode : Nat}
    (hp : ∀ operation n, phase ≠ .writing operation n ∧ phase ≠ .granted operation n)
    (h : Owns (s.setAcquiring i phase) j inode) : Owns s j inode := by
  obtain ⟨_, ho⟩ | ⟨_, operation, hw | ⟨hg, _⟩⟩ := h.of_setAcquiring
  · exact ho
  · exact absurd hw (hp operation inode).1
  · exact absurd hg (hp operation inode).2

/-- Finishing a release only gives up the file of its operation. -/
theorem Owns.of_setReleasing {i j : ι} {k : Nat} {phase : ReleasePhase} {inode : Nat}
    (hnot : s.releasing i k ≠ .finished) (h : Owns (s.setReleasing i k phase) j inode) : Owns s j inode := by
  obtain ⟨operation, hw | ⟨hg, hr⟩⟩ := h
  · exact ⟨operation, Or.inl hw⟩
  · refine ⟨operation, Or.inr ⟨hg, fun k' => ?_⟩⟩
    have hk := hr k'
    by_cases hj : j = i
    · subst hj
      by_cases hkk : k' = k
      · subst hkk; exact hnot
      · simpa [State.setReleasing, hkk] using hk
    · simpa [State.setReleasing, hj] using hk

/-! ## Steps as moves of the slot -/

/-- A step of `acquire` to a phase without a file, which leaves the file alone. -/
theorem slot_leave {i : ι} {phase : AcquirePhase}
    (hp : ∀ operation n, phase ≠ .writing operation n ∧ phase ≠ .granted operation n) :
    Slot.Step (slot s) (slot (s.setAcquiring i phase)) := .leave rfl fun _ _ => owns_of_idle hp

theorem slot_open {i : ι} {operation : BrowserOperationRecord} :
    Slot.Step (slot s) (slot (openExclusive s i operation)) := by
  unfold openExclusive
  split
  · rename_i hnone
    refine .create i s.inodes (by simp [slot, hnone]) rfl fun j n ho => ?_
    obtain ⟨_, ho⟩ | ⟨rfl, _, hw | ⟨hg, _⟩⟩ := Owns.of_setAcquiring ho
    · exact Or.inl ho
    · cases hw
      exact Or.inr ⟨rfl, rfl⟩
    · cases hg
  · exact slot_leave (by simp)

theorem slot_write {i : ι} {operation : BrowserOperationRecord} {inode : Nat}
    (hw : s.acquiring i = .writing operation inode) :
    Slot.Step (slot s) (slot ((writeRecord s inode operation).setAcquiring i (.granted operation inode))) := by
  refine .leave ?_ fun j n ho => ?_
  · simp only [slot, writeRecord, State.setAcquiring, Option.map_map]
    congr 1
    funext file
    simp only [Function.comp_apply]
    split <;> rfl
  · obtain ⟨_, ho⟩ | ⟨rfl, _, hw' | ⟨hg, _⟩⟩ := Owns.of_setAcquiring ho
    · exact ho
    · cases hw'
    · cases hg
      exact ⟨operation, Or.inl hw⟩

theorem slot_releaseRemove {i : ι} {k : Nat} {operation : BrowserOperationRecord} {inode : Nat}
    (hg : s.acquiring i = .granted operation inode) (hk : s.releasing i k = .removing)
    (hok : SparesOwners s (.releaseRemove i k)) :
    Slot.Step (slot s) (slot ({ s with file := none }.setReleasing i k .finished)) := by
  refine .unlink rfl fun j n ho => ?_
  have hold : Owns s j n := Owns.of_setReleasing (s := { s with file := none }) (by simp [hk]) ho
  refine ⟨hold, hok j n (fun hj => ?_) hold⟩
  subst hj
  obtain ⟨_, hw | ⟨_, hr⟩⟩ := ho
  · simp only [State.setReleasing, hg] at hw
    cases hw
  · simpa [State.setReleasing] using hr k

theorem next_slot {action : Action ι} (hok : SparesOwners s action) (h : next calls s action = some s') :
    Slot.Step (slot s) (slot s') := by
  cases action with
  | «open» i id nowMs =>
    simp only [next] at h
    split at h
    · split at h
      · cases h
      split at h
      · cases h; exact slot_leave (by simp)
      · cases h; exact slot_open (s := { s with issued := id :: s.issued })
    · cases h
  | write i =>
    simp only [next] at h
    split at h
    · cases h; exact slot_write ‹_›
    · cases h
  | read i =>
    simp only [next] at h
    split at h
    · split at h
      · cases h; exact slot_leave (by simp)
      split at h
      · cases h; exact slot_leave (by simp)
      · cases h; exact slot_leave (by simp)
    · cases h
  | remove i =>
    simp only [next] at h
    split at h
    · cases h
      refine .unlink rfl fun j n ho => ?_
      have hold : Owns s j n := owns_of_idle (s := { s with file := none }) (by simp) ho
      exact ⟨hold, hok j n hold⟩
    · cases h
  | throw i =>
    simp only [next] at h
    split at h
    all_goals first | (cases h; exact slot_leave (by simp)) | cases h
  | releaseRead i k =>
    simp only [next] at h
    split at h
    · rename_i hk
      split at h <;> cases h <;> exact .leave rfl fun _ _ => Owns.of_setReleasing (by simp [hk])
    · cases h
  | releaseRemove i k =>
    simp only [next] at h
    split at h
    · cases h; exact slot_releaseRemove ‹_› ‹_› hok
    · cases h

omit [DecidableEq ι] in
theorem Initial.exclusive (h : Initial s) : (slot s).Exclusive := by
  refine .of_unowned fun i n ⟨operation, ho⟩ => ?_
  simp only [h.1 i, reduceCtorEq, false_and, or_self] at ho

/-- **As long as no step removes the lock file of a call that owns it, two calls are never granted the key at once.** -/
theorem fileBacked_exclusive (calls : Calls ι) {s : State ι}
    (h : ((fileBacked calls).restrict SparesOwners).Reachable s) {i j : ι} (hi : Held s i) (hj : Held s j) : i = j := by
  have hex : (slot s).Exclusive := h.invariant (fun _ hinit => Initial.exclusive hinit)
    fun _ _ _ _ he hs => (next_slot hs.1 hs.2).exclusive he
  obtain ⟨⟨operation, n, hgi⟩, hri⟩ := hi
  obtain ⟨⟨operation', n', hgj⟩, hrj⟩ := hj
  exact hex.unique i j n n' ⟨operation, Or.inr ⟨hgi, hri⟩⟩ ⟨operation', Or.inr ⟨hgj, hrj⟩⟩

/-! ## Two calls -/

/-- Two processes ask for the sample profile. -/
def sampleCalls : Calls Bool where
  host i := { sampleHost with pid := if i then 20 else 10 }
  input _ := sampleRequest .exclusiveMutating
  key := buildBrowserOperationKey sampleHost (sampleRequest .exclusiveMutating)
  key_eq _ := rfl
  isOwnerAlive _ := true
  alive _ := rfl

def unlocked : State Bool := ⟨none, 0, [], fun _ => .opening, fun _ _ => .reading⟩

theorem unlocked_initial : Initial unlocked := ⟨fun _ => rfl, fun _ _ => rfl, fun _ h => nomatch h⟩

/-- The first call is granted the key before the second one looks. -/
def grantedOnce : State Bool :=
  ((TransitionSystem.execute (next sampleCalls) unlocked
    [.open false "first" 0, .write false, .open true "second" 0, .read true]).get rfl)

theorem grantedOnce_exclusive : Held grantedOnce false ∧ ¬Held grantedOnce true := by
  have hreach : ((fileBacked sampleCalls).restrict SparesOwners).Reachable grantedOnce :=
    .step (a := .read true) (.step (a := .open true "second" 0) (.step (a := .write false)
      (.step (a := .open false "first" 0) (.init unlocked_initial) ⟨trivial, rfl⟩) ⟨trivial, rfl⟩) ⟨trivial, rfl⟩)
      ⟨trivial, rfl⟩
  have hfirst : Held grantedOnce false := ⟨⟨_, _, rfl⟩, fun _ => ReleasePhase.noConfusion⟩
  exact ⟨hfirst, fun hsecond => Bool.false_ne_true (fileBacked_exclusive sampleCalls hreach hfirst hsecond)⟩

/-- The second call reads the file the first one has created and not written, and removes it. -/
def emptyLock : List (Action Bool) :=
  [.open false "first" 0, .open true "second" 0, .read true, .remove true, .open true "third" 0, .write true,
    .write false]

/-- Both calls are granted the key. -/
theorem emptyLock_granted_twice :
    ¬∀ s, (fileBacked sampleCalls).Reachable s → ∀ i j, Held s i → Held s j → i = j := by
  intro h
  have hrun : (TransitionSystem.execute (next sampleCalls) unlocked emptyLock).isSome = true := rfl
  have hreach : (fileBacked sampleCalls).Reachable _ :=
    TransitionSystem.reachable_execute (.init unlocked_initial) (Option.some_get hrun).symm
  refine Bool.false_ne_true (h _ hreach false true ?_ ?_)
  · exact ⟨⟨_, _, rfl⟩, fun _ => ReleasePhase.noConfusion⟩
  · exact ⟨⟨_, _, rfl⟩, fun _ => ReleasePhase.noConfusion⟩

end AuraCall.Dispatcher.FileBacked
