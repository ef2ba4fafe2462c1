import Mathlib.Logic.Function.Basic
import AuraCall.Lib.ExclusiveSlot
import AuraCall.Lib.Transition

/-!
# Snapshots behind a lock file

The tab-lease registry and the interaction ledger keep a snapshot in a file and every operation runs in `withLock`:
create the lock file exclusively and write the process identifier into it, load the snapshot, run the operation, rename
the new snapshot over the old one, remove the lock file. A call that finds the lock file runs `removeStaleLock`, which
reads the identifier and removes the file when that process is dead.

The model is any number of calls in any number of processes, each call a phase between two atomic steps of the file
system. The two stores differ in one thing: the ledger keeps the snapshot it last loaded or wrote together with the
identity of the file, and loads it again only when the identity has changed.
-/

namespace AuraCall.Persistence

/-! ## Calls and phases -/

/-- What `JSON.parse` makes of a lock file: nothing while it is empty, else its `ownerPid` when that is a number. -/
inductive LockContent
  | unparsed
  | parsed (ownerPid : Option Int)

structure LockFile where
  inode : Nat
  content : LockContent

/-- Where a call of `withLock` stands; from `locked` to `unlocking` it runs its operation. -/
inductive Phase (σ : Type)
  | opening
  | writing (inode : Nat)
  | contended
  | examining (ownerPid : Option Int)
  | reclaiming
  | waiting
  | locked (inode : Nat)
  | loading (inode : Nat) (identity : Nat)
  | loaded (inode : Nat) (value : σ)
  | persisted (inode : Nat) (value : σ)
  | unlocking (inode : Nat)
  | done
  | failed

namespace Phase

variable {σ : Type}

/-- The lock file the call has created and not removed. -/
def lock : Phase σ → Option Nat
  | writing inode | locked inode | loading inode _ | loaded inode _ | persisted inode _ | unlocking inode => some inode
  | opening | contended | examining _ | reclaiming | waiting | done | failed => none

/-- Inside the critical section. -/
def critical : Phase σ → Bool
  | locked _ | loading _ _ | loaded _ _ | persisted _ _ | unlocking _ => true
  | opening | writing _ | contended | examining _ | reclaiming | waiting | done | failed => false

theorem lock_of_critical {phase : Phase σ} (h : phase.critical = true) : ∃ inode, phase.lock = some inode := by
  cases phase <;> first | exact ⟨_, rfl⟩ | cases h

end Phase

/-- A kind of store: what its operations do to the snapshot, `none` when they throw, and whether loads are cached. -/
structure Kind (σ α : Type) where
  initial : σ
  apply : α → σ → Option σ
  cached : Bool

/-- The snapshot after operations that were persisted one after the other. -/
def Kind.replay {σ α : Type} (kind : Kind σ α) (operations : List α) : σ :=
  operations.foldl (fun value operation => (kind.apply operation value).getD value) kind.initial

/-- The process of each call, and the store object that runs it. -/
structure Processes (ι κ : Type) where
  pid : ι → Int
  object : ι → κ

/-- The lock file, the processes alive, the calls, the snapshot with the identity of its file, the loads cached by the
store objects, and the operations persisted so far. -/
structure State (σ α ι κ : Type) where
  file : Option LockFile
  inodes : Nat
  alive : Int → Bool
  phase : ι → Phase σ
  stored : σ
  identity : Nat
  cache : κ → Option (Nat × σ)
  persisted : List α

/-- One atomic step of a call, or the exit of a process. -/
inductive Action (α ι : Type)
  | open (i : ι)
  | writeOwner (i : ι)
  | read (i : ι)
  | examine (i : ι)
  | reclaim (i : ι)
  | retry (i : ι)
  | fail (i : ι)
  | stat (i : ι)
  | load (i : ι)
  | persist (i : ι) (operation : α)
  | restat (i : ι)
  | finish (i : ι)
  | abort (i : ι)
  | unlock (i : ι)
  | exit (pid : Int)

variable {σ α ι κ : Type}

section Calls

variable [DecidableEq ι] [DecidableEq κ]

def State.setPhase (s : State σ α ι κ) (i : ι) (phase : Phase σ) : State σ α ι κ :=
  { s with phase := Function.update s.phase i phase }

def State.setCache (s : State σ α ι κ) (k : κ) (entry : Option (Nat × σ)) : State σ α ι κ :=
  { s with cache := Function.update s.cache k entry }

/-- `fs.open(this.lockPath, 'wx')`: creates the file, or fails with `EEXIST`. -/
def openExclusive (s : State σ α ι κ) (i : ι) : State σ α ι κ :=
  match s.file with
  | none => { s with file := some ⟨s.inodes, .unparsed⟩, inodes := s.inodes + 1 }.setPhase i (.writing s.inodes)
  | some _ => s.setPhase i .contended

/-- `handle.writeFile(JSON.stringify({ ownerPid, … }))`: writes through the handle. -/
def writeOwner (s : State σ α ι κ) (inode : Nat) (pid : Int) : State σ α ι κ :=
  { s with file := s.file.map fun file =>
      if file.inode = inode then { file with content := .parsed (some pid) } else file }

/-- What `removeStaleLock` does after it has read the file: a missing file is no obstacle, an empty one is kept. -/
def afterRead (file : Option LockFile) : Phase σ :=
  match file with
  | none => .opening
  | some ⟨_, .unparsed⟩ => .waiting
  | some ⟨_, .parsed ownerPid⟩ => .examining ownerPid

/-- `readStateIdentity` at the head of `loadLedger`: the cached snapshot, unless the file has changed. -/
def afterStat (s : State σ α ι κ) (inode : Nat) (entry : Option (Nat × σ)) : Phase σ :=
  match entry with
  | some (identity, value) => if identity = s.identity then .loaded inode value else .loading inode s.identity
  | none => .loading inode s.identity

def next (kind : Kind σ α) (processes : Processes ι κ) (s : State σ α ι κ) : Action α ι → Option (State σ α ι κ)
  | .open i => match s.phase i with
    | .opening => some (openExclusive s i)
    | _ => none
  | .writeOwner i => match s.phase i with
    | .writing inode => some ((writeOwner s inode (processes.pid i)).setPhase i (.locked inode))
    | _ => none
  | .read i => match s.phase i with
    | .contended => some (s.setPhase i (afterRead s.file))
    | _ => none
  | .examine i => match s.phase i with
    | .examining ownerPid => some (s.setPhase i (if ownerPid.any s.alive then .waiting else .reclaiming))
    | _ => none
  | .reclaim i => match s.phase i with
    | .reclaiming => some ({ s with file := none }.setPhase i .opening)
    | _ => none
  | .retry i => match s.phase i with
    | .waiting => some (s.setPhase i .opening)
    | _ => none
  | .fail i => match s.phase i with
    | .opening | .writing _ | .waiting | .unlocking _ => some (s.setPhase i .failed)
    -- `removeStaleLock` catches its errors and returns false
    | .contended | .examining _ | .reclaiming => some (s.setPhase i .waiting)
    | _ => none
  | .stat i => match s.phase i, kind.cached with
    | .locked inode, true => some (s.setPhase i (afterStat s inode (s.cache (processes.object i))))
    | _, _ => none
  | .load i => match s.phase i, kind.cached with
    | .loading inode identity, true =>
      some ((s.setCache (processes.object i) (some (identity, s.stored))).setPhase i (.loaded inode s.stored))
    | .locked inode, false => some (s.setPhase i (.loaded inode s.stored))
    | _, _ => none
  | .persist i operation => match s.phase i with
    | .loaded inode value => match kind.apply operation value with
      | some new => some ({ s with
          stored := new, identity := s.identity + 1, persisted := s.persisted ++ [operation] }.setPhase i
            (if kind.cached then .persisted inode new else .unlocking inode))
      | none => none
    | _ => none
  | .restat i => match s.phase i with
    | .persisted inode value =>
      some ((s.setCache (processes.object i) (some (s.identity, value))).setPhase i (.unlocking inode))
    | _ => none
  | .finish i => match s.phase i with
    | .loaded inode _ => some (s.setPhase i (.unlocking inode))
    | _ => none
  | .abort i => match s.phase i with
    | .locked inode | .loading inode _ | .loaded inode _ | .persisted inode _ =>
      some ((s.setCache (processes.object i) none).setPhase i (.unlocking inode))
    | _ => none
  | .unlock i => match s.phase i with
    | .unlocking _ => some ({ s with file := none }.setPhase i .done)
    | _ => none
  | .exit pid =>
    some { s with
      alive := Function.update s.alive pid false
      phase := fun i => if processes.pid i = pid then .failed else s.phase i }

/-- No call has begun and nothing is loaded; a lock file may be left at the path. -/
def Initial (kind : Kind σ α) (processes : Processes ι κ) (s : State σ α ι κ) : Prop :=
  (∀ i, s.phase i = .opening ∧ s.alive (processes.pid i) = true) ∧ (∀ k, s.cache k = none) ∧
  s.stored = kind.initial ∧ s.persisted = [] ∧ ∀ file, s.file = some file → file.inode < s.inodes

/-- All interleavings of the calls. -/
def lockedFile (kind : Kind σ α) (processes : Processes ι κ) : TransitionSystem (State σ α ι κ) (Action α ι) :=
  .ofNext (Initial kind processes) (next kind processes)

end Calls

/-! ## What a step can do -/

/-- What one step does to the lock, the store and the caches. From `moved` on, the lock file stays. -/
inductive Effect [DecidableEq ι] [DecidableEq κ] (kind : Kind σ α) (processes : Processes ι κ) (s : State σ α ι κ) :
    Action α ι → State σ α ι κ → Prop
  | opened (i : ι) : Effect kind processes s (.open i) (openExclusive s i)
  | written {i : ι} {inode : Nat} : (s.phase i).lock = some inode →
      Effect kind processes s (.writeOwner i) ((writeOwner s inode (processes.pid i)).setPhase i (.locked inode))
  | reclaimed (i : ι) : Effect kind processes s (.reclaim i) ({ s with file := none }.setPhase i .opening)
  | unlocked {i : ι} {inode : Nat} : (s.phase i).lock = some inode →
      Effect kind processes s (.unlock i) ({ s with file := none }.setPhase i .done)
  /-- A call without the lock goes on, or a call fails. -/
  | moved {action : Action α ι} {i : ι} {phase : Phase σ} : phase.lock = none →
      Effect kind processes s action (s.setPhase i phase)
  /-- A call asks whether the cached snapshot is current. -/
  | consulted {i : ι} {inode : Nat} : (s.phase i).lock = some inode →
      Effect kind processes s (.stat i) (s.setPhase i (afterStat s inode (s.cache (processes.object i))))
  | loaded {i : ι} {inode : Nat} : (s.phase i).lock = some inode →
      Effect kind processes s (.load i) (s.setPhase i (.loaded inode s.stored))
  | reloaded {i : ι} {inode identity : Nat} : s.phase i = .loading inode identity →
      Effect kind processes s (.load i)
        ((s.setCache (processes.object i) (some (identity, s.stored))).setPhase i (.loaded inode s.stored))
  | persisted {i : ι} {inode : Nat} {value new : σ} {operation : α} : s.phase i = .loaded inode value →
      kind.apply operation value = some new → Effect kind processes s (.persist i operation) ({ s with
        stored := new, identity := s.identity + 1, persisted := s.persisted ++ [operation] }.setPhase i
          (if kind.cached then .persisted inode new else .unlocking inode))
  | cached {i : ι} {inode : Nat} {value : σ} : s.phase i = .persisted inode value →
      Effect kind processes s (.restat i)
        ((s.setCache (processes.object i) (some (s.identity, value))).setPhase i (.unlocking inode))
  | finished {i : ι} {inode : Nat} : (s.phase i).lock = some inode →
      Effect kind processes s (.finish i) (s.setPhase i (.unlocking inode))
  | aborted {i : ι} {inode : Nat} : (s.phase i).lock = some inode →
      Effect kind processes s (.abort i) ((s.setCache (processes.object i) none).setPhase i (.unlocking inode))
  | exited (pid : Int) : Effect kind processes s (.exit pid) { s with
      alive := Function.update s.alive pid false
      phase := fun i => if processes.pid i = pid then .failed else s.phase i }

variable {kind : Kind σ α} {processes : Processes ι κ} {s s' : State σ α ι κ}

theorem lock_afterRead (file : Option LockFile) : (afterRead (σ := σ) file).lock = none := by
  unfold afterRead
  split <;> rfl

theorem lock_afterStat (s : State σ α ι κ) (inode : Nat) (entry : Option (Nat × σ)) :
    (afterStat s inode entry).lock = some inode := by
  unfold afterStat
  split
  · split <;> rfl
  · rfl

/-- **A step does what `Effect` lists.** -/
theorem next_effect [DecidableEq ι] [DecidableEq κ] {action : Action α ι}
    (h : next kind processes s action = some s') : Effect kind processes s action s' := by
  cases action with
  | «open» i =>
    simp only [next] at h
    split at h
    · cases h; exact .opened i
    · cases h
  | writeOwner i =>
    simp only [next] at h
    split at h
    · rename_i hp
      cases h
      exact .written (by rw [hp]; rfl)
    · cases h
  | read i =>
    simp only [next] at h
    split at h
    · cases h; exact .moved (lock_afterRead s.file)
    · cases h
  | examine i =>
    simp only [next] at h
    split at h
    · cases h
      refine .moved ?_
      split <;> rfl
    · cases h
  | reclaim i =>
    simp only [next] at h
    split at h
    · cases h; exact .reclaimed i
    · cases h
  | retry i =>
    simp only [next] at h
    split at h
    · cases h; exact .moved rfl
    · cases h
  | fail i =>
    simp only [next] at h
    split at h
    all_goals first | (cases h; exact .moved rfl) | cases h
  | stat i =>
    simp only [next] at h
    split at h
    · rename_i hp _
      cases h
      exact .consulted (by rw [hp]; rfl)
    · cases h
  | load i =>
    simp only [next] at h
    split at h
    · rename_i hp _
      cases h
      exact .reloaded hp
    · rename_i hp _
      cases h
      exact .loaded (by rw [hp]; rfl)
    · cases h
  | persist i operation =>
    simp only [next] at h
    split at h
    · rename_i hp
      split at h
      · rename_i hnew
        cases h
        exact .persisted hp hnew
      · cases h
    · cases h
  | restat i =>
    simp only [next] at h
    split at h
    · rename_i hp
      cases h
      exact .cached hp
    · cases h
  | finish i =>
    simp only [next] at h
    split at h
    · rename_i hp
      cases h
      exact .finished (by rw [hp]; rfl)
    · cases h
  | abort i =>
    simp only [next] at h
    split at h
    all_goals first | (rename_i hp; cases h; exact .aborted (by rw [hp]; rfl)) | cases h
  | unlock i =>
    simp only [next] at h
    split at h
    · rename_i hp
      cases h
      exact .unlocked (by rw [hp]; rfl)
    · cases h
  | exit pid =>
    simp only [next, Option.some.injEq] at h
    subst h
    exact .exited pid

/-! ## Mutual exclusion -/

/-- The lock file with its owners. -/
def slot (s : State σ α ι κ) : Slot ι Nat := ⟨s.file.map (·.inode), fun i inode => (s.phase i).lock = some inode⟩

/-- A stale-lock removal hits no lock file that a live call has created and not removed. -/
def SparesOwners (s : State σ α ι κ) : Action α ι → Prop
  | .reclaim _ => ∀ j inode, (s.phase j).lock = some inode → s.file.map (·.inode) ≠ some inode
  | _ => True

theorem slot_writeOwner (s : State σ α ι κ) (inode : Nat) (pid : Int) : slot (writeOwner s inode pid) = slot s := by
  simp only [slot, writeOwner, Option.map_map, Slot.mk.injEq, and_true]
  congr 1
  funext file
  simp only [Function.comp_apply]
  split <;> rfl

/-- In an exclusive slot, the owner of the file is its only owner. -/
theorem unowned_of_lock (he : (slot s).Exclusive) {i : ι} {n : Nat} (hi : (s.phase i).lock = some n) (j : ι)
    (inode : Nat) (hj : j ≠ i) (ho : (s.phase j).lock = some inode) : s.file.map (·.inode) ≠ some inode :=
  absurd (he.unique j i inode n ho hi) hj

theorem Initial.exclusive (h : Initial kind processes s) : (slot s).Exclusive := by
  refine .of_unowned fun i n ho => ?_
  simp only [slot, (h.1 i).1, Phase.lock, reduceCtorEq] at ho

section Steps

variable [DecidableEq ι]

/-- A step that takes no lock and leaves the file alone. -/
theorem slot_leave {i : ι} {phase : Phase σ} (hp : phase.lock = none ∨ phase.lock = (s.phase i).lock) :
    Slot.Step (slot s) (slot (s.setPhase i phase)) := by
  refine .leave rfl fun j n ho => ?_
  by_cases hj : j = i
  · subst hj
    simp only [slot, State.setPhase, Function.update_self] at ho
    rcases hp with hp | hp
    · rw [hp] at ho
      cases ho
    · exact hp.symm.trans ho
  · simpa only [slot, State.setPhase, Function.update_of_ne hj] using ho

theorem slot_keep {i : ι} {phase : Phase σ} {inode : Nat} (hp : (s.phase i).lock = some inode)
    (hphase : phase.lock = some inode) : Slot.Step (slot s) (slot (s.setPhase i phase)) :=
  slot_leave (Or.inr (hphase.trans hp.symm))

theorem slot_open {i : ι} : Slot.Step (slot s) (slot (openExclusive s i)) := by
  unfold openExclusive
  split
  · rename_i hnone
    refine .create i s.inodes (by simp [slot, hnone]) rfl fun j n ho => ?_
    by_cases hj : j = i
    · subst hj
      simp only [slot, State.setPhase, Function.update_self, Phase.lock, Option.some.injEq] at ho
      exact Or.inr ⟨rfl, ho.symm⟩
    · exact Or.inl (by simpa only [slot, State.setPhase, Function.update_of_ne hj] using ho)
  · exact slot_leave (Or.inl rfl)

/-- Removing the file in a step that leaves no owner of it. -/
theorem slot_unlink {i : ι} {phase : Phase σ} (hp : phase.lock = none)
    (hfree : ∀ j inode, j ≠ i → (s.phase j).lock = some inode → s.file.map (·.inode) ≠ some inode) :
    Slot.Step (slot s) (slot ({ s with file := none }.setPhase i phase)) := by
  refine .unlink rfl fun j n ho => ?_
  by_cases hj : j = i
  · subst hj
    simp only [slot, State.setPhase, Function.update_self, hp] at ho
    cases ho
  · simp only [slot, State.setPhase, Function.update_of_ne hj] at ho
    exact ⟨ho, hfree j n hj ho⟩

variable [DecidableEq κ]

theorem Effect.move {action : Action α ι} (h : Effect kind processes s action s') (he : (slot s).Exclusive)
    (hok : SparesOwners s action) : Slot.Step (slot s) (slot s') := by
  cases h with
  | opened i => exact slot_open
  | @written i inode hl =>
    rw [← slot_writeOwner s inode (processes.pid i)]
    exact slot_keep (s := writeOwner s inode (processes.pid i)) hl rfl
  | reclaimed i => exact slot_unlink rfl fun j inode _ ho => hok j inode ho
  | unlocked hl => exact slot_unlink rfl (unowned_of_lock he hl)
  | moved hp => exact slot_leave (Or.inl hp)
  | consulted hl => exact slot_keep hl (lock_afterStat s _ _)
  | loaded hl => exact slot_keep hl rfl
  | reloaded hp => exact slot_keep (s := s.setCache _ _) (by simp only [State.setCache, hp, Phase.lock]) rfl
  | @persisted i inode _ _ _ hp _ =>
    have hl : (s.phase i).lock = some inode := by rw [hp]; rfl
    refine slot_keep (s := { s with stored := _, identity := _, persisted := _ }) hl ?_
    split <;> rfl
  | cached hp => exact slot_keep (s := s.setCache _ _) (by simp only [State.setCache, hp, Phase.lock]) rfl
  | finished hl => exact slot_keep hl rfl
  | aborted hl => exact slot_keep (s := s.setCache _ _) hl rfl
  | exited pid =>
    refine .leave rfl fun j n ho => ?_
    simp only [slot] at ho ⊢
    split at ho
    · cases ho
    · exact ho

/-- As long as every stale-lock removal spares the owners, the lock file has one owner. -/
theorem reachable_exclusive (h : ((lockedFile kind processes).restrict SparesOwners).Reachable s) :
    (slot s).Exclusive :=
  h.invariant (fun _ hinit => Initial.exclusive hinit) fun _ _ _ _ he hs =>
    ((next_effect hs.2).move he hs.1).exclusive he

end Steps

end AuraCall.Persistence
