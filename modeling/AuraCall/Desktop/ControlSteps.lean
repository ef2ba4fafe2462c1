import AuraCall.Desktop.Control

/-!
# What the parts of a takeover do

Each part of `take` and `release` changes one place and leaves the others as they are. The lock of the store is taken
when it is free (`LockFree`), and the transition of a gate when it is free (`TransitionFree`): when there is none, or it
was left by a dead process in a state that can be reclaimed. `exclusive_holds` and `gateTransition_holds` are the rules
for what runs under them.
-/

namespace AuraCall.Desktop

open Script

variable {π α : Type} {s s' : ControlState π} {caller : Caller} {d : String}

/-! ## Frames -/

/-- Everything but the lock of the store. -/
def beyondLock (s : ControlState π) :=
  (s.boot, s.crashed, s.receipt, s.released, s.gates, s.provider, s.sent, s.proved)

/-- Everything but the transitions of gates. -/
def beyondTransitions (s : ControlState π) :=
  (s.boot, s.crashed, s.lock, s.reconcile, s.receipt, s.released, (fun d => (s.gates d).directory), s.provider, s.sent,
    s.proved)

/-- Everything but one gate and the transitions of gates. -/
def besideGate (d : String) (s : ControlState π) :=
  (s.boot, s.crashed, s.lock, s.reconcile, s.receipt, s.released,
    (fun d' => if d' = d then none else some (s.gates d').directory), s.provider, s.sent, s.proved)

/-- The transitions of a gate. -/
def transitionsOf (d : String) (s : ControlState π) := ((s.gates d).transition, (s.gates d).retired)

@[simp] theorem setGate_self (s : ControlState π) (d : String) (f : GateFiles → GateFiles) :
    (s.setGate d f).gates d = f (s.gates d) := by simp [ControlState.setGate]

theorem setGate_ne (s : ControlState π) {d d' : String} (f : GateFiles → GateFiles) (h : d' ≠ d) :
    (s.setGate d f).gates d' = s.gates d' := by simp [ControlState.setGate, h]

/-- A gate whose lock directory stays. -/
theorem beyondTransitions_setGate {f : GateFiles → GateFiles} (h : (f (s.gates d)).directory = (s.gates d).directory) :
    beyondTransitions (s.setGate d f) = beyondTransitions s := by
  have hdirectory : (fun d' => ((s.setGate d f).gates d').directory) = fun d' => (s.gates d').directory := by
    funext d'
    by_cases hd : d' = d
    · rw [hd, setGate_self, h]
    · rw [setGate_ne s f hd]
  unfold beyondTransitions
  rw [hdirectory]
  rfl

theorem besideGate_setGate (s : ControlState π) (d : String) (f : GateFiles → GateFiles) :
    besideGate d (s.setGate d f) = besideGate d s := by
  have hdirectory : (fun d' => if d' = d then none else some ((s.setGate d f).gates d').directory) =
      fun d' => if d' = d then none else some (s.gates d').directory := by
    funext d'
    by_cases hd : d' = d
    · rw [if_pos hd, if_pos hd]
    · rw [if_neg hd, if_neg hd, setGate_ne s f hd]
  unfold besideGate
  rw [hdirectory]
  rfl

/-- What stays when only transitions change stays when one gate changes as well. -/
theorem besideGate_of_beyondTransitions (h : beyondTransitions s' = beyondTransitions s) :
    besideGate d s' = besideGate d s := by
  simp only [beyondTransitions, Prod.mk.injEq] at h
  simp only [besideGate, Prod.mk.injEq, h, true_and]
  exact ⟨funext fun d' => by rw [congrFun h.2.2.2.2.2.2.1 d'], trivial⟩

/-! ## The lock of the store -/

/-- The lock is absent, or left by a dead process, and nobody reconciles. -/
def ControlState.LockFree (s : ControlState π) : Prop :=
  s.lock = none ∨ ∃ owner, s.lock = some (some owner) ∧ s.Dead owner.process ∧ s.reconcile = false

theorem keeps_makeLock : (makeLock : ControlScript π Bool).Keeps beyondLock :=
  keeps_perform fun s => by cases s.lock <;> rfl

theorem keeps_publishLock : (publishLock caller : ControlScript π PUnit).Keeps beyondLock := keeps_change fun _ => rfl

theorem keeps_removeLock : (removeLock : ControlScript π PUnit).Keeps beyondLock :=
  keeps_bind (keeps_change fun _ => rfl) fun _ => keeps_change fun _ => rfl

theorem keeps_reconcileLock : (reconcileLock caller : ControlScript π PUnit).Keeps beyondLock :=
  keeps_bind keeps_look fun _ => keeps_bind keeps_look fun _ => keeps_bind (keeps_change fun _ => rfl) fun _ =>
    keeps_bind keeps_makeLock fun made => by
      cases made with
      | true => exact keeps_publishLock
      | false => trivial

theorem keeps_acquireLock : (acquireLock caller : ControlScript π PUnit).Keeps beyondLock :=
  keeps_bind keeps_makeLock fun made => by
    cases made with
    | true => exact keeps_publishLock
    | false =>
      refine keeps_bind (keeps_perform fun s => ?_) fun _ => keeps_ensure keeps_reconcileLock (keeps_change fun _ => rfl)
      cases s.reconcile <;> rfl

theorem keeps_releaseLock : (releaseLock caller : ControlScript π PUnit).Keeps beyondLock :=
  keeps_bind keeps_look fun current => by
    split
    · exact keeps_removeLock
    · trivial

/-- **The lock is taken exactly when it is free.** -/
theorem acquireLock_result : (acquireLock caller).Holds (fun _ => True)
    (fun r s' => match r with
      | .ok _ => s.LockFree ∧ s'.lock = some (some caller)
      | .error _ => ¬ s.LockFree) s := by
  cases hlock : s.lock with
  | none => simp [acquireLock, makeLock, publishLock, holds_bind, hlock, ControlState.LockFree]
  | some directory =>
    cases hreconcile : s.reconcile with
    | true => simp [acquireLock, makeLock, makeReconcile, holds_bind, hlock, hreconcile, ControlState.LockFree]
    | false =>
      cases directory with
      | none =>
        simp [acquireLock, makeLock, makeReconcile, reconcileLock, readLockOwner, holds_bind, holds_ensure, hlock,
          hreconcile, ControlState.LockFree]
      | some owner =>
        by_cases hdead : s.Dead owner.process <;> simp only [ControlState.Dead] at hdead
        · simp [acquireLock, makeLock, publishLock, makeReconcile, reconcileLock, readLockOwner, requireDead, holds_bind,
            holds_ensure, hlock, hreconcile, hdead, ControlState.Dead, ControlState.LockFree]
        · simp [acquireLock, makeLock, makeReconcile, reconcileLock, readLockOwner, requireDead, holds_bind,
            holds_ensure, hlock, hreconcile, hdead, ControlState.Dead, ControlState.LockFree]

theorem releaseLock_result (hlock : s.lock = some (some caller)) :
    (releaseLock caller).Holds (fun _ => True) (fun r s' => r = .ok ⟨⟩ ∧ s'.lock = none) s := by
  simp [releaseLock, readLockOwner, removeLock, holds_bind, hlock]

/-- **The rule for `exclusive`**: `I` and `Q` do not look at the lock, and the operation does not change it. -/
theorem exclusive_holds {I : ControlState π → Prop} {Q : Except String α → ControlState π → Prop}
    {operation : ControlScript π α} (hI : ∀ s s', beyondLock s' = beyondLock s → I s → I s')
    (hQ : ∀ r s s', beyondLock s' = beyondLock s → Q r s → Q r s') (hs : I s)
    (hlock : operation.Keeps ControlState.lock)
    (hoperation : s.LockFree → ∀ s', beyondLock s' = beyondLock s → operation.Holds I Q s')
    (hbusy : ¬ s.LockFree → ∀ e s', beyondLock s' = beyondLock s → Q (.error e) s') :
    (exclusive caller operation).Holds I Q s := by
  unfold exclusive
  rw [holds_bind]
  have hkeeps : (acquireLock caller : ControlScript π PUnit).Keeps beyondLock := keeps_acquireLock
  have hacquire := hkeeps.always (I := I) (s := s) fun s' h => hI s s' h hs
  refine (hacquire.and acquireLock_result).imp fun r s₁ hI₁ h => ?_
  cases r with
  | error e => exact ⟨hI₁, hbusy h.2 e s₁ h.1⟩
  | ok _ =>
    obtain ⟨hbeyond, hfree, hheld⟩ := h
    rw [holds_ensure]
    refine (hlock.holds (hoperation hfree s₁ hbeyond)).imp fun r s₂ hI₂ h₂ => ?_
    have hkeeps : (releaseLock caller : ControlScript π PUnit).Keeps beyondLock := keeps_releaseLock
    have hrelease := hkeeps.always (I := I) (s := s₂) fun s' h => hI s₂ s' h hI₂
    refine (hrelease.and (releaseLock_result (h₂.2.trans hheld))).imp fun r' s₃ _ h₃ => ?_
    rw [h₃.2.1]
    exact hQ r s₂ s₃ h₃.1 h₂.1

/-! ## Transitions of a gate -/

/-- There is no transition, or it was left by a dead process of this boot and nobody has begun to reclaim it. -/
def ControlState.TransitionFree (s : ControlState π) (d : String) : Prop :=
  match (s.gates d).transition with
  | none => True
  | some previous =>
    previous.bootId = some s.boot ∧ s.Dead previous.ownerPid ∧ (s.gates d).retiredRecord previous.id = none

theorem keeps_reclaim : (reclaimDeadTransition caller d : ControlScript π PUnit).Keeps beyondTransitions :=
  keeps_bind keeps_look fun found => by
    cases found with
    | none => trivial
    | some previous =>
      show (ite _ _ _ : ControlScript π PUnit).Keeps _
      split
      · trivial
      · refine keeps_bind keeps_look fun dead => ?_
        cases dead with
        | false => trivial
        | true =>
          refine keeps_bind (keeps_perform fun s => ?_) fun linked => ?_
          · split
            · exact beyondTransitions_setGate rfl
            · rfl
          · cases linked with
            | false => trivial
            | true =>
              refine keeps_bind keeps_look fun same => ?_
              cases same with
              | false => trivial
              | true => exact keeps_change fun s => beyondTransitions_setGate rfl

theorem keeps_acquireTransition : ∀ attempts,
    (acquireTransition caller d attempts : ControlScript π PUnit).Keeps beyondTransitions
  | 0 => trivial
  | attempts + 1 => by
    refine keeps_bind (keeps_perform fun s => ?_) fun linked => ?_
    · split
      · exact beyondTransitions_setGate rfl
      · rfl
    · cases linked with
      | true => trivial
      | false => exact keeps_bind keeps_reclaim fun _ => keeps_acquireTransition attempts

theorem keeps_releaseTransition : (releaseTransition caller d : ControlScript π PUnit).Keeps beyondTransitions :=
  keeps_bind keeps_look fun found => by
    split
    · exact keeps_change fun s => beyondTransitions_setGate rfl
    · trivial

/-- Reclaiming a transition that cannot be reclaimed leaves everything as it is. -/
theorem reclaim_stuck {previous : TransitionOwner} (hboot : caller.process.boot = s.boot)
    (htransition : (s.gates d).transition = some previous) (hstuck : ¬ s.TransitionFree d) :
    (reclaimDeadTransition caller d).Holds (fun _ => True) (fun r s' => r = .ok ⟨⟩ ∧ s' = s) s := by
  simp only [ControlState.TransitionFree, htransition] at hstuck
  by_cases hsame : previous.bootId = some s.boot
  · by_cases hdead : s.Dead previous.ownerPid
    · cases hretired : (s.gates d).retiredRecord previous.id with
      | none => exact absurd ⟨hsame, hdead, hretired⟩ hstuck
      | some record =>
        simp [reclaimDeadTransition, linkRetired, holds_bind, htransition, hsame, hboot, hdead, hretired]
    · simp [reclaimDeadTransition, holds_bind, htransition, hsame, hboot, hdead]
  · simp [reclaimDeadTransition, holds_bind, htransition, hsame, hboot]

/-- Attempts to link fail as long as the transition cannot be reclaimed. -/
theorem acquireTransition_stuck (hboot : caller.process.boot = s.boot) (hstuck : ¬ s.TransitionFree d)
    (attempts : Nat) :
    (acquireTransition caller d attempts).Holds (fun _ => True) (fun r _ => ∃ e, r = .error e) s := by
  induction attempts with
  | zero => exact ⟨trivial, _, rfl⟩
  | succ attempts ih =>
    cases htransition : (s.gates d).transition with
    | none => simp only [ControlState.TransitionFree, htransition, not_true] at hstuck
    | some previous =>
      simp only [acquireTransition, linkTransition, holds_bind, holds_perform, htransition, Bool.false_eq_true, if_false,
        true_and]
      refine (reclaim_stuck hboot htransition hstuck).imp fun r s' _ h => ?_
      rw [h.1, h.2]
      exact ih

theorem reclaim_free {previous : TransitionOwner} (hboot : caller.process.boot = s.boot)
    (htransition : (s.gates d).transition = some previous) (hfree : s.TransitionFree d) :
    (reclaimDeadTransition caller d).Holds (fun _ => True)
      (fun r s' => r = .ok ⟨⟩ ∧ (s'.gates d).transition = none) s := by
  simp only [ControlState.TransitionFree, htransition] at hfree
  obtain ⟨hsame, hdead, hretired⟩ := hfree
  have hlinked : ∀ (directory : LockDirectory) (transition : Option TransitionOwner) (retired : List (Nat × TransitionOwner)),
      GateFiles.retiredRecord ⟨directory, transition, (previous.id, previous) :: retired⟩ previous.id = some previous :=
    fun _ _ _ => by simp [GateFiles.retiredRecord]
  simp [reclaimDeadTransition, linkRetired, holds_bind, htransition, hsame, hboot, hdead, hretired, hlinked]

/-- **A transition is taken exactly when it is free.** -/
theorem acquireTransition_result (hboot : caller.process.boot = s.boot) (attempts : Nat) :
    (acquireTransition caller d (attempts + 2)).Holds (fun _ => True)
      (fun r s' => match r with
        | .ok _ => s.TransitionFree d ∧ (s'.gates d).transition = some caller.transitionOwner
        | .error _ => ¬ s.TransitionFree d) s := by
  by_cases hfree : s.TransitionFree d
  · cases htransition : (s.gates d).transition with
    | none => simp [acquireTransition, linkTransition, holds_bind, htransition, hfree]
    | some previous =>
      simp only [acquireTransition, linkTransition, holds_bind, holds_perform, htransition, Bool.false_eq_true, if_false,
        true_and]
      refine (reclaim_free hboot htransition hfree).imp fun r s' _ h => ?_
      obtain ⟨rfl, hnone⟩ := h
      simp [hnone, hfree]
  · refine (acquireTransition_stuck hboot hfree (attempts + 2)).imp fun r s' _ h => ?_
    obtain ⟨e, rfl⟩ := h
    exact hfree

theorem releaseTransition_result (hown : (s.gates d).transition = some caller.transitionOwner) :
    (releaseTransition caller d).Holds (fun _ => True) (fun r _ => r = .ok ⟨⟩) s := by
  simp [releaseTransition, holds_bind, hown]

/-- **The rule for a transition**: `I` and `Q` do not look at transitions, and the operation does not change those of the
gate. -/
theorem gateTransition_holds {I : ControlState π → Prop} {Q : Except String α → ControlState π → Prop}
    {operation : ControlScript π α} (hI : ∀ s s', beyondTransitions s' = beyondTransitions s → I s → I s')
    (hQ : ∀ r s s', beyondTransitions s' = beyondTransitions s → Q r s → Q r s') (hs : I s)
    (hboot : caller.process.boot = s.boot) (hkeeps : operation.Keeps (transitionsOf d))
    (hoperation : s.TransitionFree d → ∀ s', beyondTransitions s' = beyondTransitions s → operation.Holds I Q s')
    (hbusy : ¬ s.TransitionFree d → ∀ e s', beyondTransitions s' = beyondTransitions s → Q (.error e) s') :
    (gateTransition caller d operation).Holds I Q s := by
  unfold gateTransition
  rw [holds_bind]
  have hacquired : (acquireTransition caller d 100 : ControlScript π PUnit).Keeps beyondTransitions :=
    keeps_acquireTransition 100
  have hacquire := hacquired.always (I := I) (s := s) fun s' h => hI s s' h hs
  refine (hacquire.and (acquireTransition_result hboot 98)).imp fun r s₁ hI₁ h => ?_
  cases r with
  | error e => exact ⟨hI₁, hbusy h.2 e s₁ h.1⟩
  | ok _ =>
    obtain ⟨hbeyond, hfree, hheld⟩ := h
    rw [holds_ensure]
    refine (hkeeps.holds (hoperation hfree s₁ hbeyond)).imp fun r s₂ hI₂ h₂ => ?_
    have hown : (s₂.gates d).transition = some caller.transitionOwner := (Prod.mk.inj h₂.2).1.trans hheld
    have hreleased : (releaseTransition caller d : ControlScript π PUnit).Keeps beyondTransitions :=
      keeps_releaseTransition
    have hrelease := hreleased.always (I := I) (s := s₂) fun s' h => hI s₂ s' h hI₂
    refine (hrelease.and (releaseTransition_result hown)).imp fun r' s₃ _ h₃ => ?_
    rw [h₃.2]
    exact hQ r s₂ s₃ h₃.1 h₂.1

/-! ## The gate -/

/-- The human with the token has control of the desktop. -/
def ControlState.ControlledBy (s : ControlState π) (d token binding : String) : Prop :=
  ∃ owner, (s.gates d).directory = .published owner ∧ owner.role = .human ∧ owner.id = token ∧ owner.binding = binding

theorem controlledBy_isHuman {token binding : String} (h : s.ControlledBy d token binding) :
    (s.gates d).directory.isHuman = true := by
  obtain ⟨owner, hdirectory, hrole, -⟩ := h
  simp [hdirectory, LockDirectory.isHuman, hrole]

theorem keeps_setDirectory (directory : LockDirectory) : (setDirectory d directory : ControlScript π PUnit).Keeps
    (fun s => (besideGate d s, fun d' => transitionsOf d' s)) := by
  refine keeps_change fun s => ?_
  rw [besideGate_setGate]
  refine congrArg _ (funext fun d' => ?_)
  by_cases hd : d' = d
  · rw [hd, transitionsOf, setGate_self]
    rfl
  · rw [transitionsOf, setGate_ne s _ hd]
    rfl

theorem keeps_removeGate : (removeGate d : ControlScript π PUnit).Keeps
    (fun s => (besideGate d s, fun d' => transitionsOf d' s)) :=
  keeps_bind (keeps_setDirectory _) fun _ => keeps_setDirectory _

theorem keeps_makeGate : (makeGate d : ControlScript π PUnit).Keeps
    (fun s => (besideGate d s, fun d' => transitionsOf d' s)) := by
  refine keeps_perform fun s => ?_
  split
  · have hset : (setDirectory d .unpublished : ControlScript π PUnit).Keeps
        (fun s => (besideGate d s, fun d' => transitionsOf d' s)) := keeps_setDirectory _
    exact (hset s).1
  · rfl

theorem keeps_acquireGate (owner : GateOwner) : (acquireGate d owner : ControlScript π PUnit).Keeps
    (fun s => (besideGate d s, fun d' => transitionsOf d' s)) := by
  refine keeps_bind keeps_look fun previous => keeps_bind ?_ fun _ =>
    keeps_bind keeps_makeGate fun _ => keeps_setDirectory _
  cases previous with
  | none => trivial
  | some previous =>
    show (ite _ _ _ : ControlScript π PUnit).Keeps _
    split
    · refine keeps_bind keeps_look fun absent => ?_
      cases absent with
      | true => exact keeps_removeGate
      | false => trivial
    · trivial

/-- Nothing but the gate's lock directory is changed. -/
theorem besideGate_of_keeps {p : ControlScript π α}
    (h : p.Keeps fun s => (besideGate d s, fun d' => transitionsOf d' s)) : p.Keeps (besideGate d) :=
  h.imp fun _ _ heq => (Prod.mk.inj heq).1

theorem transitionsOf_of_keeps {p : ControlScript π α}
    (h : p.Keeps fun s => (besideGate d s, fun d' => transitionsOf d' s)) : p.Keeps (transitionsOf d) :=
  h.imp fun _ _ heq => congrFun (Prod.mk.inj heq).2 d

theorem directory_setGate (s : ControlState π) (d : String) (directory : LockDirectory) :
    ((s.setGate d fun gate => { gate with directory }).gates d).directory = directory := by rw [setGate_self]

theorem directory_of_beyondTransitions (h : beyondTransitions s' = beyondTransitions s) :
    (s'.gates d).directory = (s.gates d).directory := by
  simp only [beyondTransitions, Prod.mk.injEq] at h
  exact congrFun h.2.2.2.2.2.2.1 d

/-- Only the gate has changed since `s`, and what is in its lock directory now. -/
structure GateNow (s : ControlState π) (d : String) (p : LockDirectory → Prop) (s' : ControlState π) : Prop where
  beside : besideGate d s' = besideGate d s
  directory : p (s'.gates d).directory

theorem GateNow.imp {p q : LockDirectory → Prop} (h : GateNow s d p s') (himp : ∀ directory, p directory → q directory) :
    GateNow s d q s' := ⟨h.beside, himp _ h.directory⟩

theorem GateNow.set {p q : LockDirectory → Prop} (h : GateNow s d p s') {directory : LockDirectory}
    (hq : q directory) : GateNow s d q (s'.setGate d fun gate => { gate with directory }) where
  beside := (besideGate_setGate s' d _).trans h.beside
  directory := by
    rw [directory_setGate]
    exact hq

theorem GateNow.of_beyondTransitions {p : LockDirectory → Prop} {s₁ s₂ : ControlState π} (h : GateNow s d p s₁)
    (hbeyond : beyondTransitions s₂ = beyondTransitions s₁) : GateNow s d p s₂ where
  beside := (besideGate_of_beyondTransitions hbeyond).trans h.beside
  directory := by
    rw [directory_of_beyondTransitions hbeyond]
    exact h.directory

section GateRules

variable {p : LockDirectory → Prop} {owner : GateOwner}

theorem removeGate_holds {s₁ : ControlState π} (h : GateNow s d p s₁) (hunpublished : p .unpublished) (habsent : p .absent) :
    (removeGate d).Holds (GateNow s d p) (fun r s' => r = .ok ⟨⟩ ∧ GateNow s d (· = .absent) s') s₁ := by
  unfold removeGate setDirectory
  rw [holds_bind, holds_change]
  have h₁ : GateNow s d p _ := h.set hunpublished
  have h₂ : GateNow s d p _ := h₁.set habsent
  exact ⟨h, h₁, h₁, h₂, rfl, h₁.set rfl⟩

theorem removeDeadAutomation_holds {s₁ : ControlState π} (h : GateNow s d p s₁) (hunpublished : p .unpublished)
    (habsent : p .absent) (previous : Option GateOwner) :
    (removeDeadAutomation d previous).Holds (GateNow s d p) (fun r s' => r = .ok ⟨⟩ ∧ GateNow s d p s') s₁ := by
  cases previous with
  | none => exact ⟨h, rfl, h⟩
  | some previous =>
    show (ite _ _ _ : ControlScript π PUnit).Holds _ _ s₁
    split
    · rw [holds_bind, holds_look]
      refine ⟨h, h, ?_⟩
      by_cases hdead : s₁.Dead previous.ownerPid
      · simp only [hdead, decide_true, if_true]
        refine (removeGate_holds h hunpublished habsent).imp fun r s' hp h' => ⟨h'.1, hp⟩
      · simp only [hdead, decide_false, Bool.false_eq_true, if_false]
        exact ⟨h, rfl, h⟩
    · exact ⟨h, rfl, h⟩

/-- **The operation of `acquire`**: the owner is published, or the directory is as it may have been before. -/
theorem acquireGate_holds {s₁ : ControlState π} (h : GateNow s d p s₁) (hunpublished : p .unpublished)
    (habsent : p .absent) (howner : p (.published owner)) {q : LockDirectory → Prop} (hq : GateNow s d q s₁)
    (hqu : q .unpublished) (hqa : q .absent) :
    (acquireGate d owner).Holds (GateNow s d p) (fun r s' => match r with
      | .ok _ => GateNow s d (· = .published owner) s'
      | .error _ => GateNow s d q s') s₁ := by
  have hboth : GateNow s d (fun directory => p directory ∧ q directory) s₁ := ⟨h.beside, h.directory, hq.directory⟩
  unfold acquireGate readGateOwner
  rw [holds_bind, holds_look]
  refine ⟨h, h, ?_⟩
  cases (s₁.gates d).directory.readOwner with
  | error => exact ⟨h, hq⟩
  | ok previous =>
    simp only
    rw [holds_bind]
    refine ((removeDeadAutomation_holds hboth ⟨hunpublished, hqu⟩ ⟨habsent, hqa⟩ previous).mono fun _ h =>
      h.imp fun _ => And.left).imp fun r s₂ _ h₂ => ?_
    obtain ⟨rfl, h₂⟩ := h₂
    have hp₂ : GateNow s d p s₂ := h₂.imp fun _ => And.left
    simp only
    rw [holds_bind]
    unfold makeGate setDirectory
    by_cases hempty : (s₂.gates d).directory = .absent
    · simp only [holds_perform, holds_change, hempty, if_true]
      have h₃ : GateNow s d p _ := hp₂.set hunpublished
      exact ⟨hp₂, h₃, h₃, h₃.set howner, h₃.set rfl⟩
    · simp only [holds_perform, hempty, if_false]
      exact ⟨hp₂, hp₂, hp₂, h₂.imp fun _ => And.right⟩

/-- **`takeControl`** publishes the human, or leaves no human there. -/
theorem takeControl_holds {token binding : String} (hboot : caller.process.boot = s.boot)
    (hfree : (s.gates d).directory.isHuman = false) :
    (takeControl caller d binding token).Holds
      (GateNow s d fun directory =>
        directory.isHuman = false ∨ directory = .published ⟨token, .human, binding, caller.process⟩)
      (fun r s' => match r with
        | .ok _ => GateNow s d (· = .published ⟨token, .human, binding, caller.process⟩) s'
        | .error _ => GateNow s d (·.isHuman = false) s') s := by
  refine gateTransition_holds (fun s₁ s₂ hbeyond h => h.of_beyondTransitions hbeyond) (fun r s₁ s₂ hbeyond h => ?_)
    ⟨rfl, .inl hfree⟩ hboot (transitionsOf_of_keeps (keeps_acquireGate _)) (fun _ s₁ hbeyond => ?_) fun _ e s₁ hbeyond => ?_
  · cases r with
    | ok _ => exact GateNow.of_beyondTransitions h hbeyond
    | error _ => exact GateNow.of_beyondTransitions h hbeyond
  · have hnow : GateNow s d (·.isHuman = false) s₁ := GateNow.of_beyondTransitions ⟨rfl, hfree⟩ hbeyond
    exact acquireGate_holds (hnow.imp fun _ => .inl) (.inl rfl) (.inl rfl) (.inr rfl) hnow rfl rfl
  · exact GateNow.of_beyondTransitions ⟨rfl, hfree⟩ hbeyond

theorem controls_of_readOwner {token binding : String} {owner : Option GateOwner}
    (hread : (s.gates d).directory.readOwner = .ok owner) :
    controls token binding owner = true ↔ s.ControlledBy d token binding := by
  unfold ControlState.ControlledBy
  cases hdirectory : (s.gates d).directory with
  | absent =>
    rw [hdirectory] at hread
    cases hread
    simp [controls]
  | unpublished => rw [hdirectory] at hread; cases hread
  | published owner' =>
    rw [hdirectory, LockDirectory.readOwner] at hread
    split at hread
    · cases hread
    · cases hread
      constructor
      · intro h
        simp only [controls, Option.any_some, decide_eq_true_eq] at h
        exact ⟨owner', rfl, h.2.1, h.1, h.2.2⟩
      · rintro ⟨owner, heq, hrole, hid, hbinding⟩
        cases heq
        simp [controls, hrole, hid, hbinding]

/-- A gate that a human has under a token and a binding can be read. -/
theorem readOwner_of_controlledBy {token binding : String} (h : s.ControlledBy d token binding) (htoken : token ≠ "")
    (hbinding : binding ≠ "") : ∃ owner, (s.gates d).directory.readOwner = .ok owner := by
  obtain ⟨owner, hdirectory, -, rfl, rfl⟩ := h
  exact ⟨some owner, by simp [hdirectory, LockDirectory.readOwner, htoken, hbinding]⟩

/-- **`assertControl`** passes exactly when the human has control. -/
theorem assertControl_holds {I : ControlState π → Prop} {token binding : String} (hI : I s) :
    (assertControl d token binding).Holds I (fun r s' => s' = s ∧ match r with
      | .ok _ => s.ControlledBy d token binding
      | .error _ => token ≠ "" → binding ≠ "" → ¬ s.ControlledBy d token binding) s := by
  unfold assertControl readGateOwner
  rw [holds_bind, holds_look]
  refine ⟨hI, hI, ?_⟩
  cases hread : (s.gates d).directory.readOwner with
  | error =>
    refine ⟨hI, rfl, fun htoken hbinding hcontrolled => ?_⟩
    obtain ⟨owner, howner⟩ := readOwner_of_controlledBy hcontrolled htoken hbinding
    rw [hread] at howner
    cases howner
  | ok owner =>
    simp only
    by_cases hcontrols : controls token binding owner = true
    · rw [if_pos hcontrols]
      exact ⟨hI, rfl, (controls_of_readOwner hread).1 hcontrols⟩
    · rw [if_neg hcontrols]
      exact ⟨hI, rfl, fun _ _ hcontrolled => hcontrols ((controls_of_readOwner hread).2 hcontrolled)⟩

theorem keeps_releaseOwner {token binding : String} : (releaseOwner d token binding : ControlScript π PUnit).Keeps
    (fun s => (besideGate d s, fun d' => transitionsOf d' s)) := by
  refine keeps_bind keeps_look fun owner => ?_
  split
  · exact keeps_removeGate
  · trivial

/-- **`releaseControl`** frees the gate exactly when the human has control and the transition is free. -/
theorem releaseControl_holds {token binding : String} (hboot : caller.process.boot = s.boot) :
    (releaseControl caller d token binding).Holds
      (GateNow s d fun directory => directory = (s.gates d).directory ∨ directory.isHuman = false)
      (fun r s' => match r with
        | .ok _ => s.TransitionFree d ∧ s.ControlledBy d token binding ∧ GateNow s d (· = .absent) s'
        | .error _ => GateNow s d (· = (s.gates d).directory) s' ∧
          (token ≠ "" → binding ≠ "" → s.TransitionFree d → ¬ s.ControlledBy d token binding)) s := by
  refine gateTransition_holds
    (fun s₁ s₂ hbeyond h => h.of_beyondTransitions hbeyond) (fun r s₁ s₂ hbeyond h => ?_)
    ⟨rfl, .inl rfl⟩ hboot (transitionsOf_of_keeps keeps_releaseOwner) (fun hfree s₁ hbeyond => ?_)
    fun hstuck e s₁ hbeyond => ?_
  · cases r with
    | ok _ => exact ⟨h.1, h.2.1, GateNow.of_beyondTransitions h.2.2 hbeyond⟩
    | error _ => exact ⟨GateNow.of_beyondTransitions h.1 hbeyond, h.2⟩
  · have hsame : GateNow s d (· = (s.gates d).directory) s₁ := GateNow.of_beyondTransitions ⟨rfl, rfl⟩ hbeyond
    have hnow : GateNow s d (fun directory => directory = (s.gates d).directory ∨ directory.isHuman = false) s₁ :=
      hsame.imp fun _ => .inl
    have hcontrolled : s₁.ControlledBy d token binding ↔ s.ControlledBy d token binding := by
      unfold ControlState.ControlledBy
      rw [directory_of_beyondTransitions hbeyond]
    unfold releaseOwner readGateOwner
    rw [holds_bind, holds_look]
    refine ⟨hnow, hnow, ?_⟩
    cases hread : (s₁.gates d).directory.readOwner with
    | error =>
      refine ⟨hnow, hsame, fun htoken hbinding _ hcontrol => ?_⟩
      obtain ⟨owner, howner⟩ := readOwner_of_controlledBy (hcontrolled.2 hcontrol) htoken hbinding
      rw [hread] at howner
      cases howner
    | ok owner =>
      simp only
      by_cases hcontrols : controls token binding owner = true
      · rw [if_pos hcontrols]
        refine (removeGate_holds hnow (.inr rfl) (.inr rfl)).imp fun r s' _ h => ?_
        obtain ⟨rfl, habsent⟩ := h
        exact ⟨hfree, hcontrolled.1 ((controls_of_readOwner hread).1 hcontrols), habsent⟩
      · rw [if_neg hcontrols]
        exact ⟨hnow, hsame, fun _ _ _ hcontrol =>
          hcontrols ((controls_of_readOwner hread).2 (hcontrolled.2 hcontrol))⟩
  · exact ⟨GateNow.of_beyondTransitions ⟨rfl, rfl⟩ hbeyond, fun _ _ hfree => absurd hfree hstuck⟩

end GateRules

end AuraCall.Desktop
