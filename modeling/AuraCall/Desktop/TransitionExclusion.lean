import AuraCall.Desktop.Transition
import AuraCall.Lib.Election
import AuraCall.Lib.ExclusiveSlot
import AuraCall.Lib.Indexed

/-!
# Exclusion of desktop transitions

Inode numbers are all that `sameTransition` compares, and the file system may give the number of a record that is gone to
a later record. As long as the record at the path is the one that was read whenever a reclaimer's last comparison finds
the number it has read (`IdentifiesRecord`), the path is an exclusive slot, each generation of the lock is reclaimed once
at most, and a reclaimer unlinks the record it has read.
-/

namespace AuraCall.Desktop

open TransitionSystem TransitionState TransitionPoint

variable {s s' : TransitionState} {label : TransitionLabel} {index i j : Nat} {call call' : TransitionCall}
  {point : TransitionPoint} {previous record : TransitionSnapshot} {process : Process}

/-! ## Calls and processes across a step -/

theorem call_setPoint (hc : s.calls[index]? = some call) (h : (s.setPoint index point).calls[i]? = some call') :
    (i = index ∧ call' = ⟨call.published, point⟩) ∨ (i ≠ index ∧ s.calls[i]? = some call') :=
  Indexed.modify_cases hc h

theorem not_dead (h : s.Alive process) : ¬s.Dead process := by
  rintro (hb | hc)
  · exact absurd h.1 (Nat.ne_of_lt hb)
  · exact h.2 hc

theorem dead_step (h : TransitionEffect s label s') (hd : s.Dead process) : s'.Dead process := by
  cases h with
  | crash => exact hd.imp_right (List.mem_cons_of_mem _)
  | reboot => exact hd.imp_left Nat.lt_succ_of_lt
  | start | on | acquire | read | condemn | elect | compare | confirm | reclaim | release => exact hd

/-- A process of a boot that has begun is alive only if it was. -/
theorem alive_step (h : TransitionEffect s label s') (hb : process.boot ≤ s.boot) (ha : s'.Alive process) :
    s.Alive process := by
  cases h with
  | crash => exact ⟨ha.1, fun hm => ha.2 (List.mem_cons_of_mem _ hm)⟩
  | reboot => exact absurd ha.1 (Nat.ne_of_lt (Nat.lt_succ_of_le hb))
  | start | on | acquire | read | condemn | elect | compare | confirm | reclaim | release => exact ha

/-- The calls are numbered by their identifiers, and none is of a boot to come. -/
structure Numbered (s : TransitionState) : Prop where
  id : ∀ (i : Nat) (call : TransitionCall), s.calls[i]? = some call → call.published.owner.id = i
  boot : ∀ (i : Nat) (call : TransitionCall), s.calls[i]? = some call → call.published.owner.ownerPid.boot ≤ s.boot

theorem numbered_setPoint (hn : Numbered s) (hc : s.calls[index]? = some call) : Numbered (s.setPoint index point) where
  id i call' h := by
    rcases call_setPoint hc h with ⟨rfl, rfl⟩ | ⟨_, h⟩
    · exact hn.id _ call hc
    · exact hn.id i call' h
  boot i call' h := by
    rcases call_setPoint hc h with ⟨rfl, rfl⟩ | ⟨_, h⟩
    · exact hn.boot _ call hc
    · exact hn.boot i call' h

theorem numbered_step (hn : Numbered s) (h : TransitionEffect s label s') : Numbered s' := by
  cases h with
  | start process bootId ino ha _ =>
    constructor <;> intro i call' h <;> rcases Indexed.append_cases h with h | ⟨rfl, rfl⟩
    · exact hn.id i call' h
    · rfl
    · exact hn.boot i call' h
    · exact Nat.le_of_eq ha.1
  | crash => exact ⟨hn.id, hn.boot⟩
  | reboot => exact ⟨hn.id, fun i call h => Nat.le_succ_of_le (hn.boot i call h)⟩
  | on hc | read hc | condemn hc | compare hc | confirm hc => exact numbered_setPoint hn hc
  | acquire hc | release hc => exact numbered_setPoint (s := { s with file := _ }) ⟨hn.id, hn.boot⟩ hc
  | elect hc => exact numbered_setPoint (s := { s with retired := _ }) ⟨hn.id, hn.boot⟩ hc
  | reclaim hc => exact numbered_setPoint (s := { s with file := _, reclaimed := _ }) ⟨hn.id, hn.boot⟩ hc

/-! ## The path is a slot -/

/-- The file at the path, owned by the live call that has linked it. -/
def slot (s : TransitionState) : Slot Nat TransitionSnapshot where
  file := s.file
  owns i record := ∃ call, s.calls[i]? = some call ∧ s.Alive call.published.owner.ownerPid ∧ call.point.holds = true ∧
    call.published = record

theorem owns_setPoint (hc : s.calls[index]? = some call) (ho : (slot (s.setPoint index point)).owns i record) :
    (i = index ∧ s.Alive call.published.owner.ownerPid ∧ point.holds = true ∧ call.published = record) ∨
      (i ≠ index ∧ (slot s).owns i record) := by
  obtain ⟨call', h, ha, hp, hrec⟩ := ho
  rcases call_setPoint hc h with ⟨rfl, rfl⟩ | ⟨hne, h⟩
  · exact .inl ⟨rfl, ha, hp, hrec⟩
  · exact .inr ⟨hne, call', h, ha, hp, hrec⟩

theorem slot_leave (hc : s.calls[index]? = some call) (hp : point.holds = true → call.point.holds = true)
    {s₀ : TransitionState} (hfile : s.file = s₀.file) (howns : ∀ i f, (slot s).owns i f → (slot s₀).owns i f) :
    Slot.Step (slot s₀) (slot (s.setPoint index point)) := by
  refine .leave hfile fun i f ho => howns i f ?_
  rcases owns_setPoint hc ho with ⟨rfl, ha, hpoint, hrec⟩ | ⟨_, ho⟩
  · exact ⟨call, hc, ha, hp hpoint, hrec⟩
  · exact ho

/-! ## Reclaimers are elected -/

/-- The links `retired-<id>`, the calls that have made one and are not done with it, and the records reclaimed. -/
def election (s : TransitionState) : Election Nat Nat where
  recorded id := (s.retiredRecord id).isSome = true
  holds i id := ∃ call previous, s.calls[i]? = some call ∧ call.point.elected = some previous ∧ previous.owner.id = id
  spent := s.reclaimed.map fun entry => entry.1.owner.id

theorem holds_setPoint {id : Nat} (hc : s.calls[index]? = some call)
    (hh : (election (s.setPoint index point)).holds i id) :
    (i = index ∧ ∃ previous, point.elected = some previous ∧ previous.owner.id = id) ∨
      (i ≠ index ∧ (election s).holds i id) := by
  obtain ⟨call', previous, h, hp, hid⟩ := hh
  rcases call_setPoint hc h with ⟨rfl, rfl⟩ | ⟨hne, h⟩
  · exact .inl ⟨rfl, previous, hp, hid⟩
  · exact .inr ⟨hne, call', previous, h, hp, hid⟩

/-- A record in hand is needed to be elected, condemn or unlink. -/
theorem elected_previous (h : point.previous = none) :
    point.condemned = none ∧ point.elected = none ∧ point.doomed = none := by
  cases point <;> first | exact ⟨rfl, rfl, rfl⟩ | cases h

/-- A call that moves without being elected leaves the election as it is. -/
theorem election_keep (hc : s.calls[index]? = some call)
    (hp : ∀ previous, point.elected = some previous → call.point.elected = some previous) :
    Election.Step (election s) (election (s.setPoint index point)) := by
  refine .keep (fun _ h => h) (fun i id hh => ?_) rfl
  rcases holds_setPoint hc hh with ⟨rfl, previous, hpoint, hid⟩ | ⟨_, hh⟩
  · exact ⟨call, previous, hc, hp previous hpoint, hid⟩
  · exact hh

/-- **Every step is a move of the election.** -/
theorem election_step (h : TransitionEffect s label s') : Election.Step (election s) (election s') := by
  cases h with
  | start process bootId ino _ _ =>
    refine .keep (fun _ h => h) (fun i id hh => ?_) rfl
    obtain ⟨call', previous, h, hp, hid⟩ := hh
    rcases Indexed.append_cases h with h | ⟨rfl, rfl⟩
    · exact ⟨call', previous, h, hp, hid⟩
    · cases hp
  | crash | reboot => exact .keep (fun _ h => h) (fun _ _ h => h) rfl
  | on hc hp _ _ => exact election_keep hc fun previous he => by rw [(elected_previous hp).2.1] at he; cases he
  | acquire hc _ _ => exact election_keep (s := { s with file := _ }) hc nofun
  | read hc _ _ => exact election_keep hc nofun
  | condemn hc _ _ => exact election_keep hc nofun
  | @elect index attempt answer call previous record hc hpoint hfresh hfile =>
    refine .elect index previous.owner.id (by simp [election, hfresh]) (by simp [election, setPoint, retiredRecord])
      (fun id hr => ?_) (fun i id hh => ?_) rfl
    · simp only [election, setPoint, retiredRecord, List.find?_cons]
      split
      · rfl
      · exact hr
    · rcases holds_setPoint (s := { s with retired := _ }) hc hh with ⟨rfl, _, he, hid⟩ | ⟨_, hh⟩
      · cases he
        exact .inr ⟨rfl, hid.symm⟩
      · exact .inl hh
  | compare hc hpoint => exact election_keep hc fun previous he => by rw [hpoint]; exact he
  | confirm hc _ hpoint _ => exact election_keep hc fun previous he => by rw [hpoint]; exact he
  | @reclaim index attempt call previous record hc _ hpoint _ =>
    refine .spend index previous.owner.id ⟨call, previous, hc, by rw [hpoint]; rfl, rfl⟩ (fun _ h => h)
      (fun i id hh => ?_) (by simp [election, setPoint])
    rcases holds_setPoint (s := { s with file := none, reclaimed := _ }) hc hh with ⟨rfl, _, he, _⟩ | ⟨hne, hh⟩
    · rw [(elected_previous (previous_retry attempt)).2.1] at he
      cases he
    · exact ⟨hh, hne⟩
  | release hc _ _ => exact election_keep (s := { s with file := none }) hc nofun

/-! ## Reclaimed records belong to the dead -/

/-- A record that is going to be reclaimed belongs to a dead process, and one that is going to be unlinked by a live call
is at the path. -/
structure Guarded (s : TransitionState) : Prop where
  numbered : Numbered s
  exclusive : (slot s).Exclusive
  sound : (election s).Sound
  dead : ∀ (i : Nat) (call : TransitionCall) previous, s.calls[i]? = some call → call.point.condemned = some previous →
    s.Dead previous.owner.ownerPid
  doomed : ∀ (i : Nat) (call : TransitionCall) previous, s.calls[i]? = some call → s.Alive call.published.owner.ownerPid →
    call.point.doomed = some previous → s.file = some previous
  reclaimed : ∀ entry ∈ s.reclaimed, entry.2 = entry.1 ∧ s.Dead entry.1.owner.ownerPid

/-- Whenever the last comparison of a reclaimer finds the inode number it has read, the record at the path is the one it
has read. -/
def IdentifiesRecord (s : TransitionState) : TransitionLabel → Prop
  | .advance index .done =>
    match (s.calls[index]?).map TransitionCall.point with
    | some (.checkingFile _ previous) => sameTransition s.file previous = true → s.file = some previous
    | _ => True
  | _ => True

instance (s : TransitionState) (label : TransitionLabel) : Decidable (IdentifiesRecord s label) := by
  unfold IdentifiesRecord
  split
  · split <;> infer_instance
  · infer_instance

theorem identifiesRecord_iff {attempt : Nat} (hc : s.calls[index]? = some call)
    (hpoint : call.point = .checkingFile attempt previous) :
    IdentifiesRecord s (.advance index .done) ↔ (sameTransition s.file previous = true → s.file = some previous) := by
  simp [IdentifiesRecord, hc, hpoint]

theorem not_identifiesRecord (h : ¬IdentifiesRecord s label) :
    ∃ (index : Nat) (call : TransitionCall) (attempt : Nat) (previous : TransitionSnapshot),
      label = .advance index .done ∧ s.calls[index]? = some call ∧ call.point = .checkingFile attempt previous ∧
        sameTransition s.file previous = true ∧ s.file ≠ some previous := by
  unfold IdentifiesRecord at h
  split at h
  · rename_i index
    split at h
    · rename_i attempt previous heq
      obtain ⟨call, hc, hp⟩ := Option.map_eq_some_iff.1 heq
      obtain ⟨hsame, hne⟩ := Classical.not_imp.1 h
      exact ⟨index, call, attempt, previous, rfl, hc, hp, hsame, hne⟩
    · exact absurd trivial h
  · exact absurd trivial h

/-- The step that compares the record at the path for the last time and finds the inode number. -/
theorem step_confirm {attempt : Nat} (hc : s.calls[index]? = some call)
    (hpoint : call.point = .checkingFile attempt previous) (hsame : sameTransition s.file previous = true)
    (h : s.step (.advance index .done) = some s') :
    s.Alive call.published.owner.ownerPid ∧ s' = s.setPoint index (.unlinking attempt previous) := by
  simp only [step, hc] at h
  obtain ⟨ha, h⟩ := Option.ite_none_right_eq_some.mp h
  simp only [resume, hpoint, hsame, if_true, Option.some.injEq] at h
  exact ⟨ha, h.symm⟩

/-- The step that unlinks, when the record at the path has not changed since. -/
theorem step_reclaim {attempt : Nat} (hc : s.calls[index]? = some call) (ha : s.Alive call.published.owner.ownerPid)
    (hfile : s.file = some record) :
    (s.setPoint index (.unlinking attempt previous)).step (.advance index .done) =
      some ({ s.setPoint index (.unlinking attempt previous) with
        file := none, reclaimed := s.reclaimed ++ [(previous, record)] }.setPoint index (.retry attempt)) := by
  have hmoved : (s.setPoint index (.unlinking attempt previous)).calls[index]? =
      some ⟨call.published, .unlinking attempt previous⟩ := by
    simp [setPoint, hc]
  have halive : (s.setPoint index (.unlinking attempt previous)).Alive call.published.owner.ownerPid := ha
  have hpath : (s.setPoint index (.unlinking attempt previous)).file = some record := hfile
  simp only [step, hmoved, if_pos halive, resume, hpath]
  rfl

theorem condemned_of_doomed (h : point.doomed = some previous) : point.condemned = some previous := by
  cases point <;> first | exact h | cases h

/-- The record a live call is going to unlink is the one it has read: no other call is going to unlink it. -/
theorem doomed_unique (hg : Guarded s) (hc : s.calls[i]? = some call) (hp : call.point.doomed = some previous)
    (hc' : s.calls[j]? = some call') (hp' : call'.point.doomed = some previous) : i = j := by
  have helected : ∀ point : TransitionPoint, point.doomed = some previous → point.elected = some previous := by
    intro point h
    cases point <;> first | exact h | cases h
  exact hg.sound.unique i j previous.owner.id ⟨call, previous, hc, helected _ hp, rfl⟩
    ⟨call', previous, hc', helected _ hp', rfl⟩

/-- A live call that unlinks a record unlinks that of no live owner. -/
theorem doomed_unowned (hg : Guarded s) (hc : s.calls[i]? = some call) (hp : call.point.condemned = some previous)
    (ho : (slot s).owns j previous) : False := by
  obtain ⟨owner, _, ha, _, rfl⟩ := ho
  exact not_dead ha (hg.dead i call _ hc hp)

/-- **Every step is a move of the slot.** -/
theorem slot_step (hg : Guarded s) (h : TransitionEffect s label s') : Slot.Step (slot s) (slot s') := by
  have hold : ∀ {s' : TransitionState}, TransitionEffect s label s' → s'.calls = s.calls →
      ∀ i f, (slot s').owns i f → (slot s).owns i f := by
    rintro s' h hcalls i f ⟨call, hc, ha, hp, hrec⟩
    rw [hcalls] at hc
    exact ⟨call, hc, alive_step h (hg.numbered.boot i call hc) ha, hp, hrec⟩
  have heff := h
  cases h with
  | start process bootId ino _ _ =>
    refine .leave rfl fun i f ho => ?_
    obtain ⟨call', h, ha, hp, hrec⟩ := ho
    rcases Indexed.append_cases h with h | ⟨rfl, rfl⟩
    · exact ⟨call', h, ha, hp, hrec⟩
    · cases hp
  | crash => exact .leave rfl (hold heff rfl)
  | reboot => exact .leave rfl (hold heff rfl)
  | on hc _ hp _ => exact slot_leave hc hp rfl fun _ _ ho => ho
  | @acquire index answer call hc hnone _ =>
    refine .create index call.published hnone rfl fun i f ho => ?_
    rcases owns_setPoint (s := { s with file := _ }) hc ho with ⟨rfl, _, _, hrec⟩ | ⟨_, ho⟩
    · exact .inr ⟨rfl, hrec.symm⟩
    · exact .inl ho
  | read hc _ _ => exact slot_leave hc (fun hp => by cases hp) rfl fun _ _ ho => ho
  | condemn hc _ _ => exact slot_leave hc (fun hp => by cases hp) rfl fun _ _ ho => ho
  | elect hc _ _ _ => exact slot_leave (s := { s with retired := _ }) hc (fun hp => by cases hp) rfl fun _ _ ho => ho
  | compare hc _ => exact slot_leave hc (fun hp => by cases hp) rfl fun _ _ ho => ho
  | confirm hc _ _ _ => exact slot_leave hc (fun hp => by cases hp) rfl fun _ _ ho => ho
  | @reclaim index attempt call previous record hc ha hpoint hfile =>
    refine .unlink rfl fun i f ho => ?_
    rcases owns_setPoint (s := { s with file := none, reclaimed := _ }) hc ho with ⟨rfl, _, hp, _⟩ | ⟨_, ho⟩
    · rw [holds_retry] at hp
      cases hp
    · refine ⟨ho, fun hf => ?_⟩
      -- the record at the path is the one that was read, and its process is dead
      have hd := hg.doomed index call previous hc ha (by rw [hpoint]; rfl)
      cases hf.symm.trans hd
      exact doomed_unowned hg hc (by rw [hpoint]; rfl) ho
  | @release index call hc ha hpoint =>
    refine .unlink rfl fun i f ho => ?_
    rcases owns_setPoint (s := { s with file := none }) hc ho with ⟨rfl, _, hp, _⟩ | ⟨hne, ho⟩
    · cases hp
    · have hown : (slot s).owns index call.published := ⟨call, hc, ha, by rw [hpoint]; rfl, rfl⟩
      exact ⟨ho, fun _ => hne (hg.exclusive.unique i index f _ ho hown)⟩

/-- A call that has found a process dead has found it dead in the state before, or condemns it in this step. -/
theorem condemned_step (h : TransitionEffect s label s') (hc : s'.calls[i]? = some call')
    (hp : call'.point.condemned = some previous) :
    s.Dead previous.owner.ownerPid ∨
      ∃ call, s.calls[i]? = some call ∧ call.point.condemned = some previous := by
  have hmoved : ∀ {s₀ : TransitionState} {index : Nat} {call : TransitionCall} {point : TransitionPoint},
      s₀.calls = s.calls → s.calls[index]? = some call → (s₀.setPoint index point).calls[i]? = some call' →
      (point.condemned = some previous → s.Dead previous.owner.ownerPid ∨ call.point.condemned = some previous) →
      s.Dead previous.owner.ownerPid ∨ ∃ call, s.calls[i]? = some call ∧ call.point.condemned = some previous := by
    intro s₀ index call point hcalls hcall hc hpoint
    rcases call_setPoint (by rw [hcalls]; exact hcall) hc with ⟨rfl, rfl⟩ | ⟨_, hc⟩
    · exact (hpoint hp).imp_right fun hold => ⟨call, hcall, hold⟩
    · exact .inr ⟨call', by rw [← hcalls]; exact hc, hp⟩
  have hnone : ∀ {point : TransitionPoint} {q : Prop}, point.previous = none → point.condemned = some previous → q := by
    intro point q hpoint hcond
    rw [(elected_previous hpoint).1] at hcond
    cases hcond
  cases h with
  | start process bootId ino _ _ =>
    rcases Indexed.append_cases hc with hc | ⟨rfl, rfl⟩
    · exact .inr ⟨call', hc, hp⟩
    · cases hp
  | crash | reboot => exact .inr ⟨call', hc, hp⟩
  | on hcall hprev _ _ => exact hmoved rfl hcall hc (hnone hprev)
  | acquire hcall _ _ => exact hmoved rfl hcall hc (hnone rfl)
  | read hcall _ _ => exact hmoved rfl hcall hc nofun
  | condemn hcall _ hdead => exact hmoved rfl hcall hc fun he => by cases he; exact .inl hdead
  | elect hcall hpoint _ _ => exact hmoved rfl hcall hc fun he => .inr (by rw [hpoint]; exact he)
  | compare hcall hpoint => exact hmoved rfl hcall hc fun he => .inr (by rw [hpoint]; exact he)
  | confirm hcall _ hpoint _ => exact hmoved rfl hcall hc fun he => .inr (by rw [hpoint]; exact he)
  | reclaim hcall _ _ _ => exact hmoved rfl hcall hc (hnone (previous_retry _))
  | release hcall _ _ => exact hmoved rfl hcall hc (hnone rfl)

/-- A live call that is going to unlink a record has the record at the path. -/
theorem doomed_step (hg : Guarded s) (hok : IdentifiesRecord s label) (h : TransitionEffect s label s')
    (hc : s'.calls[i]? = some call') (ha : s'.Alive call'.published.owner.ownerPid)
    (hp : call'.point.doomed = some previous) : s'.file = some previous := by
  have hnone : ∀ {point : TransitionPoint} {q : Prop}, point.previous = none → point.doomed = some previous → q := by
    intro point q hpoint hdoom
    rw [(elected_previous hpoint).2.2] at hdoom
    cases hdoom
  have heff := h
  cases h with
  | start process bootId ino _ _ =>
    rcases Indexed.append_cases hc with hc | ⟨rfl, rfl⟩
    · exact hg.doomed i call' previous hc ha hp
    · cases hp
  | crash | reboot =>
    exact hg.doomed i call' previous hc (alive_step heff (hg.numbered.boot i call' hc) ha) hp
  | on hcall hprev _ _ =>
    rcases call_setPoint hcall hc with ⟨rfl, rfl⟩ | ⟨_, hc⟩
    · exact hnone hprev hp
    · exact hg.doomed i call' previous hc ha hp
  | acquire hcall hfree _ =>
    rcases call_setPoint (s := { s with file := _ }) hcall hc with ⟨rfl, rfl⟩ | ⟨_, hc⟩
    · cases hp
    · -- the path was free, so no call was going to unlink anything
      cases hfree.symm.trans (hg.doomed i call' previous hc ha hp)
  | read hcall _ _ | condemn hcall _ _ | compare hcall _ =>
    rcases call_setPoint hcall hc with ⟨rfl, rfl⟩ | ⟨_, hc⟩
    · cases hp
    · exact hg.doomed i call' previous hc ha hp
  | elect hcall _ _ _ =>
    rcases call_setPoint (s := { s with retired := _ }) hcall hc with ⟨rfl, rfl⟩ | ⟨_, hc⟩
    · cases hp
    · exact hg.doomed i call' previous hc ha hp
  | confirm hcall _ hpoint hsame =>
    rcases call_setPoint hcall hc with ⟨rfl, rfl⟩ | ⟨_, hc⟩
    · cases hp
      exact (identifiesRecord_iff hcall hpoint).1 hok hsame
    · exact hg.doomed i call' previous hc ha hp
  | @reclaim index attempt call read record hcall hlive hpoint hfile =>
    rcases call_setPoint (s := { s with file := _, reclaimed := _ }) hcall hc with ⟨rfl, rfl⟩ | ⟨hne, hother⟩
    · exact hnone (previous_retry attempt) hp
    · -- two calls would be going to unlink the record at the path
      have hread := hg.doomed index call read hcall hlive (by rw [hpoint]; rfl)
      cases hread.symm.trans (hg.doomed i call' previous hother ha hp)
      exact absurd (doomed_unique hg hother hp hcall (by rw [hpoint]; rfl)) hne
  | @release index call hcall hlive hpoint =>
    rcases call_setPoint (s := { s with file := _ }) hcall hc with ⟨rfl, rfl⟩ | ⟨hne, hc⟩
    · cases hp
    · -- the record at the path belongs to the call, which is alive
      have hown : (slot s).owns index call.published := ⟨call, hcall, hlive, by rw [hpoint]; rfl, rfl⟩
      have hfile : s.file = some call.published := hg.exclusive.present index _ hown
      cases hfile.symm.trans (hg.doomed i call' _ hc ha hp)
      exact (doomed_unowned hg hc (condemned_of_doomed hp) hown).elim

theorem reclaimed_step (hg : Guarded s) (h : TransitionEffect s label s') :
    ∀ entry ∈ s'.reclaimed, entry.2 = entry.1 ∧ s'.Dead entry.1.owner.ownerPid := by
  have hold : ∀ entry ∈ s.reclaimed, entry.2 = entry.1 ∧ s'.Dead entry.1.owner.ownerPid := fun entry hm =>
    ⟨(hg.reclaimed entry hm).1, dead_step h (hg.reclaimed entry hm).2⟩
  have heff := h
  cases h with
  | start | crash | reboot | on | acquire | read | condemn | elect | compare | confirm | release => exact hold
  | @reclaim index attempt call read record hcall hlive hpoint hfile =>
    intro entry hm
    rcases List.mem_append.1 hm with hm | hm
    · exact hold entry hm
    · rw [List.mem_singleton.1 hm]
      have hread := hg.doomed index call read hcall hlive (by rw [hpoint]; rfl)
      exact ⟨Option.some.inj (hfile.symm.trans hread), dead_step heff
        (hg.dead index call read hcall (by rw [hpoint]; rfl))⟩

/-- **One step keeps the lock guarded.** -/
theorem guarded_step (hg : Guarded s) (hok : IdentifiesRecord s label) (h : TransitionEffect s label s') :
    Guarded s' where
  numbered := numbered_step hg.numbered h
  exclusive := (slot_step hg h).exclusive hg.exclusive
  sound := (election_step h).sound hg.sound
  dead i call' previous hc hp := by
    rcases condemned_step h hc hp with hdead | ⟨call, hcall, hcond⟩
    · exact dead_step h hdead
    · exact dead_step h (hg.dead i call previous hcall hcond)
  doomed _ _ _ hc ha hp := doomed_step hg hok h hc ha hp
  reclaimed := reclaimed_step hg h

theorem guarded_new : Guarded .new where
  numbered := ⟨nofun, nofun⟩
  exclusive := .of_unowned fun _ _ ⟨_, hc, _⟩ => by cases hc
  sound := .of_fresh (fun _ _ ⟨_, _, hc, _⟩ => by cases hc) rfl
  dead := nofun
  doomed := nofun
  reclaimed := nofun

/-- **Every reachable state is guarded.** -/
theorem guarded_of_reachable (h : (transitionSystem.restrict IdentifiesRecord).Reachable s) : Guarded s :=
  h.invariant (fun _ hinit => hinit ▸ guarded_new) fun _ _ _ _ hg hs => guarded_step hg hs.1 (step_effect hs.2)

/-! ## The lock -/

/-- The call is inside its transition, in a process that is alive. -/
def Inside (s : TransitionState) (index : Nat) : Prop :=
  ∃ call, s.calls[index]? = some call ∧ s.Alive call.published.owner.ownerPid ∧ call.point.holds = true

/-- No reclaimer can now unlink another record than the one it has read. -/
def UnlinksOnlyRead (s : TransitionState) : Prop :=
  ∀ index s', transitionSystem.Step s (.advance index .done) s' → ∀ entry ∈ s'.reclaimed, entry.2 = entry.1

theorem unlinksOnlyRead (hg : Guarded s) : UnlinksOnlyRead s :=
  fun _ _ hs entry hm => (reclaimed_step hg (step_effect hs) entry hm).1

/-- **The transition lock.** In every run in which a reclaimer whose last comparison finds the inode number it has read
finds the record it has read, at most one live call is inside a transition, every generation of the lock is reclaimed
once at most, and a reclaimer unlinks the record it has read, whose process is dead. The next step keeps reclaimers to
the records they have read exactly when it is such a one. -/
theorem transition_exclusive (h : (transitionSystem.restrict IdentifiesRecord).Reachable s) :
    (∀ i j, Inside s i → Inside s j → i = j) ∧
    (s.reclaimed.map fun entry => entry.1.owner.id).Nodup ∧
    (∀ entry ∈ s.reclaimed, entry.2 = entry.1 ∧ s.Dead entry.1.owner.ownerPid) ∧
    ∀ label s', transitionSystem.Step s label s' → (UnlinksOnlyRead s' ↔ IdentifiesRecord s label) := by
  have hg := guarded_of_reachable h
  refine ⟨?_, hg.sound.nodup, hg.reclaimed, ?_⟩
  · rintro i j ⟨call, hc, ha, hp⟩ ⟨call', hc', ha', hp'⟩
    exact hg.exclusive.unique i j _ _ ⟨call, hc, ha, hp, rfl⟩ ⟨call', hc', ha', hp', rfl⟩
  · intro label s' hs
    refine ⟨fun hunlinks => ?_, fun hok => unlinksOnlyRead (guarded_step hg hok (step_effect hs))⟩
    by_contra hbad
    obtain ⟨index, call, attempt, previous, rfl, hcall, hpoint, hsame, hne⟩ := not_identifiesRecord hbad
    obtain ⟨record, hfile⟩ : ∃ record, s.file = some record := by
      cases hfile : s.file with
      | none => rw [hfile] at hsame; cases hsame
      | some record => exact ⟨record, rfl⟩
    -- the reclaimer that is let pass unlinks a record that it has not read
    obtain ⟨hlive, rfl⟩ := step_confirm hcall hpoint hsame hs
    have hentry := hunlinks index _ (step_reclaim hcall hlive hfile) (previous, record)
      (List.mem_append_right _ List.mem_cons_self)
    exact hne (hfile.trans (congrArg some hentry))

/-! ## A dead owner, and an inode number given to a successor -/

/-- A process dies inside its transition; another process reclaims the lock and enters. -/
def reclaimedLock : TransitionState :=
  (execute (fun s label => if decide (IdentifiesRecord s label) then s.step label else none) .new
    [.start ⟨0, 10⟩ (some 0) 5, .advance 0 .done, .crash ⟨0, 10⟩,
      .start ⟨0, 20⟩ (some 0) 6, .advance 1 .done, .advance 1 .done, .advance 1 .noEntry, .advance 1 .done,
      .advance 1 .done, .advance 1 .done, .advance 1 .done, .advance 1 .done]).get (by decide +kernel)

/-- The reclaimer is the only one inside, and has unlinked the record of the dead process only. -/
theorem reclaimedLock_exclusive :
    (∀ i j, Inside reclaimedLock i → Inside reclaimedLock j → i = j) ∧
      (reclaimedLock.reclaimed.map fun entry => entry.1.owner.id) = [0] ∧
      ∀ entry ∈ reclaimedLock.reclaimed, entry.2 = entry.1 := by
  have hreach : (transitionSystem.restrict IdentifiesRecord).Reachable reclaimedLock :=
    reachable_execute_where (fun _ _ h => of_decide_eq_true h) (.init rfl) (Option.some_get _).symm
  obtain ⟨hunique, _, hreclaimed, _⟩ := transition_exclusive hreach
  exact ⟨hunique, by decide +kernel, fun entry hm => (hreclaimed entry hm).1⟩

/-- The first process is inside when the second reads its record, leaves and ends; the third gets the inode number and
enters before the second goes on; then the fourth enters. -/
def reusedInode : TransitionState :=
  (execute TransitionState.step .new
    [.start ⟨0, 10⟩ (some 0) 5, .advance 0 .done,
      .start ⟨0, 20⟩ (some 0) 6, .advance 1 .done, .advance 1 .done,
      .advance 0 .done, .advance 0 .done, .advance 0 .done, .advance 0 .done, .crash ⟨0, 10⟩,
      .start ⟨0, 30⟩ (some 0) 5, .advance 2 .done,
      .advance 1 .noEntry, .advance 1 .done, .advance 1 .done, .advance 1 .done, .advance 1 .done,
      .start ⟨0, 40⟩ (some 0) 7, .advance 3 .done]).get (by decide +kernel)

/-- **A reclaimer unlinks a successor's record, and two processes are inside.** -/
theorem two_inside : ∃ s, transitionSystem.Reachable s ∧ Inside s 2 ∧ Inside s 3 ∧
    ∃ entry ∈ s.reclaimed, entry.2 ≠ entry.1 ∧ s.Alive entry.2.owner.ownerPid := by
  refine ⟨reusedInode, reachable_execute (.init rfl) (Option.some_get _).symm, ?_, ?_, ?_⟩
  · exact ⟨⟨⟨⟨2, ⟨0, 30⟩, some 0⟩, 5⟩, .inside⟩, by decide +kernel, by decide +kernel, rfl⟩
  · exact ⟨⟨⟨⟨3, ⟨0, 40⟩, some 0⟩, 7⟩, .inside⟩, by decide +kernel, by decide +kernel, rfl⟩
  · exact ⟨(⟨⟨0, ⟨0, 10⟩, some 0⟩, 5⟩, ⟨⟨2, ⟨0, 30⟩, some 0⟩, 5⟩), by decide +kernel, by decide, by decide +kernel⟩

end AuraCall.Desktop
