import AuraCall.Desktop.StoreLock
import AuraCall.Lib.ExclusiveSlot
import AuraCall.Lib.Indexed
import Mathlib.Tactic.ByContra

/-!
# Exclusion in the native desktop store

The reconciliation lock keeps reconcilers apart, but not a reconciler from an owner: between the time a reconciler reads
an owner's record and the time it renames the directory, the owner can leave and its process end, and another call can
make the directory anew. As long as a reconciler that renames the directory finds in it the record it has read
(`RetiresRead`), both locks are exclusive slots, and the directories that are renamed belong to dead processes.
-/

namespace AuraCall.Desktop

open TransitionSystem LockState LockPoint

variable {s s' : LockState} {label : LockLabel} {index i j : Nat} {call call' : LockCall} {point : LockPoint}
  {previous : LockOwner} {directory : OwnedDirectory}

/-! ## Calls across a step -/

theorem lockCall_setPoint (hc : s.calls[index]? = some call) (h : (s.setPoint index point).calls[i]? = some call') :
    (i = index ∧ call' = ⟨call.process, point⟩) ∨ (i ≠ index ∧ s.calls[i]? = some call') :=
  Indexed.modify_cases hc h

theorem lockCall_stays (h : LockEffect s label s') (hc : s.calls[i]? = some call) :
    ∃ call', s'.calls[i]? = some call' ∧ call'.process = call.process := by
  have hmoved : ∀ (index : Nat) (point : LockPoint),
      ∃ call', (s.setPoint index point).calls[i]? = some call' ∧ call'.process = call.process := by
    intro index point
    by_cases hi : i = index
    · subst hi
      exact ⟨_, Indexed.getElem?_modify_self hc, rfl⟩
    · exact ⟨call, Indexed.getElem?_modify_ne hi hc, rfl⟩
  cases h with
  | start => exact ⟨call, Indexed.getElem?_append hc, rfl⟩
  | crash => exact ⟨call, hc, rfl⟩
  | on | make | write | unlink | remove | reconcile | read | condemn | retire | finish => exact hmoved _ _

/-- Nobody comes back to life. -/
theorem alive_lockStep (h : LockEffect s label s') {process : StoreProcess} (ha : s'.Alive process) :
    s.Alive process := by
  cases h with
  | crash => exact fun hm => ha (List.mem_cons_of_mem _ hm)
  | start | on | make | write | unlink | remove | reconcile | read | condemn | retire | finish => exact ha

/-- The call was made by a process that is dead. -/
def Gone (s : LockState) (id : Nat) : Prop := ∃ call, s.calls[id]? = some call ∧ ¬ s.Alive call.process

theorem gone_step (h : LockEffect s label s') {id : Nat} (hgone : Gone s id) : Gone s' id := by
  obtain ⟨call, hc, hdead⟩ := hgone
  obtain ⟨call', hc', hprocess⟩ := lockCall_stays h hc
  exact ⟨call', hc', fun ha => hdead (alive_lockStep h (hprocess ▸ ha))⟩

/-- The record is that of a call. -/
def Published (s : LockState) (owner : LockOwner) : Prop :=
  ∃ call, s.calls[owner.id]? = some call ∧ call.process.pid = owner.pid

theorem published_step (h : LockEffect s label s') {owner : LockOwner} (hp : Published s owner) :
    Published s' owner := by
  obtain ⟨call, hc, hpid⟩ := hp
  obtain ⟨call', hc', hprocess⟩ := lockCall_stays h hc
  exact ⟨call', hc', by rw [hprocess, hpid]⟩

/-! ## The two directories are slots -/

/-- A directory at a path, made by `file`, and the live calls that claim it. -/
def slotOf (file : LockState → Option Nat) (claims : LockPoint → Bool) (s : LockState) : Slot Nat Nat where
  file := file s
  owns i f := f = i ∧ ∃ call, s.calls[i]? = some call ∧ s.Alive call.process ∧ claims call.point = true

def lockSlot : LockState → Slot Nat Nat := slotOf (·.lock.map OwnedDirectory.maker) holds

def reconcileSlot : LockState → Slot Nat Nat := slotOf (·.reconcile) reconciles

section Slots

variable {file : LockState → Option Nat} {claims : LockPoint → Bool} {t : LockState} {f : Nat}

theorem owns_moved (hcalls : t.calls = s.calls) (hcrashed : t.crashed = s.crashed) (hc : s.calls[index]? = some call)
    (ho : (slotOf file claims (t.setPoint index point)).owns i f) :
    (i = index ∧ f = i ∧ s.Alive call.process ∧ claims point = true) ∨
      (i ≠ index ∧ (slotOf file claims s).owns i f) := by
  obtain ⟨hf, call', h, ha, hp⟩ := ho
  have halive : ∀ {process}, (t.setPoint index point).Alive process → s.Alive process := fun ha => by
    unfold Alive at ha ⊢
    rwa [← hcrashed]
  rcases lockCall_setPoint (hcalls ▸ hc) h with ⟨rfl, rfl⟩ | ⟨hne, h⟩
  · exact .inl ⟨rfl, hf, halive ha, hp⟩
  · exact .inr ⟨hne, hf, call', hcalls ▸ h, halive ha, hp⟩

theorem slot_moved (hcalls : t.calls = s.calls) (hcrashed : t.crashed = s.crashed) (hc : s.calls[index]? = some call)
    (hfile : file (t.setPoint index point) = file s) (hclaims : claims point = true → claims call.point = true) :
    Slot.Step (slotOf file claims s) (slotOf file claims (t.setPoint index point)) := by
  refine .leave hfile fun i f ho => ?_
  rcases owns_moved hcalls hcrashed hc ho with ⟨rfl, hf, ha, hp⟩ | ⟨_, ho⟩
  · exact ⟨hf, call, hc, ha, hclaims hp⟩
  · exact ho

/-- A call makes the directory. -/
theorem slot_made (hcalls : t.calls = s.calls) (hcrashed : t.crashed = s.crashed) (hc : s.calls[index]? = some call)
    (hnone : file s = none) (hfile : file (t.setPoint index point) = some index) :
    Slot.Step (slotOf file claims s) (slotOf file claims (t.setPoint index point)) := by
  refine .create index index hnone hfile fun i f ho => ?_
  rcases owns_moved hcalls hcrashed hc ho with ⟨rfl, hf, _, _⟩ | ⟨_, ho⟩
  · exact .inr ⟨rfl, hf⟩
  · exact .inl ho

/-- The directory is removed, and nobody else claims it. -/
theorem slot_removed (hcalls : t.calls = s.calls) (hcrashed : t.crashed = s.crashed) (hc : s.calls[index]? = some call)
    (hfile : file (t.setPoint index point) = none) (hfree : claims point = false)
    (hother : ∀ i, i ≠ index → (slotOf file claims s).owns i i → file s ≠ some i) :
    Slot.Step (slotOf file claims s) (slotOf file claims (t.setPoint index point)) := by
  refine .unlink hfile fun i f ho => ?_
  rcases owns_moved hcalls hcrashed hc ho with ⟨rfl, _, _, hp⟩ | ⟨hne, ho⟩
  · rw [hfree] at hp
    cases hp
  · have hf := ho.1
    subst hf
    exact ⟨ho, hother f hne ho⟩

theorem slot_unmoved (h : LockEffect s label s') (hfile : file s' = file s)
    (hcalls : ∀ (i : Nat) call, s'.calls[i]? = some call → claims call.point = true → s.calls[i]? = some call) :
    Slot.Step (slotOf file claims s) (slotOf file claims s') := by
  refine .leave hfile fun i f ho => ?_
  obtain ⟨hf, call, hc, ha, hp⟩ := ho
  exact ⟨hf, call, hcalls i call hc hp, alive_lockStep h ha, hp⟩

end Slots

theorem new_unclaimed {claims : LockPoint → Bool} {process : StoreProcess} (hnew : claims (.makingLock false) = false)
    (hc : (s.calls ++ [⟨process, .makingLock false⟩])[i]? = some call) (hp : claims call.point = true) :
    s.calls[i]? = some call := by
  rcases Indexed.append_cases hc with hc | ⟨_, rfl⟩
  · exact hc
  · rw [hnew] at hp
    cases hp

/-- **Every step is a move of the reconciliation lock.** -/
theorem reconcileSlot_step (hr : (reconcileSlot s).Exclusive) (h : LockEffect s label s') :
    Slot.Step (reconcileSlot s) (reconcileSlot s') := by
  have heff := h
  cases h with
  | start process => exact slot_unmoved heff rfl fun i call => new_unclaimed rfl
  | crash => exact slot_unmoved heff rfl fun _ _ hc _ => hc
  | on hc hp => exact slot_moved rfl rfl hc rfl hp.reconciles
  | make hc hpoint => exact slot_moved (t := { s with lock := _ }) rfl rfl hc rfl fun hp => by rw [hpoint]; exact hp
  | write hc _ _ hp | unlink hc _ _ _ hp | remove hc _ _ _ hp =>
    exact slot_moved (t := { s with lock := _ }) rfl rfl hc rfl hp.reconciles
  | reconcile hc _ hnone => exact slot_made (t := { s with reconcile := _ }) rfl rfl hc hnone rfl
  | read hc hpoint | condemn hc hpoint => exact slot_moved rfl rfl hc rfl fun _ => by rw [hpoint]; rfl
  | retire hc _ hpoint =>
    exact slot_moved (t := { s with lock := _, retired := _ }) rfl rfl hc rfl fun _ => by rw [hpoint]; rfl
  | @finish index answer call acquired hc ha hpoint =>
    refine slot_removed (t := { s with reconcile := _ }) rfl rfl hc rfl (by cases acquired <;> rfl) ?_
    intro i hne ho
    exact absurd (hr.unique i index i index ho ⟨rfl, call, hc, ha, by rw [hpoint]; rfl⟩) hne

/-! ## The lock is guarded -/

/-- Both locks are exclusive, records are those of the calls that have made the directories, and what has been or is
going to be renamed belongs to the dead. -/
structure StoreGuarded (s : LockState) : Prop where
  lock : (lockSlot s).Exclusive
  reconcile : (reconcileSlot s).Exclusive
  record : ∀ directory owner, s.lock = some directory → directory.owner = some owner →
    owner.id = directory.maker ∧ Published s owner
  known : ∀ (i : Nat) call previous, s.calls[i]? = some call → call.point.previous = some previous → Published s previous
  dead : ∀ (i : Nat) call previous, s.calls[i]? = some call → call.point = .retiring previous → Gone s previous.id
  retired : ∀ entry ∈ s.retired, entry.2.owner = some entry.1 ∧ Gone s entry.2.maker

/-- A reconciler that renames the directory finds in it the record it has read. -/
def RetiresRead (s : LockState) : LockLabel → Prop
  | .advance index .done =>
    match (s.calls[index]?).map LockCall.point with
    | some (.retiring previous) => ∀ directory ∈ s.lock, directory.owner = some previous
    | _ => True
  | _ => True

instance (s : LockState) (label : LockLabel) : Decidable (RetiresRead s label) := by
  unfold RetiresRead
  split
  · split <;> infer_instance
  · infer_instance

theorem retiresRead_iff (hc : s.calls[index]? = some call) (hpoint : call.point = .retiring previous) :
    RetiresRead s (.advance index .done) ↔ ∀ directory, s.lock = some directory → directory.owner = some previous := by
  simp [RetiresRead, hc, hpoint]

theorem not_retiresRead (h : ¬ RetiresRead s label) :
    ∃ (index : Nat) (call : LockCall) (previous : LockOwner) (directory : OwnedDirectory), label = .advance index .done ∧
      s.calls[index]? = some call ∧ call.point = .retiring previous ∧ s.lock = some directory ∧
        directory.owner ≠ some previous := by
  unfold RetiresRead at h
  split at h
  · rename_i index
    split at h
    · rename_i previous heq
      obtain ⟨call, hc, hp⟩ := Option.map_eq_some_iff.1 heq
      simp only [Option.mem_def, Classical.not_forall] at h
      obtain ⟨directory, hlock, hne⟩ := h
      exact ⟨index, call, previous, directory, rfl, hc, hp, hlock, hne⟩
    · exact absurd trivial h
  · exact absurd trivial h

/-- A live call that holds the lock has made the directory at the path. -/
theorem maker_of_holds (hg : StoreGuarded s) (hc : s.calls[index]? = some call) (ha : s.Alive call.process)
    (hp : call.point.holds = true) (hlock : s.lock = some directory) : directory.maker = index := by
  have hfile := hg.lock.present index index ⟨rfl, call, hc, ha, hp⟩
  simpa [lockSlot, slotOf, hlock] using hfile

/-- **Every step that meets the condition is a move of the lock.** -/
theorem lockSlot_step (hg : StoreGuarded s) (hok : RetiresRead s label) (h : LockEffect s label s') :
    Slot.Step (lockSlot s) (lockSlot s') := by
  have heff := h
  cases h with
  | start process => exact slot_unmoved heff rfl fun i call => new_unclaimed rfl
  | crash => exact slot_unmoved heff rfl fun _ _ hc _ => hc
  | on hc hp => exact slot_moved rfl rfl hc rfl hp.holds
  | make hc _ hnone => exact slot_made (t := { s with lock := _ }) rfl rfl hc (by simp [hnone]) rfl
  | write hc ha hheld hp hlock hmaker =>
    exact slot_moved (t := { s with lock := _ }) rfl rfl hc (by simp [setPoint, hlock, hmaker]) hp.holds
  | @unlink index call point directory name hc ha hheld _ hp hlock =>
    refine slot_moved (t := { s with lock := _ }) rfl rfl hc ?_ hp.holds
    cases name <;> simp [setPoint, hlock, OwnedDirectory.unlink]
  | @remove index call point hc ha hheld _ _ hfree =>
    refine slot_removed (t := { s with lock := none }) rfl rfl hc rfl hfree fun i hne ho => ?_
    exact absurd (hg.lock.unique i index i index ho ⟨rfl, call, hc, ha, hheld⟩) hne
  | reconcile hc _ _ => exact slot_moved (t := { s with reconcile := _ }) rfl rfl hc rfl nofun
  | read hc | condemn hc => exact slot_moved rfl rfl hc rfl nofun
  | @retire index call previous directory hc ha hpoint hlock =>
    refine slot_removed (t := { s with lock := none, retired := _ }) rfl rfl hc rfl rfl fun i _ ho hfile => ?_
    -- the record in the directory is the one that was read, and its process is dead
    have howner := (retiresRead_iff hc hpoint).1 hok directory hlock
    have hmaker : directory.maker = i := by simpa [hlock] using hfile
    obtain ⟨dead, hd, hgone⟩ := hg.dead index call previous hc hpoint
    obtain ⟨_, live, hl, halive, _⟩ := ho
    rw [(hg.record directory previous hlock howner).1, hmaker, hl] at hd
    cases hd
    exact hgone halive
  | @finish index answer call acquired hc ha hpoint =>
    refine slot_moved (t := { s with reconcile := _ }) rfl rfl hc rfl fun hp => ?_
    rw [hpoint]
    cases acquired with
    | true => rfl
    | false => cases hp

theorem record_step (hg : StoreGuarded s) (h : LockEffect s label s') {owner : LockOwner}
    (hlock : s'.lock = some directory) (howner : directory.owner = some owner) :
    owner.id = directory.maker ∧ Published s' owner := by
  have hold : ∀ directory, s.lock = some directory → directory.owner = some owner →
      owner.id = directory.maker ∧ Published s' owner := fun directory hlock howner =>
    ⟨(hg.record directory owner hlock howner).1, published_step h (hg.record directory owner hlock howner).2⟩
  have heff := h
  cases h with
  | start | crash | on | reconcile | read | condemn | finish => exact hold directory hlock howner
  | make =>
    cases hlock
    cases howner
  | @write index answer call point directory₀ directory' hc ha hheld _ hlock₀ hmaker hcontent =>
    cases hlock
    have hindex := maker_of_holds hg hc ha hheld hlock₀
    rcases hcontent with hcontent | hcontent
    · rw [hcontent] at howner
      rw [hmaker]
      exact hold directory₀ hlock₀ howner
    · rw [hcontent] at howner
      cases howner
      rw [hmaker, hindex]
      exact ⟨rfl, published_step heff ⟨call, hc, rfl⟩⟩
  | @unlink index call point directory₀ name hc ha hheld _ _ hlock₀ =>
    cases hlock
    cases name with
    | temporary id => exact hold directory₀ hlock₀ howner
    | owner => cases howner
  | remove | retire => cases hlock

/-- The record a call has in hand after a step: it was in hand before, or it has been read just now. -/
theorem previous_lockStep (h : LockEffect s label s') (hc : s'.calls[i]? = some call')
    (hp : call'.point.previous = some previous) :
    s.ownerRecord = some previous ∨
      ∃ call, s.calls[i]? = some call ∧ call.point.previous = some previous ∧ call.process = call'.process := by
  have hmoved : ∀ {s₀ : LockState} {index : Nat} {call : LockCall} {point : LockPoint},
      s₀.calls = s.calls → s.calls[index]? = some call → (s₀.setPoint index point).calls[i]? = some call' →
      (point.previous = some previous → s.ownerRecord = some previous ∨ call.point.previous = some previous) →
      s.ownerRecord = some previous ∨
        ∃ call, s.calls[i]? = some call ∧ call.point.previous = some previous ∧ call.process = call'.process := by
    intro s₀ index call point hcalls hcall hc hpoint
    rcases lockCall_setPoint (hcalls ▸ hcall) hc with ⟨rfl, rfl⟩ | ⟨_, hc⟩
    · exact (hpoint hp).imp_right fun hold => ⟨call, hcall, hold, rfl⟩
    · exact .inr ⟨call', hcalls ▸ hc, hp, rfl⟩
  have hnone : ∀ {point : LockPoint} {q : Prop}, point.previous = none → point.previous = some previous → q := by
    intro point q hpoint hprevious
    rw [hpoint] at hprevious
    cases hprevious
  cases h with
  | start process =>
    rcases Indexed.append_cases hc with hc | ⟨_, rfl⟩
    · exact .inr ⟨call', hc, hp, rfl⟩
    · cases hp
  | crash => exact .inr ⟨call', hc, hp, rfl⟩
  | on hcall hpoint => exact hmoved rfl hcall hc (hnone hpoint.previous)
  | make hcall | reconcile hcall | retire hcall => exact hmoved rfl hcall hc (hnone rfl)
  | write hcall _ _ hpoint | unlink hcall _ _ _ hpoint | remove hcall _ _ _ hpoint =>
    exact hmoved rfl hcall hc (hnone hpoint.previous)
  | read hcall _ hrecord => exact hmoved rfl hcall hc fun he => by cases he; exact .inl hrecord
  | condemn hcall hpoint => exact hmoved rfl hcall hc fun he => .inr (by rw [hpoint]; exact he)
  | @finish index answer call acquired hcall =>
    exact hmoved rfl hcall hc (hnone (by cases acquired <;> rfl))

/-- A call that is going to rename the directory has condemned its owner just now, or was going to rename it before. -/
theorem retiring_step (h : LockEffect s label s') (hc : s'.calls[i]? = some call')
    (hp : call'.point = .retiring previous) :
    (∃ call, s.calls[i]? = some call ∧ call.point = .probing previous ∧ s.Vacant previous.pid) ∨
      s.calls[i]? = some call' := by
  have hmoved : ∀ {s₀ : LockState} {index : Nat} {call : LockCall} {point : LockPoint},
      s₀.calls = s.calls → s.calls[index]? = some call → (s₀.setPoint index point).calls[i]? = some call' →
      point.previous = none →
      (∃ call, s.calls[i]? = some call ∧ call.point = .probing previous ∧ s.Vacant previous.pid) ∨
        s.calls[i]? = some call' := by
    intro s₀ index call point hcalls hcall hc hpoint
    rcases lockCall_setPoint (hcalls ▸ hcall) hc with ⟨rfl, rfl⟩ | ⟨_, hc⟩
    · simp only at hp
      rw [hp] at hpoint
      cases hpoint
    · exact .inr (hcalls ▸ hc)
  cases h with
  | start process =>
    rcases Indexed.append_cases hc with hc | ⟨_, rfl⟩
    · exact .inr hc
    · cases hp
  | crash => exact .inr hc
  | on hcall hpoint => exact hmoved rfl hcall hc hpoint.previous
  | make hcall | reconcile hcall | retire hcall => exact hmoved rfl hcall hc rfl
  | write hcall _ _ hpoint | unlink hcall _ _ _ hpoint | remove hcall _ _ _ hpoint =>
    exact hmoved rfl hcall hc hpoint.previous
  | read hcall =>
    rcases lockCall_setPoint hcall hc with ⟨rfl, rfl⟩ | ⟨_, hc⟩
    · cases hp
    · exact .inr hc
  | condemn hcall hpoint hvacant =>
    rcases lockCall_setPoint hcall hc with ⟨rfl, rfl⟩ | ⟨_, hc⟩
    · cases hp
      exact .inl ⟨_, hcall, hpoint, hvacant⟩
    · exact .inr hc
  | @finish index answer call acquired hcall =>
    exact hmoved rfl hcall hc (by cases acquired <;> rfl)

theorem retired_lockStep (hg : StoreGuarded s) (hok : RetiresRead s label) (h : LockEffect s label s') :
    ∀ entry ∈ s'.retired, entry.2.owner = some entry.1 ∧ Gone s' entry.2.maker := by
  have hold : ∀ entry ∈ s.retired, entry.2.owner = some entry.1 ∧ Gone s' entry.2.maker := fun entry hm =>
    ⟨(hg.retired entry hm).1, gone_step h (hg.retired entry hm).2⟩
  have heff := h
  cases h with
  | start | crash | on | make | write | unlink | remove | reconcile | read | condemn | finish => exact hold
  | @retire index call previous directory hc ha hpoint hlock =>
    intro entry hm
    rcases List.mem_append.1 hm with hm | hm
    · exact hold entry hm
    · rw [List.mem_singleton.1 hm]
      have howner := (retiresRead_iff hc hpoint).1 hok directory hlock
      have hgone := hg.dead index call previous hc hpoint
      rw [(hg.record directory previous hlock howner).1] at hgone
      exact ⟨howner, gone_step heff hgone⟩

/-- **One step keeps the lock guarded.** -/
theorem storeGuarded_step (hg : StoreGuarded s) (hok : RetiresRead s label) (h : LockEffect s label s') :
    StoreGuarded s' where
  lock := (lockSlot_step hg hok h).exclusive hg.lock
  reconcile := (reconcileSlot_step hg.reconcile h).exclusive hg.reconcile
  record _ _ hlock howner := record_step hg h hlock howner
  known i call' previous hc hp := by
    rcases previous_lockStep h hc hp with hrecord | ⟨call, hcall, hold, _⟩
    · obtain ⟨directory, hlock, howner⟩ := Option.bind_eq_some_iff.1 hrecord
      exact published_step h (hg.record directory previous hlock howner).2
    · exact published_step h (hg.known i call previous hcall hold)
  dead i call' previous hc hp := by
    rcases retiring_step h hc hp with ⟨call, hcall, hprobing, hvacant⟩ | hcall
    · obtain ⟨owner, ho, hpid⟩ := hg.known i call previous hcall (by rw [hprobing]; rfl)
      exact gone_step h ⟨owner, ho, hvacant owner (List.mem_of_getElem? ho) hpid⟩
    · exact gone_step h (hg.dead i call' previous hcall hp)
  retired := retired_lockStep hg hok h

theorem storeGuarded_new (linux : Bool) : StoreGuarded (.new linux) where
  lock := .of_unowned fun _ _ ho => by obtain ⟨_, _, hc, _⟩ := ho; cases hc
  reconcile := .of_unowned fun _ _ ho => by obtain ⟨_, _, hc, _⟩ := ho; cases hc
  record := nofun
  known := nofun
  dead := nofun
  retired := nofun

theorem storeGuarded_of_reachable (h : (lockSystem.restrict RetiresRead).Reachable s) : StoreGuarded s :=
  h.invariant (fun _ ⟨linux, hinit⟩ => hinit ▸ storeGuarded_new linux)
    fun _ _ _ _ hg hs => storeGuarded_step hg hs.1 (step_lockEffect hs.2)

/-! ## The exclusive section -/

/-- The call has made the lock, and may be running its operation, in a process that is alive. -/
def InsideExclusive (s : LockState) (index : Nat) : Prop :=
  ∃ call, s.calls[index]? = some call ∧ s.Alive call.process ∧ call.point.holds = true

/-- The call reconciles, in a process that is alive. -/
def Reconciles (s : LockState) (index : Nat) : Prop :=
  ∃ call, s.calls[index]? = some call ∧ s.Alive call.process ∧ call.point.reconciles = true

/-- **Native desktop store exclusion.** In every run in which a reconciler that renames a directory finds in it the record
it has read, at most one live call has made the lock, from before its operation runs until it has given the lock up; at
most one reconciles; and every directory that was renamed was made by a process that is dead. The next step keeps
reconcilers to the directories they have read exactly when it meets the condition. -/
theorem store_exclusive (h : (lockSystem.restrict RetiresRead).Reachable s) :
    (∀ i j, InsideExclusive s i → InsideExclusive s j → i = j) ∧
    (∀ i j, Reconciles s i → Reconciles s j → i = j) ∧
    (∀ entry ∈ s.retired, entry.2.owner = some entry.1 ∧ Gone s entry.2.maker) ∧
    ∀ label s', lockSystem.Step s label s' →
      ((∀ entry ∈ s'.retired, entry.2.owner = some entry.1) ↔ RetiresRead s label) := by
  have hg := storeGuarded_of_reachable h
  refine ⟨?_, ?_, hg.retired, fun label s' hs => ⟨fun hretired => ?_, fun hok entry hm => ?_⟩⟩
  · rintro i j ⟨call, hc, ha, hp⟩ ⟨call', hc', ha', hp'⟩
    exact hg.lock.unique i j _ _ ⟨rfl, call, hc, ha, hp⟩ ⟨rfl, call', hc', ha', hp'⟩
  · rintro i j ⟨call, hc, ha, hp⟩ ⟨call', hc', ha', hp'⟩
    exact hg.reconcile.unique i j _ _ ⟨rfl, call, hc, ha, hp⟩ ⟨rfl, call', hc', ha', hp'⟩
  · by_contra hbad
    obtain ⟨index, call, previous, directory, rfl, hc, hpoint, hlock, hne⟩ := not_retiresRead hbad
    obtain ⟨process, point⟩ := call
    subst hpoint
    simp only [lockSystem, ofNext, LockState.step, hc] at hs
    obtain ⟨_, hs⟩ := Option.ite_none_right_eq_some.mp hs
    simp only [LockState.resume, hlock, Option.some.injEq] at hs
    subst hs
    exact hne (hretired (previous, directory) (List.mem_append_right _ List.mem_cons_self))
  · exact (retired_lockStep hg hok (step_lockEffect hs) entry hm).1

/-! ## A dead owner, and an owner that leaves while its record is read -/

/-- The steps of a call from `acquire` to its operation, alone. -/
def acquiring (index : Nat) : List LockLabel := List.replicate 5 (.advance index .done)

/-- A process dies inside; another reconciles and enters. -/
def reconciledLock : LockState :=
  (execute (fun s label => if decide (RetiresRead s label) then s.step label else none) (.new true)
    ([.start ⟨0, 10⟩] ++ acquiring 0 ++ [.crash ⟨0, 10⟩, .start ⟨1, 20⟩, .advance 1 .done, .advance 1 .done,
      .advance 1 .done, .advance 1 .noEntry, .advance 1 .done] ++ acquiring 1 ++ [.advance 1 .done])).get
    (by decide +kernel)

/-- The reconciler is the only one inside, and what it has renamed belongs to the dead. -/
theorem reconciledLock_exclusive : InsideExclusive reconciledLock 1 ∧
    (∀ i, InsideExclusive reconciledLock i → i = 1) ∧
      reconciledLock.retired.map Prod.fst = [⟨0, 10⟩] ∧
      ∀ entry ∈ reconciledLock.retired, Gone reconciledLock entry.2.maker := by
  have hreach : (lockSystem.restrict RetiresRead).Reachable reconciledLock :=
    reachable_execute_where (fun _ _ h => of_decide_eq_true h) (.init ⟨true, rfl⟩) (Option.some_get _).symm
  obtain ⟨hunique, _, hretired, _⟩ := store_exclusive hreach
  have hinside : InsideExclusive reconciledLock 1 :=
    ⟨⟨⟨1, 20⟩, .inside⟩, by decide +kernel, by decide +kernel, rfl⟩
  exact ⟨hinside, fun i hi => hunique i 1 hi hinside, by decide +kernel, fun entry hm => (hretired entry hm).2⟩

/-- A reconciler has read the record of an owner that is inside. The owner leaves and its process ends; another call
enters, and then the reconciler goes on. -/
def overtakenLock : LockState :=
  (execute LockState.step (.new true)
    ([.start ⟨0, 10⟩] ++ acquiring 0 ++ [.start ⟨1, 20⟩, .advance 1 .done, .advance 1 .done, .advance 1 .done] ++
      List.replicate 5 (.advance 0 .done) ++ [.crash ⟨0, 10⟩, .start ⟨2, 30⟩] ++ acquiring 2 ++
      [.advance 1 .noEntry, .advance 1 .done] ++ acquiring 1 ++ [.advance 1 .done])).get (by decide +kernel)

/-- **A reconciler renames the directory of a live owner, and both run their operations.** -/
theorem two_exclusive : ∃ s, lockSystem.Reachable s ∧ InsideExclusive s 1 ∧ InsideExclusive s 2 ∧
    s.calls.map LockCall.point = [.settled, .inside, .inside] ∧
    ∃ entry ∈ s.retired, entry.2.maker = 2 ∧ entry.2.owner = some ⟨2, 30⟩ := by
  have hinit : lockSystem.Reachable (.new true) := .init ⟨true, rfl⟩
  refine ⟨overtakenLock, reachable_get hinit _, ?_, ?_, by decide +kernel, ?_⟩
  · exact ⟨⟨⟨1, 20⟩, .inside⟩, by decide +kernel, by decide +kernel, rfl⟩
  · exact ⟨⟨⟨2, 30⟩, .inside⟩, by decide +kernel, by decide +kernel, rfl⟩
  · exact ⟨(⟨0, 10⟩, ⟨2, [], some ⟨2, 30⟩⟩), by decide +kernel, rfl, rfl⟩

end AuraCall.Desktop
