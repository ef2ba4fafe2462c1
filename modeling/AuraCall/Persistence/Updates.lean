import AuraCall.Persistence.LockedFile

/-!
# No update is lost

While the lock file has one owner, what a call has loaded is what the store holds until that call persists, and a cached
load is current as long as the identity of the file has not changed (`Consistent`). The store then holds the effect of
every persisted operation, in order.
-/

namespace AuraCall.Persistence

variable {σ α ι κ : Type} {kind : Kind σ α} {processes : Processes ι κ} {s s' : State σ α ι κ}

/-- At most one call is inside its critical section, and the store holds the effect of every persisted operation. -/
structure Safe (kind : Kind σ α) (s : State σ α ι κ) : Prop where
  exclusive : ∀ i j, (s.phase i).critical = true → (s.phase j).critical = true → i = j
  stored : s.stored = kind.replay s.persisted

/-! ## Consistent loads -/

/-- What a call has read of the store is still so: the file has the identity `current` and holds `stored`. -/
def Phase.Current (current : Nat) (stored : σ) : Phase σ → Prop
  | .loading _ identity => identity = current
  | .loaded _ value | .persisted _ value => value = stored
  | _ => True

/-- A cached load is no younger than the file, and current when the file has not changed. -/
def EntryCurrent (current : Nat) (stored : σ) (entry : Option (Nat × σ)) : Prop :=
  ∀ identity value, entry = some (identity, value) → identity ≤ current ∧ (identity = current → value = stored)

structure Consistent (kind : Kind σ α) (s : State σ α ι κ) : Prop where
  stored : s.stored = kind.replay s.persisted
  phase : ∀ i, (s.phase i).Current s.identity s.stored
  cache : ∀ k, EntryCurrent s.identity s.stored (s.cache k)

theorem Initial.consistent (h : Initial kind processes s) : Consistent kind s where
  stored := by rw [h.2.2.1, h.2.2.2.1]; rfl
  phase i := by rw [(h.1 i).1]; trivial
  cache k := by
    rw [h.2.1 k]
    exact fun _ _ e => nomatch e

/-- A call without the lock has read nothing it relies on. -/
theorem Phase.current_of_unlocked {phase : Phase σ} {current : Nat} {stored : σ} (h : phase.lock = none) :
    phase.Current current stored := by
  cases phase <;> first | exact trivial | cases h

theorem Kind.replay_append (kind : Kind σ α) (operations : List α) (operation : α) :
    kind.replay (operations ++ [operation]) =
      (kind.apply operation (kind.replay operations)).getD (kind.replay operations) := by
  simp [Kind.replay]

/-- A load of the file as it is. -/
theorem entryCurrent_self (identity : Nat) (value : σ) : EntryCurrent identity value (some (identity, value)) := by
  intro _ _ e
  cases e
  exact ⟨Nat.le_refl _, fun _ => rfl⟩

theorem entryCurrent_none (identity : Nat) (value : σ) : EntryCurrent identity value none := fun _ _ e => nomatch e

theorem current_afterStat {entry : Option (Nat × σ)} (he : EntryCurrent s.identity s.stored entry) (inode : Nat) :
    (afterStat s inode entry).Current s.identity s.stored := by
  unfold afterStat
  split
  · split
    · exact (he _ _ rfl).2 ‹_›
    · rfl
  · rfl

theorem Consistent.setCache [DecidableEq κ] (h : Consistent kind s) {k : κ} {entry : Option (Nat × σ)}
    (he : EntryCurrent s.identity s.stored entry) :
    Consistent kind (s.setCache k entry) where
  stored := h.stored
  phase := h.phase
  cache j := by
    by_cases hj : j = k
    · subst hj
      simpa only [State.setCache, Function.update_self] using he
    · simpa only [State.setCache, Function.update_of_ne hj] using h.cache j

/-- The lock file is no part of the store. -/
theorem Consistent.relock (h : Consistent kind s) (file : Option LockFile) (inodes : Nat) :
    Consistent kind { s with file, inodes } := ⟨h.stored, h.phase, h.cache⟩

section Calls

variable [DecidableEq ι]

/-- A step of a call that leaves the store alone. -/
theorem Consistent.setPhase (h : Consistent kind s) {i : ι} {phase : Phase σ}
    (hp : phase.Current s.identity s.stored) : Consistent kind (s.setPhase i phase) where
  stored := h.stored
  phase j := by
    by_cases hj : j = i
    · subst hj
      simpa only [State.setPhase, Function.update_self] using hp
    · simpa only [State.setPhase, Function.update_of_ne hj] using h.phase j
  cache := h.cache

/-- Persisting what was loaded: nobody else relies on the old snapshot. -/
theorem Consistent.persist (h : Consistent kind s) (he : (slot s).Exclusive) {i : ι} {inode : Nat} {value new : σ}
    {operation : α} (hp : s.phase i = .loaded inode value) (hnew : kind.apply operation value = some new) :
    Consistent kind ({ s with
      stored := new, identity := s.identity + 1, persisted := s.persisted ++ [operation] }.setPhase i
        (if kind.cached then .persisted inode new else .unlocking inode)) where
  stored := by
    have hvalue : value = s.stored := by have := h.phase i; rwa [hp] at this
    simp only [State.setPhase, Kind.replay_append, ← h.stored, ← hvalue, hnew, Option.getD_some]
  phase j := by
    by_cases hj : j = i
    · subst hj
      simp only [State.setPhase, Function.update_self]
      split
      · rfl
      · trivial
    · simp only [State.setPhase, Function.update_of_ne hj]
      refine Phase.current_of_unlocked ?_
      cases hl : (s.phase j).lock with
      | none => rfl
      | some n => exact absurd (he.unique j i n inode hl (by simp only [slot, hp, Phase.lock])) hj
  cache k := by
    intro identity value' hentry
    have hle := (h.cache k identity value' hentry).1
    simp only [State.setPhase]
    exact ⟨by omega, fun e => by omega⟩

variable [DecidableEq κ]

/-- A step keeps the loads consistent while the lock file has one owner. -/
theorem Effect.consistent {action : Action α ι} (hs : Effect kind processes s action s') (he : (slot s).Exclusive)
    (h : Consistent kind s) : Consistent kind s' := by
  cases hs with
  | opened i =>
    unfold openExclusive
    split
    · exact (h.relock (some _) _).setPhase trivial
    · exact h.setPhase trivial
  | written hl => exact (h.relock _ _).setPhase trivial
  | reclaimed i => exact (h.relock none s.inodes).setPhase trivial
  | unlocked hl => exact (h.relock none s.inodes).setPhase trivial
  | moved hp => exact h.setPhase (Phase.current_of_unlocked hp)
  | consulted hl => exact h.setPhase (current_afterStat (h.cache _) _)
  | loaded hl => exact h.setPhase rfl
  | @reloaded i inode identity hp =>
    -- the file has the identity the call has read, so the new entry is current
    have hid : identity = s.identity := by
      have := h.phase i
      rwa [hp] at this
    rw [hid]
    exact (h.setCache (entryCurrent_self _ _)).setPhase rfl
  | persisted hp hnew => exact h.persist he hp hnew
  | @cached i inode value hp =>
    have hvalue : value = s.stored := by
      have := h.phase i
      rwa [hp] at this
    rw [hvalue]
    exact (h.setCache (entryCurrent_self _ _)).setPhase trivial
  | finished hl => exact h.setPhase trivial
  | aborted hl => exact (h.setCache (entryCurrent_none _ _)).setPhase trivial
  | exited pid =>
    refine ⟨h.stored, fun j => ?_, h.cache⟩
    dsimp only
    split
    · trivial
    · exact h.phase j

theorem reachable_consistent (h : ((lockedFile kind processes).restrict SparesOwners).Reachable s) :
    Consistent kind s :=
  h.invariant (fun _ hinit => hinit.consistent) fun _ _ _ hr hc hs =>
    (next_effect hs.2).consistent (reachable_exclusive hr) hc

/-- **As long as every stale-lock removal spares the owners, critical sections exclude each other and no persisted
operation is lost.** -/
theorem reachable_safe (h : ((lockedFile kind processes).restrict SparesOwners).Reachable s) : Safe kind s where
  exclusive := by
    intro i j hi hj
    obtain ⟨n, hn⟩ := Phase.lock_of_critical hi
    obtain ⟨m, hm⟩ := Phase.lock_of_critical hj
    exact (reachable_exclusive h).unique i j n m hn hm
  stored := (reachable_consistent h).stored

end Calls

end AuraCall.Persistence
