import AuraCall.Ledger.System
import AuraCall.Persistence.Updates
import AuraCall.TabLease.Ownership

/-!
# The two stores

`FileBackedBrowserTabLeaseRegistry` loads its snapshot for every call. `FileBackedProviderInteractionLedger` runs the
operations that are queued as one batch, and caches. Both keep what a call leaves also when the call refuses; a call
that throws, or a batch one of whose operations throws, is not persisted.

What the stores hold is then a state of `TabLease.system` or `Ledger.system`, so the invariants of the two protocols
hold of the files (`stores_hold_protocols`). Two calls that remove the lock file of one dead process
break all of it: the second removal can hit the lock file the first call has created in between (`reclaimedTwice`).
-/

namespace AuraCall.Persistence

/-! ## The stores -/

/-- The state a call leaves, unless it throws. -/
def committed {γ ρ σ : Type} : Except (Stop γ) ρ × σ → Option σ
  | (.error (.thrown _), _) => none
  | (_, state) => some state

theorem committed_eq_some {γ ρ σ : Type} {out : Except (Stop γ) ρ × σ} {state : σ} (h : committed out = some state) :
    out.2 = state := by
  obtain ⟨reply | stop, left⟩ := out
  · cases reply with
    | refused conflict => cases h; rfl
    | thrown message => cases h
  · cases h; rfl

/-- `FileBackedBrowserTabLeaseRegistry.write`. -/
def tabLeaseRegistry (table : CaseTable) : Kind TabLease.Registry TabLease.Call where
  initial := .empty
  apply call registry := committed (TabLease.perform table call registry)
  cached := false

/-- `FileBackedProviderInteractionLedger.flushOperations`, of the batches of a call. -/
def interactionLedger (table : CaseTable) : Kind Ledger.InteractionLedger (List Ledger.Call) where
  initial := .empty
  apply batch ledger := batch.foldlM (fun ledger call => committed (Ledger.perform table call ledger)) ledger
  cached := true

/-! ## What is stored -/

/-- What every persisted operation keeps holds of the replay. -/
theorem Kind.replay_invariant {σ α : Type} (kind : Kind σ α) {I : σ → Prop} (h0 : I kind.initial)
    (hs : ∀ operation value new, I value → kind.apply operation value = some new → I new) (operations : List α) :
    I (kind.replay operations) := by
  induction operations using List.reverseRecOn with
  | nil => exact h0
  | append_singleton operations operation ih =>
    rw [Kind.replay_append]
    cases h : kind.apply operation (kind.replay operations) with
    | none => exact ih
    | some new => exact hs _ _ _ ih h

/-- A batch is a run of the ledger. -/
theorem batch_reachable {table : CaseTable} {batch : List Ledger.Call} :
    ∀ {ledger ledger' : Ledger.InteractionLedger}, (Ledger.system table).Reachable ledger →
      batch.foldlM (fun ledger call => committed (Ledger.perform table call ledger)) ledger = some ledger' →
      (Ledger.system table).Reachable ledger' := by
  induction batch with
  | nil =>
    intro ledger ledger' hr h
    cases h
    exact hr
  | cons call batch ih =>
    intro ledger ledger' hr h
    simp only [List.foldlM_cons, Option.bind_eq_bind, Option.bind_eq_some_iff] at h
    obtain ⟨next, hc, h⟩ := h
    exact ih (hr.step (congrArg some (committed_eq_some hc))) h

variable {σ α ι κ : Type}

/-- **As long as every stale-lock removal spares the owners, the files refine the protocols**: each holds a state that a
run of calls reaches, so that no two leases of the registry file hold the same resource. -/
theorem stores_hold_protocols [DecidableEq ι] [DecidableEq κ] (table : CaseTable) (processes : Processes ι κ) :
    (∀ s, ((lockedFile (tabLeaseRegistry table) processes).restrict SparesOwners).Reachable s →
      (TabLease.system table).Reachable s.stored ∧ KeyedMap.Owned TabLease.Holds s.stored.leases) ∧
    (∀ s, ((lockedFile (interactionLedger table) processes).restrict SparesOwners).Reachable s →
      (Ledger.system table).Reachable s.stored) := by
  refine ⟨fun s h => ?_, fun s h => ?_⟩
  · have hr : (TabLease.system table).Reachable s.stored := by
      rw [(reachable_safe h).stored]
      exact (tabLeaseRegistry table).replay_invariant (.init rfl)
        (fun _ _ _ hr hc => hr.step (congrArg some (committed_eq_some hc))) _
    exact ⟨hr, TabLease.reachable_owned hr⟩
  · rw [(reachable_safe h).stored]
    exact (interactionLedger table).replay_invariant (.init rfl) (fun _ _ _ hr hb => batch_reachable hr hb) _

/-- **As long as every stale-lock removal spares the owners, neither store ever runs two critical sections at once or
loses a persisted update.** -/
theorem stores_safe [DecidableEq ι] [DecidableEq κ] (table : CaseTable) (processes : Processes ι κ) :
    (∀ s, ((lockedFile (tabLeaseRegistry table) processes).restrict SparesOwners).Reachable s →
      Safe (tabLeaseRegistry table) s) ∧
    (∀ s, ((lockedFile (interactionLedger table) processes).restrict SparesOwners).Reachable s →
      Safe (interactionLedger table) s) :=
  ⟨fun _ => reachable_safe, fun _ => reachable_safe⟩

/-! ## A dead owner -/

/-- Three processes with a store object each. -/
def sampleProcesses : Processes (Fin 3) (Fin 3) := ⟨fun i => 10 * ((i : Int) + 1), id⟩

/-- No process has called yet. -/
def unlocked (kind : Kind σ α) : State σ α (Fin 3) (Fin 3) :=
  ⟨none, 0, fun _ => true, fun _ => .opening, kind.initial, 0, fun _ => none, []⟩

theorem unlocked_initial (kind : Kind σ α) : Initial kind sampleProcesses (unlocked kind) :=
  ⟨fun _ => ⟨rfl, rfl⟩, fun _ => rfl, rfl, rfl, fun _ h => nomatch h⟩

/-- A process dies in its critical section, and two others find its lock file stale. -/
def crash : List (Action α (Fin 3)) :=
  [.open 0, .writeOwner 0, .exit 10, .open 1, .read 1, .examine 1, .open 2, .read 2, .examine 2]

def crashed (kind : Kind σ α) : State σ α (Fin 3) (Fin 3) :=
  (TransitionSystem.execute (next kind sampleProcesses) (unlocked kind) crash).get rfl

theorem crashed_reachable (kind : Kind σ α) :
    ((lockedFile kind sampleProcesses).restrict SparesOwners).Reachable (crashed kind) :=
  .step (a := .examine 2) (.step (a := .read 2) (.step (a := .open 2) (.step (a := .examine 1) (.step (a := .read 1)
    (.step (a := .open 1) (.step (a := .exit 10) (.step (a := .writeOwner 0) (.step (a := .open 0)
      (.init (unlocked_initial kind)) ⟨trivial, rfl⟩) ⟨trivial, rfl⟩) ⟨trivial, rfl⟩) ⟨trivial, rfl⟩) ⟨trivial, rfl⟩)
      ⟨trivial, rfl⟩) ⟨trivial, rfl⟩) ⟨trivial, rfl⟩) ⟨trivial, rfl⟩

/-- Nobody owns the lock file the dead process has left. -/
theorem crashed_spares (kind : Kind σ α) : SparesOwners (crashed kind) (.reclaim 2) := by
  have hunowned : ∀ j, ((crashed kind).phase j).lock = none := fun
    | 0 => rfl
    | 1 => rfl
    | 2 => rfl
  intro j inode h
  rw [hunowned j] at h
  cases h

/-- One of the two removes it. -/
def reclaimed (kind : Kind σ α) : State σ α (Fin 3) (Fin 3) :=
  (TransitionSystem.execute (next kind sampleProcesses) (crashed kind) [.reclaim 2]).get rfl

theorem reclaimed_safe (table : CaseTable) :
    Safe (tabLeaseRegistry table) (reclaimed (tabLeaseRegistry table)) ∧
      Safe (interactionLedger table) (reclaimed (interactionLedger table)) := by
  exact ⟨(stores_safe table sampleProcesses).1 _ ((crashed_reachable _).step ⟨crashed_spares _, rfl⟩),
    (stores_safe table sampleProcesses).2 _ ((crashed_reachable _).step ⟨crashed_spares _, rfl⟩)⟩

theorem reclaimed_holds_protocols : (TabLease.system .lowered).Reachable (reclaimed (tabLeaseRegistry .lowered)).stored ∧
    (Ledger.system .lowered).Reachable (reclaimed (interactionLedger .lowered)).stored :=
  have h := stores_hold_protocols .lowered sampleProcesses
  ⟨(h.1 _ ((crashed_reachable _).step ⟨crashed_spares _, rfl⟩)).1, h.2 _ ((crashed_reachable _).step ⟨crashed_spares _, rfl⟩)⟩

/-- It takes the lock; the other one removes this lock file too, and both reserve a tab lease. -/
def reclaimTwice : List (Action TabLease.Call (Fin 3)) :=
  [.open 2, .writeOwner 2, .reclaim 1, .open 1, .writeOwner 1, .load 1, .load 2,
    .persist 1 (TabLease.sampleReserve 20 "lease-1" "target-1" "conversation-1" none),
    .persist 2 (TabLease.sampleReserve 30 "lease-2" "target-2" "conversation-2" none)]

def reclaimedTwice : State TabLease.Registry TabLease.Call (Fin 3) (Fin 3) :=
  (TransitionSystem.execute (next (tabLeaseRegistry .lowered) sampleProcesses) (reclaimed (tabLeaseRegistry .lowered))
    reclaimTwice).get (by decide +kernel)

/-- Both are in their critical sections, and the lease of the first is lost. -/
theorem reclaimedTwice_not_safe :
    ∃ s, (lockedFile (tabLeaseRegistry .lowered) sampleProcesses).Reachable s ∧
      (∃ i j, i ≠ j ∧ (s.phase i).critical = true ∧ (s.phase j).critical = true) ∧
      s.stored ≠ (tabLeaseRegistry .lowered).replay s.persisted := by
  have hreach : (lockedFile (tabLeaseRegistry .lowered) sampleProcesses).Reachable reclaimedTwice :=
    TransitionSystem.reachable_execute (TransitionSystem.reachable_execute
      (crashed_reachable _).of_restrict (Option.some_get _).symm) (Option.some_get _).symm
  refine ⟨reclaimedTwice, hreach, ⟨1, 2, by decide, by decide +kernel, by decide +kernel⟩, fun hstored => ?_⟩
  have hleases := congrArg (fun registry => registry.leases.values.length) hstored
  revert hleases
  decide +kernel

end AuraCall.Persistence
