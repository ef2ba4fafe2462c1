import AuraCall.Runtime.Control

/-!
# Cancelling a run that is terminal

`cancelOwnedRun` asks whether the run is terminal where the run has no active lease, and where its write was refused. Where
the run has an active lease of the host it asks nothing: a run that has ended before its lease is released is cancelled
once more, if a step is left (`OverridesTerminal`). Everywhere else the call leaves a terminal run alone, whatever the other
programs on the store do in between (`terminal_run_kept_iff`).
-/

namespace AuraCall.Runtime

open RevisionedStore

/-- The store holds a run that is terminal. -/
def HoldsTerminal (s : RunContents) : Prop := ∃ record ∈ s, record.value.run.status.isTerminal = true

/-- A terminal run keeps its status and its steps. -/
def KeepsTerminal (s s' : RunContents) : Prop :=
  ∀ record ∈ s, record.value.run.status.isTerminal = true → ∃ record' ∈ s', KeepsSteps record.value record'.value

/-- The run is terminal, its active lease is the host's own, and a step of it can be cancelled. -/
def OverridesTerminal (input : CancelOwnedRunInput) (s : RunContents) : Prop :=
  ∃ record ∈ s, record.value.run.status.isTerminal = true ∧ record.value.run.id = input.runId ∧
    (∃ lease, getActiveExecutionRunLease record.value = some lease ∧ lease.ownerId = input.expectedOwnerId) ∧
    record.value.steps.any (·.status.isMutable) = true

theorem KeepsTerminal.refl (s : RunContents) : KeepsTerminal s s := fun record hm _ => ⟨record, hm, rfl, rfl⟩

/-! ## What the call writes -/

/-- Within the guarantee, whatever the result: a write follows a reading of a run that was not terminal, and it keeps a
terminal run. -/
abbrev Call.Spares {α : Type} (seen : RunContents) (call : Call α) (s : RunContents) : Prop :=
  call.Ensures (laterRely Point ExecutionRunRecordBundle) (fun _ s s' => ¬HoldsTerminal seen ∧ KeepsTerminal s s')
    (fun _ _ => True) s

/-- A run that is cancelled has a step left, and keeps its identifier. -/
theorem cancelExecutionRun_id {bundle bundle' : ExecutionRunRecordBundle} {input : CancelInput}
    (h : cancelExecutionRun bundle input = .ok bundle') :
    bundle.steps.any (·.status.isMutable) = true ∧ bundle'.run.id = bundle.run.id := by
  unfold cancelExecutionRun at h
  split at h
  · cases h
    exact ⟨‹_›, rfl⟩
  · cases h

section Spares

variable {α β : Type} {seen s : RunContents} {record : ExecutionRunStoredRecord}

theorem Call.Spares.bind {call : Call α} {next : α → Call β} (h : call.Spares seen s)
    (hnext : ∀ a s', (next a).Spares seen s') : (call >>= next).Spares seen s :=
  Program.Ensures.bind (fun a s' _ => hnext a s') (fun _ _ _ => trivial) h

theorem Call.Spares.outcome {call : Call α} (h : call.Spares seen s) : Call.Spares seen call.outcome s :=
  Program.Ensures.mono (fun _ _ _ hg => hg) (fun _ _ _ => trivial) (Program.Ensures.outcome h)

/-- A write at the revision that was read replaces what was read. -/
theorem writeRecord_spares {point : Point} {bundle : ExecutionRunRecordBundle}
    (h : ¬HoldsTerminal seen ∧ ∀ stored : ExecutionRunStoredRecord, stored.value = bundle →
      KeepsTerminal (some record) (some stored)) :
    (writeRecord point bundle (some record.revision)).Spares seen (some record) := by
  intro s' hs
  refine ⟨fun found _ => trivial, fun stored hw => ⟨⟨h.1, ?_⟩, trivial⟩⟩
  obtain rfl := Later.eq_of_attempt hs hw
  exact h.2 stored (by rw [(attempt_eq_ok hw).2])

/-- A run is stored where it is the run that was asked for. It may replace any run that is not terminal. -/
theorem persistRun_spares {runId : String} {bundle : ExecutionRunRecordBundle}
    (h : bundle.run.id = runId → ¬HoldsTerminal (some record)) :
    (persistRun runId bundle (some record.revision)).Ensures (laterRely Point ExecutionRunRecordBundle)
      (fun _ s s' => ¬HoldsTerminal (some record) ∧ KeepsTerminal s s')
      (fun r _ => r.isOk = true → ¬HoldsTerminal (some record)) (some record) := by
  unfold persistRun
  by_cases hid : bundle.run.id = runId
  · have hseen := h hid
    rw [if_neg (not_not.2 hid)]
    have hwrite : (writeRecord .control bundle (some record.revision)).Spares (some record) (some record) :=
      writeRecord_spares ⟨hseen, fun _ _ record' hm hterminal => absurd ⟨record', hm, hterminal⟩ hseen⟩
    exact Program.Ensures.mono (fun _ _ _ hg => hg)
      (fun (r : Except RuntimeError ExecutionRunStoredRecord) _ _ (_ : r.isOk = true) => hseen) hwrite
  · rw [if_pos hid]
    exact nofun

/-- Where the cancellation of a run has been stored, the run was not terminal. -/
theorem persistCancelledRun_spares {runId cancelledAt note : String}
    (h : record.value.steps.any (·.status.isMutable) = true → record.value.run.id = runId →
      ¬HoldsTerminal (some record)) :
    (persistCancelledRun record runId cancelledAt note).Ensures (laterRely Point ExecutionRunRecordBundle)
      (fun _ s s' => ¬HoldsTerminal (some record) ∧ KeepsTerminal s s')
      (fun r _ => r = .ok none → ¬HoldsTerminal (some record)) (some record) := by
  unfold persistCancelledRun
  cases hcancel : cancelExecutionRun record.value { cancelledAt, note := some note, source := .operator } with
  | error e => exact nofun
  | ok bundle =>
    obtain ⟨hmutable, hid⟩ := cancelExecutionRun_id hcancel
    show Program.Ensures _ _ _ ((persistRun runId bundle (some record.revision)).outcome >>= _) _
    refine Program.Ensures.bind (fun outcome s' hr => ?_) (fun _ _ _ => nofun)
      (persistRun_spares fun hrun => h hmutable (hid.symm.trans hrun)).outcome
    obtain ⟨x, hx, hseen⟩ := hr
    obtain rfl := Except.ok.inj hx
    cases outcome with
    | ok stored => exact fun _ => hseen rfl
    | error e =>
      intro s'' _
      cases s'' with
      | none => exact nofun
      | some latest =>
        show Program.Ensures _ _ _ (if latest.value.run.status.isTerminal then _ else _) _
        split <;> exact nofun

/-- A release keeps the status and the steps of every run. -/
theorem releaseLease_spares {runId : String} {input : ReleaseInput} (h : ¬HoldsTerminal seen) :
    (releaseLease .control runId input).Spares seen s := by
  intro s' _
  cases s' with
  | none => trivial
  | some record =>
    show Call.Spares seen (Program.ofExcept ((releaseExecutionRunLease record.value input).map (·.bundle)) >>=
      fun bundle => writeRecord .control bundle (some record.revision)) _
    cases hrelease : releaseExecutionRunLease record.value input with
    | error e => trivial
    | ok result =>
      refine writeRecord_spares ⟨h, fun stored hvalue record' hm _ => ⟨stored, rfl, ?_⟩⟩
      obtain rfl := Option.some.inj hm
      rw [hvalue]
      exact releaseExecutionRunLease_keepsSteps hrelease

end Spares

/-! ## The call -/

/-- `cancelOwnedRun`, after its first reading. -/
def cancelSeen (input : CancelOwnedRunInput) (s : RunContents) : Call CancelRunResult :=
  match cancelOwnedRun input with
  | .read _ next => next s
  | call => call

theorem cancelOwnedRun_eq (input : CancelOwnedRunInput) :
    cancelOwnedRun input = .read .control (cancelSeen input) := rfl

/-- **The call spares terminal runs** where it does not override one. -/
theorem cancelSeen_spares {input : CancelOwnedRunInput} {s : RunContents} (h : ¬OverridesTerminal input s) :
    (cancelSeen input s).Spares s s := by
  cases s with
  | none => trivial
  | some record =>
    dsimp only [cancelSeen, cancelOwnedRun, readRun, bind, Program.readAt, Program.bind]
    cases hlease : getActiveExecutionRunLease record.value with
    | none =>
      show Call.Spares _ (if record.value.run.status.isTerminal then _ else _) _
      split
      · trivial
      rename_i hterminal
      have hseen : ¬HoldsTerminal (some record) := by
        rintro ⟨record', hm, hterminal'⟩
        obtain rfl := Option.some.inj hm
        exact hterminal hterminal'
      split
      · refine Program.Ensures.bind (fun race _ _ => ?_) (fun _ _ _ => trivial)
          (persistCancelledRun_spares fun _ _ => hseen)
        cases race <;> trivial
      · trivial
    | some activeLease =>
      show Call.Spares _ (if activeLease.ownerId ≠ input.expectedOwnerId then _ else _) _
      split
      · trivial
      rename_i howner
      have hseen : record.value.steps.any (·.status.isMutable) = true → record.value.run.id = input.runId →
          ¬HoldsTerminal (some record) := by
        rintro hmutable hid ⟨record', hm, hterminal⟩
        obtain rfl := Option.some.inj hm
        exact h ⟨record, rfl, hterminal, hid, ⟨activeLease, hlease, not_not.1 howner⟩, hmutable⟩
      refine Program.Ensures.bind (fun race _ hrace => ?_) (fun _ _ _ => trivial) (persistCancelledRun_spares hseen)
      cases race with
      | some race => trivial
      | none =>
        refine Call.Spares.bind (releaseLease_spares (hrace rfl)).outcome fun outcome _ => ?_
        cases outcome with
        | ok _ => trivial
        | error e =>
          intro latest _
          cases latest with
          | none => trivial
          | some latest =>
            show Call.Spares _ (if _ then _ else _) _
            split <;> trivial

/-! ## The call among others -/

variable {ι : Type} [DecidableEq ι]

/-- The programs on the store of one run. -/
abbrev Callers (ι : Type) := Config ι Point ExecutionRunRecordBundle RuntimeError CancelRunResult

/-- A step of the cancellation `i`, which made its first reading at `c`. Between its steps the others make theirs. -/
def CancellationStep (input : CancelOwnedRunInput) (i : ι) (c d d' : Callers ι) : Prop :=
  ∃ c', (c.set i (cancelOwnedRun input)).call i = some c' ∧ (atomic c').Reachable d ∧ d.call i = some d'

/-- Whatever the others do, the writes of the cancellation are within its guarantee. -/
theorem CancellationStep.spares {input : CancelOwnedRunInput} {i : ι} {c d d' : Callers ι}
    (h : CancellationStep input i c d d') (hspare : ¬OverridesTerminal input c.contents) :
    (HoldsTerminal c.contents → d'.contents = d.contents) ∧ KeepsTerminal d.contents d'.contents := by
  obtain ⟨c', hc', hd, hd'⟩ := h
  have hc : c' = c.set i (cancelSeen input c.contents) := by
    have : c' = (c.set i (cancelOwnedRun input)).set i (cancelSeen input c.contents) := by
      simpa [Config.call, cancelOwnedRun_eq] using hc'.symm
    rw [this]
    simp [Config.set]
  subst hc
  have hreach : ((atomic (c.set i (cancelSeen input c.contents))).restrict fun _ _ => True).Reachable d :=
    hd.restrict fun _ _ => trivial
  have hsound := sound_of_reachable (R := fun _ => laterRely Point ExecutionRunRecordBundle)
    (G := fun j _ s s' => j = i → ¬HoldsTerminal c.contents ∧ KeepsTerminal s s') (Q := fun _ _ _ => True)
    (fun j => ?_) (fun _ _ _ _ _ _ _ hlt _ _ _ _ _ => .inr hlt) hreach i
  · rcases Config.call_cases hd' with ⟨_, _, _, rfl⟩ | ⟨_, _, _, _, _, _, _, rfl⟩ | ⟨_, _, _, _, stored, hp, hw, rfl⟩
    · exact ⟨fun _ => rfl, .refl _⟩
    · exact ⟨fun _ => rfl, .refl _⟩
    · obtain ⟨hseen, hkeeps⟩ := hsound.guarantee hp hw rfl
      exact ⟨fun h => absurd h hseen, hkeeps⟩
  · by_cases hj : j = i
    · subst hj
      rw [Config.set_self, Config.set_contents]
      exact Program.Ensures.mono (fun _ _ _ hg _ => hg) (fun _ _ h => h) (cancelSeen_spares hspare)
    · exact Program.Ensures.mono (fun _ _ _ _ h => absurd h hj) (fun _ _ h => h) (Program.ensures_true _ _)

/-- A cancellation that overrides a terminal run writes next. -/
theorem cancelSeen_of_overrides {input : CancelOwnedRunInput} {record : ExecutionRunStoredRecord}
    (hid : record.value.run.id = input.runId) {lease : ExecutionRunLease}
    (hlease : getActiveExecutionRunLease record.value = some lease) (howner : lease.ownerId = input.expectedOwnerId)
    (hmutable : record.value.steps.any (·.status.isMutable) = true) :
    ∃ bundle next, cancelSeen input (some record) = .write .control (some record.revision) bundle next ∧
      bundle.run.status = .cancelled := by
  let note := input.note.getD "run cancelled by service host operator control"
  let cancel : CancelInput := { cancelledAt := input.cancelledAt, note := some note, source := .operator }
  obtain ⟨bundle, hbundle⟩ : ∃ bundle, cancelExecutionRun record.value cancel = .ok bundle := by
    unfold cancelExecutionRun
    rw [if_pos hmutable]
    exact ⟨_, rfl⟩
  have hpersist : persistRun input.runId bundle (some record.revision) =
      writeRecord .control bundle (some record.revision) := by
    rw [persistRun, if_neg (not_not.2 ((cancelExecutionRun_id hbundle).2.trans hid))]
  obtain ⟨f, hcall⟩ : ∃ f, persistCancelledRun record input.runId input.cancelledAt note =
      (writeRecord .control bundle (some record.revision)).outcome >>= f := by
    rw [← hpersist]
    unfold persistCancelledRun
    rw [hbundle]
    exact ⟨_, rfl⟩
  obtain ⟨g, hseen⟩ : ∃ g, cancelSeen input (some record) =
      persistCancelledRun record input.runId input.cancelledAt note >>= g := by
    dsimp only [cancelSeen, cancelOwnedRun, readRun, bind, Program.readAt, Program.bind]
    rw [hlease]
    exact ⟨_, if_neg (not_not.2 howner)⟩
  refine ⟨bundle, ?_⟩
  rw [hseen, hcall]
  exact ⟨_, rfl, (cancelExecutionRun_eq_ok hbundle).1⟩

/-- A cancellation that overrides a terminal run stores it as cancelled with its next step. -/
theorem cancellationStep_of_overrides {input : CancelOwnedRunInput} (i : ι) {c : Callers ι}
    (h : OverridesTerminal input c.contents) :
    ∃ d d', CancellationStep input i c d d' ∧ d.contents = c.contents ∧
      ∃ stored, d'.contents = some stored ∧ stored.value.run.status = .cancelled ∧
        stored.revision = revisionOf c.contents + 1 := by
  obtain ⟨record, hm, hterminal, hid, ⟨lease, hlease, howner⟩, hmutable⟩ := h
  obtain ⟨bundle, next, hnext, hstatus⟩ := cancelSeen_of_overrides hid hlease howner hmutable
  have hcontents : c.contents = some record := hm
  have hwrite : attempt (some record.revision) bundle (some record) = .ok ⟨record.revision + 1, bundle⟩ :=
    attempt_revisionOf fun r hr => Option.some.inj hr
  obtain ⟨d', hcall, hd'⟩ : ∃ d', (c.set i (cancelSeen input c.contents)).call i = some d' ∧
      d'.contents = some ⟨record.revision + 1, bundle⟩ := by
    simp only [Config.call, Config.set_self, Config.set_contents, hcontents, hnext, hwrite]
    exact ⟨_, rfl, rfl⟩
  refine ⟨c.set i (cancelSeen input c.contents), d', ⟨_, ?_, .init rfl, hcall⟩, rfl, _, hd', hstatus, ?_⟩
  · simp [Config.call, cancelOwnedRun_eq, Config.set]
  · rw [hcontents]
    rfl

/-- **Terminal runs stay terminal, unless the cancellation finds its own lease on one**: the steps of a cancellation that
has read a terminal run leave the store as it is, and those of any cancellation keep the status and the steps of a run that
is terminal by then, in every interleaving with other programs, if and only if what it read at first was not a terminal run
with a step left under an active lease of the host. -/
theorem terminal_run_kept_iff (input : CancelOwnedRunInput) (i : ι) (c : Callers ι) :
    (∀ d d', CancellationStep input i c d d' → (HoldsTerminal c.contents → d'.contents = d.contents) ∧
      KeepsTerminal d.contents d'.contents) ↔ ¬OverridesTerminal input c.contents := by
  refine ⟨fun h hover => ?_, fun hspare d d' h => h.spares hspare⟩
  obtain ⟨d, d', hstep, hd, stored, hd', -, hrevision⟩ := cancellationStep_of_overrides i hover
  obtain ⟨record, hm, hterminal, -⟩ := hover
  have hkept := (h d d' hstep).1 ⟨record, hm, hterminal⟩
  rw [hd, hd'] at hkept
  rw [← hkept] at hrevision
  exact absurd hrevision (Nat.succ_ne_self _).symm

/-- Its first step has failed, its second is left, and its lease is not released yet. -/
def failedRun : ExecutionRunRecordBundle where
  run := ⟨"run", .direct, .failed, "t0", "t2", [], .failFast⟩
  steps := [⟨"first", none, none, none, .failed, 1, [], ⟨[]⟩, none, some "t1", some "t2", some ⟨"failed", "failed", none, none⟩⟩,
    ⟨"second", none, none, none, .planned, 2, ["first"], ⟨[]⟩, none, none, none, none⟩]
  handoffs := []
  localActionRequests := []
  sharedState := ⟨.failed, [], [], [], [], "t2"⟩
  events := []
  leases := [⟨"lease", "run", "owner", .active, "t0", "t0", "t9", none, none⟩]

/-- **A failed run becomes a cancelled one**, when its host cancels it before the lease is released. -/
theorem failed_run_cancelled : ¬∀ (input : CancelOwnedRunInput) (c d d' : Callers Unit),
    CancellationStep input () c d d' → HoldsTerminal c.contents → d'.contents = d.contents := by
  intro hall
  let input : CancelOwnedRunInput := ⟨"run", none, "t3", "owner"⟩
  let c : Callers Unit := ⟨some ⟨4, failedRun⟩, fun _ => cancelOwnedRun input⟩
  have hover : OverridesTerminal input c.contents :=
    ⟨_, rfl, rfl, rfl, ⟨_, rfl, rfl⟩, rfl⟩
  obtain ⟨d, d', hstep, hd, stored, hd', -, hrevision⟩ := cancellationStep_of_overrides () hover
  have hkept := hall input c d d' hstep ⟨_, rfl, rfl⟩
  rw [hd, hd'] at hkept
  rw [← hkept] at hrevision
  exact absurd hrevision (Nat.succ_ne_self _).symm

end AuraCall.Runtime
