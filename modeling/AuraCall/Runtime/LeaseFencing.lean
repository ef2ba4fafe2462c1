import AuraCall.Runtime.Guarantees

/-!
# Outcomes are written under a lease

A pass acquires its lease, runs the executor of its step for as long as that takes, reads the record again and writes
the outcome of the step. It asks whether the run was cancelled meanwhile, and not whether its lease is still the active
one: a runner whose lease has expired while its executor ran writes its outcome over the step another runner has started
(`outcome_over_another_holder`). A pass that finds a step beyond its limits writes that it failed without any lease.

Where no write of another process ends the lease of a pass that is under it, unless the run is cancelled, a step that is
beyond its limits is failed under the lease, and writes are uninterrupted, every outcome replaces a bundle that records
the lease of its runner as active (`outcome_under_lease`).
-/

namespace AuraCall.Runtime

open RevisionedStore TransitionSystem

variable {ι : Type}

/-- A step that a pass of process `i` turns into succeeded or failed was in a bundle with the lease of the pass active.
-/
def OutcomeUnderLease (process : ι → Process) (i : ι) (s s' : RunContents) : Prop :=
  ∀ options env record stored, process i = .execute options env → s = some record → s' = some stored →
    ∀ stepId status, status = .succeeded ∨ status = .failed → stepStatus stored.value stepId = some status →
      stepStatus record.value stepId ≠ some status → HoldsLease options.hold record.value

/-! ## A lease that has expired while the executor ran -/

/-- Two passes, and between them the expiry of the lease and the recovery of the run. -/
inductive OvertakenParty
  | creator | first | expiry | recovery | second
  deriving DecidableEq

def overtakenPass : OvertakenParty → Process
  | .creator => .create oneStepRun
  | .first => .execute ⟨"run", "runner-a", some "lease-a", none, 15000⟩ plainEnvironment
  | .expiry => .expire "t9"
  | .recovery => .recover fun _ _ => "t9"
  | .second => .execute ⟨"run", "runner-b", some "lease-b", none, 15000⟩ plainEnvironment

/-- Each process takes the steps of its writes one after the other; then the executor of the first pass returns. -/
def overtakenSchedule : List OvertakenParty :=
  [.creator, .creator, .first, .first, .first, .first, .first, .first, .expiry, .expiry, .expiry,
    .recovery, .recovery, .recovery, .second, .second, .second, .second, .second, .second, .first, .first]

def overtakenState : Interleaving OvertakenParty Point ExecutionRunRecordBundle RuntimeError Reply :=
  (execute Interleaving.call ⟨initialRun overtakenPass, fun _ => none⟩ overtakenSchedule).get (by decide +kernel)

def overtakenCommit : Interleaving OvertakenParty Point ExecutionRunRecordBundle RuntimeError Reply :=
  (overtakenState.call .first).get (by decide +kernel)

/-- The record of the second runner, and what the first one replaces it with. -/
def overtakenRecord : ExecutionRunStoredRecord := overtakenState.contents.get (by decide +kernel)

def overtakenOutcome : ExecutionRunStoredRecord := overtakenCommit.contents.get (by decide +kernel)

/-- **The first runner writes that the step succeeded, while the second one holds the run and has the step in
progress.** -/
theorem outcome_over_another_holder : ¬∀ s i s', (interleaved (initialRun overtakenPass)).Reachable s →
    s.call i = some s' → OutcomeUnderLease overtakenPass i s.contents s'.contents := by
  intro h
  have h0 : (interleaved (initialRun overtakenPass)).Reachable ⟨initialRun overtakenPass, fun _ => none⟩ := .init rfl
  have hr : (interleaved (initialRun overtakenPass)).Reachable overtakenState := reachable_get h0 _
  have hrecord : overtakenState.contents = some overtakenRecord := (Option.some_get _).symm
  have houtcome : overtakenCommit.contents = some overtakenOutcome := (Option.some_get _).symm
  have hsucceeded : stepStatus overtakenOutcome.value "step" = some .succeeded := by decide +kernel
  have hrunning : stepStatus overtakenRecord.value "step" = some .running := by decide +kernel
  obtain ⟨lease, hactive, -, howner⟩ := h overtakenState .first overtakenCommit hr (Option.some_get _).symm _ _ _ _ rfl hrecord
    houtcome "step" .succeeded (.inl rfl) hsucceeded (by rw [hrunning]; decide)
  have hb : (getActiveExecutionRunLease overtakenRecord.value).map (·.ownerId) = some "runner-b" := by decide +kernel
  rw [hactive, Option.map_some, howner] at hb
  exact absurd hb (by decide)

/-! ## Fenced runs -/

variable [DecidableEq ι]

/-- No write takes away the lease of another pass that is under it, unless the run is cancelled, and a pass that fails a
step without acquiring its lease holds it. -/
def FencedStep (c : RunConfig ι) (i : ι) : Prop :=
  KeepsLicences True c i ∧ ∀ hold stored, (c.program i).point = some (.refuse hold) → c.commits i = some stored →
    ∃ record ∈ c.contents, HoldsLease hold record.value

/-- The runs whose writes are uninterrupted and fenced. -/
def fencedRuns (process : ι → Process) :
    TransitionSystem (Interleaving ι Point ExecutionRunRecordBundle RuntimeError Reply) ι :=
  (interleaved (initialRun process)).restrict fun s i =>
    Uninterrupted s i ∧ (s.checked i ≠ none → FencedStep s.toConfig i)

variable {process : ι → Process}

/-- An effect of a pass that gives a step its outcome is made under the lease, unless it refuses the step. -/
theorem Effect.underLease {options : PassOptions} {env : PassEnvironment} {point : Point}
    {record stored : ExecutionRunStoredRecord} (h : Effect True (.execute options env) point (some record) (some stored))
    {stepId : String} {status : ExecutionRunStepStatus} (hs : status = .succeeded ∨ status = .failed)
    (hst : stepStatus stored.value stepId = some status) (hn : stepStatus record.value stepId ≠ some status) :
    point = .refuse options.hold ∨ HoldsLease options.hold record.value := by
  have hheld : Licensed True options.hold (some record) → record.value.run.status ≠ .cancelled →
      HoldsLease options.hold record.value := by
    intro hl hc
    obtain ⟨record', hm, hl⟩ := hl trivial
    obtain rfl : record = record' := by simpa using hm
    exact hl.resolve_right hc
  cases h with
  | keeps h =>
    rw [stepStatus, h.steps] at hst
    exact absurd hst hn
  | refuse => exact .inl rfl
  | start _ h =>
    refine absurd ((startExecutionRunStep_eq_ok h).2.2.stepStatus (startStep_keepsPlan _) (fun step he => ?_) hst) hn
    rcases hs with hs | hs <;> rw [hs] at he <;> cases he
  | escalate h =>
    refine absurd ((cancelExecutionRunStepForHumanEscalation_eq_ok h).2.2.stepStatus (escalateStep_keepsPlan _ _)
      (fun step he => ?_) hst) hn
    rcases hs with hs | hs <;> rw [hs] at he <;> cases he
  | succeed hl hc _ => exact .inr (hheld hl hc)
  | fail hl hc _ => exact .inr (hheld hl hc)

theorem reachable_fenced {s : Interleaving ι Point ExecutionRunRecordBundle RuntimeError Reply}
    (h : (fencedRuns process).Reachable s) :
    ((atomic (initialRun process)).restrict FencedStep).Reachable s.toConfig := by
  refine Reachable.atomic (fun c i hn => ⟨fun stored hw => ?_, fun _ stored _ hw => ?_⟩) h
  · rw [hn] at hw
    cases hw
  · rw [hn] at hw
    cases hw

/-- **In fenced runs every outcome of a step is written under the lease of its runner.** -/
theorem outcome_under_lease {s s' : Interleaving ι Point ExecutionRunRecordBundle RuntimeError Reply} {i : ι}
    (h : (fencedRuns process).Reachable s) (ha : (fencedRuns process).Step s i s') :
    OutcomeUnderLease process i s.contents s'.contents := by
  obtain ⟨⟨hu, ho⟩, ha⟩ := ha
  intro options env record stored hp hrecord hstored stepId status hs hst hn
  have hsame : s'.contents = s.contents → HoldsLease options.hold record.value := by
    intro he
    rw [he, hrecord] at hstored
    cases hstored
    exact absurd hst hn
  rcases Interleaving.call_cases ha with ⟨_, _, _, _, rfl⟩ | ⟨_, _, _, _, _, _, _, _, rfl⟩ |
    ⟨_, _, _, _, _, _, _, _, rfl⟩ | ⟨p, expected, value, next, stored', hc, hprog, rfl⟩
  · exact hsame rfl
  · exact hsame rfl
  · exact hsame rfl
  · obtain rfl : stored' = stored := by simpa using hstored
    obtain ⟨p', expected', value', next', hprog', hw⟩ := (pending_of_reachable h.of_restrict).attempt hc hu
    rw [hprog] at hprog'
    cases hprog'
    have hfenced := ho (by simp [hc])
    have hr : ((atomic (initialRun process)).restrict (KeepsLicences True)).Reachable s.toConfig := by
      refine (reachable_fenced h).invariant
        (I := fun c => ((atomic (initialRun process)).restrict (KeepsLicences True)).Reachable c) ?_ ?_
      · exact fun _ h => .init h
      · exact fun _ _ _ _ ih ha => ih.step ⟨ha.1.1, ha.2⟩
    have hg := (sound_processes hr i).guarantee hprog hw
    rw [hrecord, hp] at hg
    rcases hg.underLease hs hst hn with hrefuse | hheld
    · obtain ⟨record', hm, hl⟩ := hfenced.2 options.hold stored' (by rw [hprog, hrefuse]; rfl)
        (Config.commits_write hprog hw)
      rw [hrecord] at hm
      cases hm
      exact hl
    · exact hheld

/-! ## A fenced run -/

/-- A pass of one runner, after the creation of the run. -/
def singlePass : Bool → Process
  | false => .create oneStepRun
  | true => .execute ⟨"run", "runner-a", some "lease-a", none, 15000⟩ plainEnvironment

/-- No other process is under a lease, and the process refuses no step. -/
def checkFenced (s : Interleaving Bool Point ExecutionRunRecordBundle RuntimeError Reply) (i : Bool) : Bool :=
  (s.checked i).all (fun stored => revisionOf s.contents + 1 == stored.revision) &&
    (decide (∀ j, j ≠ i → (s.program j).point.bind (·.underLease) = none) &&
      (match (s.program i).point with
        | some (.refuse _) => false
        | _ => true))

theorem checkFenced_sound (s : Interleaving Bool Point ExecutionRunRecordBundle RuntimeError Reply) (i : Bool)
    (h : checkFenced s i = true) : Uninterrupted s i ∧ (s.checked i ≠ none → FencedStep s.toConfig i) := by
  simp only [checkFenced, Bool.and_eq_true, decide_eq_true_eq] at h
  obtain ⟨hu, hj, hp⟩ := h
  refine ⟨fun stored hc => by simpa [hc] using hu, fun _ => ⟨fun stored _ j hji point hold hpoint hl _ => ?_,
    fun hold stored hpoint _ => ?_⟩⟩
  · have := hj j hji
    rw [hpoint, Option.bind_some, hl] at this
    cases this
  · rw [hpoint] at hp
    cases hp

def singlePassState : Interleaving Bool Point ExecutionRunRecordBundle RuntimeError Reply :=
  (execute (fun s i => if checkFenced s i then s.call i else none) ⟨initialRun singlePass, fun _ => none⟩
    [false, false, true, true, true, true, true, true, true, true]).get (by decide +kernel)

/-- The pass writes that its step succeeded, under its lease. -/
theorem outcome_under_lease_singlePass :
    OutcomeUnderLease singlePass true singlePassState.contents ((singlePassState.call true).get (by decide +kernel)).contents := by
  have hr : (fencedRuns singlePass).Reachable singlePassState :=
    reachable_execute_where checkFenced_sound (.init rfl) (Option.some_get _).symm
  exact outcome_under_lease hr ⟨checkFenced_sound _ _ (by decide +kernel), (Option.some_get _).symm⟩

end AuraCall.Runtime
