import AuraCall.Runtime.Guarantees

/-!
# Resuming makes progress

A run that is resumed after a human escalation is running again, and the step that was paused is the step it is at
(`Coherent.resume_front`). It is the next runnable step as long as no other step has failed or was cancelled; where one
was, the plan blocks the resumed step as it blocks every other, and no pass starts a step of the run any more
(`resume_progress_iff`).
-/

namespace AuraCall.Runtime

open RevisionedStore TransitionSystem

variable {bundle bundle' : ExecutionRunRecordBundle} {input : ResumeInput}

/-- The resumed step is the step the run is at, no step runs, and the other steps are as they were. -/
theorem Coherent.resume_front (h : Coherent bundle)
    (ho : resumeExecutionRunAfterHumanEscalation bundle input = .ok bundle') :
    ∃ step ∈ bundle.steps, Paused step ∧ bundle'.run.status = .running ∧ front bundle'.steps = some step.id ∧
      ∀ s', s' ∈ bundle'.steps ↔ s' = resumeStep input step ∨ (s' ∈ bundle.steps ∧ s'.id ≠ step.id) := by
  obtain ⟨step, hm, hcancelled, hescalated, hrun, hrewrites⟩ := resumeExecutionRunAfterHumanEscalation_eq_ok ho
  have hadvances := h.resume ho
  have hmem : ∀ s', s' ∈ bundle'.steps ↔ s' = resumeStep input step ∨ (s' ∈ bundle.steps ∧ s'.id ≠ step.id) := by
    intro s'
    refine ⟨h.mem_steps hm hrewrites s', fun hs' => ?_⟩
    rw [hrewrites.steps, List.mem_map]
    rcases hs' with rfl | ⟨hms, hid⟩
    · exact ⟨step, hm, updateStep_self _ step⟩
    · exact ⟨s', hms, updateStep_ne hid⟩
  refine ⟨step, hm, ⟨hcancelled, hescalated⟩, hrun, ?_, hmem⟩
  rcases hadvances.reached step.id (.inl ⟨step, hm, rfl, by rw [hcancelled]; rfl⟩) with ⟨s', hs', hid, hsettled⟩ | ⟨hfront, -⟩
  · rcases (hmem s').1 hs' with rfl | ⟨-, hne⟩
    · cases hsettled
    · exact absurd hid hne
  · exact hfront

theorem Coherent.resume_plan (h : Coherent bundle)
    (ho : resumeExecutionRunAfterHumanEscalation bundle input = .ok bundle') :
    ∃ step ∈ bundle.steps, Paused step ∧ bundle'.run.status = .running ∧
      ((createExecutionRunDispatchPlan bundle').nextRunnableStepId = some step.id ↔
        ∀ s ∈ bundle.steps, s.id ≠ step.id → s.status ≠ .failed ∧ s.status ≠ .cancelled) ∧
      ((createExecutionRunDispatchPlan bundle').nextRunnableStepId ≠ some step.id →
        (createExecutionRunDispatchPlan bundle').nextRunnableStepId = none) := by
  obtain ⟨step, hm, hpaused, hrun, hfront, hmem⟩ := h.resume_front ho
  have hnext : ∀ stepId, (createExecutionRunDispatchPlan bundle').nextRunnableStepId = some stepId →
      stepId = step.id ∧ ∀ s ∈ bundle.steps, s.id ≠ step.id → s.status ≠ .failed ∧ s.status ≠ .cancelled := by
    intro stepId hstep
    obtain ⟨hfront', hall⟩ := nextRunnableStepId_front hstep
    refine ⟨Option.some.inj (hfront'.symm.trans hfront), fun s hs hne => ?_⟩
    exact (hall s ((hmem s).2 (.inr ⟨hs, hne⟩))).2
  refine ⟨step, hm, hpaused, hrun, ⟨fun heq => (hnext _ heq).2, fun hothers => ?_⟩, fun hne => ?_⟩
  · rw [nextRunnableStepId_eq_front fun s' hs' => ?_, hfront]
    rcases (hmem s').1 hs' with rfl | ⟨hms, hid⟩
    · exact ⟨nofun, nofun, nofun⟩
    · refine ⟨fun hrunning => ?_, hothers s' hms hid⟩
      exact (h.running s' hms hrunning).2 step hm hpaused
  · cases hstep : (createExecutionRunDispatchPlan bundle').nextRunnableStepId with
    | none => rfl
    | some stepId => exact absurd (hstep.trans (congrArg some (hnext stepId hstep).1)) hne

/-- **Resuming makes progress, unless another step has failed or was cancelled**: of every run that is ever stored, a
resumption makes the paused step runnable in a running run, and this step is the next runnable one if and only if no other
step has failed or is cancelled. Otherwise there is no next runnable step. -/
theorem resume_progress_iff {ι : Type} [DecidableEq ι] {process : ι → Process} {c : RunConfig ι}
    (h : (atomic (initialRun process)).Reachable c) {record : ExecutionRunStoredRecord} (hm : c.contents = some record)
    {input : ResumeInput} {bundle : ExecutionRunRecordBundle}
    (ho : resumeExecutionRunAfterHumanEscalation record.value input = .ok bundle) :
    ∃ step ∈ record.value.steps, Paused step ∧ bundle.run.status = .running ∧
      ((createExecutionRunDispatchPlan bundle).nextRunnableStepId = some step.id ↔
        ∀ s ∈ record.value.steps, s.id ≠ step.id → s.status ≠ .failed ∧ s.status ≠ .cancelled) ∧
      ((createExecutionRunDispatchPlan bundle).nextRunnableStepId ≠ some step.id →
        (createExecutionRunDispatchPlan bundle).nextRunnableStepId = none) := by
  have hunfenced : ((atomic (initialRun process)).restrict (KeepsLicences False)).Reachable c :=
    h.restrict fun _ _ _ _ _ _ _ _ _ _ _ hf => hf.elim
  exact (coherent_of_reachable hunfenced record hm).resume_plan ho

/-! ## A run that is stuck -/

/-- The next runnable step, of steps that are listed in their order. -/
def nextInOrder (failPolicy : TeamRunFailPolicy) (steps : List ExecutionRunStep) : Option String :=
  if steps.all (classifyStep failPolicy steps · != .running) then
    (steps.find? (classifyStep failPolicy steps · == .eligible)).map (·.id)
  else none

/-- The next runnable step, found without sorting where the steps are sorted. -/
def nextRunnableStep (bundle : ExecutionRunRecordBundle) : Option String :=
  if bundle.steps.Pairwise fun left right => left.order ≤ right.order then
    nextInOrder bundle.run.failPolicy bundle.steps
  else (createExecutionRunDispatchPlan bundle).nextRunnableStepId

theorem nextRunnableStepId_eq (bundle : ExecutionRunRecordBundle) :
    (createExecutionRunDispatchPlan bundle).nextRunnableStepId = nextRunnableStep bundle := by
  unfold nextRunnableStep
  split
  · rename_i hsorted
    have horder : dispatchOrder bundle.steps = bundle.steps :=
      List.mergeSort_of_pairwise (hsorted.imp fun h => decide_eq_true h)
    unfold createExecutionRunDispatchPlan nextInOrder
    simp only [horder, List.isEmpty_iff, List.map_eq_nil_iff, List.filter_eq_nil_iff, List.head?_map, List.head?_filter,
      List.all_eq_true, bne_iff_ne, beq_iff_eq, ne_eq]
  · rfl

/-- A pass, with the plan found without sorting. -/
def passInOrder (options : PassOptions) (env : PassEnvironment) :
    { call : Call ExecutionRunStoredRecord // executeStoredExecutionRunOnce options env = call } :=
  ⟨_, by
    unfold executeStoredExecutionRunOnce
    simp only [nextRunnableStepId_eq]
    rfl⟩

inductive ResumedParty
  | creator | first | second | operator | human
  deriving DecidableEq

/-- A run whose second step needs the first, and whose third needs the second. -/
def threeSteps : NewRun where
  bundle :=
    { oneStepRun.bundle with
      steps := [⟨"first", none, none, none, .planned, 1, [], ⟨[]⟩, none, none, none, none⟩,
        ⟨"second", none, none, none, .planned, 2, ["first"], ⟨[]⟩, none, none, none, none⟩,
        ⟨"third", none, none, none, .planned, 3, ["second"], ⟨[]⟩, none, none, none, none⟩] }
  planned := rfl
  leases := rfl
  nodup := by decide
  status := by decide
  output := by simp

/-- A pass whose step depends on local actions that were escalated. -/
def escalatedEnvironment : PassEnvironment :=
  { plainEnvironment with
    contextData := fun _ _ => [("sharedStateContext", .object
      [("dependencyLocalActionDecisionGuidance", .object [("action", .string "escalate")])])] }

def resumedRun : ResumedParty → Process
  | .creator => .create threeSteps
  | .first => .execute ⟨"run", "owner", some "lease-1", none, 15000⟩ plainEnvironment
  | .second => .execute ⟨"run", "owner", some "lease-2", none, 15000⟩ escalatedEnvironment
  | .operator => .cancel ⟨"run", none, "t5", "owner"⟩
  | .human => .resume "run" ⟨"t6", none, none, none⟩

/-- The processes before their first calls. -/
def resumedStart : RunConfig ResumedParty where
  contents := none
  program
    | .first => do return .record (some (← (passInOrder ⟨"run", "owner", some "lease-1", none, 15000⟩ plainEnvironment).1))
    | .second => do
      return .record (some (← (passInOrder ⟨"run", "owner", some "lease-2", none, 15000⟩ escalatedEnvironment).1))
    | party => (resumedRun party).program

theorem initialRun_resumedRun : initialRun resumedRun = resumedStart := by
  unfold initialRun startedFrom resumedStart
  congr 1
  funext party
  cases party with
  | creator => rfl
  | first => exact congrArg (· >>= _) (passInOrder _ _).2
  | second => exact congrArg (· >>= _) (passInOrder _ _).2
  | operator => rfl
  | human => rfl

/-- The second step is paused, and the run is cancelled before the lease of the pass is released. -/
def pausedConfig : RunConfig ResumedParty :=
  (execute Config.call resumedStart ([.creator] ++ List.replicate 9 .first ++ List.replicate 5 .second ++
    List.replicate 4 .operator)).get (by decide +kernel)

theorem pausedConfig_reachable : (atomic (initialRun resumedRun)).Reachable pausedConfig := by
  have hinit : (atomic (initialRun resumedRun)).Reachable resumedStart := .init initialRun_resumedRun.symm
  exact reachable_get hinit _

/-- The record that is stored then. -/
def pausedRecord : ExecutionRunStoredRecord := pausedConfig.contents.get (by decide +kernel)

def humanInput : ResumeInput := ⟨"t6", none, none, none⟩

/-- What the resumption makes of it. -/
def resumedBundle : ExecutionRunRecordBundle :=
  ((resumeExecutionRunAfterHumanEscalation pausedRecord.value humanInput).toOption).get (by decide +kernel)

theorem eq_ok_get {α ε : Type} : ∀ (x : Except ε α) (h : x.toOption.isSome = true), x = .ok (x.toOption.get h)
  | .ok _, _ => rfl

theorem resume_pausedRecord :
    resumeExecutionRunAfterHumanEscalation pausedRecord.value humanInput = .ok resumedBundle := eq_ok_get _ _

/-- **A resumed run is stuck**: its third step was cancelled, so no step is ever the next runnable one. -/
theorem resumed_run_stuck : ¬∀ (c : RunConfig ResumedParty), (atomic (initialRun resumedRun)).Reachable c →
    ∀ record ∈ c.contents, ∀ input bundle, resumeExecutionRunAfterHumanEscalation record.value input = .ok bundle →
      ∃ step ∈ record.value.steps, Paused step ∧
        (createExecutionRunDispatchPlan bundle).nextRunnableStepId = some step.id := by
  intro hall
  obtain ⟨step, -, -, hnext⟩ := hall pausedConfig pausedConfig_reachable pausedRecord (Option.some_get _).symm humanInput
    resumedBundle resume_pausedRecord
  have hnone : (createExecutionRunDispatchPlan resumedBundle).nextRunnableStepId.isSome = false := by
    rw [nextRunnableStepId_eq]
    decide +kernel
  rw [hnext] at hnone
  cases hnone

/-- The plan of that run, as the general result gives it. -/
theorem pausedRecord_plan : ∃ step ∈ pausedRecord.value.steps, Paused step ∧ resumedBundle.run.status = .running ∧
    ((createExecutionRunDispatchPlan resumedBundle).nextRunnableStepId = some step.id ↔
      ∀ s ∈ pausedRecord.value.steps, s.id ≠ step.id → s.status ≠ .failed ∧ s.status ≠ .cancelled) ∧
    ((createExecutionRunDispatchPlan resumedBundle).nextRunnableStepId ≠ some step.id →
      (createExecutionRunDispatchPlan resumedBundle).nextRunnableStepId = none) :=
  resume_progress_iff pausedConfig_reachable (Option.some_get _).symm resume_pausedRecord

end AuraCall.Runtime
