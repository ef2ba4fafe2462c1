import Mathlib.Data.List.Nodup
import AuraCall.Runtime.Steps

/-!
# Coherent runs

At most one step of a run is in progress, and it is the step the run is at. A step that is paused for human escalation
is the only one that is, and resuming it makes it the step the run is at (`Coherent`).

A step has been reached when it is settled, or is the step the run is at while none is paused (`Reached`). A runner that
has found a step to be the next runnable one may rely on it from then on: every operation keeps a coherent run coherent
and its reached steps reached (`Advances`), those on a step because the step has been reached.
-/

namespace AuraCall.Runtime

/-! ## Settled, paused and reached steps -/

def ExecutionRunStepStatus.isSettled : ExecutionRunStepStatus → Bool
  | succeeded | failed | skipped | cancelled => true
  | planned | runnable | running | blocked => false

/-- Cancelled for human escalation. -/
def Paused (step : ExecutionRunStep) : Prop := step.status = .cancelled ∧ step.escalated = true

/-- The step is settled, or the run is at it and no step is paused. -/
def Reached (steps : List ExecutionRunStep) (stepId : String) : Prop :=
  (∃ step ∈ steps, step.id = stepId ∧ step.status.isSettled = true) ∨
  (front steps = some stepId ∧ ∀ step ∈ steps, ¬Paused step)

def reopen (step : ExecutionRunStep) : ExecutionRunStep := { step with status := .runnable }

structure Coherent (bundle : ExecutionRunRecordBundle) : Prop where
  nodup : (bundle.steps.map (·.id)).Nodup
  running : ∀ step ∈ bundle.steps, step.status = .running →
    front bundle.steps = some step.id ∧ ∀ s ∈ bundle.steps, ¬Paused s
  paused : ∀ step ∈ bundle.steps, Paused step → bundle.run.status = .cancelled ∧
    front (bundle.steps.map (updateStep step.id reopen)) = some step.id ∧ ∀ s ∈ bundle.steps, Paused s → s = step
  pending : ∀ step ∈ bundle.steps, step.status.isMutable = true → step.escalated = false
  cancelled : bundle.run.status = .cancelled →
    (∃ step ∈ bundle.steps, Paused step) ∨ ∀ step ∈ bundle.steps, step.status.isMutable = false

/-- The status of the step with an identifier. -/
def stepStatus (bundle : ExecutionRunRecordBundle) (stepId : String) : Option ExecutionRunStepStatus :=
  (bundle.steps.find? (·.id == stepId)).map (·.status)

/-- What every operation of the runtime keeps of a coherent run. -/
structure Advances (bundle bundle' : ExecutionRunRecordBundle) : Prop where
  coherent : Coherent bundle'
  reached : ∀ stepId, Reached bundle.steps stepId → Reached bundle'.steps stepId

/-- A cancelled run stays cancelled, with its cancelled steps. -/
def Final (bundle bundle' : ExecutionRunRecordBundle) : Prop :=
  bundle.run.status = .cancelled → bundle'.run.status = .cancelled ∧
    ∀ step ∈ bundle.steps, step.status = .cancelled → ∃ step' ∈ bundle'.steps, step'.id = step.id ∧ step'.status = .cancelled

/-! ## Updates of the steps -/

theorem updateStep_keepsPlan {f : ExecutionRunStep → ExecutionRunStep} (h : KeepsPlan f) (stepId : String) :
    KeepsPlan (updateStep stepId f) := by
  refine ⟨fun step => ?_, fun step => ?_, fun step => ?_⟩ <;> unfold updateStep <;> split
  · exact h.id step
  · rfl
  · exact h.order step
  · rfl
  · exact h.dependsOnStepIds step
  · rfl

theorem startStep_keepsPlan (startedAt : String) : KeepsPlan (startStep startedAt) :=
  ⟨fun _ => rfl, fun _ => rfl, fun _ => rfl⟩

theorem succeedStep_keepsPlan (completedAt : String) (output : TeamRunStepOutput) :
    KeepsPlan (succeedStep completedAt output) := ⟨fun _ => rfl, fun _ => rfl, fun _ => rfl⟩

theorem failStep_keepsPlan (failedAt : String) (output : Option TeamRunStepOutput) (failure : TeamRunFailure) :
    KeepsPlan (failStep failedAt output failure) := ⟨fun _ => rfl, fun _ => rfl, fun _ => rfl⟩

theorem escalateStep_keepsPlan (cancelledAt : String) (guidance : JsonRecord) :
    KeepsPlan (escalateStep cancelledAt guidance) := ⟨fun _ => rfl, fun _ => rfl, fun _ => rfl⟩

theorem resumeStep_keepsPlan (input : ResumeInput) : KeepsPlan (resumeStep input) :=
  ⟨fun _ => rfl, fun _ => rfl, fun _ => rfl⟩

theorem reopen_keepsPlan : KeepsPlan reopen := ⟨fun _ => rfl, fun _ => rfl, fun _ => rfl⟩

theorem recoverStep_keepsPlan : KeepsPlan recoverStep := by
  refine ⟨fun step => ?_, fun step => ?_, fun step => ?_⟩ <;> unfold recoverStep <;> split <;> rfl

theorem cancelStep_keepsPlan (cancelledAt note source : String) : KeepsPlan (cancelStep cancelledAt note source) := by
  refine ⟨fun step => ?_, fun step => ?_, fun step => ?_⟩ <;> unfold cancelStep <;> split <;> rfl

@[simp] theorem updateStep_self (f : ExecutionRunStep → ExecutionRunStep) (step : ExecutionRunStep) :
    updateStep step.id f step = f step := by simp [updateStep]

theorem updateStep_ne {f : ExecutionRunStep → ExecutionRunStep} {step : ExecutionRunStep} {stepId : String}
    (h : step.id ≠ stepId) : updateStep stepId f step = step := by simp [updateStep, h]

section Update

variable {steps : List ExecutionRunStep} (hn : (steps.map (·.id)).Nodup) {step : ExecutionRunStep} (hm : step ∈ steps)
  {f : ExecutionRunStep → ExecutionRunStep}

include hn hm

theorem eq_of_id {s : ExecutionRunStep} (hs : s ∈ steps) (hi : s.id = step.id) : s = step :=
  List.inj_on_of_nodup_map hn hs hm hi

theorem mem_map_updateStep {s' : ExecutionRunStep} (h : s' ∈ steps.map (updateStep step.id f)) :
    s' = f step ∨ (s' ∈ steps ∧ s'.id ≠ step.id) := by
  obtain ⟨s, hs, rfl⟩ := List.mem_map.mp h
  by_cases hi : s.id = step.id
  · obtain rfl := eq_of_id hn hm hs hi
    exact .inl (updateStep_self f s)
  · rw [updateStep_ne hi]
    exact .inr ⟨hs, hi⟩

/-- The front stays where it is when the update does not open the step, and does not close the front. -/
theorem front_updateStep (hk : KeepsPlan f) {stepId : String}
    (hs : ((f step).status == .succeeded) = (step.status == .succeeded))
    (hopen : (f step).status.isOpen = true → step.status.isOpen = true)
    (hfront : step.id = stepId → (f step).status.isOpen = true) (hf : front steps = some stepId) :
    front (steps.map (updateStep step.id f)) = some stepId := by
  refine front_map (updateStep_keepsPlan hk step.id) (fun s hms => ?_) (fun s hms ho => ?_) (fun s hms hi ho => ?_) hf
  · by_cases his : s.id = step.id
    · obtain rfl := eq_of_id hn hm hms his
      rwa [updateStep_self]
    · rw [updateStep_ne his]
  · by_cases his : s.id = step.id
    · obtain rfl := eq_of_id hn hm hms his
      exact hopen (by rwa [updateStep_self] at ho)
    · rwa [updateStep_ne his] at ho
  · by_cases his : s.id = step.id
    · obtain rfl := eq_of_id hn hm hms his
      rw [updateStep_self]
      exact hfront hi
    · rwa [updateStep_ne his]

end Update

theorem isMutable_of_isOpen {status : ExecutionRunStepStatus} (h : status.isOpen = true) : status.isMutable = true := by
  cases status <;> first | rfl | cases h

theorem isSettled_of_isOpen {status : ExecutionRunStepStatus} (h : status.isOpen = true) : status.isSettled = false := by
  cases status <;> first | rfl | cases h

theorem isMutable_of_isSettled {status : ExecutionRunStepStatus} (h : status.isSettled = true) :
    status.isMutable = false := by
  cases status <;> first | rfl | cases h

/-! ## Reached steps -/

/-- **The next runnable step has been reached.** -/
theorem reached_of_nextRunnableStepId {bundle : ExecutionRunRecordBundle} {stepId : String}
    (h : (createExecutionRunDispatchPlan bundle).nextRunnableStepId = some stepId) : Reached bundle.steps stepId := by
  obtain ⟨hf, hs⟩ := nextRunnableStepId_front h
  exact .inr ⟨hf, fun step hm hp => (hs step hm).2.2 hp.1⟩

/-- A reached step that is not settled is the step the run is at. -/
theorem Reached.at {steps : List ExecutionRunStep} (hn : (steps.map (·.id)).Nodup) {step : ExecutionRunStep}
    (h : Reached steps step.id) (hm : step ∈ steps) (ho : step.status.isOpen = true) :
    front steps = some step.id ∧ ∀ s ∈ steps, ¬Paused s := by
  rcases h with ⟨s, hs, hi, hset⟩ | h
  · rw [eq_of_id hn hm hs hi, isSettled_of_isOpen ho] at hset
    cases hset
  · exact h

/-- An update that keeps settled steps settled, and the step the run is at reached. -/
theorem Reached.map {f : ExecutionRunStep → ExecutionRunStep} {steps : List ExecutionRunStep} {stepId : String}
    (h : Reached steps stepId) (hk : KeepsPlan f)
    (hs : ∀ step ∈ steps, step.id = stepId → step.status.isSettled = true → (f step).status.isSettled = true)
    (hf : front steps = some stepId → (∀ step ∈ steps, ¬Paused step) → Reached (steps.map f) stepId) :
    Reached (steps.map f) stepId := by
  rcases h with ⟨step, hm, hi, hset⟩ | ⟨hfront, hp⟩
  · exact .inl ⟨f step, List.mem_map_of_mem hm, by rw [hk.id, hi], hs step hm hi hset⟩
  · exact hf hfront hp

variable {bundle bundle' : ExecutionRunRecordBundle}

/-- A run with a step in progress, or about to be, is not cancelled. -/
theorem Coherent.not_cancelled (h : Coherent bundle) (hp : ∀ s ∈ bundle.steps, ¬Paused s) {step : ExecutionRunStep}
    (hm : step ∈ bundle.steps) (ho : step.status.isOpen = true) : bundle.run.status ≠ .cancelled := by
  intro hc
  rcases h.cancelled hc with ⟨s, hs, hps⟩ | hnone
  · exact hp s hs hps
  · have := hnone step hm
    rw [isMutable_of_isOpen ho] at this
    cases this

theorem Coherent.not_paused (h : Coherent bundle) (hc : bundle.run.status ≠ .cancelled) :
    ∀ s ∈ bundle.steps, ¬Paused s := fun s hs hp => hc (h.paused s hs hp).1

/-! ## What the operations keep -/

theorem Coherent.congr (h : Coherent bundle) (hs : bundle'.steps = bundle.steps)
    (hr : bundle'.run.status = bundle.run.status) : Advances bundle bundle' := by
  refine ⟨⟨?_, ?_, ?_, ?_, ?_⟩, fun stepId hreach => by rwa [hs]⟩
  · rw [hs]; exact h.nodup
  · rw [hs]; exact h.running
  · rw [hs, hr]; exact h.paused
  · rw [hs]; exact h.pending
  · rw [hs, hr]; exact h.cancelled

theorem Coherent.mem_steps (h : Coherent bundle) {step : ExecutionRunStep} (hm : step ∈ bundle.steps)
    {f : ExecutionRunStep → ExecutionRunStep} (hr : Rewrites (updateStep step.id f) bundle bundle') :
    ∀ s' ∈ bundle'.steps, s' = f step ∨ (s' ∈ bundle.steps ∧ s'.id ≠ step.id) := by
  rw [hr.steps]
  exact fun s' hs' => mem_map_updateStep h.nodup hm hs'

theorem Coherent.nodup_steps (h : Coherent bundle) {f : ExecutionRunStep → ExecutionRunStep} (hk : KeepsPlan f)
    (hr : Rewrites f bundle bundle') : (bundle'.steps.map (·.id)).Nodup := by
  rw [hr.steps, hk.map_id]
  exact h.nodup

/-- Only the step the run is at is in progress. -/
theorem Coherent.running_id (h : Coherent bundle) {stepId : String} (hfront : front bundle.steps = some stepId)
    {step : ExecutionRunStep} (hm : step ∈ bundle.steps) (hs : step.status = .running) : step.id = stepId := by
  have hstep := (h.running step hm hs).1
  rw [hfront] at hstep
  exact (Option.some.inj hstep).symm

/-- The step the run is at goes on, and stays the step the run is at. -/
theorem Coherent.moves (h : Coherent bundle) {step : ExecutionRunStep} (hm : step ∈ bundle.steps)
    (ho : step.status.isOpen = true) (hfront : front bundle.steps = some step.id)
    (hp : ∀ s ∈ bundle.steps, ¬Paused s) {f : ExecutionRunStep → ExecutionRunStep} (hk : KeepsPlan f)
    (hout : ∀ s, (f s).output = s.output) (hf : (f step).status.isOpen = true)
    (hr : Rewrites (updateStep step.id f) bundle bundle') (hrun : bundle'.run.status = .running) :
    Advances bundle bundle' := by
  have hku := updateStep_keepsPlan hk step.id
  have hmem := h.mem_steps hm hr
  have hfront' : front bundle'.steps = some step.id := by
    rw [hr.steps]
    refine front_updateStep h.nodup hm hk ?_ (fun _ => ho) (fun _ => hf) hfront
    have h1 : (f step).status ≠ .succeeded := fun he => by rw [he] at hf; cases hf
    have h2 : step.status ≠ .succeeded := fun he => by rw [he] at ho; cases ho
    simp [h1, h2]
  have hp' : ∀ s' ∈ bundle'.steps, ¬Paused s' := by
    intro s' hs' hps
    rcases hmem s' hs' with rfl | ⟨hms, -⟩
    · rw [hps.1] at hf
      cases hf
    · exact hp s' hms hps
  refine ⟨⟨?_, ?_, fun s' hs' hps => absurd hps (hp' s' hs'), ?_, fun hc => by rw [hrun] at hc; cases hc⟩, ?_⟩
  · exact h.nodup_steps hku hr
  · intro s' hs' hrun'
    refine ⟨?_, hp'⟩
    rcases hmem s' hs' with rfl | ⟨hms, hi⟩
    · rw [hk.id]
      exact hfront'
    · exact absurd (h.running_id hfront hms hrun') hi
  · intro s' hs' hmut
    rcases hmem s' hs' with rfl | ⟨hms, -⟩
    · rw [ExecutionRunStep.escalated, hout]
      exact h.pending step hm (isMutable_of_isOpen ho)
    · exact h.pending s' hms hmut
  · intro stepId hreach
    rw [hr.steps]
    refine hreach.map hku (fun s hs hi hset => ?_) fun hfz _ => ?_
    · by_cases his : s.id = step.id
      · rw [eq_of_id h.nodup hm hs his, isSettled_of_isOpen ho] at hset
        cases hset
      · rwa [updateStep_ne his]
    · rw [hfront] at hfz
      obtain rfl := Option.some.inj hfz
      rw [← hr.steps]
      exact .inr ⟨hfront', hp'⟩

/-- A started step was reached, in a run that is not cancelled. -/
theorem Coherent.start (h : Coherent bundle) {stepId startedAt : String} (hreach : Reached bundle.steps stepId)
    (ho : startExecutionRunStep bundle stepId startedAt = .ok bundle') :
    Advances bundle bundle' ∧ bundle.run.status ≠ .cancelled := by
  obtain ⟨⟨step, hm, rfl, hs⟩, hrun, hr⟩ := startExecutionRunStep_eq_ok ho
  have hopen : step.status.isOpen = true := by rcases hs with hs | hs <;> rw [hs] <;> rfl
  obtain ⟨hfront, hp⟩ := hreach.at h.nodup hm hopen
  exact ⟨h.moves hm hopen hfront hp (startStep_keepsPlan startedAt) (fun _ => rfl) rfl hr hrun,
    h.not_cancelled hp hm hopen⟩

theorem Coherent.recover (h : Coherent bundle) {step : ExecutionRunStep} (hm : step ∈ bundle.steps)
    (hs : step.status = .running) (hrun : bundle'.run.status = .running)
    (hr : Rewrites (updateStep step.id recoverStep) bundle bundle') : Advances bundle bundle' := by
  obtain ⟨hfront, hp⟩ := h.running step hm hs
  refine h.moves hm (by rw [hs]; rfl) hfront hp recoverStep_keepsPlan (fun s => ?_) ?_ hr hrun
  · unfold recoverStep
    split <;> rfl
  · rw [recoverStep, if_pos hs]
    rfl

/-- The step in progress is settled; if it is paused, it is the only one. -/
theorem Coherent.settles (h : Coherent bundle) {step : ExecutionRunStep} (hm : step ∈ bundle.steps)
    (hs : step.status = .running) {f : ExecutionRunStep → ExecutionRunStep} (hk : KeepsPlan f)
    (hf : ∀ s, (f s).status.isSettled = true) (hr : Rewrites (updateStep step.id f) bundle bundle')
    (hpause : Paused (f step) → bundle'.run.status = .cancelled)
    (hrun : bundle'.run.status = .cancelled → Paused (f step)) : Advances bundle bundle' := by
  have hku := updateStep_keepsPlan hk step.id
  obtain ⟨hfront, hp⟩ := h.running step hm hs
  have hcase := h.mem_steps hm hr
  have hmem : f step ∈ bundle'.steps := by
    rw [hr.steps]
    exact List.mem_map.mpr ⟨step, hm, updateStep_self f step⟩
  refine ⟨⟨?_, ?_, ?_, ?_, ?_⟩, ?_⟩
  · exact h.nodup_steps hku hr
  · intro s' hs' hrun'
    rcases hcase s' hs' with rfl | ⟨hms, hi⟩
    · have := hf step
      rw [hrun'] at this
      cases this
    · exact absurd (h.running_id hfront hms hrun') hi
  · intro s' hs' hps
    rcases hcase s' hs' with rfl | ⟨hms, -⟩
    · refine ⟨hpause hps, ?_, fun s'' hs'' hps'' => ?_⟩
      · have hcomp : updateStep step.id reopen ∘ updateStep step.id f = updateStep step.id (reopen ∘ f) := by
          funext s
          by_cases hi : s.id = step.id
          · simp [updateStep, hi, hk.id]
          · simp [updateStep, hi]
        have hkr : KeepsPlan (reopen ∘ f) := ⟨hk.id, hk.order, hk.dependsOnStepIds⟩
        rw [hr.steps, hk.id, List.map_map, hcomp]
        exact front_updateStep h.nodup hm hkr (by rw [hs]; rfl) (fun _ => by rw [hs]; rfl) (fun _ => rfl) hfront
      · rcases hcase s'' hs'' with he | ⟨hms, -⟩
        · exact he
        · exact absurd hps'' (hp s'' hms)
    · exact absurd hps (hp s' hms)
  · intro s' hs' hmut
    rcases hcase s' hs' with rfl | ⟨hms, -⟩
    · rw [isMutable_of_isSettled (hf step)] at hmut
      cases hmut
    · exact h.pending s' hms hmut
  · intro hc
    exact .inl ⟨f step, hmem, hrun hc⟩
  · intro stepId hreach
    rw [hr.steps]
    refine hreach.map hku (fun s hms hi hset => ?_) fun hfz _ => ?_
    · by_cases his : s.id = step.id
      · obtain rfl := eq_of_id h.nodup hm hms his
        rw [updateStep_self]
        exact hf s
      · rwa [updateStep_ne his]
    · rw [hfront] at hfz
      obtain rfl := Option.some.inj hfz
      rw [← hr.steps]
      exact .inl ⟨f step, hmem, hk.id step, hf step⟩

theorem Coherent.succeed (h : Coherent bundle) {stepId : String} {input : SucceedInput}
    (ho : succeedExecutionRunStep bundle stepId input = .ok bundle') : Advances bundle bundle' := by
  obtain ⟨⟨step, hm, rfl, hs⟩, hrun, hr⟩ := succeedExecutionRunStep_eq_ok ho
  refine h.settles hm hs (succeedStep_keepsPlan _ _) (fun _ => rfl) hr (fun hp => ?_) (fun hc => ?_)
  · cases hp.1
  · rcases hrun with hrun | hrun <;> rw [hc] at hrun <;> cases hrun

theorem escalateStep_paused (cancelledAt : String) (guidance : JsonRecord) (step : ExecutionRunStep) :
    Paused (escalateStep cancelledAt guidance step) := ⟨rfl, rfl⟩

theorem Coherent.escalate (h : Coherent bundle) {stepId cancelledAt : String} {guidance : JsonRecord}
    (ho : cancelExecutionRunStepForHumanEscalation bundle stepId cancelledAt guidance = .ok bundle') :
    Advances bundle bundle' := by
  obtain ⟨⟨step, hm, rfl, hs⟩, hrun, hr⟩ := cancelExecutionRunStepForHumanEscalation_eq_ok ho
  exact h.settles hm hs (escalateStep_keepsPlan _ _) (fun _ => rfl) hr (fun _ => hrun)
    fun _ => escalateStep_paused cancelledAt guidance step

/-- An open step fails in a run that is not cancelled. -/
theorem Coherent.fail (h : Coherent bundle) {stepId : String} {input : FailInput}
    (hc : bundle.run.status ≠ .cancelled) (ho : failExecutionRunStep bundle stepId input = .ok bundle') :
    Advances bundle bundle' := by
  obtain ⟨⟨step, hm, rfl, hopen⟩, hrun, hr⟩ := failExecutionRunStep_eq_ok ho
  have hk := failStep_keepsPlan input.failedAt input.output input.failure
  have hku := updateStep_keepsPlan hk step.id
  have hp := h.not_paused hc
  have hcase := h.mem_steps hm hr
  have hp' : ∀ s' ∈ bundle'.steps, ¬Paused s' := by
    intro s' hs' hps
    rcases hcase s' hs' with rfl | ⟨hms, -⟩
    · cases hps.1
    · exact hp s' hms hps
  -- the run stays at a step other than the failed one
  have hfront : ∀ stepId, stepId ≠ step.id → front bundle.steps = some stepId → front bundle'.steps = some stepId := by
    intro stepId hne hf
    rw [hr.steps]
    refine front_updateStep h.nodup hm hk ?_ (fun _ => hopen) (fun hi => absurd hi.symm hne) hf
    have hns : step.status ≠ .succeeded := fun he => by rw [he] at hopen; cases hopen
    simp [failStep, hns]
  refine ⟨⟨?_, ?_, fun s' hs' hps => absurd hps (hp' s' hs'), ?_, fun hc => by rw [hrun] at hc; cases hc⟩, ?_⟩
  · exact h.nodup_steps hku hr
  · intro s' hs' hrun'
    rcases hcase s' hs' with rfl | ⟨hms, hi⟩
    · cases hrun'
    · exact ⟨hfront _ hi (h.running s' hms hrun').1, hp'⟩
  · intro s' hs' hmut
    rcases hcase s' hs' with rfl | ⟨hms, -⟩
    · cases hmut
    · exact h.pending s' hms hmut
  · intro stepId hreach
    rw [hr.steps]
    refine hreach.map hku (fun s hms hi hset => ?_) fun hfz _ => ?_
    · by_cases his : s.id = step.id
      · rw [updateStep, if_pos (by simpa using his)]
        rfl
      · rwa [updateStep_ne his]
    · by_cases hi : stepId = step.id
      · subst hi
        exact .inl ⟨_, List.mem_map_of_mem hm, hku.id step, by rw [updateStep_self]; rfl⟩
      · rw [← hr.steps]
        exact .inr ⟨hfront stepId hi hfz, hp'⟩

theorem cancelStep_not_paused {cancelledAt note source : String} {step : ExecutionRunStep}
    (hm : step.status.isMutable = true) (he : step.escalated = false) : ¬Paused (cancelStep cancelledAt note source step) := by
  rintro ⟨-, hp⟩
  rw [cancelStep, if_pos hm] at hp
  cases hout : step.output with
  | none =>
    rw [ExecutionRunStep.escalated, hout] at hp
    cases hp
  | some output =>
    rw [ExecutionRunStep.escalated, hout] at hp
    rw [ExecutionRunStep.escalated, hout] at he
    rw [Option.some_or, he] at hp
    cases hp

section Cancel

variable {cancelledAt note source : String} {step : ExecutionRunStep}

theorem cancelStep_of_isMutable (h : step.status.isMutable = true) :
    (cancelStep cancelledAt note source step).status = .cancelled := by rw [cancelStep, if_pos h]

theorem cancelStep_of_not_isMutable (h : step.status.isMutable = false) :
    cancelStep cancelledAt note source step = step := by rw [cancelStep, if_neg (by simp [h])]

theorem cancelStep_not_isMutable : (cancelStep cancelledAt note source step).status.isMutable = false := by
  cases hm : step.status.isMutable with
  | true => rw [cancelStep_of_isMutable hm]; rfl
  | false => rw [cancelStep_of_not_isMutable hm]; exact hm

/-- Cancelling the other steps keeps a step that is closed itself at the front of its reopened run. -/
theorem front_reopen_cancel (h : Coherent bundle) (hm : step ∈ bundle.steps) (hclosed : step.status.isMutable = false)
    (hfront : front (bundle.steps.map (updateStep step.id reopen)) = some step.id) :
    front ((bundle.steps.map (cancelStep cancelledAt note source)).map (updateStep step.id reopen)) = some step.id := by
  have hk := cancelStep_keepsPlan cancelledAt note source
  have hku : KeepsPlan fun s => if s.id = step.id then s else cancelStep cancelledAt note source s := by
    refine ⟨fun s => ?_, fun s => ?_, fun s => ?_⟩ <;> split
    · rfl
    · exact hk.id s
    · rfl
    · exact hk.order s
    · rfl
    · exact hk.dependsOnStepIds s
  -- cancelling and then reopening is reopening and then cancelling the other steps
  have hcomp : (bundle.steps.map (cancelStep cancelledAt note source)).map (updateStep step.id reopen) =
      (bundle.steps.map (updateStep step.id reopen)).map
        fun s => if s.id = step.id then s else cancelStep cancelledAt note source s := by
    rw [List.map_map, List.map_map]
    refine List.map_congr_left fun s hms => ?_
    by_cases hi : s.id = step.id
    · obtain rfl := eq_of_id h.nodup hm hms hi
      simp [cancelStep_of_not_isMutable hclosed, reopen]
    · simp [updateStep, hi, hk.id]
  rw [hcomp]
  refine front_map hku (fun s _ => ?_) (fun s _ ho => ?_) (fun s _ hi ho => ?_) hfront
  · split
    · rfl
    · cases hst : s.status.isMutable with
      | true =>
        rw [cancelStep_of_isMutable hst]
        cases hst' : s.status <;> first | rfl | (rw [hst'] at hst; cases hst)
      | false => rw [cancelStep_of_not_isMutable hst]
  · split at ho
    · exact ho
    · cases hst : s.status.isMutable with
      | true =>
        rw [cancelStep_of_isMutable hst] at ho
        cases ho
      | false => rwa [cancelStep_of_not_isMutable hst] at ho
  · rwa [if_pos hi]

end Cancel

theorem Coherent.cancel (h : Coherent bundle) {input : CancelInput} (ho : cancelExecutionRun bundle input = .ok bundle') :
    Advances bundle bundle' := by
  obtain ⟨hrun, note, hr⟩ := cancelExecutionRun_eq_ok ho
  have hk := cancelStep_keepsPlan input.cancelledAt note input.source.text
  have hnone : ∀ s' ∈ bundle'.steps, s'.status.isMutable = false := by
    rw [hr.steps]
    intro s' hs'
    obtain ⟨s, -, rfl⟩ := List.mem_map.mp hs'
    exact cancelStep_not_isMutable
  -- the paused steps are those that were paused
  have hpaused : ∀ s' ∈ bundle'.steps, Paused s' → s' ∈ bundle.steps := by
    rw [hr.steps]
    intro s' hs' hps
    obtain ⟨s, hms, rfl⟩ := List.mem_map.mp hs'
    cases hm : s.status.isMutable with
    | true => exact absurd hps (cancelStep_not_paused hm (h.pending s hms hm))
    | false => rwa [cancelStep_of_not_isMutable hm]
  refine ⟨⟨?_, ?_, fun s' hs' hps => ⟨hrun, ?_, fun s'' hs'' hps'' => ?_⟩, ?_, fun _ => .inr hnone⟩, ?_⟩
  · exact h.nodup_steps hk hr
  · intro s' hs' hrun'
    have := hnone s' hs'
    rw [hrun'] at this
    cases this
  · have hms := hpaused s' hs' hps
    rw [hr.steps]
    exact front_reopen_cancel h hms (hnone s' hs') (h.paused s' hms hps).2.1
  · exact (h.paused s' (hpaused s' hs' hps) hps).2.2 s'' (hpaused s'' hs'' hps'') hps''
  · intro s' hs' hm
    rw [hnone s' hs'] at hm
    cases hm
  · intro stepId hreach
    rw [hr.steps]
    refine hreach.map hk (fun s hms hi hset => ?_) fun hfz _ => ?_
    · rwa [cancelStep_of_not_isMutable (isMutable_of_isSettled hset)]
    · obtain ⟨s, hms, rfl, hcon⟩ := front_contends hfz
      have hopen : s.status.isOpen = true := by
        rw [contends, Bool.and_eq_true] at hcon
        exact hcon.1
      exact .inl ⟨_, List.mem_map_of_mem hms, hk.id s, by rw [cancelStep_of_isMutable (isMutable_of_isOpen hopen)]; rfl⟩

theorem Coherent.resume (h : Coherent bundle) {input : ResumeInput}
    (ho : resumeExecutionRunAfterHumanEscalation bundle input = .ok bundle') : Advances bundle bundle' := by
  obtain ⟨step, hm, hs, he, hrun, hr⟩ := resumeExecutionRunAfterHumanEscalation_eq_ok ho
  have hps : Paused step := ⟨hs, he⟩
  have hk := resumeStep_keepsPlan input
  have hku := updateStep_keepsPlan hk step.id
  obtain ⟨-, hfront, honly⟩ := h.paused step hm hps
  have hcase := h.mem_steps hm hr
  have hp' : ∀ s' ∈ bundle'.steps, ¬Paused s' := by
    intro s' hs' hps'
    rcases hcase s' hs' with rfl | ⟨hms, hi⟩
    · cases hps'.1
    · exact hi (by rw [honly s' hms hps'])
  have hfront' : front bundle'.steps = some step.id := by
    have hcomp : bundle'.steps = (bundle.steps.map (updateStep step.id reopen)).map (updateStep step.id (resumeStep input)) := by
      rw [hr.steps, List.map_map]
      refine List.map_congr_left fun s _ => ?_
      by_cases hi : s.id = step.id
      · simp [updateStep, hi, reopen, resumeStep]
      · simp [updateStep, hi]
    have hn : ((bundle.steps.map (updateStep step.id reopen)).map (·.id)).Nodup := by
      rw [(updateStep_keepsPlan reopen_keepsPlan step.id).map_id]
      exact h.nodup
    have hmem : reopen step ∈ bundle.steps.map (updateStep step.id reopen) :=
      List.mem_map.mpr ⟨step, hm, updateStep_self reopen step⟩
    rw [hcomp]
    exact front_updateStep hn hmem hk rfl (fun _ => rfl) (fun _ => rfl) hfront
  refine ⟨⟨?_, ?_, fun s' hs' hps' => absurd hps' (hp' s' hs'), ?_, fun hc => by rw [hrun] at hc; cases hc⟩, ?_⟩
  · exact h.nodup_steps hku hr
  · intro s' hs' hrun'
    rcases hcase s' hs' with rfl | ⟨hms, -⟩
    · cases hrun'
    · exact absurd hps ((h.running s' hms hrun').2 step hm)
  · intro s' hs' hmut
    rcases hcase s' hs' with rfl | ⟨hms, -⟩
    · rfl
    · exact h.pending s' hms hmut
  · intro stepId hreach
    by_cases hi : stepId = step.id
    · subst hi
      exact .inr ⟨hfront', hp'⟩
    · rw [hr.steps]
      refine hreach.map hku (fun s hms his hset => ?_) fun _ hp => absurd hps (hp step hm)
      rwa [updateStep_ne (by rw [his]; exact hi)]

/-! ## What keeps a cancelled run cancelled -/

theorem Final.congr (hs : bundle'.steps = bundle.steps) (hr : bundle'.run.status = bundle.run.status) :
    Final bundle bundle' := fun hc => ⟨by rw [hr, hc], fun step hm hst => ⟨step, by rwa [hs], rfl, hst⟩⟩

theorem Final.of_not_cancelled (h : bundle.run.status ≠ .cancelled) : Final bundle bundle' := fun hc => absurd hc h

theorem Coherent.escalate_final (h : Coherent bundle) {stepId cancelledAt : String} {guidance : JsonRecord}
    (ho : cancelExecutionRunStepForHumanEscalation bundle stepId cancelledAt guidance = .ok bundle') :
    Final bundle bundle' := by
  obtain ⟨⟨step, hm, -, hs⟩, -⟩ := cancelExecutionRunStepForHumanEscalation_eq_ok ho
  exact .of_not_cancelled (h.not_cancelled (h.running step hm hs).2 hm (by rw [hs]; rfl))

theorem cancelExecutionRun_final {input : CancelInput} (ho : cancelExecutionRun bundle input = .ok bundle') :
    Final bundle bundle' := by
  obtain ⟨hrun, note, hr⟩ := cancelExecutionRun_eq_ok ho
  refine fun _ => ⟨hrun, fun step hm hs => ⟨step, ?_, rfl, hs⟩⟩
  rw [hr.steps]
  refine List.mem_map.mpr ⟨step, hm, ?_⟩
  rw [cancelStep, if_neg (by rw [hs]; decide)]

theorem Coherent.recover_final (h : Coherent bundle) {now : Nat → String} {recovered : RecoveredExecutionRun}
    (ho : recoverStrandedRunningExecutionRun bundle now = some recovered) : Final bundle recovered.bundle := by
  intro hc
  have he : recovered.bundle = bundle := by
    refine recoverStrandedRunningExecutionRun_keeps (P := fun b => b = bundle) ?_ ho rfl
    rintro b b' rfl step hm hs - -
    exact absurd hc (h.not_cancelled (h.running step hm hs).2 hm (by rw [hs]; rfl))
  rw [he]
  exact Final.congr rfl rfl hc

theorem Final.stepStatus {bundle bundle' : ExecutionRunRecordBundle} (h : Final bundle bundle')
    (hc : bundle.run.status = .cancelled) (hn : (bundle'.steps.map (·.id)).Nodup) {stepId : String}
    (hs : stepStatus bundle stepId = some .cancelled) : stepStatus bundle' stepId = some .cancelled := by
  obtain ⟨step, hf, hst⟩ := Option.map_eq_some_iff.mp hs
  obtain ⟨step', hm', hi', hst'⟩ := (h hc).2 step (List.mem_of_find?_eq_some hf) hst
  have hid : step.id = stepId := by simpa using List.find?_some hf
  cases hf' : bundle'.steps.find? (·.id == stepId) with
  | none =>
    have := List.find?_eq_none.mp hf' step' hm'
    simp [hi', hid] at this
  | some found =>
    have hfound : found.id = stepId := by simpa using List.find?_some hf'
    obtain rfl := eq_of_id hn hm' (List.mem_of_find?_eq_some hf') (by rw [hfound, hi', hid])
    rw [Runtime.stepStatus, hf', Option.map_some, hst']

/-- The update of a step changes no other status. -/
theorem Rewrites.stepStatus {f : ExecutionRunStep → ExecutionRunStep} {stepId : String} (hk : KeepsPlan f)
    (hr : Rewrites (updateStep stepId f) bundle bundle') {other : String} {status : ExecutionRunStepStatus}
    (hf : ∀ step, (f step).status ≠ status) (hs : stepStatus bundle' other = some status) :
    stepStatus bundle other = some status := by
  have hku := updateStep_keepsPlan hk stepId
  have hcomp : ((fun step : ExecutionRunStep => step.id == other) ∘ updateStep stepId f) = (·.id == other) := by
    funext step
    simp [hku.id]
  unfold Runtime.stepStatus at hs ⊢
  rw [hr.steps, List.find?_map, hcomp, Option.map_map] at hs
  obtain ⟨step, hfind, hst⟩ := Option.map_eq_some_iff.mp hs
  rw [hfind, Option.map_some]
  by_cases hi : step.id = stepId
  · subst hi
    exact absurd hst (by simpa using hf step)
  · rw [Function.comp_apply, updateStep_ne hi] at hst
    rw [hst]

end AuraCall.Runtime
