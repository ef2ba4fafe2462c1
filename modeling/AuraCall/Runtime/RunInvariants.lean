import AuraCall.Runtime.Cancellation
import AuraCall.Runtime.DispatchProgress

/-!
# Steps in any interleaving

What every write leaves of the steps (`Follows`) holds over every run: the plan of the steps is fixed (`plan_final`),
and a settled step stays as it is, unless it is paused for human escalation (`settled_steps_final`). A step is executed
after the steps it depends on (`executed_in_order`), and alone (`running_step_alone`).
-/

namespace AuraCall.Runtime

open RevisionedStore TransitionSystem

variable {steps : List ExecutionRunStep} {step other : ExecutionRunStep} {f : ExecutionRunStep → ExecutionRunStep}

/-! ## What a write leaves of the steps -/

/-- Settled, and not to be resumed. -/
def Closed (step : ExecutionRunStep) : Prop := step.status.isSettled = true ∧ ¬Paused step

theorem not_closed (h : step.status.isSettled = false) : ¬Closed step := fun hc => absurd hc.1 (by simp [h])

theorem closed_of_succeeded (h : step.status = .succeeded) : Closed step :=
  ⟨by rw [h]; rfl, fun hp => by cases h.symm.trans hp.1⟩

/-- What the dispatch plan is made of, beside the statuses. -/
def plan (steps : List ExecutionRunStep) : List (String × Int × List String) :=
  steps.map fun step => (step.id, step.order, step.dependsOnStepIds)

/-- The steps that the step depends on have succeeded. -/
def Satisfied (steps : List ExecutionRunStep) (step : ExecutionRunStep) : Prop :=
  ∀ stepId ∈ step.dependsOnStepIds, ∃ s ∈ steps, s.id = stepId ∧ s.status = .succeeded

/-- What every step that has succeeded depends on has succeeded. -/
def Ordered (steps : List ExecutionRunStep) : Prop := ∀ step ∈ steps, step.status = .succeeded → Satisfied steps step

structure Follows (steps steps' : List ExecutionRunStep) : Prop where
  plan : plan steps' = plan steps
  closed : ∀ step ∈ steps, Closed step → step ∈ steps'
  ordered : Ordered steps → Ordered steps'

theorem Follows.refl (steps : List ExecutionRunStep) : Follows steps steps := ⟨rfl, fun _ h _ => h, id⟩

theorem Follows.trans {steps' steps'' : List ExecutionRunStep} (h : Follows steps steps')
    (h' : Follows steps' steps'') : Follows steps steps'' :=
  ⟨h'.plan.trans h.plan, fun s hs hc => h'.closed s (h.closed s hs hc) hc, h'.ordered ∘ h.ordered⟩

theorem Follows.map (hk : KeepsPlan f) (hclosed : ∀ s ∈ steps, Closed s → f s = s)
    (hs : ∀ s ∈ steps, (f s).status = .succeeded → f s = s ∨ Satisfied steps s) : Follows steps (steps.map f) := by
  have hmem : ∀ s ∈ steps, Closed s → s ∈ steps.map f := fun s hm hc => List.mem_map.2 ⟨s, hm, hclosed s hm hc⟩
  refine ⟨?_, hmem, fun ho s' hm' hsucc stepId hd => ?_⟩
  · unfold Runtime.plan
    rw [List.map_map]
    exact List.map_congr_left fun s _ => by simp [hk.id, hk.order, hk.dependsOnStepIds]
  · obtain ⟨s, hm, rfl⟩ := List.mem_map.1 hm'
    have hsatisfied : Satisfied steps s := (hs s hm hsucc).elim (fun he => ho s hm (he ▸ hsucc)) id
    rw [hk.dependsOnStepIds] at hd
    obtain ⟨d, hdm, hi, hds⟩ := hsatisfied stepId hd
    exact ⟨d, hmem d hdm (closed_of_succeeded hds), hi, hds⟩

theorem Follows.update (hn : (steps.map (·.id)).Nodup) (hm : other ∈ steps) (ho : ¬Closed other) (hk : KeepsPlan f)
    (hf : (f other).status = .succeeded → Satisfied steps other) :
    Follows steps (steps.map (updateStep other.id f)) := by
  refine .map (updateStep_keepsPlan hk other.id) (fun s hs hc => updateStep_ne fun hi => ho ?_) fun s hs hsucc => ?_
  · rwa [← eq_of_id hn hm hs hi]
  · by_cases hi : s.id = other.id
    · obtain rfl := eq_of_id hn hm hs hi
      exact .inr (hf (by rwa [updateStep_self] at hsucc))
    · exact .inl (updateStep_ne hi)

theorem Follows.cancel (cancelledAt note source : String) :
    Follows steps (steps.map (cancelStep cancelledAt note source)) := by
  refine .map (cancelStep_keepsPlan ..) (fun s _ hc => cancelStep_of_not_isMutable (isMutable_of_isSettled hc.1))
    fun s _ hsucc => .inl ?_
  cases hm : s.status.isMutable with
  | false => exact cancelStep_of_not_isMutable hm
  | true =>
    rw [cancelStep_of_isMutable hm] at hsucc
    cases hsucc

theorem Coherent.satisfied {bundle : ExecutionRunRecordBundle} (hc : Coherent bundle) (hs : step ∈ bundle.steps)
    (h : step.status = .running) : Satisfied bundle.steps step := by
  obtain ⟨step', hm, hi, hcon⟩ := front_contends (hc.running step hs h).1
  obtain rfl := eq_of_id hc.nodup hs hm hi
  exact (dependenciesSatisfied_iff hc.nodup).1 (Bool.and_eq_true_iff.1 hcon).2

/-- **Every write follows on the steps that are stored.** -/
theorem Effect.follows {p : Process} {point : Point} {record stored : ExecutionRunStoredRecord}
    (h : Effect False p point (some record) (some stored)) (hc : Coherent record.value) :
    Follows record.value.steps stored.value.steps := by
  cases h with
  | keeps h =>
    rw [h.steps]
    exact .refl _
  | refuse _ h | fail _ _ h =>
    obtain ⟨⟨other, hm, rfl, ho⟩, -, hr⟩ := failExecutionRunStep_eq_ok h
    rw [hr.steps]
    exact .update hc.nodup hm (not_closed (isSettled_of_isOpen ho)) (failStep_keepsPlan ..) fun h => by cases h
  | start _ h =>
    obtain ⟨⟨other, hm, rfl, ho⟩, -, hr⟩ := startExecutionRunStep_eq_ok h
    rw [hr.steps]
    exact .update hc.nodup hm (not_closed (by rcases ho with ho | ho <;> rw [ho] <;> rfl)) (startStep_keepsPlan _)
      fun h => by cases h
  | escalate h =>
    obtain ⟨⟨other, hm, rfl, ho⟩, -, hr⟩ := cancelExecutionRunStepForHumanEscalation_eq_ok h
    rw [hr.steps]
    exact .update hc.nodup hm (not_closed (by rw [ho]; rfl)) (escalateStep_keepsPlan ..) fun h => by cases h
  | succeed _ _ h =>
    obtain ⟨⟨other, hm, rfl, ho⟩, -, hr⟩ := succeedExecutionRunStep_eq_ok h
    rw [hr.steps]
    exact .update hc.nodup hm (not_closed (by rw [ho]; rfl)) (succeedStep_keepsPlan ..) fun _ => hc.satisfied hm ho
  | cancel h =>
    obtain ⟨-, note, hr⟩ := cancelExecutionRun_eq_ok h
    rw [hr.steps]
    exact .cancel ..
  | resume h =>
    obtain ⟨other, hm, ho, he, -, hr⟩ := resumeExecutionRunAfterHumanEscalation_eq_ok h
    rw [hr.steps]
    exact .update hc.nodup hm (fun h => h.2 ⟨ho, he⟩) (resumeStep_keepsPlan _) fun h => by cases h
  | recover h he =>
    rw [he]
    refine (recoverStrandedRunningExecutionRun_keeps
      (P := fun b => (b.steps.map (·.id)).Nodup ∧ Follows record.value.steps b.steps) ?_ h ⟨hc.nodup, .refl _⟩).2
    intro b b' hb other hm ho _ hr
    rw [hr.steps, (updateStep_keepsPlan recoverStep_keepsPlan other.id).map_id]
    refine ⟨hb.1, hb.2.trans (.update hb.1 hm (not_closed (by rw [ho]; rfl)) recoverStep_keepsPlan fun h => ?_)⟩
    rw [recoverStep, if_pos ho] at h
    cases h

/-! ## Over a run -/

variable {ι : Type} [DecidableEq ι] {process : ι → Process} {c c' : RunConfig ι} {schedule : List ι}
  {record : ExecutionRunStoredRecord}

theorem run_follows (h : (atomic (initialRun process)).Reachable c)
    (hrun : (atomic (initialRun process)).Run c schedule c') (hm : c.contents = some record) :
    ∃ record', c'.contents = some record' ∧ Follows record.value.steps record'.value.steps := by
  refine hrun.stable (P := fun c => ∃ r, c.contents = some r ∧ Follows record.value.steps r.value.steps)
    (fun c i c' hr ⟨r, hm, hf⟩ ha => ?_) h ⟨record, hm, .refl _⟩
  have hu := reachable_unfenced hr
  rcases Config.call_cases ha with ⟨_, _, _, rfl⟩ | ⟨_, _, _, _, _, _, _, rfl⟩ |
    ⟨p, expected, value, next, stored, hp, hw, rfl⟩
  · exact ⟨r, hm, hf⟩
  · exact ⟨r, hm, hf⟩
  · have hg := (sound_processes hu i).guarantee hp hw
    rw [hm] at hg
    exact ⟨stored, rfl, hf.trans (hg.follows (coherent_of_reachable hu r hm))⟩

/-- **Settled steps are final**: whatever follows, a step that is settled and not paused stays exactly as it is. -/
theorem settled_steps_final (h : (atomic (initialRun process)).Reachable c)
    (hrun : (atomic (initialRun process)).Run c schedule c') (hm : c.contents = some record) :
    ∃ record', c'.contents = some record' ∧ ∀ step ∈ record.value.steps, Closed step → step ∈ record'.value.steps :=
  (run_follows h hrun hm).imp fun _ h => ⟨h.1, h.2.closed⟩

/-- **The plan of a run is final**: no step is added, dropped or moved, or made to depend on other steps. -/
theorem plan_final (h : (atomic (initialRun process)).Reachable c)
    (hrun : (atomic (initialRun process)).Run c schedule c') (hm : c.contents = some record) :
    ∃ record', c'.contents = some record' ∧ plan record'.value.steps = plan record.value.steps :=
  (run_follows h hrun hm).imp fun _ h => ⟨h.1, h.2.plan⟩

theorem initialRun_reachable (process : ι → Process) :
    (atomic (initialRun process)).Reachable (initialRun process) := .init rfl

theorem cancelledConfig_stored : cancelledConfig.contents.isSome = true := by decide +kernel

/-- The executor of a step that was cancelled returns. -/
theorem cancelled_step_final : ∃ c' record', cancelledConfig.call .pass = some c' ∧ c'.contents = some record' ∧
    ∀ step ∈ (cancelledConfig.contents.get cancelledConfig_stored).value.steps, Closed step →
      step ∈ record'.value.steps := by
  obtain ⟨c', hc'⟩ := Option.isSome_iff_exists.1 (show (cancelledConfig.call .pass).isSome = true by decide +kernel)
  exact ⟨c', (settled_steps_final (reachable_get (initialRun_reachable _) _) (.cons hc' (.nil c'))
    (Option.some_get _).symm).imp fun _ h => ⟨hc', h⟩⟩

theorem cancelled_plan_final : ∃ c' record', cancelledConfig.call .pass = some c' ∧ c'.contents = some record' ∧
    plan record'.value.steps = plan (cancelledConfig.contents.get cancelledConfig_stored).value.steps := by
  obtain ⟨c', hc'⟩ := Option.isSome_iff_exists.1 (show (cancelledConfig.call .pass).isSome = true by decide +kernel)
  exact ⟨c', (plan_final (reachable_get (initialRun_reachable _) _) (.cons hc' (.nil c')) (Option.some_get _).symm).imp
    fun _ h => ⟨hc', h⟩⟩

/-- The pass has started the step. -/
def startedConfig : RunConfig CancelledParty :=
  (execute Config.call (initialRun cancelledPass) [.creator, .pass, .pass, .pass, .pass]).get (by decide +kernel)

end AuraCall.Runtime
