import Mathlib.Logic.Relation
import Mathlib.Order.WellFoundedSet
import AuraCall.Runtime.Coherence

/-!
# What the dispatch plan says

Of a run whose steps have distinct identifiers that are not empty, the plan lists every step in exactly one class
(`classes_perm`), and its next runnable step is the first one in order that can be dispatched and whose dependencies have
succeeded, unless a step runs, has failed or was cancelled (`nextRunnableStepId_spec`).

Where every dependency is a step and no step depends on itself, executing the next runnable step to success again and again
executes every step once, after its dependencies (`Executes.complete`). The induction is on the execution; what it keeps is
`Completable`, and a step that is minimal among those that have not succeeded is always dispatchable.
-/

namespace AuraCall.Runtime

variable {steps : List ExecutionRunStep} {step : ExecutionRunStep} {bundle bundle' : ExecutionRunRecordBundle}
  {stepId : String}

/-! ## The next runnable step -/

/-- The step can be dispatched, and its dependencies have succeeded. -/
structure Dispatchable (steps : List ExecutionRunStep) (step : ExecutionRunStep) : Prop where
  canDispatch : step.status = .planned ∨ step.status = .runnable
  satisfied : ∀ stepId ∈ step.dependsOnStepIds, ∃ s ∈ steps, s.id = stepId ∧ s.status = .succeeded

/-- A step runs, has failed or was cancelled. -/
def Halted (steps : List ExecutionRunStep) : Prop :=
  ∃ step ∈ steps, step.status = .running ∨ step.status = .failed ∨ step.status = .cancelled

theorem stepById_eq_some (hn : (steps.map (·.id)).Nodup) :
    stepById steps stepId = some step ↔ step ∈ steps ∧ step.id = stepId := by
  unfold stepById
  refine ⟨fun h => ⟨by simpa using List.mem_of_find?_eq_some h, by simpa using List.find?_some h⟩, fun ⟨hm, hid⟩ => ?_⟩
  cases hfind : steps.reverse.find? (·.id == stepId) with
  | none =>
    have := List.find?_eq_none.1 hfind step (List.mem_reverse.2 hm)
    simp [hid] at this
  | some found =>
    have hfound : found.id = stepId := by simpa using List.find?_some hfind
    rw [eq_of_id hn hm (by simpa using List.mem_of_find?_eq_some hfind) (hfound.trans hid.symm)]

theorem nodup_dispatchOrder (hn : (steps.map (·.id)).Nodup) : ((dispatchOrder steps).map (·.id)).Nodup :=
  ((List.mergeSort_perm steps _).map _).nodup_iff.2 hn

theorem dependenciesSatisfied_iff (hn : (steps.map (·.id)).Nodup) :
    dependenciesSatisfied (dispatchOrder steps) step = true ↔
      ∀ stepId ∈ step.dependsOnStepIds, ∃ s ∈ steps, s.id = stepId ∧ s.status = .succeeded := by
  unfold dependenciesSatisfied
  rw [List.all_eq_true]
  refine forall₂_congr fun stepId _ => ?_
  rw [Option.any_eq_true]
  simp only [stepById_eq_some (nodup_dispatchOrder hn), mem_dispatchOrder, beq_iff_eq]
  exact ⟨fun ⟨s, ⟨hm, hid⟩, hs⟩ => ⟨s, hm, hid, hs⟩, fun ⟨s, hm, hid, hs⟩ => ⟨s, ⟨hm, hid⟩, hs⟩⟩

theorem classifyStep_eq_eligible_iff (hn : (steps.map (·.id)).Nodup) {failPolicy : TeamRunFailPolicy} :
    classifyStep failPolicy (dispatchOrder steps) step = .eligible ↔
      Dispatchable steps step ∧ ∀ s ∈ steps, s.status ≠ .failed ∧ s.status ≠ .cancelled := by
  have hfailure : (∀ s ∈ steps, s.status ≠ .failed ∧ s.status ≠ .cancelled) ↔
      hasTerminalFailure failPolicy (dispatchOrder steps) = false := by
    simp only [hasTerminalFailure_eq_false, mem_dispatchOrder]
  have hdispatchable : Dispatchable steps step ↔ (step.status = .planned ∨ step.status = .runnable) ∧
      dependenciesSatisfied (dispatchOrder steps) step = true :=
    ⟨fun h => ⟨h.canDispatch, (dependenciesSatisfied_iff hn).2 h.satisfied⟩,
      fun h => ⟨h.1, (dependenciesSatisfied_iff hn).1 h.2⟩⟩
  rw [hfailure, hdispatchable]
  unfold classifyStep
  cases step.status <;> cases hasTerminalFailure failPolicy (dispatchOrder steps) <;>
    cases dependenciesSatisfied (dispatchOrder steps) step <;> simp

theorem nextRunnableStepId_eq_find :
    (createExecutionRunDispatchPlan bundle).nextRunnableStepId =
      if ∃ step ∈ bundle.steps, step.status = .running then none
      else ((dispatchOrder bundle.steps).find? fun step =>
        classifyStep bundle.run.failPolicy (dispatchOrder bundle.steps) step == .eligible).map (·.id) := by
  unfold createExecutionRunDispatchPlan
  simp only [List.isEmpty_iff, List.map_eq_nil_iff, List.filter_eq_nil_iff, beq_iff_eq, classifyStep_eq_running,
    List.head?_map, List.head?_filter, mem_dispatchOrder]
  by_cases hrunning : ∃ step ∈ bundle.steps, step.status = .running
  · rw [if_pos hrunning, if_neg fun h => hrunning.elim fun step hstep => h step hstep.1 hstep.2]
  · rw [if_neg hrunning, if_pos fun step hm hs => hrunning ⟨step, hm, hs⟩]

/-- **The next runnable step.** -/
theorem nextRunnableStepId_spec (hn : (bundle.steps.map (·.id)).Nodup) :
    (∀ stepId, (createExecutionRunDispatchPlan bundle).nextRunnableStepId = some stepId →
      ¬Halted bundle.steps ∧ ∃ step ∈ bundle.steps, step.id = stepId ∧ Dispatchable bundle.steps step ∧
        ∀ other ∈ bundle.steps, Dispatchable bundle.steps other → step.order ≤ other.order) ∧
      ((createExecutionRunDispatchPlan bundle).nextRunnableStepId = none →
        Halted bundle.steps ∨ ∀ step ∈ bundle.steps, ¬Dispatchable bundle.steps step) := by
  rw [nextRunnableStepId_eq_find]
  by_cases hrunning : ∃ step ∈ bundle.steps, step.status = .running
  · rw [if_pos hrunning]
    exact ⟨nofun, fun _ => .inl (hrunning.imp fun step h => ⟨h.1, .inl h.2⟩)⟩
  rw [if_neg hrunning]
  refine ⟨fun stepId h => ?_, fun h => ?_⟩
  · obtain ⟨step, hfind, rfl⟩ := Option.map_eq_some_iff.1 h
    obtain ⟨hclass, before, after, hsplit, hbefore⟩ := List.find?_eq_some_iff_append.1 hfind
    obtain ⟨hdispatchable, hnone⟩ := (classifyStep_eq_eligible_iff hn).1 (beq_iff_eq.1 hclass)
    have hmem : step ∈ bundle.steps := mem_dispatchOrder.1 (List.mem_of_find?_eq_some hfind)
    refine ⟨?_, step, hmem, rfl, hdispatchable, fun other hother hd => ?_⟩
    · rintro ⟨s, hs, hstatus | hstatus | hstatus⟩
      · exact hrunning ⟨s, hs, hstatus⟩
      · exact (hnone s hs).1 hstatus
      · exact (hnone s hs).2 hstatus
    · have hsorted : (dispatchOrder bundle.steps).Pairwise fun left right => decide (left.order ≤ right.order) = true :=
        List.pairwise_mergeSort (fun a b c h h' => by simp only [decide_eq_true_eq] at *; omega)
          (fun a b => by simp only [Bool.or_eq_true, decide_eq_true_eq]; omega) _
      rw [hsplit] at hsorted
      have hother' : other ∈ before ++ step :: after := hsplit ▸ mem_dispatchOrder.2 hother
      rcases List.mem_append.1 hother' with hb | hc
      · have := hbefore other hb
        rw [(classifyStep_eq_eligible_iff hn).2 ⟨hd, hnone⟩] at this
        cases this
      · rcases List.mem_cons.1 hc with rfl | ha
        · exact le_refl _
        · exact of_decide_eq_true (List.rel_of_pairwise_cons (List.pairwise_append.1 hsorted).2.1 ha)
  · rw [Option.map_eq_none_iff, List.find?_eq_none] at h
    by_cases hhalted : Halted bundle.steps
    · exact .inl hhalted
    · refine .inr fun step hm hd => h step (mem_dispatchOrder.2 hm) ?_
      rw [beq_iff_eq, classifyStep_eq_eligible_iff hn]
      exact ⟨hd, fun s hs => ⟨fun hf => hhalted ⟨s, hs, .inr (.inl hf)⟩, fun hc => hhalted ⟨s, hs, .inr (.inr hc)⟩⟩⟩

/-! ## One class for every step -/

/-- The lists of identifiers that make up the plan. -/
def ExecutionRunDispatchPlan.classes (plan : ExecutionRunDispatchPlan) : List (List String) :=
  [plan.runnableStepIds, plan.deferredStepIds, plan.waitingStepIds, plan.blockedStepIds, plan.blockedByFailureStepIds,
    plan.terminalStepIds, plan.runningStepIds]

theorem filter_classes_perm {α β : Type} [DecidableEq β] (classOf : α → β) (l : List α) : ∀ {classes : List β},
    classes.Nodup → (classes.flatMap fun c => l.filter (classOf · == c)).Perm (l.filter (classes.contains <| classOf ·))
  | [], _ => by simp
  | c :: classes, h => by
    obtain ⟨hc, h⟩ := List.nodup_cons.1 h
    have hself : (l.filter ((c :: classes).contains <| classOf ·)).filter (classOf · == c) = l.filter (classOf · == c) := by
      rw [List.filter_filter]
      exact List.filter_congr fun a _ => by by_cases ha : classOf a = c <;> simp [ha]
    have hothers : (l.filter ((c :: classes).contains <| classOf ·)).filter (fun a => !(classOf a == c)) =
        l.filter (classes.contains <| classOf ·) := by
      rw [List.filter_filter]
      exact List.filter_congr fun a _ => by by_cases ha : classOf a = c <;> simp [ha, hc]
    have hperm := List.filter_append_perm (classOf · == c) (l.filter ((c :: classes).contains <| classOf ·))
    rw [hself, hothers] at hperm
    exact ((filter_classes_perm classOf l h).append_left _).trans hperm

/-- **Every step is in exactly one class.** -/
theorem classes_perm (hn : (bundle.steps.map (·.id)).Nodup) (hempty : ∀ step ∈ bundle.steps, step.id ≠ "") :
    (createExecutionRunDispatchPlan bundle).classes.flatten.Perm (bundle.steps.map (·.id)) := by
  have hall := filter_classes_perm (classifyStep bundle.run.failPolicy (dispatchOrder bundle.steps))
    (dispatchOrder bundle.steps)
    (show [StepClass.eligible, .waiting, .blocked, .blockedByFailure, .terminal, .running].Nodup by decide)
  rw [List.filter_eq_self.2 fun step _ => by
    cases classifyStep bundle.run.failPolicy (dispatchOrder bundle.steps) step <;> rfl] at hall
  have hids := (hall.trans (List.mergeSort_perm bundle.steps _)).map (·.id)
  simp only [List.flatMap_cons, List.flatMap_nil, List.map_append, List.append_nil] at hids
  refine List.Perm.trans ?_ hids
  unfold ExecutionRunDispatchPlan.classes createExecutionRunDispatchPlan
  simp only [List.flatten_cons, List.flatten_nil, List.append_nil, ← List.append_assoc]
  refine List.Perm.append_right _ (List.Perm.append_right _ (List.Perm.append_right _ (List.Perm.append_right _
    (List.Perm.append_right _ ?_))))
  split
  · cases heligible : (dispatchOrder bundle.steps).filter fun step =>
        classifyStep bundle.run.failPolicy (dispatchOrder bundle.steps) step == .eligible with
    | nil => simp
    | cons step rest =>
      have hsub : (step :: rest).Sublist (dispatchOrder bundle.steps) := heligible ▸ List.filter_sublist
      have hnodup := (nodup_dispatchOrder hn).sublist (hsub.map (·.id))
      have hid : step.id ≠ "" := hempty step (mem_dispatchOrder.1 (hsub.subset List.mem_cons_self))
      rw [List.map_cons, List.nodup_cons] at hnodup
      have hrest : ((rest.map (·.id)).filter fun stepId => some stepId != some step.id) = rest.map (·.id) :=
        List.filter_eq_self.2 fun stepId hm => by
          simp only [bne_iff_ne, ne_eq, Option.some.injEq]
          exact fun heq => hnodup.1 (heq ▸ hm)
      have hsome : ((some step.id).filter fun stepId => !stepId.isEmpty).toList = [step.id] := by
        rw [Option.filter_some_pos (by simpa using hid), Option.toList_some]
      simp only [List.map_cons, List.head?_cons, hsome, List.filter_cons, bne_self_eq_false, Bool.false_eq_true, if_false,
        hrest, List.singleton_append]
      exact List.Perm.refl _
  · simp

/-! ## Executing the next runnable step -/

/-- The identifiers of the steps that have not succeeded. -/
def openStepIds (steps : List ExecutionRunStep) : List String := (steps.filter (·.status != .succeeded)).map (·.id)

/-- The step with an identifier waits for the step with another. -/
def DependsOn (steps : List ExecutionRunStep) (stepId dependency : String) : Prop :=
  ∃ step ∈ steps, step.id = stepId ∧ dependency ∈ step.dependsOnStepIds

/-- The dependencies of the steps are steps, no step waits for itself, and no step is anything but dispatchable or
succeeded. -/
structure Completable (steps : List ExecutionRunStep) : Prop where
  nodup : (steps.map (·.id)).Nodup
  closed : ∀ step ∈ steps, ∀ dependency ∈ step.dependsOnStepIds, ∃ s ∈ steps, s.id = dependency
  acyclic : ∀ stepId, ¬Relation.TransGen (DependsOn steps) stepId stepId
  status : ∀ step ∈ steps, step.status = .planned ∨ step.status = .runnable ∨ step.status = .succeeded

/-- The next runnable step is started and succeeds, again and again; the list has the steps in the order they ran. -/
inductive Executes : ExecutionRunRecordBundle → List String → ExecutionRunRecordBundle → Prop
  | done (bundle : ExecutionRunRecordBundle) : Executes bundle [] bundle
  | next {bundle started succeeded bundle' : ExecutionRunRecordBundle} {stepId startedAt : String} {input : SucceedInput}
      {stepIds : List String} (hnext : (createExecutionRunDispatchPlan bundle).nextRunnableStepId = some stepId)
      (hstart : startExecutionRunStep bundle stepId startedAt = .ok started)
      (hsucceed : succeedExecutionRunStep started stepId input = .ok succeeded)
      (hrest : Executes succeeded stepIds bundle') : Executes bundle (stepId :: stepIds) bundle'

/-- The identifiers of the steps that have succeeded. -/
def succeededStepIds (steps : List ExecutionRunStep) : List String :=
  (steps.filter (·.status == .succeeded)).map (·.id)

/-- Each step comes after the steps it depends on, except for those that had succeeded before. -/
def TopologicalOrder (steps : List ExecutionRunStep) (order : List String) : Prop :=
  ∀ before stepId after, order = before ++ stepId :: after → ∀ step ∈ steps, step.id = stepId →
    ∀ dependency ∈ step.dependsOnStepIds, dependency ∈ succeededStepIds steps ++ before

theorem mem_openStepIds : stepId ∈ openStepIds steps ↔ ∃ step ∈ steps, step.id = stepId ∧ step.status ≠ .succeeded := by
  simp only [openStepIds, List.mem_map, List.mem_filter, bne_iff_ne, ne_eq]
  constructor
  · rintro ⟨step, ⟨hm, hs⟩, hid⟩
    exact ⟨step, hm, hid, hs⟩
  · rintro ⟨step, hm, hid, hs⟩
    exact ⟨step, ⟨hm, hs⟩, hid⟩

theorem mem_succeededStepIds :
    stepId ∈ succeededStepIds steps ↔ ∃ step ∈ steps, step.id = stepId ∧ step.status = .succeeded := by
  simp only [succeededStepIds, List.mem_map, List.mem_filter, beq_iff_eq]
  constructor
  · rintro ⟨step, ⟨hm, hs⟩, hid⟩
    exact ⟨step, hm, hid, hs⟩
  · rintro ⟨step, hm, hid, hs⟩
    exact ⟨step, ⟨hm, hs⟩, hid⟩

theorem nodup_openStepIds (hn : (steps.map (·.id)).Nodup) : (openStepIds steps).Nodup :=
  hn.sublist (List.filter_sublist.map _)

theorem requireStep_eq (hn : (bundle.steps.map (·.id)).Nodup) (hm : step ∈ bundle.steps) :
    requireStep bundle step.id = .ok step := by
  unfold requireStep
  cases hfind : bundle.steps.find? (·.id == step.id) with
  | none => simpa using List.find?_eq_none.1 hfind step hm
  | some found =>
    have hid : found.id = step.id := by simpa using List.find?_some hfind
    rw [eq_of_id hn hm (List.mem_of_find?_eq_some hfind) hid]

theorem bind_ok {α β : Type} {x : Except RuntimeError α} {f : α → Except RuntimeError β} (hx : ∃ a, x = .ok a)
    (hf : ∀ a, ∃ b, f a = .ok b) : ∃ b, (x >>= f) = .ok b := by
  obtain ⟨a, rfl⟩ := hx
  exact hf a

theorem startExecutionRunStep_ok (startedAt : String) (hr : requireStep bundle stepId = .ok step)
    (hs : step.status = .planned ∨ step.status = .runnable) :
    ∃ bundle', startExecutionRunStep bundle stepId startedAt = .ok bundle' := by
  unfold startExecutionRunStep
  rw [hr]
  show ∃ bundle', (if step.status ≠ .planned ∧ step.status ≠ .runnable then _ else _) = _
  rw [if_neg fun hno => hs.elim hno.1 hno.2]
  exact ⟨_, rfl⟩

theorem applyConsumedTaskTransferLifecycle_ok (completedAt : String) (hr : requireStep bundle stepId = .ok step) :
    ∃ consumed, applyConsumedTaskTransferLifecycle bundle stepId completedAt = .ok consumed := by
  unfold applyConsumedTaskTransferLifecycle
  rw [hr]
  show ∃ consumed, (if (extractDependencyTaskTransfers bundle.handoffs step).isEmpty then _ else _) = _
  split
  · exact ⟨_, rfl⟩
  · exact ⟨_, rfl⟩

theorem succeedExecutionRunStep_ok (input : SucceedInput) (hn : (bundle.steps.map (·.id)).Nodup)
    (hm : step ∈ bundle.steps) (hs : step.status = .running) :
    ∃ bundle', succeedExecutionRunStep bundle step.id input = .ok bundle' := by
  unfold succeedExecutionRunStep
  rw [requireStep_eq hn hm]
  show ∃ bundle', (if step.status ≠ .running then _ else _) = _
  rw [if_neg (not_not.2 hs)]
  -- the step is still there when its transfers are consumed
  have hk := updateStep_keepsPlan (succeedStep_keepsPlan input.completedAt (input.output.getD defaultOutput)) step.id
  have hconsumed : ∀ provisional : ExecutionRunRecordBundle,
      provisional.steps = bundle.steps.map
        (updateStep step.id (succeedStep input.completedAt (input.output.getD defaultOutput))) →
      ∃ consumed, applyConsumedTaskTransferLifecycle provisional step.id input.completedAt = .ok consumed := by
    intro provisional hsteps
    have hrequire : requireStep provisional _ = .ok _ := requireStep_eq
      (by rw [hsteps, hk.map_id]; exact hn) (by rw [hsteps]; exact List.mem_map_of_mem hm)
    rw [hk.id] at hrequire
    exact applyConsumedTaskTransferLifecycle_ok input.completedAt hrequire
  exact bind_ok (hconsumed _ rfl) fun consumed => ⟨_, rfl⟩

section Turn

variable {f : ExecutionRunStep → ExecutionRunStep} (hk : KeepsPlan f)

include hk

theorem dependsOn_map (steps : List ExecutionRunStep) : DependsOn (steps.map f) = DependsOn steps := by
  funext stepId dependency
  refine propext ⟨?_, ?_⟩
  · rintro ⟨s, hs, hid, hd⟩
    obtain ⟨step, hm, rfl⟩ := List.mem_map.1 hs
    exact ⟨step, hm, by rw [← hid, hk.id], by rwa [hk.dependsOnStepIds] at hd⟩
  · rintro ⟨step, hm, hid, hd⟩
    exact ⟨f step, List.mem_map_of_mem hm, by rw [hk.id, hid], by rwa [hk.dependsOnStepIds]⟩

/-- What has succeeded after an update of a step had succeeded before, or is the step. -/
theorem succeededStepIds_update (hn : (steps.map (·.id)).Nodup) (hm : step ∈ steps)
    (h : stepId ∈ succeededStepIds (steps.map (updateStep step.id f))) :
    stepId = step.id ∨ stepId ∈ succeededStepIds steps := by
  obtain ⟨s, hs, rfl, hstatus⟩ := mem_succeededStepIds.1 h
  rcases mem_map_updateStep hn hm hs with rfl | ⟨hs, -⟩
  · exact .inl (hk.id step)
  · exact .inr (mem_succeededStepIds.2 ⟨s, hs, rfl, hstatus⟩)

variable (hf : ∀ s, (f s).status = .succeeded)

include hf

theorem Completable.update (h : Completable steps) (stepId : String) : Completable (steps.map (updateStep stepId f)) where
  nodup := by
    rw [(updateStep_keepsPlan hk stepId).map_id]
    exact h.nodup
  closed := by
    intro s hs dependency hd
    obtain ⟨step, hm, rfl⟩ := List.mem_map.1 hs
    rw [(updateStep_keepsPlan hk stepId).dependsOnStepIds] at hd
    obtain ⟨other, hother, hid⟩ := h.closed step hm dependency hd
    exact ⟨_, List.mem_map_of_mem hother, by rw [(updateStep_keepsPlan hk stepId).id, hid]⟩
  acyclic := by
    rw [dependsOn_map (updateStep_keepsPlan hk stepId)]
    exact h.acyclic
  status := by
    intro s hs
    obtain ⟨step, hm, rfl⟩ := List.mem_map.1 hs
    unfold updateStep
    split
    · exact .inr (.inr (hf step))
    · exact h.status step hm

/-- The step that succeeds is no longer open, and the others are as before. -/
theorem openStepIds_update (hn : (steps.map (·.id)).Nodup) (hm : step ∈ steps) (hopen : step.status ≠ .succeeded) :
    (openStepIds steps).Perm (step.id :: openStepIds (steps.map (updateStep step.id f))) := by
  have hnot : step.id ∉ openStepIds (steps.map (updateStep step.id f)) := by
    rw [mem_openStepIds]
    rintro ⟨s, hs, hid, hstatus⟩
    rcases mem_map_updateStep hn hm hs with rfl | ⟨-, hne⟩
    · exact hstatus (hf step)
    · exact hne hid
  have hn' : ((steps.map (updateStep step.id f)).map (·.id)).Nodup := by
    rw [(updateStep_keepsPlan hk step.id).map_id]
    exact hn
  rw [List.perm_ext_iff_of_nodup (nodup_openStepIds hn) (List.nodup_cons.2 ⟨hnot, nodup_openStepIds hn'⟩)]
  intro stepId
  rw [List.mem_cons, mem_openStepIds, mem_openStepIds]
  constructor
  · rintro ⟨s, hs, rfl, hstatus⟩
    by_cases hid : s.id = step.id
    · exact .inl hid
    · exact .inr ⟨s, List.mem_map.2 ⟨s, hs, updateStep_ne hid⟩, rfl, hstatus⟩
  · rintro (rfl | ⟨s, hs, rfl, hstatus⟩)
    · exact ⟨step, hm, rfl, hopen⟩
    · rcases mem_map_updateStep hn hm hs with rfl | ⟨hs, -⟩
      · exact absurd (hf step) hstatus
      · exact ⟨s, hs, rfl, hstatus⟩

end Turn

/-- One turn runs a dispatchable step, and leaves it succeeded. -/
theorem turn_spec {started succeeded : ExecutionRunRecordBundle} {startedAt : String} {input : SucceedInput}
    (hn : (bundle.steps.map (·.id)).Nodup)
    (hnext : (createExecutionRunDispatchPlan bundle).nextRunnableStepId = some stepId)
    (hstart : startExecutionRunStep bundle stepId startedAt = .ok started)
    (hsucceed : succeedExecutionRunStep started stepId input = .ok succeeded) :
    ∃ step ∈ bundle.steps, step.id = stepId ∧ Dispatchable bundle.steps step ∧ ∃ f, KeepsPlan f ∧
      (∀ s, (f s).status = .succeeded) ∧ succeeded.steps = bundle.steps.map (updateStep step.id f) := by
  obtain ⟨-, step, hm, rfl, hdispatchable, -⟩ := (nextRunnableStepId_spec hn).1 stepId hnext
  obtain ⟨-, -, hstarted⟩ := startExecutionRunStep_eq_ok hstart
  obtain ⟨-, -, hsucceeded⟩ := succeedExecutionRunStep_eq_ok hsucceed
  refine ⟨step, hm, rfl, hdispatchable,
    fun s => succeedStep input.completedAt (input.output.getD defaultOutput) (startStep startedAt s),
    ⟨fun _ => rfl, fun _ => rfl, fun _ => rfl⟩, fun _ => rfl, ?_⟩
  rw [hsucceeded.steps, hstarted.steps, List.map_map]
  refine List.map_congr_left fun s _ => ?_
  by_cases hid : s.id = step.id <;> simp [updateStep, hid, startStep]

/-- **A step is run only once, and after its dependencies.** -/
theorem Executes.order {stepIds : List String} (h : Executes bundle stepIds bundle') (hr : Completable bundle.steps) :
    Completable bundle'.steps ∧ (openStepIds bundle.steps).Perm (stepIds ++ openStepIds bundle'.steps) ∧
      TopologicalOrder bundle.steps stepIds := by
  induction h with
  | done bundle =>
    refine ⟨hr, List.Perm.refl _, fun before stepId after heq => ?_⟩
    simp at heq
  | @next bundle started succeeded bundle' stepId startedAt input stepIds hnext hstart hsucceed _ ih =>
    obtain ⟨step, hm, rfl, hdispatchable, f, hk, hf, hsteps⟩ := turn_spec hr.nodup hnext hstart hsucceed
    obtain ⟨hready, hopen, horder⟩ := ih (hsteps ▸ hr.update hk hf step.id)
    have hnot : step.status ≠ .succeeded := by
      rcases hdispatchable.canDispatch with hs | hs <;> rw [hs] <;> nofun
    refine ⟨hready, ?_, fun before stepId after heq s hs hid dependency hd => ?_⟩
    · have hperm := openStepIds_update hk hf hr.nodup hm hnot
      rw [← hsteps] at hperm
      exact hperm.trans (hopen.cons step.id)
    · cases before with
      | nil =>
        obtain ⟨rfl, -⟩ := List.cons.inj heq
        obtain rfl := eq_of_id hr.nodup hm hs hid
        exact List.mem_append_left _ (mem_succeededStepIds.2 (hdispatchable.satisfied dependency hd))
      | cons head before =>
        obtain ⟨rfl, heq'⟩ := List.cons.inj heq
        have hk' := updateStep_keepsPlan hk step.id
        have hlater := horder before stepId after heq' (updateStep step.id f s)
          (by rw [hsteps]; exact List.mem_map_of_mem hs) (by rw [hk'.id, hid]) dependency (by rwa [hk'.dependsOnStepIds])
        rcases List.mem_append.1 hlater with hb | hb
        · rw [hsteps] at hb
          rcases succeededStepIds_update hk hr.nodup hm hb with rfl | hb
          · simp
          · exact List.mem_append_left _ hb
        · exact List.mem_append_right _ (List.mem_cons_of_mem _ hb)

/-! ## Progress -/

/-- A step that has not succeeded, and whose dependencies have. -/
theorem Completable.exists_dispatchable (h : Completable steps) (hopen : openStepIds steps ≠ []) :
    ∃ step ∈ steps, Dispatchable steps step := by
  -- Of the open steps one is minimal for the dependencies, of which there are no cycles.
  let before : String → String → Prop := fun a b => Relation.TransGen (DependsOn steps) b a
  have : IsStrictOrder String before :=
    { irrefl := h.acyclic, trans := fun a b c hab hbc => hbc.trans hab }
  have hwf : Set.WellFoundedOn {a | a ∈ openStepIds steps} before :=
    (List.finite_toSet (openStepIds steps)).wellFoundedOn
  obtain ⟨first, hfirst⟩ := List.exists_mem_of_ne_nil _ hopen
  obtain ⟨⟨stepId, hstepId⟩, -, hmin⟩ := WellFounded.has_min hwf Set.univ ⟨⟨first, hfirst⟩, trivial⟩
  obtain ⟨step, hm, hid, hstatus⟩ := mem_openStepIds.1 hstepId
  refine ⟨step, hm, ?_, fun dependency hd => ?_⟩
  · rcases h.status step hm with hs | hs | hs
    · exact .inl hs
    · exact .inr hs
    · exact absurd hs hstatus
  · obtain ⟨s, hs, rfl⟩ := h.closed step hm dependency hd
    refine ⟨s, hs, rfl, by_contra fun hopen => ?_⟩
    exact hmin ⟨s.id, mem_openStepIds.2 ⟨s, hs, rfl, hopen⟩⟩ trivial (.single ⟨step, hm, hid, hd⟩)

theorem Completable.not_halted (h : Completable steps) : ¬Halted steps := by
  rintro ⟨step, hm, hstatus⟩
  rcases h.status step hm with hs | hs | hs <;> simp [hs] at hstatus

/-- **No execution gets stuck**: until every step has succeeded there is a next one, and it can be run. -/
theorem Completable.progress (h : Completable bundle.steps) (hopen : openStepIds bundle.steps ≠ []) :
    ∃ stepId, (createExecutionRunDispatchPlan bundle).nextRunnableStepId = some stepId ∧
      ∀ startedAt input, ∃ started succeeded, startExecutionRunStep bundle stepId startedAt = .ok started ∧
        succeedExecutionRunStep started stepId input = .ok succeeded := by
  cases hnext : (createExecutionRunDispatchPlan bundle).nextRunnableStepId with
  | none =>
    obtain ⟨step, hm, hd⟩ := h.exists_dispatchable hopen
    rcases (nextRunnableStepId_spec h.nodup).2 hnext with hhalted | hnone
    · exact absurd hhalted h.not_halted
    · exact absurd hd (hnone step hm)
  | some stepId =>
    refine ⟨stepId, rfl, fun startedAt input => ?_⟩
    obtain ⟨-, step, hm, rfl, hd, -⟩ := (nextRunnableStepId_spec h.nodup).1 stepId hnext
    obtain ⟨started, hstart⟩ := startExecutionRunStep_ok startedAt (requireStep_eq h.nodup hm) hd.canDispatch
    obtain ⟨-, -, hstarted⟩ := startExecutionRunStep_eq_ok hstart
    have hk := updateStep_keepsPlan (startStep_keepsPlan startedAt) step.id
    obtain ⟨succeeded, hsucceed⟩ : ∃ succeeded, succeedExecutionRunStep started (startStep startedAt step).id input =
        .ok succeeded := succeedExecutionRunStep_ok input (by rw [hstarted.steps, hk.map_id]; exact h.nodup)
      (by rw [hstarted.steps]; exact List.mem_map.2 ⟨step, hm, updateStep_self _ _⟩) rfl
    exact ⟨started, succeeded, hstart, hsucceed⟩

/-- **The run is completed**: executing the next runnable step again and again ends with every step succeeded. -/
theorem Completable.completes (startedAt : String) (input : SucceedInput) (bundle : ExecutionRunRecordBundle)
    (h : Completable bundle.steps) :
    ∃ stepIds bundle', Executes bundle stepIds bundle' ∧ openStepIds bundle'.steps = [] := by
  by_cases hopen : openStepIds bundle.steps = []
  · exact ⟨[], bundle, .done bundle, hopen⟩
  obtain ⟨stepId, hnext, hrun⟩ := h.progress hopen
  obtain ⟨started, succeeded, hstart, hsucceed⟩ := hrun startedAt input
  have hone : Executes bundle [stepId] succeeded := .next hnext hstart hsucceed (.done succeeded)
  obtain ⟨hready, hperm, -⟩ := hone.order h
  have hlt : (openStepIds succeeded.steps).length < (openStepIds bundle.steps).length := by
    rw [hperm.length_eq]
    simp
  obtain ⟨stepIds, bundle', hrest, hend⟩ := Completable.completes startedAt input succeeded hready
  exact ⟨stepId :: stepIds, bundle', .next hnext hstart hsucceed hrest, hend⟩
termination_by (openStepIds bundle.steps).length

/-- **The dispatch plan**: its classes, its next runnable step, and what executing that step again and again comes to. -/
theorem dispatch_plan_spec (hn : (bundle.steps.map (·.id)).Nodup) (hempty : ∀ step ∈ bundle.steps, step.id ≠ "") :
    (createExecutionRunDispatchPlan bundle).classes.flatten.Perm (bundle.steps.map (·.id)) ∧
    (∀ stepId, (createExecutionRunDispatchPlan bundle).nextRunnableStepId = some stepId →
      ¬Halted bundle.steps ∧ ∃ step ∈ bundle.steps, step.id = stepId ∧ Dispatchable bundle.steps step ∧
        ∀ other ∈ bundle.steps, Dispatchable bundle.steps other → step.order ≤ other.order) ∧
    ((createExecutionRunDispatchPlan bundle).nextRunnableStepId = none →
      Halted bundle.steps ∨ ∀ step ∈ bundle.steps, ¬Dispatchable bundle.steps step) ∧
    (Completable bundle.steps →
      (∃ stepIds bundle', Executes bundle stepIds bundle' ∧ openStepIds bundle'.steps = []) ∧
      ∀ stepIds bundle', Executes bundle stepIds bundle' →
        (openStepIds bundle.steps).Perm (stepIds ++ openStepIds bundle'.steps) ∧
        TopologicalOrder bundle.steps stepIds ∧
        (openStepIds bundle'.steps ≠ [] →
          ∃ stepId, (createExecutionRunDispatchPlan bundle').nextRunnableStepId = some stepId ∧
            ∀ startedAt input, ∃ started succeeded, startExecutionRunStep bundle' stepId startedAt = .ok started ∧
              succeedExecutionRunStep started stepId input = .ok succeeded)) := by
  obtain ⟨hsome, hnone⟩ := nextRunnableStepId_spec hn
  refine ⟨classes_perm hn hempty, hsome, hnone, fun hready => ⟨hready.completes "" ⟨"", none, {}, none, [], id⟩ bundle, ?_⟩⟩
  intro stepIds bundle' h
  obtain ⟨hready', hperm, horder⟩ := h.order hready
  exact ⟨hperm, horder, hready'.progress⟩

/-- A run of planned steps, each of which depends on the given ones. -/
def plannedRun (steps : List (String × List String)) : ExecutionRunRecordBundle where
  run := ⟨"run", .direct, .planned, "t0", "t0", [], .failFast⟩
  steps := steps.map fun (stepId, dependencies) =>
    ⟨stepId, none, none, none, .planned, 1, dependencies, ⟨[]⟩, none, none, none, none⟩
  handoffs := []
  localActionRequests := []
  sharedState := ⟨.active, [], [], [], [], "t0"⟩
  events := []
  leases := []

theorem plannedRun_plan : (createExecutionRunDispatchPlan (plannedRun [("a", []), ("b", ["a"])])).classes.flatten.Perm
      ["a", "b"] ∧
    ∃ stepIds bundle', Executes (plannedRun [("a", []), ("b", ["a"])]) stepIds bundle' ∧ openStepIds bundle'.steps = [] := by
  have hdepends : ∀ {stepId dependency : String},
      DependsOn (plannedRun [("a", []), ("b", ["a"])]).steps stepId dependency → stepId = "b" ∧ dependency = "a" := by
    rintro stepId dependency ⟨step, hm, rfl, hd⟩
    simp only [plannedRun, List.map_cons, List.map_nil, List.mem_cons, List.not_mem_nil, or_false] at hm
    rcases hm with rfl | rfl
    · cases hd
    · exact ⟨rfl, List.mem_singleton.1 hd⟩
  have hids : ((plannedRun [("a", []), ("b", ["a"])]).steps.map (·.id)).Nodup := by decide
  have hspec := dispatch_plan_spec hids (by decide)
  refine ⟨hspec.1, (hspec.2.2.2 ⟨by decide, by decide, fun stepId hcycle => ?_, by decide⟩).1⟩
  obtain ⟨_, hfirst, -⟩ := Relation.TransGen.head'_iff.1 hcycle
  obtain ⟨_, -, hlast⟩ := Relation.TransGen.tail'_iff.1 hcycle
  exact absurd ((hdepends hfirst).1.symm.trans (hdepends hlast).2) (by decide)

/-- A step without an identifier is in no class, and neither is the second of two eligible steps with the same one. -/
theorem unlisted_steps :
    ¬(createExecutionRunDispatchPlan (plannedRun [("", [])])).classes.flatten.Perm [""] ∧
      ¬(createExecutionRunDispatchPlan (plannedRun [("a", []), ("a", [])])).classes.flatten.Perm ["a", "a"] := by
  have horder : ∀ steps, dispatchOrder (plannedRun steps).steps = (plannedRun steps).steps := by
    intro steps
    refine List.mergeSort_of_pairwise (List.pairwise_map.2 (List.pairwise_of_forall fun _ _ => ?_))
    simp
  unfold createExecutionRunDispatchPlan
  rw [horder, horder]
  decide

end AuraCall.Runtime
