import AuraCall.Runtime.Model

/-!
# The dispatch plan of a run

`createExecutionRunDispatchPlan` sorts the steps by their order and puts each in one class by its status, the failures
of the run and the statuses of its dependencies. The next runnable step is the first eligible one, unless a step runs.

`front` is the step a run is at: the first that is dispatchable or running with its dependencies succeeded. The next
runnable step is the front (`nextRunnableStepId_front`), and closing other steps keeps the front (`front_map`).
-/

namespace AuraCall.Runtime

/-! ## Classes of steps -/

inductive StepClass
  | blocked | running | terminal | blockedByFailure | eligible | waiting
  deriving DecidableEq

/-- `bundle.steps.slice().sort((left, right) => left.order - right.order)`. -/
def dispatchOrder (steps : List ExecutionRunStep) : List ExecutionRunStep :=
  steps.mergeSort fun left right => decide (left.order ≤ right.order)

/-- `stepsById[stepId]`, where the last step with an identifier wins. -/
def stepById (steps : List ExecutionRunStep) (stepId : String) : Option ExecutionRunStep :=
  steps.reverse.find? (·.id == stepId)

def hasTerminalFailure (failPolicy : TeamRunFailPolicy) (steps : List ExecutionRunStep) : Bool :=
  failPolicy == .failFast && steps.any fun step => step.status == .failed || step.status == .cancelled

/-- `dependencyStatuses.every((status) => status === 'succeeded')`. -/
def dependenciesSatisfied (steps : List ExecutionRunStep) (step : ExecutionRunStep) : Bool :=
  step.dependsOnStepIds.all fun stepId => (stepById steps stepId).any (·.status == .succeeded)

def classifyStep (failPolicy : TeamRunFailPolicy) (steps : List ExecutionRunStep) (step : ExecutionRunStep) : StepClass :=
  match step.status with
  | .blocked => .blocked
  | .running => .running
  | .succeeded | .failed | .skipped | .cancelled => .terminal
  | .planned | .runnable =>
    if hasTerminalFailure failPolicy steps then .blockedByFailure
    else if dependenciesSatisfied steps step then .eligible
    else .waiting

/-! ## The plan -/

structure ExecutionRunDispatchPlan where
  steps : List ExecutionRunStep
  nextRunnableStepId : Option String
  runnableStepIds : List String
  deferredStepIds : List String
  waitingStepIds : List String
  blockedStepIds : List String
  blockedByFailureStepIds : List String
  terminalStepIds : List String
  runningStepIds : List String
  missingDependencyStepIds : List String

/-- What every object inherits: `stepsById[stepId]` is found for these as well. -/
def inheritedNames : List String :=
  ["constructor", "hasOwnProperty", "isPrototypeOf", "propertyIsEnumerable", "toLocaleString", "toString", "valueOf",
    "__defineGetter__", "__defineSetter__", "__lookupGetter__", "__lookupSetter__", "__proto__"]

def createExecutionRunDispatchPlan (bundle : ExecutionRunRecordBundle) : ExecutionRunDispatchPlan :=
  let steps := dispatchOrder bundle.steps
  let classOf := classifyStep bundle.run.failPolicy steps
  let idsOf := fun stepClass => (steps.filter fun step => classOf step == stepClass).map (·.id)
  let runningStepIds := idsOf .running
  let eligibleStepIds := idsOf .eligible
  let nextRunnableStepId := if runningStepIds.isEmpty then eligibleStepIds.head? else none
  { steps
    nextRunnableStepId
    runnableStepIds := (nextRunnableStepId.filter (! ·.isEmpty)).toList
    deferredStepIds :=
      if runningStepIds.isEmpty then eligibleStepIds.filter fun stepId => some stepId != nextRunnableStepId
      else eligibleStepIds
    waitingStepIds := idsOf .waiting
    blockedStepIds := idsOf .blocked
    blockedByFailureStepIds := idsOf .blockedByFailure
    terminalStepIds := idsOf .terminal
    runningStepIds
    missingDependencyStepIds := sortStrings (((steps.filter fun step =>
      classOf step == .eligible || classOf step == .waiting).flatMap fun step =>
        step.dependsOnStepIds.filter fun stepId =>
          (stepById steps stepId).isNone && !inheritedNames.contains stepId).eraseDups) }

/-! ## The front of a run -/

/-- Dispatchable or running. -/
def ExecutionRunStepStatus.isOpen : ExecutionRunStepStatus → Bool
  | planned | runnable | running => true
  | succeeded | failed | blocked | skipped | cancelled => false

/-- Dispatchable or running, with its dependencies succeeded. -/
def contends (steps : List ExecutionRunStep) (step : ExecutionRunStep) : Bool :=
  step.status.isOpen && dependenciesSatisfied steps step

/-- The step a run is at. -/
def front (steps : List ExecutionRunStep) : Option String :=
  ((dispatchOrder steps).find? (contends (dispatchOrder steps))).map (·.id)

theorem mem_dispatchOrder {steps : List ExecutionRunStep} {step : ExecutionRunStep} :
    step ∈ dispatchOrder steps ↔ step ∈ steps := List.mem_mergeSort

theorem find?_congr {α : Type} {p q : α → Bool} {l : List α} (h : ∀ a ∈ l, p a = q a) : l.find? p = l.find? q := by
  rw [← List.head?_filter, ← List.head?_filter, List.filter_congr h]

theorem classifyStep_eq_eligible {failPolicy : TeamRunFailPolicy} {steps : List ExecutionRunStep} {step : ExecutionRunStep}
    (h : classifyStep failPolicy steps step = .eligible) : hasTerminalFailure failPolicy steps = false := by
  unfold classifyStep at h
  cases hs : step.status <;> simp only [hs, reduceCtorEq] at h
  all_goals
    split at h
    · cases h
    · simpa using ‹¬hasTerminalFailure failPolicy steps = true›

theorem classifyStep_eq_running {failPolicy : TeamRunFailPolicy} {steps : List ExecutionRunStep} {step : ExecutionRunStep} :
    classifyStep failPolicy steps step = .running ↔ step.status = .running := by
  unfold classifyStep
  cases step.status <;> cases hasTerminalFailure failPolicy steps <;> cases dependenciesSatisfied steps step <;> simp

/-- In a run without running, failed or cancelled steps the eligible steps are those that contend. -/
theorem classifyStep_eligible {failPolicy : TeamRunFailPolicy} {steps : List ExecutionRunStep} {step : ExecutionRunStep}
    (hf : hasTerminalFailure failPolicy steps = false) (hr : step.status ≠ .running) :
    (classifyStep failPolicy steps step == .eligible) = contends steps step := by
  unfold classifyStep contends
  cases hs : step.status with
  | planned | runnable =>
    simp only [hf, ExecutionRunStepStatus.isOpen]
    cases dependenciesSatisfied steps step <;> rfl
  | running => exact absurd hs hr
  | succeeded | failed | blocked | skipped | cancelled =>
    simp only [ExecutionRunStepStatus.isOpen, Bool.false_and]
    rfl

/-- **The next runnable step is the front**, in a run without running, failed or cancelled steps. -/
theorem nextRunnableStepId_front {bundle : ExecutionRunRecordBundle} {stepId : String}
    (h : (createExecutionRunDispatchPlan bundle).nextRunnableStepId = some stepId) :
    front bundle.steps = some stepId ∧
      ∀ step ∈ bundle.steps, step.status ≠ .running ∧ step.status ≠ .failed ∧ step.status ≠ .cancelled := by
  unfold createExecutionRunDispatchPlan at h
  simp only at h
  split at h
  case isFalse => cases h
  case isTrue hrun =>
    simp only [List.isEmpty_iff, List.map_eq_nil_iff, List.filter_eq_nil_iff, beq_iff_eq] at hrun
    simp only [List.head?_map, List.head?_filter, Option.map_eq_some_iff] at h
    obtain ⟨step, hf, rfl⟩ := h
    have hclass : classifyStep bundle.run.failPolicy (dispatchOrder bundle.steps) step = .eligible := by
      simpa using List.find?_some hf
    have hok := classifyStep_eq_eligible hclass
    have hany : ∀ s ∈ dispatchOrder bundle.steps, s.status ≠ .failed ∧ s.status ≠ .cancelled := by
      have hp : bundle.run.failPolicy = .failFast := by cases bundle.run.failPolicy; rfl
      simpa [hasTerminalFailure, hp] using hok
    have hrunning : ∀ s ∈ dispatchOrder bundle.steps, s.status ≠ .running := by
      intro s hs he
      exact hrun s hs (by simp [classifyStep, he])
    have heq : ∀ s ∈ dispatchOrder bundle.steps,
        (classifyStep bundle.run.failPolicy (dispatchOrder bundle.steps) s == .eligible) =
          contends (dispatchOrder bundle.steps) s := fun s hs => classifyStep_eligible hok (hrunning s hs)
    refine ⟨?_, fun s hs => ⟨hrunning s (mem_dispatchOrder.mpr hs), hany s (mem_dispatchOrder.mpr hs)⟩⟩
    rw [front, ← find?_congr heq, hf]
    rfl

theorem hasTerminalFailure_eq_false {failPolicy : TeamRunFailPolicy} {steps : List ExecutionRunStep} :
    hasTerminalFailure failPolicy steps = false ↔ ∀ step ∈ steps, step.status ≠ .failed ∧ step.status ≠ .cancelled := by
  cases failPolicy
  simp [hasTerminalFailure]

/-- Where no step runs, has failed or is cancelled, the next runnable step is the front, if there is one. -/
theorem nextRunnableStepId_eq_front {bundle : ExecutionRunRecordBundle}
    (h : ∀ step ∈ bundle.steps, step.status ≠ .running ∧ step.status ≠ .failed ∧ step.status ≠ .cancelled) :
    (createExecutionRunDispatchPlan bundle).nextRunnableStepId = front bundle.steps := by
  have hsorted : ∀ step ∈ dispatchOrder bundle.steps, _ := fun step hm => h step (mem_dispatchOrder.1 hm)
  have hfailure : hasTerminalFailure bundle.run.failPolicy (dispatchOrder bundle.steps) = false :=
    hasTerminalFailure_eq_false.2 fun step hm => (hsorted step hm).2
  have hrunning : ((dispatchOrder bundle.steps).filter fun step =>
      classifyStep bundle.run.failPolicy (dispatchOrder bundle.steps) step == .running) = [] :=
    List.filter_eq_nil_iff.2 fun step hm hclass => (hsorted step hm).1 (classifyStep_eq_running.1 (by simpa using hclass))
  unfold createExecutionRunDispatchPlan front
  simp only [hrunning, List.map_nil, List.isEmpty_nil, if_true, List.head?_map, List.head?_filter]
  rw [find?_congr fun step hm => classifyStep_eligible hfailure (hsorted step hm).1]

theorem front_contends {steps : List ExecutionRunStep} {stepId : String} (h : front steps = some stepId) :
    ∃ step ∈ steps, step.id = stepId ∧ contends (dispatchOrder steps) step = true := by
  unfold front at h
  obtain ⟨step, hf, rfl⟩ := Option.map_eq_some_iff.mp h
  exact ⟨step, mem_dispatchOrder.mp (List.mem_of_find?_eq_some hf), rfl, List.find?_some hf⟩

/-- An update of the steps that keeps their identifiers, their order and their dependencies. -/
structure KeepsPlan (f : ExecutionRunStep → ExecutionRunStep) : Prop where
  id : ∀ step, (f step).id = step.id
  order : ∀ step, (f step).order = step.order
  dependsOnStepIds : ∀ step, (f step).dependsOnStepIds = step.dependsOnStepIds

variable {f : ExecutionRunStep → ExecutionRunStep}

theorem KeepsPlan.map_id (h : KeepsPlan f) (steps : List ExecutionRunStep) :
    (steps.map f).map (·.id) = steps.map (·.id) := by
  rw [List.map_map]
  exact List.map_congr_left fun step _ => h.id step

theorem KeepsPlan.dispatchOrder (h : KeepsPlan f) (steps : List ExecutionRunStep) :
    dispatchOrder (steps.map f) = (dispatchOrder steps).map f := by
  unfold Runtime.dispatchOrder
  rw [List.map_mergeSort]
  intro a _ b _
  simp [h.order]

theorem KeepsPlan.stepById (h : KeepsPlan f) (steps : List ExecutionRunStep) (stepId : String) :
    stepById (steps.map f) stepId = (stepById steps stepId).map f := by
  unfold Runtime.stepById
  rw [← List.map_reverse, List.find?_map]
  congr 2
  funext step
  simp [h.id]

/-- Dependencies stay satisfied where no succeeded step is changed. -/
theorem KeepsPlan.dependenciesSatisfied (h : KeepsPlan f) {steps : List ExecutionRunStep}
    (hs : ∀ step ∈ steps, ((f step).status == .succeeded) = (step.status == .succeeded)) (step : ExecutionRunStep) :
    dependenciesSatisfied (steps.map f) (f step) = dependenciesSatisfied steps step := by
  unfold Runtime.dependenciesSatisfied
  rw [h.dependsOnStepIds]
  congr 1
  funext stepId
  rw [h.stepById]
  cases hb : Runtime.stepById steps stepId with
  | none => rfl
  | some s =>
    have hm : s ∈ steps := by simpa using List.mem_of_find?_eq_some hb
    simp [hs s hm]

/-- **An update that opens no step, and keeps the front open, keeps the front.** -/
theorem front_map (h : KeepsPlan f) {steps : List ExecutionRunStep} {stepId : String}
    (hs : ∀ step ∈ steps, ((f step).status == .succeeded) = (step.status == .succeeded))
    (hopen : ∀ step ∈ steps, (f step).status.isOpen = true → step.status.isOpen = true)
    (hfront : ∀ step ∈ steps, step.id = stepId → step.status.isOpen = true → (f step).status.isOpen = true)
    (hf : front steps = some stepId) : front (steps.map f) = some stepId := by
  unfold front at hf ⊢
  rw [h.dispatchOrder, List.find?_map]
  obtain ⟨step, hfind, rfl⟩ := Option.map_eq_some_iff.mp hf
  have hs' : ∀ s ∈ dispatchOrder steps, ((f s).status == .succeeded) = (s.status == .succeeded) := fun s hm =>
    hs s (mem_dispatchOrder.mp hm)
  have hsat : ∀ s, dependenciesSatisfied ((dispatchOrder steps).map f) (f s) =
      dependenciesSatisfied (dispatchOrder steps) s := h.dependenciesSatisfied hs'
  obtain ⟨hcon, before, after, hsplit, hbefore⟩ := List.find?_eq_some_iff_append.mp hfind
  have hmem : step ∈ steps := mem_dispatchOrder.mp (List.mem_of_find?_eq_some hfind)
  rw [contends, Bool.and_eq_true] at hcon
  have hfind' : (dispatchOrder steps).find? (contends ((dispatchOrder steps).map f) ∘ f) = some step := by
    refine List.find?_eq_some_iff_append.mpr ⟨?_, before, after, hsplit, fun s hm => ?_⟩
    · show contends ((dispatchOrder steps).map f) (f step) = true
      rw [contends, hsat, hcon.2, Bool.and_true]
      exact hfront step hmem rfl hcon.1
    · have hs' : s ∈ steps := mem_dispatchOrder.mp (by rw [hsplit]; exact List.mem_append_left _ hm)
      have hn := hbefore s hm
      show (!contends ((dispatchOrder steps).map f) (f s)) = true
      rw [contends, hsat]
      simp only [contends, Bool.not_eq_true', Bool.and_eq_false_iff] at hn ⊢
      rcases hn with hn | hn
      · exact .inl (Bool.eq_false_iff.mpr fun ho => by simp [hopen s hs' ho] at hn)
      · exact .inr hn
  rw [hfind', Option.map_some, Option.map_some, h.id]

end AuraCall.Runtime
