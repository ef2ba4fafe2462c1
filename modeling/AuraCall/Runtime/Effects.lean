import AuraCall.Runtime.Coherence
import AuraCall.Runtime.Processes

/-!
# What the processes may rely on

With atomic writes a process replaces the record it has read last, and between its calls the record changes by the
writes of the others. These keep a run coherent and its reached steps reached (`Orderly`), which is what every process
relies on and guarantees.

A pass may rely on more when runs are `fenced`: while it is at a call under its lease, no other process ends that lease,
unless the run is cancelled (`HoldsRun`). `Effect` is what a process does to the record when it writes, with what it
knows of the record it replaces; `Process.within` proves it for every process.
-/

namespace AuraCall.Runtime

open RevisionedStore

/-! ## The rely -/

def CoherentRun (s : RunContents) : Prop := ∀ record ∈ s, Coherent record.value

def ReachedRun (stepId : String) (s : RunContents) : Prop := ∃ record ∈ s, Reached record.value.steps stepId

/-- What the writes of the processes keep. -/
structure Orderly (s s' : RunContents) : Prop where
  later : Later s s'
  coherent : CoherentRun s → CoherentRun s'
  reached : CoherentRun s → ∀ stepId, ReachedRun stepId s → ReachedRun stepId s'

theorem Orderly.refl (s : RunContents) : Orderly s s := ⟨.refl s, id, fun _ _ h => h⟩

theorem Orderly.trans {s s' s'' : RunContents} (h : Orderly s s') (h' : Orderly s' s'') : Orderly s s'' :=
  ⟨h.later.trans h'.later, fun hs => h'.coherent (h.coherent hs),
    fun hs stepId hr => h'.reached (h.coherent hs) stepId (h.reached hs stepId hr)⟩

/-- The bundle records the lease of a runner as active. -/
def HoldsLease (hold : Hold) (bundle : ExecutionRunRecordBundle) : Prop :=
  ∃ lease, getActiveExecutionRunLease bundle = some lease ∧ lease.id = hold.leaseId ∧ lease.ownerId = hold.ownerId

/-- The lease is active, or the run is cancelled. -/
def HoldsRun (hold : Hold) (s : RunContents) : Prop :=
  ∃ record ∈ s, HoldsLease hold record.value ∨ record.value.run.status = .cancelled

/-- In a fenced run. -/
def Licensed (fenced : Prop) (hold : Hold) (s : RunContents) : Prop := fenced → HoldsRun hold s

/-- The lease a call is made under. -/
def Point.underLease : Point → Option Hold
  | renew hold | run hold | commit hold => some hold
  | control | inspect | refuse _ | acquire _ | release _ => none

def reliance (fenced : Prop) : Rely Point ExecutionRunRecordBundle where
  holds p s s' := Orderly s s' ∧ ∀ hold, p.underLease = some hold → Licensed fenced hold s → Licensed fenced hold s'
  refl _ s := ⟨.refl s, fun _ _ h => h⟩
  trans h h' := ⟨h.1.trans h'.1, fun hold hp hl => h'.2 hold hp (h.2 hold hp hl)⟩

/-! ## Effects -/

/-- What a process does to the record, with what it knows of the record it replaces. -/
inductive Effect (fenced : Prop) : Process → Point → RunContents → RunContents → Prop
  | create {run stored} : stored.value = run.bundle → Effect fenced (.create run) .control none (some stored)
  | keeps {process point record stored} : KeepsSteps record.value stored.value →
      Effect fenced process point (some record) (some stored)
  | refuse {options env stepId input record stored} :
      (createExecutionRunDispatchPlan record.value).nextRunnableStepId = some stepId →
      failExecutionRunStep record.value stepId input = .ok stored.value →
      Effect fenced (.execute options env) (.refuse options.hold) (some record) (some stored)
  | start {options env stepId startedAt record stored} : Reached record.value.steps stepId →
      startExecutionRunStep record.value stepId startedAt = .ok stored.value →
      Effect fenced (.execute options env) (.run options.hold) (some record) (some stored)
  | escalate {options env stepId cancelledAt guidance record stored} :
      cancelExecutionRunStepForHumanEscalation record.value stepId cancelledAt guidance = .ok stored.value →
      Effect fenced (.execute options env) (.run options.hold) (some record) (some stored)
  | succeed {options env stepId input record stored} : Licensed fenced options.hold (some record) →
      record.value.run.status ≠ .cancelled →
      succeedExecutionRunStep record.value stepId input = .ok stored.value →
      Effect fenced (.execute options env) (.commit options.hold) (some record) (some stored)
  | fail {options env stepId input record stored} : Licensed fenced options.hold (some record) →
      record.value.run.status ≠ .cancelled → failExecutionRunStep record.value stepId input = .ok stored.value →
      Effect fenced (.execute options env) (.commit options.hold) (some record) (some stored)
  | cancel {cancelInput input record stored} : cancelExecutionRun record.value input = .ok stored.value →
      Effect fenced (.cancel cancelInput) .control (some record) (some stored)
  | resume {runId input record stored} : resumeExecutionRunAfterHumanEscalation record.value input = .ok stored.value →
      Effect fenced (.resume runId input) .control (some record) (some stored)
  | recover {now now' record stored recovered} :
      recoverStrandedRunningExecutionRun record.value now' = some recovered → stored.value = recovered.bundle →
      Effect fenced (.recover now) .control (some record) (some stored)

theorem NewRun.coherent (run : NewRun) : Coherent run.bundle := by
  have hs : ∀ step ∈ run.bundle.steps, step.status ≠ .running ∧ step.status ≠ .cancelled := by
    intro step hm
    rcases run.status step hm with h | h | h <;> rw [h] <;> decide
  refine ⟨run.nodup, fun step hm hr => absurd hr (hs step hm).1, fun step hm hp => absurd hp.1 (hs step hm).2,
    fun step hm _ => ?_, fun hc => ?_⟩
  · rw [ExecutionRunStep.escalated, run.output step hm]
    rfl
  · rw [run.planned] at hc
    cases hc

variable {fenced : Prop}

/-- **What an effect keeps of a coherent run.** -/
theorem Effect.advances {process : Process} {point : Point} {record stored : ExecutionRunStoredRecord}
    (h : Effect fenced process point (some record) (some stored)) (hc : Coherent record.value) :
    Advances record.value stored.value := by
  cases h with
  | keeps h => exact hc.congr h.steps h.status
  | refuse hn h =>
    obtain ⟨⟨step, hm, hi, ho⟩, -⟩ := failExecutionRunStep_eq_ok h
    subst hi
    have hat := (reached_of_nextRunnableStepId hn).at hc.nodup hm ho
    exact hc.fail (hc.not_cancelled hat.2 hm ho) h
  | start hr h => exact (hc.start hr h).1
  | escalate h => exact hc.escalate h
  | succeed _ _ h => exact hc.succeed h
  | fail _ hn h => exact hc.fail hn h
  | cancel h => exact hc.cancel h
  | resume h => exact hc.resume h
  | recover h he =>
    rw [he]
    refine recoverStrandedRunningExecutionRun_keeps (P := fun b => Advances record.value b) ?_ h
      (hc.congr rfl rfl)
    intro b b' hb step hm hs hrun hr
    have hb' := hb.coherent.recover hm hs hrun hr
    exact ⟨hb'.coherent, fun stepId hreach => hb'.reached stepId (hb.reached stepId hreach)⟩

/-- **Every effect is orderly.** -/
theorem Effect.orderly {process : Process} {point : Point} {s : RunContents} {stored : ExecutionRunStoredRecord}
    (h : Effect fenced process point s (some stored)) (hl : Later s (some stored)) : Orderly s (some stored) := by
  cases s with
  | none =>
    cases h with
    | create h =>
      refine ⟨hl, fun _ record hm => ?_, fun _ stepId hr => ?_⟩
      · obtain rfl : stored = record := by simpa using hm
        rw [h]
        exact NewRun.coherent _
      · obtain ⟨_, hm, -⟩ := hr
        cases hm
  | some record =>
    refine ⟨hl, fun hc stored' hm => ?_, fun hc stepId hr => ?_⟩
    · obtain rfl : stored = stored' := by simpa using hm
      exact (h.advances (hc record rfl)).coherent
    · obtain ⟨record', hm, hr⟩ := hr
      obtain rfl : record = record' := by simpa using hm
      exact ⟨stored, rfl, (h.advances (hc record rfl)).reached stepId hr⟩

/-- **No effect but a resumption takes a run out of its cancellation.** -/
theorem Effect.final {process : Process} {point : Point} {record stored : ExecutionRunStoredRecord}
    (h : Effect fenced process point (some record) (some stored)) (hc : Coherent record.value)
    (hp : ∀ runId input, process ≠ .resume runId input) : Final record.value stored.value := by
  cases h with
  | keeps h => exact .congr h.steps h.status
  | refuse hn h =>
    obtain ⟨⟨step, hm, hi, ho⟩, -⟩ := failExecutionRunStep_eq_ok h
    subst hi
    exact .of_not_cancelled (hc.not_cancelled ((reached_of_nextRunnableStepId hn).at hc.nodup hm ho).2 hm ho)
  | start hr h => exact .of_not_cancelled (hc.start hr h).2
  | escalate h => exact hc.escalate_final h
  | succeed _ hn h => exact .of_not_cancelled hn
  | fail _ hn h => exact .of_not_cancelled hn
  | cancel h => exact cancelExecutionRun_final h
  | resume h => exact absurd rfl (hp _ _)
  | recover h he =>
    rw [he]
    exact hc.recover_final h

end AuraCall.Runtime
