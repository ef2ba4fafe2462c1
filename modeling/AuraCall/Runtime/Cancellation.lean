import AuraCall.Runtime.Guarantees

/-!
# Cancellation is final

Once a run is stored as cancelled, nothing but the resumption of a step that is paused for human escalation changes the
status of the run or of a cancelled step: not a pass that has begun before the cancellation, whether its executor
returns or throws, and no heartbeat, release, expiry, repair, recovery, claim or operator's entry. Writes are atomic.
-/

namespace AuraCall.Runtime

open RevisionedStore TransitionSystem

variable {ι : Type} [DecidableEq ι] {process : ι → Process}

/-- No resumption of the run is stored. -/
def NotResumed (process : ι → Process) (c : RunConfig ι) (i : ι) : Prop :=
  ∀ runId input, process i = .resume runId input → c.commits i = none

theorem reachable_unfenced {c : RunConfig ι} (h : (atomic (initialRun process)).Reachable c) :
    ((atomic (initialRun process)).restrict (KeepsLicences False)).Reachable c :=
  h.restrict fun _ _ _ _ _ _ _ _ _ _ _ hf => hf.elim

/-- What one step does to a cancelled run. -/
theorem final_of_call {c c' : RunConfig ι} {i : ι} (h : (atomic (initialRun process)).Reachable c)
    (hn : NotResumed process c i) (ha : c.call i = some c') {record : ExecutionRunStoredRecord}
    (hm : c.contents = some record) :
    ∃ record', c'.contents = some record' ∧ Final record.value record'.value := by
  have hu := reachable_unfenced h
  rcases Config.call_cases ha with ⟨_, _, _, rfl⟩ | ⟨_, _, _, _, _, _, _, rfl⟩ |
    ⟨p, expected, value, next, stored, hp, hw, rfl⟩
  · exact ⟨record, hm, .congr rfl rfl⟩
  · exact ⟨record, hm, .congr rfl rfl⟩
  · refine ⟨stored, rfl, ?_⟩
    have hg := (sound_processes hu i).guarantee hp hw
    rw [hm] at hg
    refine hg.final (coherent_of_reachable hu record hm) fun runId input he => ?_
    have := hn runId input he
    rw [Config.commits_write hp hw] at this
    cases this

/-- **Cancellation is final**: in every run from a reachable configuration in which the run is stored as cancelled, and
in which no resumption is stored, the run stays cancelled and so does every cancelled step. -/
theorem cancellation_final {c c' : RunConfig ι} {schedule : List ι} (h : (atomic (initialRun process)).Reachable c)
    {record : ExecutionRunStoredRecord} (hm : c.contents = some record) (hc : record.value.run.status = .cancelled)
    (hrun : ((atomic (initialRun process)).restrict (NotResumed process)).Run c schedule c') :
    ∃ record', c'.contents = some record' ∧ record'.value.run.status = .cancelled ∧
      ∀ stepId, stepStatus record.value stepId = some .cancelled → stepStatus record'.value stepId = some .cancelled := by
  induction hrun generalizing record with
  | nil c => exact ⟨record, hm, hc, fun _ hs => hs⟩
  | @cons c c' c'' i schedule ha _ ih =>
    obtain ⟨hn, ha⟩ := ha
    have h' := h.step ha
    obtain ⟨record', hm', hf⟩ := final_of_call h hn ha hm
    obtain ⟨record'', hm'', hc'', hs''⟩ := ih h' hm' (hf hc).1
    have hnodup := (coherent_of_reachable (reachable_unfenced h') record' hm').nodup
    exact ⟨record'', hm'', hc'', fun stepId hs => hs'' stepId (hf.stepStatus hc hnodup hs)⟩

/-- A pass of a runner, and the cancellation of its run. -/
inductive CancelledParty
  | creator | pass | operator
  deriving DecidableEq

def cancelledPass : CancelledParty → Process
  | .creator => .create oneStepRun
  | .pass => .execute ⟨"run", "owner", none, none, 15000⟩ plainEnvironment
  | .operator => .cancel ⟨"run", none, "t3", "owner"⟩

/-- The run is created, the pass starts its step, and the run is cancelled while its executor runs. -/
def cancelledConfig : RunConfig CancelledParty :=
  (execute Config.call (initialRun cancelledPass)
    [.creator, .pass, .pass, .pass, .pass, .operator, .operator]).get (by decide +kernel)

/-- The executor returns after the cancellation, and the pass ends without a change of the run. -/
theorem cancellation_final_pass : ∃ record', (cancelledConfig.call .pass).bind (·.contents) = some record' ∧
    record'.value.run.status = .cancelled ∧
    ∀ stepId, stepStatus ((cancelledConfig.contents).get (by decide +kernel)).value stepId = some .cancelled →
      stepStatus record'.value stepId = some .cancelled := by
  have h0 : (atomic (initialRun cancelledPass)).Reachable (initialRun cancelledPass) := .init rfl
  have hr : (atomic (initialRun cancelledPass)).Reachable cancelledConfig := reachable_get h0 _
  have hs : (cancelledConfig.call .pass).isSome = true := by decide +kernel
  obtain ⟨c', hc'⟩ := Option.isSome_iff_exists.mp hs
  have hp : NotResumed cancelledPass cancelledConfig .pass := fun _ _ he => absurd he (by simp [cancelledPass])
  rw [hc', Option.bind_some]
  exact cancellation_final hr (Option.some_get _).symm (by decide +kernel)
    (.cons ⟨hp, hc'⟩ (.nil c'))

end AuraCall.Runtime
