import AuraCall.Runtime.Processes

/-!
# The events and the history of a run

A bundle has two logs, `events` and `sharedState.history`. Every operation extends both with the same events
(`Operation.appends`), so every stored bundle has, in both, those it was created with and the same events after them.
-/

namespace AuraCall.Runtime

open RevisionedStore

theorem acquireExecutionRunLease_appends {bundle : ExecutionRunRecordBundle} {input : AcquireInput}
    {result : LeaseMutationResult} (h : acquireExecutionRunLease bundle input = .ok result) :
    ∃ events, Appends bundle result.bundle events := by
  obtain ⟨-, he, -⟩ := acquireExecutionRunLease_eq_ok h
  exact ⟨[result.event], by rw [he]; exact withLeases_appends _ _ _ _⟩

theorem heartbeatExecutionRunLease_appends {bundle : ExecutionRunRecordBundle} {input : HeartbeatInput}
    {result : LeaseMutationResult} (h : heartbeatExecutionRunLease bundle input = .ok result) :
    ∃ events, Appends bundle result.bundle events := by
  obtain ⟨_, -, -, -, he⟩ := heartbeatExecutionRunLease_eq_ok h
  exact ⟨[result.event], by rw [he]; exact withLeases_appends _ _ _ _⟩

theorem releaseExecutionRunLease_appends {bundle : ExecutionRunRecordBundle} {input : ReleaseInput}
    {result : LeaseMutationResult} (h : releaseExecutionRunLease bundle input = .ok result) :
    ∃ events, Appends bundle result.bundle events := by
  obtain ⟨_, -, -, -, he⟩ := releaseExecutionRunLease_eq_ok h
  exact ⟨[result.event], by rw [he]; exact withLeases_appends _ _ _ _⟩

theorem expireExecutionRunLeases_appends (bundle : ExecutionRunRecordBundle) (now : String) :
    ∃ events, Appends bundle (expireExecutionRunLeases bundle now).bundle events := by
  rcases expireExecutionRunLeases_cases bundle now with ⟨-, he⟩ | ⟨events, he, -⟩
  · exact ⟨[], by rw [he]; exact Appends.refl bundle⟩
  · exact ⟨events, by rw [he]; exact withLeases_appends _ _ _ _⟩

theorem recoverStrandedRunningExecutionRun_appends {bundle : ExecutionRunRecordBundle} {now : Nat → String}
    {recovered : RecoveredExecutionRun} (h : recoverStrandedRunningExecutionRun bundle now = some recovered) :
    ∃ events, Appends bundle recovered.bundle events := by
  refine recoverStrandedRunningExecutionRun_keeps (P := fun b => ∃ events, Appends bundle b events) ?_ h
    ⟨[], Appends.refl bundle⟩
  rintro b b' ⟨events, hb⟩ _ - - - hr
  obtain ⟨events', hb'⟩ := hr.appends
  exact ⟨events ++ events', hb.trans hb'⟩

/-- **An operation extends both logs with the same events.** -/
theorem Operation.appends {bundle bundle' : ExecutionRunRecordBundle} (h : Operation bundle bundle') :
    ∃ events, Appends bundle bundle' events := by
  cases h with
  | acquire h => exact acquireExecutionRunLease_appends h
  | heartbeat h => exact heartbeatExecutionRunLease_appends h
  | release h => exact releaseExecutionRunLease_appends h
  | expire => exact expireExecutionRunLeases_appends _ _
  | start h => exact (startExecutionRunStep_eq_ok h).2.2.appends
  | succeed h => exact (succeedExecutionRunStep_eq_ok h).2.2.appends
  | fail h => exact (failExecutionRunStep_eq_ok h).2.2.appends
  | escalate h => exact (cancelExecutionRunStepForHumanEscalation_eq_ok h).2.2.appends
  | cancel h =>
    obtain ⟨-, _, hr⟩ := cancelExecutionRun_eq_ok h
    exact hr.appends
  | resume h =>
    obtain ⟨_, -, -, -, -, hr⟩ := resumeExecutionRunAfterHumanEscalation_eq_ok h
    exact hr.appends
  | recover h => exact recoverStrandedRunningExecutionRun_appends h
  | resolve h => exact (resolveLocalActionRequest_eq_some h).2.2
  | drain => exact ⟨_, rfl, rfl⟩
  | schedule => exact ⟨_, withLeases_appends _ _ _ _⟩

/-- **The events and the history agree on every event since the creation of the run**, in every stored bundle, however
the writes of the processes interleave. -/
theorem history_append_only {ι : Type} [DecidableEq ι] {process : ι → Process} :
    (∀ bundle bundle', Operation bundle bundle' → ∃ events, bundle'.events = bundle.events ++ events ∧
      bundle'.sharedState.history = bundle.sharedState.history ++ events) ∧
    ∀ s, (interleaved (initialRun process)).Reachable s → ∀ record ∈ s.contents,
      ∃ i run, process i = .create run ∧ ∃ events, record.value.events = run.bundle.events ++ events ∧
        record.value.sharedState.history = run.bundle.sharedState.history ++ events := by
  refine ⟨fun _ _ h => h.appends, fun s hr => ?_⟩
  refine stored_of_reachable (I := fun b => ∃ i run, process i = .create run ∧ ∃ events, Appends run.bundle b events)
    ?_ (fun _ hm => by cases hm) ?_ hr
  · rintro b b' ⟨i, run, hp, events, h⟩ ho
    obtain ⟨events', h'⟩ := ho.appends
    exact ⟨i, run, hp, events ++ events', h.trans h'⟩
  · intro i run hp
    exact ⟨i, run, hp, [], Appends.refl _⟩

end AuraCall.Runtime
