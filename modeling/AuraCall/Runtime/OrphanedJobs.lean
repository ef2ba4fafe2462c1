import AuraCall.Runtime.ResponseBatches

/-!
# The jobs of a batch

A response of a batch that can still run should be listed in the record of its batch, at its index: the limits of the
batch count it, and the status of the batch is read from the record. `createBatch` writes the record last, and over the
record of an earlier call with the same id, so that a call which stops halfway leaves responses that no record lists,
and so does a second call for a batch that is still running (`batch_jobs_accounted`, `interrupted_batch_orphans`,
`repeated_batch_orphans`).
-/

namespace AuraCall.Runtime

/-! ## The batch of a run -/

/-- `metadata.batchId`. -/
def readBatchId (record : ExecutionRunStoredRecord) : Option String :=
  (record.value.run.initialInputs.record? "metadata").bind (·.string? "batchId")

/-- The response was created for this batch, at this index. -/
def CreatedFor (record : ExecutionRunStoredRecord) (batchId : String) (index : Nat) : Prop :=
  readBatchId record = some batchId ∧ readBatchIndex record = some (.finite index)

theorem CreatedFor.unique {record : ExecutionRunStoredRecord} {batchId batchId' : String} {index index' : Nat}
    (h : CreatedFor record batchId index) (h' : CreatedFor record batchId' index') :
    batchId = batchId' ∧ index = index' := by
  refine ⟨Option.some.inj (h.1.symm.trans h'.1), ?_⟩
  have hindex := Option.some.inj (h.2.symm.trans h'.2)
  exact Nat.cast_injective (JsNumber.finite.inj hindex)

/-- What the run of a batch is created with stays with it. -/
theorem createdFor_drained (progress : RunProgress) (responseId createdAt batchId : String) (index : Nat)
    (request : ExecutionRequest) (limits : ResponseBatchLimits) (dispatch : Option ResponseBatchDispatchRecord)
    (assignment : Option ResponseBatchDispatchJobAssignment) :
    CreatedFor (progress.apply ⟨1, createDirectExecutionBundle responseId
      (withBatchMetadata request batchId index limits dispatch assignment) createdAt⟩) batchId index := by
  unfold CreatedFor readBatchId readBatchIndex
  rw [progress.initialInputs]
  unfold withBatchMetadata createDirectExecutionBundle JsonRecord.record? JsonRecord.string? JsonRecord.get
  simp [List.lookup_cons, Json.record?, AssocRecord.lookup_assign, AssocRecord.assigned, Json.string?, Json.number?,
    Json.ofNat]

theorem CreatedFor.progress {record : ExecutionRunStoredRecord} {batchId : String} {index : Nat}
    (progress : RunProgress) : CreatedFor (progress.apply record) batchId index ↔ CreatedFor record batchId index := by
  unfold CreatedFor readBatchId readBatchIndex
  rw [progress.initialInputs]

/-! ## The property -/

/-- The response is listed in the record of its batch, at its index. -/
def Listed (host : ResponseBatchHost) (s : BatchState) (runId batchId : String) (index : Nat) : Prop :=
  ∃ record, s.readBatch host batchId = some record ∧
    ∃ job, record.jobs[index]? = some job ∧ job.index = index ∧ job.responseId = runId

/-- **No orphaned jobs**: every response that was created for a batch and can still run is listed. -/
def NoOrphans (host : ResponseBatchHost) (s : BatchState) : Prop :=
  ∀ run ∈ s.runs, isTerminalRun run = false → ∀ batchId index, CreatedFor run batchId index →
    Listed host s (runIdOf run) batchId index

/-! ## What the loop creates -/

section Loop

variable {call : CreateBatchCall} {plan : BatchPlan} {runs runs' : StoredRuns}

/-- A response is created, or nothing happens to the runs. -/
theorem createResponse_cases (request : ExecutionRequest) (attempt : ResponseAttempt) (runs : StoredRuns) :
    (∃ error, createResponse request attempt runs = (.error error, runs)) ∨
    (runs.get? attempt.responseId = none ∧ ∃ result, createResponse request attempt runs = (result, runs.set
        (attempt.drain.apply ⟨1, createDirectExecutionBundle attempt.responseId request attempt.createdAt⟩)) ∧
      ∀ responseId, result = .ok responseId → responseId = attempt.responseId) := by
  unfold createResponse
  split
  · exact .inl ⟨_, rfl⟩
  · split
    · exact .inl ⟨_, rfl⟩
    · rename_i hnone
      refine .inr ⟨hnone, ?_⟩
      dsimp only
      split
      · exact ⟨_, rfl, fun _ h => by cases h⟩
      · exact ⟨_, rfl, fun _ h => by cases h; rfl⟩

theorem runIdOf_created (attempt : ResponseAttempt) (request : ExecutionRequest) :
    runIdOf (attempt.drain.apply ⟨1, createDirectExecutionBundle attempt.responseId request attempt.createdAt⟩) =
      attempt.responseId := attempt.drain.runId _

/-- The runs that were there stay, and the new ones are responses of the batch under new ids. -/
structure Creates (plan : BatchPlan) (runs runs' : StoredRuns) : Prop where
  kept : ∀ run ∈ runs, run ∈ runs'
  created : ∀ run ∈ runs', run ∈ runs ∨
    ((∀ old ∈ runs, runIdOf old ≠ runIdOf run) ∧ ∃ index, CreatedFor run plan.id index)

theorem Creates.refl (plan : BatchPlan) (runs : StoredRuns) : Creates plan runs runs :=
  ⟨fun _ h => h, fun _ h => .inl h⟩

theorem Creates.trans {runs'' : StoredRuns} (h : Creates plan runs runs') (h' : Creates plan runs' runs'') :
    Creates plan runs runs'' := by
  refine ⟨fun run hrun => h'.kept run (h.kept run hrun), fun run hrun => ?_⟩
  rcases h'.created run hrun with hold | ⟨hfresh, hfor⟩
  · exact h.created run hold
  · exact .inr ⟨fun old hold => hfresh old (h.kept old hold), hfor⟩

theorem creates_set {run : ExecutionRunStoredRecord} {index : Nat} (hfresh : runs.get? (runIdOf run) = none)
    (hfor : CreatedFor run plan.id index) : Creates plan runs (runs.set run) := by
  have hne := KeyedMap.get?_eq_none.1 hfresh
  refine ⟨fun old hold => KeyedMap.mem_set_of_ne hold (hne old hold), fun new hnew => ?_⟩
  rcases KeyedMap.mem_set.1 hnew with rfl | ⟨hold, -⟩
  · exact .inr ⟨hne, index, hfor⟩
  · exact .inl hold

/-- One round of the loop. -/
theorem creates_createResponse (call : CreateBatchCall) (plan : BatchPlan) (index : Nat) (request : ExecutionRequest)
    (runs : StoredRuns) :
    Creates plan runs (createResponse (withBatchMetadata request plan.id index plan.limits
      (plan.resolution.map (·.dispatch)) (plan.resolution.bind (·.assignments[index]?))) (call.attempt index)
      runs).2 := by
  rcases createResponse_cases (withBatchMetadata request plan.id index plan.limits
    (plan.resolution.map (·.dispatch)) (plan.resolution.bind (·.assignments[index]?))) (call.attempt index) runs with
    ⟨_, heq⟩ | ⟨hnone, _, heq, -⟩
  · rw [heq]
    exact .refl plan runs
  · rw [heq]
    exact creates_set (by rw [runIdOf_created, hnone]) (createdFor_drained ..)

/-- **The loop**, wherever it stops. -/
theorem creates_createJobs (call : CreateBatchCall) (plan : BatchPlan) : ∀ (index : Nat)
    (requests : List ExecutionRequest) (runs : StoredRuns),
    Creates plan runs (call.createJobs plan index requests runs).2
  | _, [], runs => .refl plan runs
  | index, request :: rest, runs => by
    have hone := creates_createResponse call plan index request runs
    unfold CreateBatchCall.createJobs
    dsimp only
    split
    · rename_i error runs' heq
      rwa [heq] at hone
    · rename_i responseId runs' heq
      rw [heq] at hone
      have hrest := creates_createJobs call plan (index + 1) rest runs'
      split
      · rename_i error runs'' heq'
        rw [heq'] at hrest
        exact hone.trans hrest
      · rename_i jobs runs'' heq'
        rw [heq'] at hrest
        exact hone.trans hrest

/-- The jobs of a loop that goes through list the new runs in order. -/
structure Lists (plan : BatchPlan) (index : Nat) (runs runs' : StoredRuns) (jobs : List ResponseBatchJobRecord) :
    Prop where
  stored : ∀ job ∈ jobs, ∃ run ∈ runs', runIdOf run = job.responseId
  fresh : ∀ job ∈ jobs, ∀ old ∈ runs, runIdOf old ≠ job.responseId
  listed : ∀ run ∈ runs', run ∈ runs ∨ ∃ i job, CreatedFor run plan.id (index + i) ∧ jobs[i]? = some job ∧
    job.index = index + i ∧ job.responseId = runIdOf run

theorem lists_createJobs (call : CreateBatchCall) (plan : BatchPlan) : ∀ (index : Nat)
    (requests : List ExecutionRequest) (runs runs' : StoredRuns) (jobs : List ResponseBatchJobRecord),
    call.createJobs plan index requests runs = (.ok jobs, runs') → Lists plan index runs runs' jobs
  | index, [], runs, runs', jobs, h => by
    cases h
    refine ⟨?_, ?_, fun _ hrun => .inl hrun⟩
    · intro job hjob
      cases hjob
    · intro job hjob
      cases hjob
  | index, request :: rest, runs, runs', jobs, h => by
    unfold CreateBatchCall.createJobs at h
    dsimp only at h
    split at h
    · cases h
    · rename_i responseId runs₁ hresponse
      split at h
      · cases h
      · rename_i jobs₁ runs₂ hjobs
        cases h
        have hrest := lists_createJobs call plan (index + 1) rest runs₁ runs' jobs₁ hjobs
        have hkept := creates_createJobs call plan (index + 1) rest runs₁
        rw [hjobs] at hkept
        rcases createResponse_cases (withBatchMetadata request plan.id index plan.limits
          (plan.resolution.map (·.dispatch)) (plan.resolution.bind (·.assignments[index]?))) (call.attempt index)
          runs with ⟨_, heq⟩ | ⟨hnone, _, heq, hid⟩
        · rw [heq] at hresponse
          cases hresponse
        · rw [heq] at hresponse
          cases hresponse
          cases hid _ rfl
          have hne := KeyedMap.get?_eq_none.1 hnone
          refine ⟨?_, ?_, fun run hrun => ?_⟩
          · intro job hjob
            rcases List.mem_cons.1 hjob with rfl | hjob
            · exact ⟨_, hkept.kept _ (KeyedMap.mem_set_self _ _), runIdOf_created _ _⟩
            · exact hrest.stored job hjob
          · intro job hjob old hold
            rcases List.mem_cons.1 hjob with rfl | hjob
            · exact hne old hold
            · refine hrest.fresh job hjob old (KeyedMap.mem_set_of_ne hold ?_)
              rw [runIdOf_created]
              exact hne old hold
          · rcases hrest.listed run hrun with hold | ⟨i, job, hfor, hget, hindex, hresponse⟩
            · rcases KeyedMap.mem_set.1 hold with rfl | ⟨hold, -⟩
              · exact .inr ⟨0, _, createdFor_drained .., rfl, rfl, (runIdOf_created _ _).symm⟩
              · exact .inl hold
            · refine .inr ⟨i + 1, job, ?_, hget, ?_, hresponse⟩
              · rwa [← Nat.add_assoc, Nat.add_right_comm]
              · rw [hindex]
                omega

end Loop

/-! ## Steps -/

/-- The call goes through: every response is created, and the record is written. -/
def CreateBatchCall.Completes (call : CreateBatchCall) (plan : BatchPlan) (s : BatchState) : Prop :=
  (∃ jobs, (call.createJobs plan 0 plan.requests s.runs).1 = .ok jobs) ∧ call.writeFailure = none

/-- No response of a batch with its record in this file can still run. -/
def Finished (host : ResponseBatchHost) (s : BatchState) (path : String) : Prop :=
  ∀ run ∈ s.runs, isTerminalRun run = false → ∀ batchId index, CreatedFor run batchId index →
    host.getResponseBatchRecordPath batchId ≠ path

/-- A call that goes through replaces the record of a finished batch, if any; a call that stops has created no response
that can still run; and a response that has ended runs again only while it is listed. -/
def KeepsAccount (host : ResponseBatchHost) (s : BatchState) : BatchStep → Prop
  | .create call => ∀ plan, call.prepare = .ok plan →
      (call.Completes plan s → Finished host s (host.getResponseBatchRecordPath plan.id)) ∧
      (¬ call.Completes plan s → ∀ run ∈ (call.createJobs plan 0 plan.requests s.runs).2,
        (∀ old ∈ s.runs, runIdOf old ≠ runIdOf run) → isTerminalRun run = true)
  | .progress runId progress => ∀ run, s.runs.get? runId = some run → isTerminalRun run = true →
      isTerminalRun (progress.apply run) = false → ∀ batchId index, CreatedFor run batchId index →
        Listed host s runId batchId index

/-- A job that is listed is a response that has been created. -/
def ListsRuns (s : BatchState) : Prop :=
  ∀ path record, s.files path = some record → ∀ job ∈ record.jobs, ∃ run ∈ s.runs, runIdOf run = job.responseId

section Steps

variable {host : ResponseBatchHost} {s s' : BatchState} {call : CreateBatchCall} {plan : BatchPlan}

/-- What a call leaves. -/
theorem createBatch_cases (host : ResponseBatchHost) (call : CreateBatchCall) (s : BatchState) :
    ((∀ plan, call.prepare ≠ .ok plan) ∧ (createBatch host call s).2 = s) ∨
    ∃ plan, call.prepare = .ok plan ∧
      ((¬ call.Completes plan s ∧
          (createBatch host call s).2 = { s with runs := (call.createJobs plan 0 plan.requests s.runs).2 }) ∨
        (call.Completes plan s ∧ ∃ jobs runs, call.createJobs plan 0 plan.requests s.runs = (.ok jobs, runs) ∧
          (createBatch host call s).2 = BatchState.writeBatch host { s with runs } (call.record plan jobs))) := by
  unfold createBatch CreateBatchCall.Completes
  cases hprepare : call.prepare with
  | error error =>
    refine .inl ⟨fun plan h => ?_, rfl⟩
    cases h
  | ok plan =>
    refine .inr ⟨plan, rfl, ?_⟩
    dsimp only
    obtain ⟨result, runs⟩ := call.createJobs plan 0 plan.requests s.runs
    cases result with
    | error error =>
      refine .inl ⟨fun hcompletes => ?_, rfl⟩
      cases hcompletes.1.choose_spec
    | ok jobs =>
      cases hwrite : call.writeFailure with
      | some message =>
        refine .inl ⟨fun hcompletes => ?_, rfl⟩
        cases hcompletes.2
      | none => exact .inr ⟨⟨⟨jobs, rfl⟩, rfl⟩, jobs, runs, rfl, rfl⟩

theorem listsRuns_step {step : BatchStep} (h : ListsRuns s) (hstep : batchNext host s step = some s') :
    ListsRuns s' := by
  cases step with
  | create call =>
    simp only [batchNext, Option.some.injEq] at hstep
    subst hstep
    rcases createBatch_cases host call s with ⟨-, heq⟩ | ⟨plan, -, ⟨-, heq⟩ | ⟨-, jobs, runs, hjobs, heq⟩⟩
    · rwa [heq]
    · rw [heq]
      intro path record hfile job hjob
      obtain ⟨run, hrun, hid⟩ := h path record hfile job hjob
      exact ⟨run, (creates_createJobs call plan 0 plan.requests s.runs).kept run hrun, hid⟩
    · rw [heq]
      have hkept := creates_createJobs call plan 0 plan.requests s.runs
      rw [hjobs] at hkept
      intro path record hfile job hjob
      simp only [BatchState.writeBatch, Function.update_apply] at hfile
      split at hfile
      · cases hfile
        exact (lists_createJobs call plan 0 plan.requests s.runs runs jobs hjobs).stored job hjob
      · obtain ⟨run, hrun, hid⟩ := h path record hfile job hjob
        exact ⟨run, hkept.kept run hrun, hid⟩
  | progress runId progress =>
    simp only [batchNext, Option.map_eq_some_iff] at hstep
    obtain ⟨run, hget, rfl⟩ := hstep
    intro path record hfile job hjob
    obtain ⟨old, hold, hid⟩ := h path record hfile job hjob
    by_cases hsame : runIdOf old = runIdOf run
    · exact ⟨_, KeyedMap.mem_set_self _ _, (progress.runId run).trans (hsame.symm.trans hid)⟩
    · exact ⟨old, KeyedMap.mem_set_of_ne hold fun h => hsame (h.trans (progress.runId run)), hid⟩

theorem listsRuns_of_reachable (h : (batchSystem host).Reachable s) : ListsRuns s := by
  refine h.invariant (fun s h0 => ?_) fun _ _ _ _ hi hstep => listsRuns_step hi hstep
  subst h0
  intro path record hfile
  cases hfile

/-- A call that stops leaves no orphan exactly if none of its responses can still run. -/
theorem noOrphans_stopped_iff (hlists : ListsRuns s) (hp : NoOrphans host s) {runs : StoredRuns}
    (hcreates : Creates plan s.runs runs) :
    NoOrphans host { s with runs } ↔
      ∀ run ∈ runs, (∀ old ∈ s.runs, runIdOf old ≠ runIdOf run) → isTerminalRun run = true := by
  constructor
  · intro hp' run hrun hnew
    by_contra hlive
    rcases hcreates.created run hrun with hold | ⟨-, index, hfor⟩
    · exact hnew run hold rfl
    · obtain ⟨record, hread, job, hget, -, hid⟩ := hp' run hrun (Bool.eq_false_iff.2 hlive) plan.id index hfor
      obtain ⟨old, hold, hoid⟩ := hlists _ record hread job (List.mem_of_getElem? hget)
      exact hnew old hold (hoid.trans hid)
  · intro hended run hrun hlive batchId index hfor
    rcases hcreates.created run hrun with hold | ⟨hnew, -⟩
    · exact hp run hold hlive batchId index hfor
    · rw [hended run hrun hnew] at hlive
      cases hlive

/-- A call that goes through leaves no orphan exactly if it replaces the record of a finished batch. -/
theorem noOrphans_completed_iff (hp : NoOrphans host s) {runs : StoredRuns} {jobs : List ResponseBatchJobRecord}
    (hjobs : call.createJobs plan 0 plan.requests s.runs = (.ok jobs, runs)) :
    NoOrphans host (BatchState.writeBatch host { s with runs } (call.record plan jobs)) ↔
      Finished host s (host.getResponseBatchRecordPath plan.id) := by
  have hlists := lists_createJobs call plan 0 plan.requests s.runs runs jobs hjobs
  have hkept := creates_createJobs call plan 0 plan.requests s.runs
  rw [hjobs] at hkept
  have hself : ∀ batchId, host.getResponseBatchRecordPath batchId = host.getResponseBatchRecordPath plan.id →
      (BatchState.writeBatch host { s with runs } (call.record plan jobs)).readBatch host batchId =
        some (call.record plan jobs) := by
    intro batchId hpath
    rw [BatchState.readBatch, hpath]
    exact Function.update_self ..
  have hother : ∀ batchId, host.getResponseBatchRecordPath batchId ≠ host.getResponseBatchRecordPath plan.id →
      (BatchState.writeBatch host { s with runs } (call.record plan jobs)).readBatch host batchId =
        s.readBatch host batchId := by
    intro batchId hpath
    exact Function.update_of_ne hpath ..
  constructor
  · intro hp' run hrun hlive batchId index hfor hpath
    obtain ⟨record, hread, job, hget, -, hid⟩ := hp' run (hkept.kept run hrun) hlive batchId index hfor
    rw [hself batchId hpath] at hread
    cases hread
    exact hlists.fresh job (List.mem_of_getElem? hget) run hrun hid.symm
  · intro hfinished run hrun hlive batchId index hfor
    rcases hlists.listed run hrun with hold | ⟨i, job, hfor', hget, hindex, hid⟩
    · obtain ⟨record, hread, hjob⟩ := hp run hold hlive batchId index hfor
      exact ⟨record, by rw [hother batchId (hfinished run hold hlive batchId index hfor), hread], hjob⟩
    · obtain ⟨rfl, rfl⟩ := hfor.unique hfor'
      refine ⟨_, hself _ rfl, job, ?_, hindex, hid⟩
      rw [Nat.zero_add]
      exact hget

/-- A run that goes on leaves no orphan exactly if it has not ended before, or is listed. -/
theorem noOrphans_progress_iff (hp : NoOrphans host s) {run : ExecutionRunStoredRecord} (hrun : run ∈ s.runs)
    (progress : RunProgress) :
    NoOrphans host { s with runs := s.runs.set (progress.apply run) } ↔
      (isTerminalRun run = true → isTerminalRun (progress.apply run) = false → ∀ batchId index,
        CreatedFor run batchId index → Listed host s (runIdOf run) batchId index) := by
  have hid : runIdOf (progress.apply run) = runIdOf run := progress.runId run
  constructor
  · intro hp' _ hlive batchId index hfor
    have hlisted := hp' _ (KeyedMap.mem_set_self _ _) hlive batchId index ((CreatedFor.progress progress).2 hfor)
    rwa [hid] at hlisted
  · intro hresumed other hother hlive batchId index hfor
    rcases KeyedMap.mem_set.1 hother with rfl | ⟨hold, -⟩
    · have hfor' := (CreatedFor.progress progress).1 hfor
      rw [hid]
      cases hended : isTerminalRun run with
      | true => exact hresumed hended hlive batchId index hfor'
      | false => exact hp run hrun hended batchId index hfor'
    · exact hp other hold hlive batchId index hfor

/-- **A step leaves no orphan exactly if it keeps the account.** -/
theorem noOrphans_step_iff {step : BatchStep} (hlists : ListsRuns s) (hp : NoOrphans host s)
    (hstep : batchNext host s step = some s') : NoOrphans host s' ↔ KeepsAccount host s step := by
  cases step with
  | create call =>
    simp only [batchNext, Option.some.injEq] at hstep
    subst hstep
    unfold KeepsAccount
    dsimp only
    rcases createBatch_cases host call s with ⟨hnone, heq⟩ | ⟨plan, hplan, hcases⟩
    · rw [heq]
      exact ⟨fun _ plan hplan => absurd hplan (hnone plan), fun _ => hp⟩
    · have hforall : ∀ C : BatchPlan → Prop, (∀ plan, call.prepare = .ok plan → C plan) ↔ C plan := fun C =>
        ⟨fun h => h plan hplan, fun h plan' hplan' => by rw [hplan] at hplan'; cases hplan'; exact h⟩
      rw [hforall]
      rcases hcases with ⟨hstopped, heq⟩ | ⟨hcompletes, jobs, runs, hjobs, heq⟩
      · rw [heq, noOrphans_stopped_iff hlists hp (creates_createJobs call plan 0 plan.requests s.runs)]
        exact ⟨fun h => ⟨fun hc => absurd hc hstopped, fun _ => h⟩, fun h => h.2 hstopped⟩
      · rw [heq, noOrphans_completed_iff hp hjobs]
        exact ⟨fun h => ⟨fun _ => h, fun hc => absurd hcompletes hc⟩, fun h => h.1 hcompletes⟩
  | progress runId progress =>
    simp only [batchNext, Option.map_eq_some_iff] at hstep
    obtain ⟨run, hget, rfl⟩ := hstep
    obtain ⟨hrun, rfl⟩ := KeyedMap.get?_eq_some.1 hget
    rw [noOrphans_progress_iff hp hrun]
    exact ⟨fun h run' hget' => by rw [hget] at hget'; cases hget'; exact h, fun h => h run hget⟩

end Steps

/-! ## Runs -/

/-- No run and no record. -/
def BatchState.initial : BatchState := ⟨.empty, fun _ => none⟩

/-- **The runs without an orphan in any state are those whose steps all keep the account.** -/
theorem batch_jobs_accounted (host : ResponseBatchHost) (steps : List BatchStep) (s : BatchState) :
    ((batchSystem host).keeping (NoOrphans host)).Run .initial steps s ↔
      ((batchSystem host).restrict (KeepsAccount host)).Run .initial steps s := by
  refine TransitionSystem.run_keeping_iff (fun s step s' hr hp hstep => ?_) (.init rfl) ?_
  · exact noOrphans_step_iff (listsRuns_of_reachable hr) hp hstep
  · intro run hrun
    exact absurd hrun (KeyedMap.not_mem_empty run)

/-! ## A call that stops halfway -/

section Sample

/-- Each id is the name of its file. -/
def plainBatchHost : ResponseBatchHost := ⟨id, fun _ => .ok .inProgress⟩

/-- The runs wait. -/
def waits : RunProgress := ⟨id, fun _ => rfl, fun _ => rfl⟩

def sampleRequest : ExecutionRequest := ⟨"gpt", .string "prompt", none, none⟩

/-- Two requests; the responses have these ids, and the second may not be created. -/
def sampleBatch (first second : String) (rejected : Option String) : CreateBatchCall where
  payload := { id := some "batch", requests := [sampleRequest, sampleRequest] }
  generatedId := "generated"
  createdAt := "2026-01-01T00:00:00.000Z"
  attempt index :=
    if index = 0 then { responseId := first, createdAt := "2026-01-01T00:00:00.000Z", drain := waits }
    else { responseId := second, createdAt := "2026-01-01T00:00:00.000Z", rejected, drain := waits }

/-- The run of the first request. -/
def firstResponse (responseId : String) : ExecutionRunStoredRecord :=
  waits.apply ⟨1, createDirectExecutionBundle responseId
    (withBatchMetadata sampleRequest "batch" 0 ⟨none, none⟩ none none) "2026-01-01T00:00:00.000Z"⟩

theorem firstResponse_createdFor (responseId : String) : CreatedFor (firstResponse responseId) "batch" 0 :=
  createdFor_drained ..

/-- **The response that was created before the loop stopped is in no record.** -/
theorem interrupted_batch_orphans :
    ¬ ∀ (host : ResponseBatchHost) (s : BatchState), (batchSystem host).Reachable s → NoOrphans host s := by
  intro h
  have hstep : batchNext plainBatchHost .initial (.create (sampleBatch "resp-1" "resp-2" (some "storage is full"))) =
      some ⟨KeyedMap.empty.set (firstResponse "resp-1"), fun _ => none⟩ := rfl
  have hreach := TransitionSystem.Reachable.step (T := batchSystem plainBatchHost) (.init rfl) hstep
  obtain ⟨record, hread, -⟩ := h plainBatchHost _ hreach _ (KeyedMap.mem_set_self _ _) rfl _ _
    (firstResponse_createdFor "resp-1")
  cases hread

/-- A second call for the batch replaces the record of the first, whose responses still wait. -/
theorem repeated_batch_orphans :
    let first := (createBatch plainBatchHost (sampleBatch "resp-1" "resp-2" none) .initial).2
    let second := (createBatch plainBatchHost (sampleBatch "resp-3" "resp-4" none) first).2
    (batchSystem plainBatchHost).Reachable second ∧ ¬ NoOrphans plainBatchHost second := by
  intro first second
  have hfirst : (batchSystem plainBatchHost).Reachable first :=
    .step (a := .create (sampleBatch "resp-1" "resp-2" none)) (.init rfl) rfl
  have hsecond : (batchSystem plainBatchHost).Reachable second :=
    .step (a := .create (sampleBatch "resp-3" "resp-4" none)) hfirst rfl
  refine ⟨hsecond, fun horphans => ?_⟩
  have hget : second.runs.get? "resp-1" = some (firstResponse "resp-1") := rfl
  have hrun := (KeyedMap.get?_eq_some.1 hget).1
  obtain ⟨record, hread, job, hjob, -, hid⟩ := horphans _ hrun rfl _ _ (firstResponse_createdFor "resp-1")
  cases hread
  cases hjob
  exact absurd hid (by decide)

end Sample

end AuraCall.Runtime
