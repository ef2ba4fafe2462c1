import AuraCall.Runtime.Pass
import AuraCall.Runtime.SchedulerAuthority

/-!
# The processes on one run

Any number of processes share the stored record of a run: the call that creates it, passes of runners, the calls of the
runtime control, and the actions of service hosts. Each begins at any time and may stop at any of its calls.

`Operation` lists what these do to a bundle. Whatever a process writes comes from a bundle it has read by operations, or
is a created run (`Process.keeps`); so a property of created runs that the operations keep holds of every bundle that is
ever stored, however the writes interleave (`stored_of_reachable`).
-/

namespace AuraCall.Runtime

open RevisionedStore

/-! ## Operations -/

/-- One rewriting of a bundle by the runtime. -/
inductive Operation : ExecutionRunRecordBundle → ExecutionRunRecordBundle → Prop
  | acquire {b input result} : acquireExecutionRunLease b input = .ok result → Operation b result.bundle
  | heartbeat {b input result} : heartbeatExecutionRunLease b input = .ok result → Operation b result.bundle
  | release {b input result} : releaseExecutionRunLease b input = .ok result → Operation b result.bundle
  | expire {b now} : Operation b (expireExecutionRunLeases b now).bundle
  | start {b stepId startedAt b'} : startExecutionRunStep b stepId startedAt = .ok b' → Operation b b'
  | succeed {b stepId input b'} : succeedExecutionRunStep b stepId input = .ok b' → Operation b b'
  | fail {b stepId input b'} : failExecutionRunStep b stepId input = .ok b' → Operation b b'
  | escalate {b stepId cancelledAt guidance b'} :
      cancelExecutionRunStepForHumanEscalation b stepId cancelledAt guidance = .ok b' → Operation b b'
  | cancel {b input b'} : cancelExecutionRun b input = .ok b' → Operation b b'
  | resume {b input b'} : resumeExecutionRunAfterHumanEscalation b input = .ok b' → Operation b b'
  | recover {b now recovered} : recoverStrandedRunningExecutionRun b now = some recovered → Operation b recovered.bundle
  | resolve {b input b'} : resolveLocalActionRequest b input = some b' → Operation b b'
  | drain {b input} : Operation b (operatorDrainEvent b input)
  | schedule {b input previousLease newLease decision futureMutation} :
      Operation b (appendExecutionRunSchedulerControlEvent b input previousLease newLease decision futureMutation)

/-! ## Processes -/

/-- A run as `createRun` gets it: planned, without leases, its steps distinct and not started. -/
structure NewRun where
  bundle : ExecutionRunRecordBundle
  planned : bundle.run.status = .planned
  leases : bundle.leases = []
  nodup : (bundle.steps.map (·.id)).Nodup
  status : ∀ step ∈ bundle.steps, step.status = .planned ∨ step.status = .runnable ∨ step.status = .blocked
  output : ∀ step ∈ bundle.steps, step.output = none

/-- A process on the run, with what it is given and told. -/
inductive Process
  | create (run : NewRun)
  | execute (options : PassOptions) (env : PassEnvironment)
  | acquire (runId : String) (input : AcquireInput)
  | heartbeat (runId : String) (input : HeartbeatInput)
  | release (runId : String) (input : ReleaseInput)
  | expire (now : String)
  | repair (runId now : String) (readRunner : String → Option ExecutionRunnerRecord)
  | recover (now : Nat → Nat → String)
  | cancel (input : CancelOwnedRunInput)
  | resume (runId : String) (input : ResumeInput)
  | resolve (runId : String) (input : ResolveInput)
  | drainEvent (runId : String) (input : DrainEventInput)
  | claim (input : SchedulerClaimInput)

/-- What a process reports. -/
inductive Reply
  | record (record : Option ExecutionRunStoredRecord)
  | repaired (result : Option (RepairClassification × Bool))
  | flag (done : Bool)
  | cancelled (result : CancelRunResult)
  | claimed (result : SchedulerClaimResult)

def Process.program : Process → Call Reply
  | create run => do return .record (some (← createRun run.bundle))
  | execute options env => do return .record (some (← executeStoredExecutionRunOnce options env))
  | acquire runId input => do return .record (some (← acquireLease .control runId input))
  | heartbeat runId input => do return .record (some (← heartbeatLease .control runId input))
  | release runId input => do return .record (some (← releaseLease .control runId input))
  | expire now => do return .record (← expireLeases now)
  | repair runId now readRunner => do return .repaired (← repairStoredExecutionRunLease runId now readRunner)
  | recover now => do return .flag (← recoverRun now)
  | cancel input => do return .cancelled (← cancelOwnedRun input)
  | resume runId input => do return .record (some (← resumeHumanEscalation runId input))
  | resolve runId input => do return .flag (← resolveLocalAction runId input)
  | drainEvent runId input => do persistOperatorDrainEvent runId input; return .flag true
  | claim input => do return .claimed (← claimLocalRunWithSchedulerAuthority input)

variable {ι : Type}

abbrev RunConfig (ι : Type) := Config ι Point ExecutionRunRecordBundle RuntimeError Reply

/-- What is stored, and no process has begun. -/
def startedFrom (contents : RunContents) (process : ι → Process) : RunConfig ι :=
  ⟨contents, fun i => (process i).program⟩

/-- No record is stored. -/
def initialRun (process : ι → Process) : RunConfig ι := startedFrom none process

/-! ## A run of one step -/

/-- The smallest run. -/
def oneStepRun : NewRun where
  bundle :=
    { run := ⟨"run", .direct, .planned, "t0", "t0", [], .failFast⟩
      steps := [⟨"step", none, none, none, .planned, 1, [], ⟨[]⟩, none, none, none, none⟩]
      handoffs := []
      localActionRequests := []
      sharedState := ⟨.active, [], [], [], [], "t0"⟩
      events := []
      leases := [] }
  planned := rfl
  leases := rfl
  nodup := by decide
  status := by decide
  output := by simp

/-- A pass whose executor returns an empty result. -/
def plainEnvironment : PassEnvironment where
  dates := ⟨fun _ => none, fun _ => ""⟩
  numberText _ := ""
  limitCheckedAt := "t1"
  limitFailedAt := "t1"
  leasedAt := "t1"
  startedAt := "t2"
  escalatedAt := "t2"
  completedAt := "t3"
  failedAt := "t3"
  releasedAt := "t4"
  contextData _ _ := []
  onLeaseHeartbeat := .ok ()
  executeStep := .ok (some {})
  settle _ _ := .ok { output := defaultOutput, localActionRequests := [] }
  extractFailureRecoverySharedState _ := none

/-! ## What is ever stored -/

section Kept

variable {I : ExecutionRunRecordBundle → Prop} (hI : ∀ b b', I b → Operation b b' → I b')

/-- A call whose writes keep `I`. -/
def Call.Kept {α : Type} (I : ExecutionRunRecordBundle → Prop) (call : Call α) : Prop :=
  call.Keeps I fun _ => True

theorem Call.Kept.bind {α β : Type} {call : Call α} {next : α → Call β} (h : Call.Kept I call)
    (hn : ∀ a, Call.Kept I (next a)) : Call.Kept I (call >>= next) :=
  Program.Keeps.bind (fun a _ => hn a) (fun _ _ => trivial) h

theorem Call.Kept.outcome {α : Type} {call : Call α} (h : Call.Kept I call) : Call.Kept I call.outcome :=
  (Program.Keeps.outcome h).mono fun _ _ => trivial

theorem Call.Kept.read {α : Type} {point : Point} {next : Option ExecutionRunStoredRecord → Call α}
    (h : ∀ s : Option ExecutionRunStoredRecord, (∀ record ∈ s, I record.value) → Call.Kept I (next s)) :
    Call.Kept I (readRun point >>= next) := h

theorem Call.Kept.require {α : Type} {point : Point} {runId : String} {next : ExecutionRunStoredRecord → Call α}
    (h : ∀ record : ExecutionRunStoredRecord, I record.value → Call.Kept I (next record)) :
    Call.Kept I (requireStoredRecord point runId >>= next) := by
  intro s hs
  cases s with
  | none => trivial
  | some record => exact h record (hs record rfl)

/-- A computation that may throw, before the rest of a call. -/
theorem Call.Kept.ofExcept {α β : Type} {x : Except RuntimeError α} {next : α → Call β}
    (h : ∀ a, x = .ok a → Call.Kept I (next a)) : Call.Kept I (Program.ofExcept x >>= next) := by
  cases x with
  | error e => trivial
  | ok a => exact h a rfl

/-- A write, whose record the rest of the call may use. -/
theorem writeRecord_keeps {point : Point} {bundle : ExecutionRunRecordBundle} {expected : Option Nat} (h : I bundle) :
    (writeRecord point bundle expected).Keeps I fun r => ∀ record, r = .ok record → I record.value := by
  refine ⟨h, fun r hr => ?_⟩
  cases r with
  | error found => rintro record he; cases he
  | ok stored => rintro record he; cases he; exact hr stored rfl

theorem Call.Kept.write {α : Type} {point : Point} {bundle : ExecutionRunRecordBundle} {expected : Option Nat}
    {next : ExecutionRunStoredRecord → Call α} (h : I bundle)
    (hn : ∀ record : ExecutionRunStoredRecord, I record.value → Call.Kept I (next record)) :
    Call.Kept I (writeRecord point bundle expected >>= next) :=
  Program.Keeps.bind (fun record hr => hn record (hr record rfl)) (fun _ _ => trivial) (writeRecord_keeps h)

theorem writeRecord_kept {point : Point} {bundle : ExecutionRunRecordBundle} {expected : Option Nat} (h : I bundle) :
    Call.Kept I (writeRecord point bundle expected) := (writeRecord_keeps h).mono fun _ _ => trivial

theorem persistRun_kept {runId : String} {bundle : ExecutionRunRecordBundle} {expected : Option Nat} (h : I bundle) :
    Call.Kept I (persistRun runId bundle expected) := by
  unfold persistRun
  split
  · trivial
  · exact writeRecord_kept h

/-- A rewriting call keeps `I`, and returns a record with `I`. -/
theorem rewriteRun_keeps {point : Point} {runId : String}
    {operation : ExecutionRunRecordBundle → Except RuntimeError ExecutionRunRecordBundle}
    (ho : ∀ b b', I b → operation b = .ok b' → I b') :
    (rewriteRun point runId operation).Keeps I fun r => ∀ record, r = .ok record → I record.value := by
  intro s hs
  cases s with
  | none => rintro record he; cases he
  | some record =>
    show Program.Keeps I _ (Program.ofExcept (operation record.value) >>= fun bundle => _)
    cases hop : operation record.value with
    | error e => rintro record he; cases he
    | ok b => exact writeRecord_keeps (ho _ _ (hs record rfl) hop)

theorem rewriteRun_kept {point : Point} {runId : String}
    {operation : ExecutionRunRecordBundle → Except RuntimeError ExecutionRunRecordBundle}
    (ho : ∀ b b', I b → operation b = .ok b' → I b') : Call.Kept I (rewriteRun point runId operation) :=
  (rewriteRun_keeps ho).mono fun _ _ => trivial

include hI

theorem acquireLease_keeps (point : Point) (runId : String) (input : AcquireInput) :
    (acquireLease point runId input).Keeps I fun r => ∀ record, r = .ok record → I record.value := by
  refine rewriteRun_keeps fun b b' hb h => ?_
  cases hr : acquireExecutionRunLease b input with
  | error e => simp [hr, Except.map] at h
  | ok result =>
    simp only [hr, Except.map, Except.ok.injEq] at h
    exact h ▸ hI _ _ hb (.acquire hr)

theorem heartbeatLease_keeps (point : Point) (runId : String) (input : HeartbeatInput) :
    (heartbeatLease point runId input).Keeps I fun r => ∀ record, r = .ok record → I record.value := by
  refine rewriteRun_keeps fun b b' hb h => ?_
  cases hr : heartbeatExecutionRunLease b input with
  | error e => simp [hr, Except.map] at h
  | ok result =>
    simp only [hr, Except.map, Except.ok.injEq] at h
    exact h ▸ hI _ _ hb (.heartbeat hr)

theorem releaseLease_kept (point : Point) (runId : String) (input : ReleaseInput) :
    Call.Kept I (releaseLease point runId input) := by
  refine rewriteRun_kept fun b b' hb h => ?_
  cases hr : releaseExecutionRunLease b input with
  | error e => simp [hr, Except.map] at h
  | ok result =>
    simp only [hr, Except.map, Except.ok.injEq] at h
    exact h ▸ hI _ _ hb (.release hr)

theorem expireLeases_kept (now : String) : Call.Kept I (expireLeases now) := by
  refine .read fun s hs => ?_
  cases s with
  | none => trivial
  | some record =>
    dsimp only
    split
    · trivial
    · exact .write (hI _ _ (hs record rfl) .expire) fun _ _ => trivial

theorem repair_kept (runId now : String) (readRunner : String → Option ExecutionRunnerRecord) :
    Call.Kept I (repairStoredExecutionRunLease runId now readRunner) := by
  refine .read fun s _ => ?_
  cases s with
  | none => trivial
  | some record =>
    dsimp only
    split
    · trivial
    · exact (expireLeases_kept hI now).bind fun _ => trivial

theorem recoverAndPersist_kept (now : Nat → Nat → String) :
    ∀ (attempts : Nat) (record : ExecutionRunStoredRecord), I record.value →
      Call.Kept I (recoverAndPersistStrandedRun now attempts record)
  | 0, _, _ => trivial
  | attempts + 1, record, hr => by
    unfold recoverAndPersistStrandedRun
    cases hrec : recoverStrandedRunningExecutionRun record.value (now attempts) with
    | none => trivial
    | some recovered =>
      refine (persistRun_kept (hI _ _ hr (.recover hrec))).outcome.bind fun r => ?_
      cases r with
      | ok record => trivial
      | error e =>
        dsimp only
        split
        · trivial
        · refine .read fun s hs => ?_
          cases s with
          | none => trivial
          | some reread =>
            dsimp only
            split
            · trivial
            · exact recoverAndPersist_kept now attempts reread (hs reread rfl)

theorem recoverRun_kept (now : Nat → Nat → String) : Call.Kept I (recoverRun now) := by
  refine .read fun s hs => ?_
  cases s with
  | none => trivial
  | some record =>
    dsimp only
    split
    · trivial
    · exact recoverAndPersist_kept hI now 2 record (hs record rfl)

theorem persistCancelledRun_kept {record : ExecutionRunStoredRecord} (hr : I record.value) (runId cancelledAt note : String) :
    Call.Kept I (persistCancelledRun record runId cancelledAt note) := by
  refine .ofExcept fun b hb => ?_
  refine (persistRun_kept (hI _ _ hr (.cancel hb))).outcome.bind fun r => ?_
  cases r with
  | ok record => trivial
  | error e =>
    refine .read fun s _ => ?_
    cases s with
    | none => trivial
    | some latest =>
      dsimp only
      split <;> trivial

theorem cancelOwnedRun_kept (input : CancelOwnedRunInput) : Call.Kept I (cancelOwnedRun input) := by
  refine .read fun s hs => ?_
  cases s with
  | none => trivial
  | some record =>
    have hr := hs record rfl
    dsimp only
    cases getActiveExecutionRunLease record.value with
    | none =>
      dsimp only
      split
      · trivial
      · split
        · refine (persistCancelledRun_kept hI hr _ _ _).bind fun race => ?_
          cases race <;> trivial
        · trivial
    | some activeLease =>
      dsimp only
      split
      · trivial
      · refine (persistCancelledRun_kept hI hr _ _ _).bind fun race => ?_
        cases race with
        | some race => trivial
        | none =>
          refine (releaseLease_kept hI _ _ _).outcome.bind fun r => ?_
          cases r with
          | ok record => trivial
          | error e =>
            refine .read fun s _ => ?_
            cases s with
            | none => trivial
            | some latest =>
              dsimp only
              split <;> trivial

theorem resumeHumanEscalation_kept (runId : String) (input : ResumeInput) :
    Call.Kept I (resumeHumanEscalation runId input) := rewriteRun_kept fun _ _ hb h => hI _ _ hb (.resume h)

theorem resolveLocalAction_kept (runId : String) (input : ResolveInput) : Call.Kept I (resolveLocalAction runId input) := by
  refine .read fun s hs => ?_
  cases s with
  | none => trivial
  | some record =>
    dsimp only
    cases hr : resolveLocalActionRequest record.value input with
    | none => trivial
    | some bundle => exact (persistRun_kept (hI _ _ (hs record rfl) (.resolve hr))).bind fun _ => trivial

theorem persistOperatorDrainEvent_kept (runId : String) (input : DrainEventInput) :
    Call.Kept I (persistOperatorDrainEvent runId input) := by
  refine .read fun s hs => ?_
  cases s with
  | none => trivial
  | some record => exact (persistRun_kept (hI _ _ (hs record rfl) .drain)).bind fun _ => trivial

/-! ### The pass -/

theorem obtainLease_keeps (options : PassOptions) (env : PassEnvironment) (inspected : ExecutionRunStoredRecord) :
    (obtainLease options env inspected).Keeps I fun r => ∀ record, r = .ok record → I record.value := by
  unfold obtainLease
  dsimp only
  split
  · split
    · rintro record he; cases he
    · split
      · rintro record he; cases he
      · split
        · rintro record he; cases he
        · exact heartbeatLease_keeps hI _ _ _
  · exact acquireLease_keeps hI _ _ _

theorem completePass_kept (env : PassEnvironment) (hold : Hold) (stepId : String) {started : ExecutionRunStoredRecord}
    (hs : I started.value) (result : StepResult) : Call.Kept I (completePass env hold stepId started result) := by
  refine .read fun s hsr => ?_
  have hc : I (s.getD started).value := by
    cases s with
    | none => exact hs
    | some record => exact hsr record rfl
  refine .ofExcept fun cancelled _ => ?_
  cases cancelled with
  | true => trivial
  | false =>
    refine .ofExcept fun settlement _ => ?_
    split
    · exact .ofExcept fun failed hf => .write (hI _ _ hc (.fail hf)) fun _ _ => trivial
    · exact .ofExcept fun succeeded hs => .write (hI _ _ hc (.succeed hs)) fun _ _ => trivial

theorem runStep_kept (env : PassEnvironment) (hold : Hold) (stepId : String) (requires : Bool)
    {leased : ExecutionRunStoredRecord} (hl : I leased.value) : Call.Kept I (runStep env hold stepId requires leased) := by
  refine .ofExcept fun startedBundle hst => ?_
  refine .write (hI _ _ hl (.start hst)) fun started hs => ?_
  refine .ofExcept fun runningStep _ => ?_
  split
  · exact .ofExcept fun cancelled hc => .write (hI _ _ hs (.escalate hc)) fun _ _ => trivial
  · exact .ofExcept fun failed hf => .write (hI _ _ hs (.fail hf)) fun _ _ => trivial
  · refine .ofExcept fun result _ => ?_
    cases result with
    | none =>
      dsimp only
      split
      · trivial
      · exact completePass_kept hI env hold stepId hs _
    | some result => exact completePass_kept hI env hold stepId hs result

theorem failPass_kept (env : PassEnvironment) (hold : Hold) (stepId : String) {leased : ExecutionRunStoredRecord}
    (hl : I leased.value) (e : RuntimeError) : Call.Kept I (failPass env hold stepId leased e) := by
  refine .read fun s hsr => ?_
  have hc : I (s.getD leased).value := by
    cases s with
    | none => exact hl
    | some record => exact hsr record rfl
  refine .ofExcept fun cancelled _ => ?_
  cases cancelled with
  | true => trivial
  | false => exact .ofExcept fun failed hf => .write (hI _ _ hc (.fail hf)) fun _ _ => trivial

theorem releasePass_kept (options : PassOptions) (releasedAt releaseReason : String) (current : ExecutionRunStoredRecord) :
    Call.Kept I (releasePass options releasedAt releaseReason current) := by
  refine .read fun s _ => ?_
  dsimp only
  split
  · trivial
  · split
    · trivial
    · refine (releaseLease_kept hI _ _ _).outcome.bind fun r => ?_
      cases r with
      | ok record => trivial
      | error e =>
        refine .read fun s _ => ?_
        cases s with
        | none => trivial
        | some refreshed =>
          dsimp only
          split <;> trivial

theorem execute_kept (options : PassOptions) (env : PassEnvironment) :
    Call.Kept I (executeStoredExecutionRunOnce options env) := by
  refine .require fun inspected hi => ?_
  split
  · trivial
  · refine .ofExcept fun inspectedStep _ => ?_
    split
    · exact .ofExcept fun failed hf => writeRecord_kept (hI _ _ hi (.fail hf))
    · refine Program.Keeps.bind (fun leased hl => ?_) (fun _ _ => trivial) (obtainLease_keeps hI options env inspected)
      have hlv := hl leased rfl
      refine Call.Kept.ofExcept fun _ _ => ?_
      refine Call.Kept.bind (Call.Kept.outcome (Program.Keeps.orElse (fun e _ => failPass_kept hI env _ _ hlv e)
        (fun _ _ => trivial) (runStep_kept hI env _ _ _ hlv))) fun r => ?_
      cases r with
      | ok ended => exact releasePass_kept hI options _ _ _
      | error e => exact (releasePass_kept hI options _ _ _).bind fun _ => trivial

/-! ### The claim -/

theorem claim_kept (input : SchedulerClaimInput) : Call.Kept I (claimLocalRunWithSchedulerAuthority input) := by
  unfold claimLocalRunWithSchedulerAuthority
  split
  · trivial
  · refine .read fun s hs => ?_
    cases s with
    | none => trivial
    | some inspected =>
      refine .read fun s' _ => ?_
      cases s' with
      | none => trivial
      | some evaluated =>
        dsimp only
        split
        · trivial
        · refine .read fun s'' hs'' => ?_
          cases s'' with
          | none => trivial
          | some latest =>
            dsimp only
            split
            · trivial
            · split
              · trivial
              · split
                · trivial
                · rename_i freed hfree
                  have hf : I freed := by
                    rcases freeBundle_eq_ok hfree with ⟨-, rfl⟩ | ⟨-, rfl⟩
                    · exact hs'' latest rfl
                    · exact hI _ _ (hs'' latest rfl) .expire
                  refine .ofExcept fun claim hc => ?_
                  have hb : I claim.1 := by
                    obtain ⟨_, acquired, ha, -, -, he⟩ := claimBundle_eq_ok hc
                    exact he ▸ hI _ _ (hI _ _ hf (.acquire ha)) .schedule
                  refine (persistRun_kept hb).outcome.bind fun r => ?_
                  cases r with
                  | error e => trivial
                  | ok record => exact .ofExcept fun _ _ => trivial

/-! ### Every process -/

/-- **What a process writes comes by operations from what it has read**, or is a created run. -/
theorem Process.keeps (process : Process) (hnew : ∀ run, process = .create run → I run.bundle) :
    Call.Kept I process.program := by
  cases process with
  | create run => exact .write (hnew run rfl) fun _ _ => trivial
  | execute options env => exact (execute_kept hI options env).bind fun _ => trivial
  | acquire runId input => exact Call.Kept.bind ((acquireLease_keeps hI _ _ _).mono fun _ _ => trivial) fun _ => trivial
  | heartbeat runId input =>
    exact Call.Kept.bind ((heartbeatLease_keeps hI _ _ _).mono fun _ _ => trivial) fun _ => trivial
  | release runId input => exact (releaseLease_kept hI _ _ _).bind fun _ => trivial
  | expire now => exact (expireLeases_kept hI now).bind fun _ => trivial
  | repair runId now readRunner => exact (repair_kept hI runId now readRunner).bind fun _ => trivial
  | recover now => exact (recoverRun_kept hI now).bind fun _ => trivial
  | cancel input => exact (cancelOwnedRun_kept hI input).bind fun _ => trivial
  | resume runId input => exact (resumeHumanEscalation_kept hI runId input).bind fun _ => trivial
  | resolve runId input => exact (resolveLocalAction_kept hI runId input).bind fun _ => trivial
  | drainEvent runId input => exact (persistOperatorDrainEvent_kept hI runId input).bind fun _ => trivial
  | claim input => exact (claim_kept hI input).bind fun _ => trivial

/-- **What the operations keep holds of every stored bundle**, however the writes interleave. -/
theorem stored_of_reachable [DecidableEq ι] {contents : RunContents} {process : ι → Process}
    (h0 : ∀ record ∈ contents, I record.value) (hnew : ∀ i run, process i = .create run → I run.bundle)
    {s : Interleaving ι Point ExecutionRunRecordBundle RuntimeError Reply}
    (h : (interleaved (startedFrom contents process)).Reachable s) : ∀ record ∈ s.contents, I record.value := by
  have hp : ∀ i, ((startedFrom contents process).program i).Keeps I fun _ => True := fun i =>
    Process.keeps hI (process i) (hnew i)
  exact (keeps_of_reachable h0 hp h).contents

end Kept

end AuraCall.Runtime
