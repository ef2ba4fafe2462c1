import AuraCall.Runtime.Effects

/-!
# What the processes guarantee

From the contents it has last seen, relying on the others, every process writes only by its effects (`Process.within`).
A call reads, computes, and writes with the revision it has read, so a write that is stored replaces the record the call
has read.
-/

namespace AuraCall.Runtime

open RevisionedStore

/-- From the contents last seen the writes of the call are effects of the process, and its result has `Q` with the
contents it has seen last. -/
def Call.Within {α : Type} (fenced : Prop) (process : Process) (Q : Except RuntimeError α → RunContents → Prop)
    (call : Call α) (s : RunContents) : Prop :=
  call.Ensures (reliance fenced) (Effect fenced process) Q s

variable {fenced : Prop} {process : Process} {α β : Type}

/-! ## Rules of the calls -/

section Rules

variable {Q : Except RuntimeError β → RunContents → Prop} {s : RunContents}

theorem Call.Within.bind {P : Except RuntimeError α → RunContents → Prop} {call : Call α} {next : α → Call β}
    (h : Call.Within fenced process P call s) (hn : ∀ a s', P (.ok a) s' → Call.Within fenced process Q (next a) s')
    (he : ∀ e s', P (.error e) s' → Q (.error e) s') : Call.Within fenced process Q (call >>= next) s :=
  Program.Ensures.bind hn he h

theorem Call.Within.mono {Q Q' : Except RuntimeError α → RunContents → Prop} {call : Call α}
    (h : Call.Within fenced process Q call s) (hQ : ∀ r s', Q r s' → Q' r s') : Call.Within fenced process Q' call s :=
  Program.Ensures.mono (fun _ _ _ hg => hg) hQ h

theorem Call.Within.read {point : Point} {next : Option ExecutionRunStoredRecord → Call β}
    (h : ∀ s', (reliance fenced).holds point s s' → Call.Within fenced process Q (next s') s') :
    Call.Within fenced process Q (readRun point >>= next) s := h

theorem Call.Within.require {point : Point} {runId : String} {next : ExecutionRunStoredRecord → Call β}
    (he : ∀ e s', Q (.error e) s') (h : ∀ record, (reliance fenced).holds point s (some record) →
      Call.Within fenced process Q (next record) (some record)) :
    Call.Within fenced process Q (requireStoredRecord point runId >>= next) s := by
  intro s' hs
  cases s' with
  | none => exact he _ _
  | some record => exact h record hs

theorem Call.Within.ofExcept {x : Except RuntimeError α} {next : α → Call β} (he : ∀ e, Q (.error e) s)
    (h : ∀ a, x = .ok a → Call.Within fenced process Q (next a) s) :
    Call.Within fenced process Q (Program.ofExcept x >>= next) s := by
  cases x with
  | error e => exact he e
  | ok a => exact h a rfl

variable {record : ExecutionRunStoredRecord} {point : Point} {bundle : ExecutionRunRecordBundle}

/-- **A write with the revision last seen replaces the record last seen.** -/
theorem writeRecord_within {Q : Except RuntimeError ExecutionRunStoredRecord → RunContents → Prop}
    (h : ∀ stored : ExecutionRunStoredRecord, stored.value = bundle →
      Effect fenced process point (some record) (some stored) ∧ Q (.ok stored) (some stored))
    (he : ∀ e s', (reliance fenced).holds point (some record) s' → Q (.error e) s') :
    Call.Within fenced process Q (writeRecord point bundle (some record.revision)) (some record) := by
  intro s' hs
  refine ⟨fun found _ => he _ s' hs, fun stored hw => ?_⟩
  obtain rfl := hs.1.later.eq_of_attempt hw
  exact h stored (by rw [(attempt_eq_ok hw).2])

theorem Call.Within.write {next : ExecutionRunStoredRecord → Call β}
    (h : ∀ stored : ExecutionRunStoredRecord, stored.value = bundle →
      Effect fenced process point (some record) (some stored) ∧ Call.Within fenced process Q (next stored) (some stored))
    (he : ∀ e s', (reliance fenced).holds point (some record) s' → Q (.error e) s') :
    Call.Within fenced process Q (writeRecord point bundle (some record.revision) >>= next) (some record) := by
  refine Call.Within.bind (P := fun r s' => (∀ stored, r = .ok stored → Call.Within fenced process Q (next stored) s') ∧
    ∀ e, r = .error e → Q (.error e) s') (writeRecord_within (fun stored hv => ?_) fun e s' hs => ?_)
    (fun stored s' hr => hr.1 stored rfl) fun e s' hr => hr.2 e rfl
  · exact ⟨(h stored hv).1, fun stored' hr => Except.ok.inj hr ▸ (h stored hv).2, nofun⟩
  · exact ⟨nofun, fun e' hr => Except.error.inj hr ▸ he e s' hs⟩

end Rules

/-! ## Calls without a pass -/

/-- Within the effects of the process, with any result. -/
abbrev Call.Free {α : Type} (fenced : Prop) (process : Process) (call : Call α) (s : RunContents) : Prop :=
  call.Within fenced process (fun _ _ => True) s

theorem Call.Free.bind {call : Call α} {next : α → Call β} {s : RunContents} (h : call.Free fenced process s)
    (hn : ∀ a s', (next a).Free fenced process s') : Call.Free fenced process (call >>= next) s :=
  Call.Within.bind h (fun a s' _ => hn a s') fun _ _ _ => trivial

theorem Call.Free.outcome {call : Call α} {s : RunContents} (h : call.Free fenced process s) :
    Call.Free fenced process call.outcome s := Call.Within.mono (Program.Ensures.outcome h) fun _ _ _ => trivial

variable {record : ExecutionRunStoredRecord} {bundle : ExecutionRunRecordBundle} {s : RunContents}

theorem writeRecord_free {point : Point} (h : ∀ stored : ExecutionRunStoredRecord, stored.value = bundle →
      Effect fenced process point (some record) (some stored)) :
    Call.Free fenced process (writeRecord point bundle (some record.revision)) (some record) :=
  writeRecord_within (fun stored hv => ⟨h stored hv, trivial⟩) fun _ _ _ => trivial

theorem persistRun_free {runId : String} (h : ∀ stored : ExecutionRunStoredRecord, stored.value = bundle →
      Effect fenced process .control (some record) (some stored)) :
    Call.Free fenced process (persistRun runId bundle (some record.revision)) (some record) := by
  unfold persistRun
  split
  · trivial
  · exact writeRecord_free h

theorem rewriteRun_within {point : Point} {runId : String}
    {operation : ExecutionRunRecordBundle → Except RuntimeError ExecutionRunRecordBundle}
    {Q : Except RuntimeError ExecutionRunStoredRecord → RunContents → Prop}
    (h : ∀ record : ExecutionRunStoredRecord, (reliance fenced).holds point s (some record) → ∀ bundle,
      operation record.value = .ok bundle → ∀ stored : ExecutionRunStoredRecord, stored.value = bundle →
      Effect fenced process point (some record) (some stored) ∧ Q (.ok stored) (some stored))
    (he : ∀ e s', Q (.error e) s') : Call.Within fenced process Q (rewriteRun point runId operation) s := by
  intro s' hs
  cases s' with
  | none => exact he _ _
  | some record =>
    show Call.Within fenced process Q (Program.ofExcept (operation record.value) >>= fun bundle =>
      writeRecord point bundle (some record.revision)) (some record)
    refine .ofExcept (fun e => he e _) fun bundle ho => ?_
    exact writeRecord_within (h record hs bundle ho) fun e s'' _ => he e s''

theorem rewriteRun_free {point : Point} {runId : String}
    {operation : ExecutionRunRecordBundle → Except RuntimeError ExecutionRunRecordBundle}
    (h : ∀ record stored : ExecutionRunStoredRecord, operation record.value = .ok stored.value →
      Effect fenced process point (some record) (some stored)) :
    Call.Free fenced process (rewriteRun point runId operation) s :=
  rewriteRun_within (fun record _ _ ho stored hv => ⟨h record stored (hv ▸ ho), trivial⟩) fun _ _ => trivial

theorem map_bundle_eq_ok {x : Except RuntimeError LeaseMutationResult} {bundle : ExecutionRunRecordBundle}
    (h : x.map (·.bundle) = .ok bundle) : ∃ result, x = .ok result ∧ result.bundle = bundle := by
  cases x with
  | error e => cases h
  | ok result => exact ⟨result, rfl, by simpa [Except.map] using h⟩

theorem acquireLease_free (point : Point) (runId : String) (input : AcquireInput) :
    Call.Free fenced process (acquireLease point runId input) s := by
  refine rewriteRun_free fun record stored h => ?_
  obtain ⟨result, hr, he⟩ := map_bundle_eq_ok h
  exact .keeps (he ▸ acquireExecutionRunLease_keepsSteps hr)

theorem heartbeatLease_free (point : Point) (runId : String) (input : HeartbeatInput) :
    Call.Free fenced process (heartbeatLease point runId input) s := by
  refine rewriteRun_free fun record stored h => ?_
  obtain ⟨result, hr, he⟩ := map_bundle_eq_ok h
  exact .keeps (he ▸ heartbeatExecutionRunLease_keepsSteps hr)

theorem releaseLease_free (point : Point) (runId : String) (input : ReleaseInput) :
    Call.Free fenced process (releaseLease point runId input) s := by
  refine rewriteRun_free fun record stored h => ?_
  obtain ⟨result, hr, he⟩ := map_bundle_eq_ok h
  exact .keeps (he ▸ releaseExecutionRunLease_keepsSteps hr)

theorem createRun_free (run : NewRun) : Call.Free fenced (.create run) (createRun run.bundle) none := by
  intro s' hs
  refine ⟨fun _ _ => trivial, fun stored hw => ?_⟩
  obtain rfl := hs.1.later.eq_of_attempt hw
  exact ⟨.create (by rw [(attempt_eq_ok hw).2]), trivial⟩

theorem expireLeases_free (now : String) : Call.Free fenced process (expireLeases now) s := by
  refine .read fun s' _ => ?_
  cases s' with
  | none => trivial
  | some record =>
    dsimp only
    split
    · trivial
    · refine Call.Free.bind (writeRecord_free fun stored hv => .keeps ?_) fun _ _ => trivial
      rw [hv]
      exact expireExecutionRunLeases_keepsSteps _ _

theorem repair_free (runId now : String) (readRunner : String → Option ExecutionRunnerRecord) :
    Call.Free fenced process (repairStoredExecutionRunLease runId now readRunner) s := by
  refine .read fun s' _ => ?_
  cases s' with
  | none => trivial
  | some record =>
    dsimp only
    split
    · trivial
    · exact (expireLeases_free now).bind fun _ _ => trivial

theorem recoverAndPersist_free (now : Nat → Nat → String) : ∀ (attempts : Nat) (record : ExecutionRunStoredRecord),
    Call.Free fenced (.recover now) (recoverAndPersistStrandedRun now attempts record) (some record)
  | 0, _ => trivial
  | attempts + 1, record => by
    unfold recoverAndPersistStrandedRun
    cases hrec : recoverStrandedRunningExecutionRun record.value (now attempts) with
    | none => trivial
    | some recovered =>
      refine (persistRun_free fun stored hv => .recover hrec hv).outcome.bind fun r s' => ?_
      cases r with
      | ok record => trivial
      | error e =>
        dsimp only
        split
        · trivial
        · refine .read fun s'' _ => ?_
          cases s'' with
          | none => trivial
          | some reread =>
            dsimp only
            split
            · trivial
            · exact recoverAndPersist_free now attempts reread

theorem recoverRun_free (now : Nat → Nat → String) : Call.Free fenced (.recover now) (recoverRun now) s := by
  refine .read fun s' _ => ?_
  cases s' with
  | none => trivial
  | some record =>
    dsimp only
    split
    · trivial
    · exact recoverAndPersist_free now 2 record

theorem persistCancelledRun_free (input : CancelOwnedRunInput) (record : ExecutionRunStoredRecord)
    (runId cancelledAt note : String) :
    Call.Free fenced (.cancel input) (persistCancelledRun record runId cancelledAt note) (some record) := by
  refine .ofExcept (fun _ => trivial) fun b hb => ?_
  refine (persistRun_free fun stored hv => .cancel (hv ▸ hb)).outcome.bind fun r s' => ?_
  cases r with
  | ok record => trivial
  | error e =>
    refine .read fun s'' _ => ?_
    cases s'' with
    | none => trivial
    | some latest =>
      dsimp only
      split <;> trivial

theorem cancelOwnedRun_free (input : CancelOwnedRunInput) : Call.Free fenced (.cancel input) (cancelOwnedRun input) s := by
  refine .read fun s' _ => ?_
  cases s' with
  | none => trivial
  | some record =>
    dsimp only
    cases getActiveExecutionRunLease record.value with
    | none =>
      dsimp only
      split
      · trivial
      · split
        · refine (persistCancelledRun_free input record _ _ _).bind fun race _ => ?_
          cases race <;> trivial
        · trivial
    | some activeLease =>
      dsimp only
      split
      · trivial
      · refine (persistCancelledRun_free input record _ _ _).bind fun race _ => ?_
        cases race with
        | some race => trivial
        | none =>
          refine (releaseLease_free _ _ _).outcome.bind fun r _ => ?_
          cases r with
          | ok record => trivial
          | error e =>
            refine .read fun s'' _ => ?_
            cases s'' with
            | none => trivial
            | some latest =>
              dsimp only
              split <;> trivial

theorem resumeHumanEscalation_free (runId : String) (input : ResumeInput) :
    Call.Free fenced (.resume runId input) (resumeHumanEscalation runId input) s :=
  rewriteRun_free fun _ _ h => .resume h

theorem resolveLocalAction_free (runId : String) (input : ResolveInput) :
    Call.Free fenced process (resolveLocalAction runId input) s := by
  refine .read fun s' _ => ?_
  cases s' with
  | none => trivial
  | some record =>
    dsimp only
    cases hr : resolveLocalActionRequest record.value input with
    | none => trivial
    | some bundle =>
      refine (persistRun_free fun stored hv => .keeps ?_).bind fun _ _ => trivial
      rw [hv]
      exact (resolveLocalActionRequest_eq_some hr).1

theorem persistOperatorDrainEvent_free (runId : String) (input : DrainEventInput) :
    Call.Free fenced process (persistOperatorDrainEvent runId input) s := by
  refine .read fun s' _ => ?_
  cases s' with
  | none => trivial
  | some record =>
    refine (persistRun_free fun stored hv => .keeps ?_).bind fun _ _ => trivial
    rw [hv]
    exact ⟨rfl, rfl⟩

theorem claim_free (input : SchedulerClaimInput) :
    Call.Free fenced process (claimLocalRunWithSchedulerAuthority input) s := by
  unfold claimLocalRunWithSchedulerAuthority
  split
  · trivial
  · refine .read fun s₁ _ => ?_
    cases s₁ with
    | none => trivial
    | some inspected =>
      refine .read fun s₂ _ => ?_
      cases s₂ with
      | none => trivial
      | some evaluated =>
        dsimp only
        split
        · trivial
        · refine .read fun s₃ _ => ?_
          cases s₃ with
          | none => trivial
          | some latest =>
            dsimp only
            split
            · trivial
            · split
              · trivial
              · split
                · trivial
                · rename_i freed hfree
                  have hf : KeepsSteps latest.value freed := by
                    rcases freeBundle_eq_ok hfree with ⟨-, rfl⟩ | ⟨-, rfl⟩
                    · exact ⟨rfl, rfl⟩
                    · exact expireExecutionRunLeases_keepsSteps _ _
                  refine .ofExcept (fun _ => trivial) fun claim hc => ?_
                  obtain ⟨_, acquired, ha, -, -, he⟩ := claimBundle_eq_ok hc
                  have hk : KeepsSteps latest.value claim.1 := by
                    rw [he]
                    exact hf.trans ((acquireExecutionRunLease_keepsSteps ha).trans (withLeases_keepsSteps _ _ _ _))
                  refine (persistRun_free fun stored hv => .keeps (hv ▸ hk)).outcome.bind fun r _ => ?_
                  cases r with
                  | error e => trivial
                  | ok record => exact .ofExcept (fun _ => trivial) fun _ _ => trivial

/-! ## The pass -/

/-- A coherent record is stored, and the pass may write the outcome of its step. -/
structure Ready (fenced : Prop) (hold : Hold) (s : RunContents) : Prop where
  present : ∃ record, s = some record
  coherent : CoherentRun s
  licensed : Licensed fenced hold s

/-- A pass stays ready while it is under its lease. -/
theorem Ready.rely {hold : Hold} {s s' : RunContents} {point : Point} (h : Ready fenced hold s)
    (hs : (reliance fenced).holds point s s') (hp : point.underLease = some hold) : Ready fenced hold s' := by
  refine ⟨?_, hs.1.coherent h.coherent, hs.2 hold hp h.licensed⟩
  obtain ⟨record, rfl⟩ := h.present
  cases s' with
  | some record' => exact ⟨record', rfl⟩
  | none =>
    rcases hs.1.later with he | hlt
    · cases he
    · exact absurd hlt (Nat.not_lt_zero _)

/-- Where an error leaves a pass: it may still write that its step failed. -/
def PassState (fenced : Prop) (hold : Hold) : Except RuntimeError PassEnd → RunContents → Prop
  | .ok _, _ => True
  | .error _, s => Ready fenced hold s

theorem passCancelled_eq_false {bundle : ExecutionRunRecordBundle} {stepId : String}
    (h : passCancelled bundle stepId = .ok false) : bundle.run.status ≠ .cancelled := by
  intro hc
  rw [passCancelled, if_pos hc] at h
  cases h

variable {options : PassOptions} {env : PassEnvironment} {stepId : String}

theorem completePass_within {started : ExecutionRunStoredRecord} (h : Ready fenced options.hold (some started))
    (result : StepResult) :
    Call.Within fenced (.execute options env) (PassState fenced options.hold)
      (completePass env options.hold stepId started result) (some started) := by
  refine .read fun s' hs => ?_
  have hr := h.rely hs rfl
  obtain ⟨current, rfl⟩ := hr.present
  refine .ofExcept (fun _ => hr) fun cancelled hc => ?_
  cases cancelled with
  | true => trivial
  | false =>
    have hn : current.value.run.status ≠ .cancelled := passCancelled_eq_false hc
    refine .ofExcept (fun _ => hr) fun settlement _ => ?_
    split
    · refine .ofExcept (fun _ => hr) fun failed hf => ?_
      exact .write (fun stored hv => ⟨.fail hr.licensed hn (hv ▸ hf), trivial⟩) fun _ _ hs' => hr.rely hs' rfl
    · refine .ofExcept (fun _ => hr) fun succeeded hsu => ?_
      exact .write (fun stored hv => ⟨.succeed hr.licensed hn (hv ▸ hsu), trivial⟩) fun _ _ hs' => hr.rely hs' rfl

theorem Ready.start {leased started : ExecutionRunStoredRecord} {startedAt : String}
    (h : Ready fenced options.hold (some leased)) (hreach : Reached leased.value.steps stepId)
    (hs : startExecutionRunStep leased.value stepId startedAt = .ok started.value) :
    Ready fenced options.hold (some started) := by
  have hc := h.coherent leased rfl
  refine ⟨⟨started, rfl⟩, fun record hm => ?_, fun hf => ?_⟩
  · obtain rfl : started = record := by simpa using hm
    exact (hc.start hreach hs).1.coherent
  · obtain ⟨record, hm, hl⟩ := h.licensed hf
    obtain rfl : leased = record := by simpa using hm
    obtain ⟨lease, hactive, hid⟩ := hl.resolve_right (hc.start hreach hs).2
    obtain ⟨-, -, hr⟩ := startExecutionRunStep_eq_ok hs
    refine ⟨started, rfl, .inl ⟨lease, ?_, hid⟩⟩
    rw [getActiveExecutionRunLease, hr.leases]
    exact hactive

theorem runStep_within {leased : ExecutionRunStoredRecord} (h : Ready fenced options.hold (some leased))
    (hreach : Reached leased.value.steps stepId) (requires : Bool) :
    Call.Within fenced (.execute options env) (PassState fenced options.hold)
      (runStep env options.hold stepId requires leased) (some leased) := by
  refine .ofExcept (fun _ => h) fun startedBundle hst => ?_
  refine .write (fun started hv => ⟨.start hreach (hv ▸ hst), ?_⟩) fun _ _ hs => h.rely hs rfl
  rw [← hv] at hst
  have hr := h.start hreach hst
  have hn : started.value.run.status ≠ .cancelled := by
    rw [(startExecutionRunStep_eq_ok hst).2.1]
    decide
  refine .ofExcept (fun _ => hr) fun runningStep _ => ?_
  split
  · refine .ofExcept (fun _ => hr) fun cancelled hc => ?_
    exact .write (fun stored hv => ⟨.escalate (hv ▸ hc), trivial⟩) fun _ _ hs => hr.rely hs rfl
  · refine .ofExcept (fun _ => hr) fun failed hf => ?_
    exact .write (fun stored hv => ⟨.fail hr.licensed hn (hv ▸ hf), trivial⟩) fun _ _ hs => hr.rely hs rfl
  · refine .ofExcept (fun _ => hr) fun result _ => ?_
    cases result with
    | none =>
      dsimp only
      split
      · exact hr
      · exact completePass_within hr _
    | some result => exact completePass_within hr result

theorem failPass_within {leased : ExecutionRunStoredRecord} {s : RunContents} (h : Ready fenced options.hold s)
    (error : RuntimeError) :
    Call.Free fenced (.execute options env) (failPass env options.hold stepId leased error) s := by
  refine .read fun s' hs => ?_
  have hr := h.rely hs rfl
  obtain ⟨current, rfl⟩ := hr.present
  refine .ofExcept (fun _ => trivial) fun cancelled hc => ?_
  cases cancelled with
  | true => trivial
  | false =>
    have hn : current.value.run.status ≠ .cancelled := passCancelled_eq_false hc
    refine .ofExcept (fun _ => trivial) fun failed hf => ?_
    exact .write (fun stored hv => ⟨.fail hr.licensed hn (hv ▸ hf), trivial⟩) fun _ _ _ => trivial

theorem releasePass_free (releasedAt releaseReason : String) (current : ExecutionRunStoredRecord) (s : RunContents) :
    Call.Free fenced process (releasePass options releasedAt releaseReason current) s := by
  refine .read fun s' _ => ?_
  dsimp only
  split
  · trivial
  · split
    · trivial
    · refine (releaseLease_free _ _ _).outcome.bind fun r _ => ?_
      cases r with
      | ok record => trivial
      | error e =>
        refine .read fun s'' _ => ?_
        cases s'' with
        | none => trivial
        | some refreshed =>
          dsimp only
          split <;> trivial

/-- What a pass has when it has obtained its lease. -/
def Obtained (fenced : Prop) (hold : Hold) (stepId : String) :
    Except RuntimeError ExecutionRunStoredRecord → RunContents → Prop
  | .ok leased, s => s = some leased ∧ Ready fenced hold (some leased) ∧ Reached leased.value.steps stepId
  | .error _, _ => True

/-- A lease that is acquired or renewed on a run whose step has been reached. -/
theorem obtained_of_keepsSteps {hold : Hold} {record stored : ExecutionRunStoredRecord}
    (hc : CoherentRun (some record)) (hreach : ReachedRun stepId (some record))
    (hk : KeepsSteps record.value stored.value) (hl : Licensed fenced hold (some stored)) :
    Obtained fenced hold stepId (.ok stored) (some stored) := by
  obtain ⟨record', hm, hreach⟩ := hreach
  obtain rfl : record = record' := by simpa using hm
  have ha := (hc record rfl).congr hk.steps hk.status
  refine ⟨rfl, ⟨⟨stored, rfl⟩, fun stored' hm => ?_, hl⟩, ha.reached stepId hreach⟩
  obtain rfl : stored = stored' := by simpa using hm
  exact ha.coherent

theorem obtainLease_within {inspected : ExecutionRunStoredRecord} (hc : CoherentRun (some inspected))
    (hreach : ReachedRun stepId (some inspected)) :
    Call.Within fenced process (Obtained fenced options.hold stepId) (obtainLease options env inspected)
      (some inspected) := by
  unfold obtainLease
  dsimp only
  split
  · rename_i existingLeaseId hex
    have hid : options.hold.leaseId = existingLeaseId := by
      obtain ⟨he, -⟩ := Option.filter_eq_some_iff.mp hex
      simp [PassOptions.hold, he]
    split
    · trivial
    · rename_i active hactive
      split
      · trivial
      · rename_i hactiveId
        split
        · trivial
        · rename_i howner
          have hheld : Licensed fenced options.hold (some inspected) := fun _ =>
            ⟨inspected, rfl, .inl ⟨active, hactive, by rw [hid]; exact not_not.mp hactiveId, not_not.mp howner⟩⟩
          refine rewriteRun_within (fun record hs bundle ho stored hv => ?_) fun _ _ => trivial
          obtain ⟨result, hr, he⟩ := map_bundle_eq_ok ho
          have hk : KeepsSteps record.value stored.value := by
            rw [hv, ← he]
            exact heartbeatExecutionRunLease_keepsSteps hr
          refine ⟨.keeps hk, obtained_of_keepsSteps (hs.1.coherent hc) (hs.1.reached hc _ hreach) hk fun hf => ?_⟩
          obtain ⟨record', hm, hl⟩ := hs.2 options.hold rfl hheld hf
          obtain rfl : record = record' := by simpa using hm
          refine ⟨stored, rfl, ?_⟩
          rcases hl with ⟨lease, hl, hlid, hlo⟩ | hcancel
          · obtain ⟨lease', hl', hlid', hlo'⟩ := heartbeatExecutionRunLease_active hr hl (hlid.trans hid)
            rw [hv, ← he]
            exact .inl ⟨lease', hl', hlid'.trans hlid, hlo'.trans hlo⟩
          · exact .inr (hk.status.trans hcancel)
  · refine rewriteRun_within (fun record hs bundle ho stored hv => ?_) fun _ _ => trivial
    obtain ⟨result, hr, he⟩ := map_bundle_eq_ok ho
    have hk : KeepsSteps record.value stored.value := by
      rw [hv, ← he]
      exact acquireExecutionRunLease_keepsSteps hr
    refine ⟨.keeps hk, obtained_of_keepsSteps (hs.1.coherent hc) (hs.1.reached hc _ hreach) hk fun _ => ?_⟩
    obtain ⟨-, -, hlid, hlo, -⟩ := acquireExecutionRunLease_eq_ok hr
    refine ⟨stored, rfl, .inl ⟨result.lease, ?_, hlid, hlo⟩⟩
    rw [hv, ← he]
    exact acquireExecutionRunLease_active hr

theorem execute_free {s : RunContents} (hc : CoherentRun s) :
    Call.Free fenced (.execute options env) (executeStoredExecutionRunOnce options env) s := by
  refine Call.Within.require (fun _ _ => trivial) fun inspected hs => ?_
  split
  · trivial
  · rename_i stepId hnext
    refine .ofExcept (fun _ => trivial) fun inspectedStep _ => ?_
    split
    · refine .ofExcept (fun _ => trivial) fun failed hf => ?_
      exact writeRecord_free fun stored hv => .refuse hnext (hv ▸ hf)
    · have hreach : ReachedRun stepId (some inspected) := ⟨inspected, rfl, reached_of_nextRunnableStepId hnext⟩
      refine Call.Within.bind (obtainLease_within (hs.1.coherent hc) hreach) ?_ fun _ _ _ => trivial
      rintro leased s₂ ⟨rfl, hready, hreached⟩
      refine Call.Within.ofExcept (fun _ => trivial) fun _ _ => ?_
      refine Call.Free.bind (Call.Free.outcome (Program.Ensures.orElse (fun e s₃ hr => failPass_within hr e)
        (fun _ _ _ => trivial) (runStep_within hready hreached _))) fun r s₄ => ?_
      cases r with
      | ok ended => exact releasePass_free _ _ _ _
      | error e => exact (releasePass_free _ _ _ _).bind fun _ _ => trivial

/-! ## Every process -/

/-- **What every process guarantees**: it writes only by its effects. -/
theorem Process.within (process : Process) : Call.Free fenced process process.program none := by
  cases process with
  | create run => exact (createRun_free run).bind fun _ _ => trivial
  | execute options env => exact (execute_free fun _ hm => by cases hm).bind fun _ _ => trivial
  | acquire runId input => exact (acquireLease_free _ _ _).bind fun _ _ => trivial
  | heartbeat runId input => exact (heartbeatLease_free _ _ _).bind fun _ _ => trivial
  | release runId input => exact (releaseLease_free _ _ _).bind fun _ _ => trivial
  | expire now => exact (expireLeases_free now).bind fun _ _ => trivial
  | repair runId now readRunner => exact (repair_free runId now readRunner).bind fun _ _ => trivial
  | recover now => exact (recoverRun_free now).bind fun _ _ => trivial
  | cancel input => exact (cancelOwnedRun_free input).bind fun _ _ => trivial
  | resume runId input => exact (resumeHumanEscalation_free runId input).bind fun _ _ => trivial
  | resolve runId input => exact (resolveLocalAction_free runId input).bind fun _ _ => trivial
  | drainEvent runId input => exact (persistOperatorDrainEvent_free runId input).bind fun _ _ => trivial
  | claim input => exact (claim_free input).bind fun _ _ => trivial

section System

variable {ι : Type} [DecidableEq ι] {process : ι → Process}

/-- In a fenced run no step takes away the lease of a pass that is at a call under it. -/
def KeepsLicences (fenced : Prop) (c : RunConfig ι) (i : ι) : Prop :=
  ∀ stored, c.commits i = some stored → ∀ j, j ≠ i → ∀ point hold, (c.program j).point = some point →
    point.underLease = some hold → Licensed fenced hold c.contents → Licensed fenced hold (some stored)

/-- **Every process is sound**, in the runs whose steps keep the licences. -/
theorem sound_processes {c : RunConfig ι}
    (h : ((atomic (initialRun process)).restrict (KeepsLicences fenced)).Reachable c) (i : ι) :
    Sound (fun _ => reliance fenced) (fun i => Effect fenced (process i)) (fun _ _ _ => True) c i := by
  have h0 : ∀ i, ((initialRun process).program i).Ensures (reliance fenced) (Effect fenced (process i))
      (fun _ _ => True) (initialRun process).contents := fun i => Process.within (process i)
  refine sound_of_reachable (R := fun _ => reliance fenced) (G := fun i => Effect fenced (process i))
    (Q := fun _ _ _ => True) h0 ?_ h i
  intro c i p stored hok _ hw hlt hg j hj q hq
  exact ⟨hg.orderly (.inr hlt), fun hold hu hl => hok stored hw j hj q hold hq hu hl⟩

/-- **A stored run is coherent.** -/
theorem coherent_of_reachable {c : RunConfig ι}
    (h : ((atomic (initialRun process)).restrict (KeepsLicences fenced)).Reachable c) : CoherentRun c.contents := by
  refine h.invariant (I := fun c => CoherentRun c.contents) ?_ ?_
  · rintro c rfl record hm
    cases hm
  · rintro c i c' hr hc ⟨-, ha⟩
    rcases Config.call_cases ha with ⟨_, _, _, rfl⟩ | ⟨_, _, _, _, _, _, _, rfl⟩ |
      ⟨p, expected, value, next, stored, hp, hw, rfl⟩
    · exact hc
    · exact hc
    · have hg := (sound_processes hr i).guarantee hp hw
      have hlt : revisionOf c.contents < revisionOf (some stored) := by
        rw [(attempt_eq_ok hw).2]
        exact Nat.lt_succ_self _
      exact (hg.orderly (.inr hlt)).coherent hc

end System

end AuraCall.Runtime
