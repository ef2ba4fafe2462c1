import AuraCall.Materialization.JobFinality

/-!
# One active job for each source

In a sound run in which no other call writes a job of a source between the scan of a call that creates a job and its
writing, at most one stored job of each source is active, and `createJob` answers with it (`one_active_job_per_source`).
Nothing in the services keeps two calls from scanning before either has written (`twoScans_two_jobs`).
-/

namespace AuraCall.Materialization

open Script

section SingleFlight

variable {π ρ γ : Type}

/-- At most one active job of each source is stored; a job was created only when none was active; and what a call has
returned is stored and of the source that it was asked for. -/
structure SingleFlight (key : JobCall π γ → Option String)
    (events : List (Threads.Event (JobCall π γ) (JobSurroundings ρ γ))) (c : JobThreads π ρ γ) : Prop where
  single : SingleActive c.state.items
  created : ∀ write ∈ c.state.writes, write.basis = none → ∀ job ∈ write.items, ∀ old ∈ write.found,
    old.sourceKey = job.sourceKey → isActiveStatus old.status = false
  replied : ∀ (call : Nat) reused job, c.scripts[call]? = some (.done (.ok (.created reused job))) →
    (∃ input, (Threads.inputs events)[call]? = some input ∧ key input = some job.sourceKey) ∧
      isActiveStatus job.status = true ∧ (∃ job' ∈ c.state.items, Advances job job') ∧
        (reused = false → CreatedBy call job c.state)

/-- The run lemma of both services. -/
theorem singleFlight_of_run {call : Nat → JobCall π γ → ServiceScript π ρ γ (JobReply π ρ γ)}
    {key : JobCall π γ → Option String}
    (h : Threads.Compatible (JobStart True) call disturbJobs (JobInv True) OtherJobs OwnJobs
      fun i input => Replied i (key input))
    {c₀ c : JobThreads π ρ γ} {events : List (Threads.Event (JobCall π γ) (JobSurroundings ρ γ))}
    (hinit : (Threads.system (JobStart True) call disturbJobs).Init c₀)
    (hrun : (Threads.system (JobStart True) call disturbJobs).Run c₀ events c) (hs : Sound c.state)
    (hfresh : ScansFresh c.state) : SingleFlight key events c := by
  have hinv := (Threads.safe_of_reachable h (hrun.reachable (.init hinit))).inv
  refine ⟨hinv.single trivial hs hfresh, hinv.created hs hfresh, fun i reused job hdone => ?_⟩
  obtain ⟨input, s, hinput, hr, hkey, hactive, hstored, hcreated⟩ := Threads.end_of_run h hinit.1 hinit.2 hrun hdone
  exact ⟨⟨input, hinput, hkey⟩, hactive, hstored.moves hr.moves hs,
    fun hnew => lasting_created.others hr (hcreated hnew)⟩

/-- **Single flight**: in both services, at most one active job of each source is stored, and a call is answered with
it, as long as the run is sound and no scan is overtaken. -/
theorem one_active_job_per_source (kind : HistoryKind π) :
    (∀ (c₀ c : JobThreads ArchiveRequest ρ γ) events, (archiveSystem ρ γ (JobStart True)).Init c₀ →
      (archiveSystem ρ γ (JobStart True)).Run c₀ events c → Sound c.state → ScansFresh c.state →
        SingleFlight archiveKey events c) ∧
    ∀ (c₀ c : JobThreads π ρ γ) events, (historySystem kind ρ γ (JobStart True)).Init c₀ →
      (historySystem kind ρ γ (JobStart True)).Run c₀ events c → Sound c.state → ScansFresh c.state →
        SingleFlight (createKey kind) events c :=
  ⟨fun _ _ _ hinit hrun hs hfresh => singleFlight_of_run (archive_compatible fun _ h => h) hinit hrun hs hfresh,
    fun _ _ _ hinit hrun hs hfresh => singleFlight_of_run (history_compatible (fun _ h => h) kind) hinit hrun hs hfresh⟩

end SingleFlight

/-! ## Two requests -/

section Sample

variable {π : Type}

def emptyState : ServiceState π String Unit := ⟨none, [], sampleJobRest⟩

theorem emptyState_start : JobStart True (emptyState (π := π)) :=
  ⟨⟨rfl, List.nodup_nil, rfl, rfl, rfl⟩, fun _ _ h => nomatch h⟩

/-- Whether a call was given an existing job. -/
def reusedBy (c : JobThreads π String Unit) (call : Nat) : Option Bool :=
  match jobReply c call with
  | some (.created reused _) => some reused
  | _ => none

/-- Two requests, one after the other. -/
def requestsInTurn (request : π) : List (Threads.Event (JobCall π Unit) (JobSurroundings String Unit)) :=
  .start (.createJob request ()) :: List.replicate 7 (.act 0) ++
    .start (.createJob request ()) :: List.replicate 3 (.act 1)

/-- Two requests that both scan before either writes. -/
def requestsAtOnce (request : π) : List (Threads.Event (JobCall π Unit) (JobSurroundings String Unit)) :=
  [.start (.createJob request ()), .start (.createJob request ())] ++ List.replicate 4 (.act 0) ++
    .other { sampleJobSurroundings with generateId := "other" } :: List.replicate 4 (.act 1) ++
      List.replicate 3 (.act 0) ++ List.replicate 3 (.act 1)

/-- The second request is answered with the job of the first. -/
theorem secondRequest_reuses : ∃ c, archiveRun ⟨emptyState, []⟩ (requestsInTurn sampleArchiveRequest) = some c ∧
    reusedBy c 0 = some false ∧ reusedBy c 1 = some true ∧
      SingleFlight archiveKey (requestsInTurn sampleArchiveRequest) c := by
  have hobserved : ((archiveRun ⟨emptyState, []⟩ (requestsInTurn sampleArchiveRequest)).bind fun c =>
      if Sound c.state ∧ ScansFresh c.state then (reusedBy c 0).bind fun first => (reusedBy c 1).map (first, ·)
      else none) = some (false, true) := by decide +kernel
  obtain ⟨c, hc, hobserved⟩ := Option.bind_eq_some_iff.1 hobserved
  split at hobserved
  · rename_i hs
    obtain ⟨first, hfirst, hsecond⟩ := Option.bind_eq_some_iff.1 hobserved
    obtain ⟨second, hsecond, heq⟩ := Option.map_eq_some_iff.1 hsecond
    cases heq
    refine ⟨c, hc, hfirst, hsecond, ?_⟩
    exact (one_active_job_per_source sampleKind).1 _ c _ ⟨emptyState_start, rfl⟩ (TransitionSystem.run_execute hc) hs.1 hs.2
  · cases hobserved

/-- The first two jobs are active and of one source. -/
def twoActive (jobs : List (MaterializationJob π String Unit)) : Bool :=
  match jobs with
  | first :: second :: _ => isActiveStatus first.status && isActiveStatus second.status &&
    second.sourceKey == first.sourceKey && second.id != first.id
  | _ => false

theorem not_single_of_twoActive {jobs : List (MaterializationJob π String Unit)} (h : twoActive jobs = true) :
    ¬SingleActive jobs := by
  unfold twoActive at h
  split at h
  · rename_i first second rest
    simp only [Bool.and_eq_true, beq_iff_eq, bne_iff_ne] at h
    intro hsingle
    have hsame := hsingle first List.mem_cons_self second (List.mem_cons_of_mem _ List.mem_cons_self) h.1.1.1 h.1.1.2 h.1.2
    exact h.2 (congrArg MaterializationJob.id hsame)
  · cases h

/-- Both calls find the source free, and each writes a job. -/
theorem twoScans_two_jobs :
    (¬∀ c, (archiveSystem String Unit (JobStart True)).Reachable c → SingleActive c.state.items) ∧
    ¬∀ c, (historySystem sampleKind String Unit (JobStart True)).Reachable c → SingleActive c.state.items := by
  refine ⟨fun hclaim => ?_, fun hclaim => ?_⟩
  · have hobserved : ((archiveRun ⟨emptyState, []⟩ (requestsAtOnce sampleArchiveRequest)).map fun c =>
        twoActive c.state.items) = some true := by decide +kernel
    obtain ⟨c, hc, htwo⟩ := Option.map_eq_some_iff.1 hobserved
    exact not_single_of_twoActive htwo
      (hclaim c (TransitionSystem.reachable_execute (.init ⟨emptyState_start, rfl⟩) hc))
  · have hobserved : ((historyRun ⟨emptyState, []⟩ (requestsAtOnce "source")).map fun c =>
        twoActive c.state.items) = some true := by decide +kernel
    obtain ⟨c, hc, htwo⟩ := Option.map_eq_some_iff.1 hobserved
    exact not_single_of_twoActive htwo
      (hclaim c (TransitionSystem.reachable_execute (.init ⟨emptyState_start, rfl⟩) hc))

end Sample

end AuraCall.Materialization
