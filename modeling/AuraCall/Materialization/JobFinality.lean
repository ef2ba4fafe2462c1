import AuraCall.Materialization.JobCalls

/-!
# Settled jobs stay as they are

In a sound run a stored job that is not active is never changed, and no provider work is started for a job once
`cancelJob` has returned it as cancelled (`settled_jobs_stay`). Every writer replaces a whole document and a whole job by
what it has read before, so without `Sound` this fails: a run that has read the queued job before it was cancelled writes
it as running (`overtakenCancellation_works`).
-/

namespace AuraCall.Materialization

open Script

/-! ## What stays -/

section Finality

variable {π ρ γ : Type} {kind : HistoryKind π}

/-- The scripts of a service, and what they share. -/
abbrev JobThreads (π ρ γ : Type) := Threads (ServiceState π ρ γ) Thrown (JobReply π ρ γ)

/-- What was not active in the first state is in the second as it was, and what was returned as cancelled has no new
work. -/
structure JobsFinal (c c' : JobThreads π ρ γ) : Prop where
  settled : ∀ job ∈ c.state.items, isActiveStatus job.status = false →
    job ∈ c'.state.items ∧ ∀ other ∈ c'.state.items, other.id = job.id → other = job
  cancelled : ∀ (call : Nat) job, c.scripts[call]? = some (.done (.ok (.cancelled job))) →
    ∃ new, c'.state.rest.work = c.state.rest.work ++ new ∧ ∀ started ∈ new, started.jobId ≠ job.id

/-- A job that is stored has not changed when it was not active. -/
theorem stored_of_inactive {s : ServiceState π ρ γ} {job : MaterializationJob π ρ γ} (h : Stored job s) (hs : Sound s)
    (hinactive : isActiveStatus job.status = false) : job ∈ s.items := by
  obtain ⟨job', hjob', hadv⟩ := h hs
  rwa [hadv.final hinactive] at hjob'

theorem jobsFinal_of_moves {c c' : JobThreads π ρ γ} (hinv : JobInv False c'.state) (hs : Sound c'.state)
    (hmoves : JobMoves c.state c'.state)
    (hcancelled : ∀ (call : Nat) job, c.scripts[call]? = some (.done (.ok (.cancelled job))) →
      job.status = .cancelled ∧ Stored job c.state) : JobsFinal c c' := by
  refine ⟨fun job hjob hinactive => ?_, fun call job hdone => ?_⟩
  · obtain ⟨job', hjob', hadv⟩ := hmoves.jobs hs job hjob
    have hsame : job ∈ c'.state.items := by rwa [hadv.final hinactive] at hjob'
    exact ⟨hsame, fun other ho hid => eq_of_id hinv.nodup hsame ho hid⟩
  · obtain ⟨hstatus, hstored⟩ := hcancelled call job hdone
    have hmem : job ∈ c.state.items :=
      stored_of_inactive hstored (hs.before hmoves.moves) (by rw [hstatus]; rfl)
    obtain ⟨new, hnew, hwork⟩ := hmoves.work hs
    exact ⟨new, hnew, fun started hstarted hid => hwork started hstarted job hmem hid.symm hstatus⟩

/-- The run lemma of both services. -/
theorem jobsFinal_of_run {call : Nat → JobCall π γ → ServiceScript π ρ γ (JobReply π ρ γ)}
    {key : JobCall π γ → Option String}
    (h : Threads.Compatible JobInit call disturbJobs (JobInv False) OtherJobs OwnJobs fun i input => Replied i (key input))
    {c c' : JobThreads π ρ γ} {events : List (Threads.Event (JobCall π γ) (JobSurroundings ρ γ))}
    (hc : (Threads.system JobInit call disturbJobs).Reachable c)
    (hrun : (Threads.system JobInit call disturbJobs).Run c events c') (hs : Sound c'.state) : JobsFinal c c' := by
  have hmoves : JobMoves c.state c'.state :=
    Threads.moves_of_run h .refl (fun h h' => h.trans h') (fun h => h.moves) (fun h => (quiet_of_disturb h).jobMoves)
      hc hrun
  refine jobsFinal_of_moves (Threads.safe_of_reachable h (hrun.reachable hc)).inv hs hmoves fun call job hdone => ?_
  obtain ⟨input, s, hr, hstatus, hstored⟩ := Threads.end_of_reachable h hc hdone
  exact ⟨hstatus, hstored.moves hr.moves⟩

theorem jobStart_of_init {s : ServiceState π ρ γ} (h : JobInit s) : JobStart False s := ⟨h, fun h => h.elim⟩

/-- **Finality of jobs**: in both services, a stored job that is not active stays as it is, and no provider work is
started for a job that was returned as cancelled, as long as every replacement of the document is in its window and no
job is created under the id of a stored one. -/
theorem settled_jobs_stay (kind : HistoryKind π) :
    (∀ (c c' : JobThreads ArchiveRequest ρ γ) events, (archiveSystem ρ γ JobInit).Reachable c →
      (archiveSystem ρ γ JobInit).Run c events c' → Sound c'.state → JobsFinal c c') ∧
    ∀ (c c' : JobThreads π ρ γ) events, (historySystem kind ρ γ JobInit).Reachable c →
      (historySystem kind ρ γ JobInit).Run c events c' → Sound c'.state → JobsFinal c c' :=
  ⟨fun _ _ _ hc hrun hs => jobsFinal_of_run (archive_compatible fun _ => jobStart_of_init) hc hrun hs,
    fun _ _ _ hc hrun hs => jobsFinal_of_run (history_compatible (fun _ => jobStart_of_init) kind) hc hrun hs⟩

end Finality

/-! ## A cancelled job -/

section Sample

theorem sampleTime_valid : -maxTime ≤ 1000 ∧ 1000 ≤ maxTime := by decide

def sampleTime : IsoTime := ⟨1000, sampleTime_valid⟩

/-- The provider work of every run succeeds. -/
def sampleJobSurroundings : JobSurroundings String Unit :=
  { clock := sampleTime, storeFault := none, generateId := "next", boundary := fun _ => none
    turn := fun _ => .finished .succeeded "result" none "Materialized." (.inl rfl), lastProgress := fun _ p => p
    telemetry := fun _ p => p, staleCleanup := fun _ => none }

def sampleJobRest : JobRest String Unit := ⟨sampleJobSurroundings, ⟨[], [], [], none, []⟩, [], []⟩

/-- A queued job is stored. -/
def queuedState {π : Type} (request : π) : ServiceState π String Unit :=
  ⟨some [queuedJob "job" request "source" sampleTime () "queued"], [], sampleJobRest⟩

def sampleArchiveRequest : ArchiveRequest := ⟨"source", false, false⟩

/-- Requests that are their own source keys. -/
def sampleKind : HistoryKind String :=
  { accept := fun request => .ok (request, request), staleThresholdMs := fun _ => 1800000
    timeoutMessage := fun _ => "History materialization job exceeded running stale threshold (1800000ms)." }

theorem queuedState_init {π : Type} (request : π) : JobInit (queuedState request) :=
  ⟨rfl, List.nodup_singleton _, rfl, rfl, rfl⟩

variable {π : Type}

/-- What a call has reported. -/
def jobReply (c : JobThreads π String Unit) (call : Nat) : Option (JobReply π String Unit) :=
  match c.scripts[call]? with
  | some (.done (.ok reply)) => some reply
  | _ => none

theorem done_of_jobReply {c : JobThreads π String Unit} {call : Nat} {reply : JobReply π String Unit}
    (h : jobReply c call = some reply) : c.scripts[call]? = some (.done (.ok reply)) := by
  unfold jobReply at h
  split at h
  · rename_i hdone
    cases h
    exact hdone
  · cases h

/-- The job that a call has reported as cancelled. -/
def JobReply.cancelledJob : JobReply π String Unit → Option (MaterializationJob π String Unit)
  | cancelled job => some job
  | _ => none

theorem eq_of_cancelledJob {reply : JobReply π String Unit} {job : MaterializationJob π String Unit}
    (h : reply.cancelledJob = some job) : reply = .cancelled job := by
  cases reply <;> simp_all [JobReply.cancelledJob]

/-- The job is cancelled before its run begins. -/
def cancelledFirst : List (Threads.Event (JobCall π Unit) (JobSurroundings String Unit)) :=
  .start (.cancelJob "job") :: List.replicate 4 (.act 0)

/-- The run has read the queued job when it is cancelled. -/
def overtakenCancellation : List (Threads.Event (JobCall π Unit) (JobSurroundings String Unit)) :=
  [.start (.runJob "job" 1), .act 0, .start (.cancelJob "job")] ++ List.replicate 4 (.act 1)

/-- The schedules of the archive service. -/
def archiveRun : JobThreads ArchiveRequest String Unit →
    List (Threads.Event (JobCall ArchiveRequest Unit) (JobSurroundings String Unit)) →
      Option (JobThreads ArchiveRequest String Unit) :=
  TransitionSystem.execute (Threads.next archiveCall disturbJobs)

def historyRun : JobThreads String String Unit → List (Threads.Event (JobCall String Unit) (JobSurroundings String Unit)) →
    Option (JobThreads String String Unit) :=
  TransitionSystem.execute (Threads.next (historyCall sampleKind) disturbJobs)

/-- What a call has returned as cancelled. -/
def cancelledBy (c : JobThreads π String Unit) (call : Nat) : Option String :=
  (jobReply c call).bind fun reply => reply.cancelledJob.map (·.id)

theorem of_cancelledBy {c : JobThreads π String Unit} {call : Nat} {id : String} (h : cancelledBy c call = some id) :
    ∃ job, c.scripts[call]? = some (.done (.ok (.cancelled job))) ∧ job.id = id := by
  obtain ⟨reply, hreply, hjob⟩ := Option.bind_eq_some_iff.1 h
  obtain ⟨job, hjob, hid⟩ := Option.map_eq_some_iff.1 hjob
  exact ⟨job, eq_of_cancelledJob hjob ▸ done_of_jobReply hreply, hid⟩

/-- The job is cancelled, and its run finds it so. -/
theorem cancelledJob_stays : ∃ c c', archiveRun ⟨queuedState sampleArchiveRequest, []⟩ cancelledFirst = some c ∧
    archiveRun c [.start (.runJob "job" 1), .act 1] = some c' ∧ cancelledBy c 0 = some "job" ∧ JobsFinal c c' := by
  have hobserved : ((archiveRun ⟨queuedState sampleArchiveRequest, []⟩ cancelledFirst).bind fun c =>
      (archiveRun c [.start (.runJob "job" 1), .act 1]).bind fun c' =>
        if Sound c'.state then cancelledBy c 0 else none) = some "job" := by decide +kernel
  obtain ⟨c, hc, hobserved⟩ := Option.bind_eq_some_iff.1 hobserved
  obtain ⟨c', hc', hobserved⟩ := Option.bind_eq_some_iff.1 hobserved
  split at hobserved
  · rename_i hs
    refine ⟨c, c', hc, hc', hobserved, ?_⟩
    exact (settled_jobs_stay sampleKind).1 c c' _
      (TransitionSystem.reachable_execute (.init ⟨queuedState_init _, rfl⟩) hc) (TransitionSystem.run_execute hc') hs
  · cases hobserved

theorem not_jobsFinal {c c' : JobThreads π String Unit} {call : Nat} {id : String} (hcancelled : cancelledBy c call = some id)
    (hnone : c.state.rest.work.length = 0) (hwork : c'.state.rest.work.map (·.jobId) = [id]) : ¬JobsFinal c c' := by
  intro hfinal
  obtain ⟨job, hdone, rfl⟩ := of_cancelledBy hcancelled
  obtain ⟨new, hnew, hother⟩ := hfinal.cancelled call job hdone
  rw [hnew, List.length_eq_zero_iff.1 hnone, List.nil_append] at hwork
  obtain ⟨started, hm, hid⟩ := List.mem_map.1 (hwork ▸ List.mem_cons_self : job.id ∈ new.map (·.jobId))
  exact hother started hm hid

/-- The cancelled job, and that the second state has started work for it when the first had none. -/
def startedAfter (c c' : JobThreads π String Unit) : Option String :=
  (cancelledBy c 1).bind fun id =>
    if c.state.rest.work.length = 0 ∧ c'.state.rest.work.map (·.jobId) = [id] then some id else none

theorem not_final_of_startedAfter {c c' : JobThreads π String Unit} {id : String} (h : startedAfter c c' = some id) :
    ¬JobsFinal c c' := by
  obtain ⟨job, hcancelled, hcheck⟩ := Option.bind_eq_some_iff.1 h
  split at hcheck
  next hwork => exact not_jobsFinal hcancelled hwork.1 hwork.2
  next => cases hcheck

/-- The run writes the job it has read, and starts its provider work, after `cancelJob` has returned it as cancelled. -/
theorem overtakenCancellation_works :
    (¬∀ (c c' : JobThreads ArchiveRequest String Unit) events, (archiveSystem String Unit JobInit).Reachable c →
      (archiveSystem String Unit JobInit).Run c events c' → JobsFinal c c') ∧
    ¬∀ (c c' : JobThreads String String Unit) events, (historySystem sampleKind String Unit JobInit).Reachable c →
      (historySystem sampleKind String Unit JobInit).Run c events c' → JobsFinal c c' := by
  refine ⟨fun hclaim => ?_, fun hclaim => ?_⟩
  · have hobserved : ((archiveRun ⟨queuedState sampleArchiveRequest, []⟩ overtakenCancellation).bind fun c =>
        (archiveRun c (List.replicate 4 (.act 0))).bind (startedAfter c)) = some "job" := by decide +kernel
    obtain ⟨c, hc, hobserved⟩ := Option.bind_eq_some_iff.1 hobserved
    obtain ⟨c', hc', hobserved⟩ := Option.bind_eq_some_iff.1 hobserved
    exact not_final_of_startedAfter hobserved (hclaim c c' _
      (TransitionSystem.reachable_execute (.init ⟨queuedState_init _, rfl⟩) hc) (TransitionSystem.run_execute hc'))
  · have hobserved : ((historyRun ⟨queuedState "source", []⟩ overtakenCancellation).bind fun c =>
        (historyRun c (List.replicate 5 (.act 0))).bind (startedAfter c)) = some "job" := by decide +kernel
    obtain ⟨c, hc, hobserved⟩ := Option.bind_eq_some_iff.1 hobserved
    obtain ⟨c', hc', hobserved⟩ := Option.bind_eq_some_iff.1 hobserved
    exact not_final_of_startedAfter hobserved (hclaim c c' _
      (TransitionSystem.reachable_execute (.init ⟨queuedState_init _, rfl⟩) hc) (TransitionSystem.run_execute hc'))

end Sample

end AuraCall.Materialization
