import AuraCall.Materialization.JobQueue
import AuraCall.Materialization.SingleFlight

/-!
# No stuck materialization queue

The history service under its scheduler: `runJob` is called by scheduled work only, which begins when it was handed to
`schedule` and runs in its turn (`Scheduled`). As long as a run is declared stale only when no other job is in the chain,
every marked job is in the callbacks or in a live link, and no two jobs run at the same time but one that was declared
stale (`no_stuck_queue`).

Stale recovery replaces the chain and leaves the marks of the jobs that were waiting in it: they stay behind a run that
is never awaited again, and the next `createJob` does not schedule them (`waitingJob_stuck`).
-/

namespace AuraCall.Materialization

open Script SharedDocument

section Scripts

variable {π ρ γ α β : Type} {s s' : ServiceState π ρ γ} {call : Nat}

/-! ## Scripts that leave the scheduler alone -/

/-- No action changes the scheduler, and `Q` holds of the end. -/
abbrev Still (Q : Except Thrown α → Prop) (p : ServiceScript π ρ γ α) : Prop :=
  ∀ s, p.Safe (fun _ => True) (fun _ _ => True) (fun s s' => s'.rest.scheduler = s.rest.scheduler) (fun r _ => Q r) s

theorem still_of_keeps {p : ServiceScript π ρ γ α} (h : p.Keeps fun s => s.rest.scheduler) :
    Still (fun _ => True) p := by
  intro s
  induction p generalizing s with
  | done => trivial
  | act effect next ih => exact fun s' _ _ => ⟨trivial, (h s').1, ih s' (h s').2 _⟩

theorem still_bind {p : ServiceScript π ρ γ α} {f : α → ServiceScript π ρ γ β} {Q : Except Thrown β → Prop}
    (hp : Still (fun _ => True) p) (hf : ∀ a, Still Q (f a)) (herror : ∀ e, Q (.error e)) : Still Q (p >>= f) := by
  intro s
  refine safe_bind.2 ((hp s).imp fun r s' _ => ?_)
  cases r with
  | ok a => exact hf a s'
  | error e => exact herror e

theorem still_orElse {p : ServiceScript π ρ γ α} {handler : Thrown → ServiceScript π ρ γ α} {Q : Except Thrown α → Prop}
    (hp : Still (fun r => ∀ a, r = .ok a → Q (.ok a)) p) (hh : ∀ e, Still Q (handler e)) :
    Still Q (p.orElse handler) := by
  intro s
  refine safe_orElse.2 ((hp s).imp fun r s' hr => ?_)
  cases r with
  | ok a => exact hr a rfl
  | error e => exact hh e s'

theorem still_ask {read : JobSurroundings ρ γ → Except Thrown α} :
    Still (π := π) (fun _ => True) (ask read) := still_of_keeps keeps_look

theorem still_now : Still (π := π) (ρ := ρ) (γ := γ) (fun _ => True) now := still_ask

theorem still_listJobs : Still (π := π) (ρ := ρ) (γ := γ) (fun _ => True) (listJobs storeFault) :=
  still_of_keeps (keeps_bind keeps_look fun _ => keeps_pure)

theorem still_upsertJob {basis : Option (Basis (MaterializationJob π ρ γ))} {job : MaterializationJob π ρ γ} :
    Still (fun _ => True) (upsertJob storeFault call basis job) := by
  refine still_of_keeps (keeps_bind keeps_look fun _ => keeps_perform fun s => ?_)
  cases storeFault s.rest <;> rfl

theorem still_noteScan {position : Nat} {sourceKey : String} :
    Still (π := π) (ρ := ρ) (γ := γ) (fun _ => True) (noteScan call position sourceKey) :=
  still_of_keeps (keeps_change fun _ => rfl)

theorem still_startWork {jobId : String} : Still (π := π) (ρ := ρ) (γ := γ) (fun _ => True) (startWork call jobId) :=
  still_of_keeps (keeps_change fun _ => rfl)

/-- The answer is not that of `createJob`. -/
def NotCreated : Except Thrown (JobReply π ρ γ) → Prop
  | .ok (.created ..) => False
  | _ => True

theorem still_cancelJob (service id : String) : Still (π := π) (ρ := ρ) (γ := γ) NotCreated (cancelJob call service id) := by
  unfold cancelJob
  dsimp only
  split
  · exact fun _ => trivial
  · refine still_bind still_listJobs (fun jobs => ?_) fun _ => trivial
    cases findJob (trim id) jobs.items with
    | none => exact fun _ => trivial
    | some job =>
      dsimp only
      split
      · exact fun _ => trivial
      · split
        · exact fun _ => trivial
        · exact still_bind still_now (fun _ => still_bind still_upsertJob (fun _ _ => trivial) fun _ => trivial)
            fun _ => trivial

theorem still_settleHistoryJob (running : MaterializationJob π ρ γ)
    (settled : MaterializationJob π ρ γ → IsoTime → MaterializationJob π ρ γ) :
    Still NotCreated (settleHistoryJob call running settled) := by
  refine still_bind still_listJobs (fun jobs => ?_) fun _ => trivial
  have hwrite : ∀ job, Still NotCreated (do
      let completedAt ← now
      let _ ← upsertJob storeFault call (some jobs) (settled job completedAt)
      pure (.ran (settled job completedAt))) := fun job =>
    still_bind still_now (fun _ => still_bind still_upsertJob (fun _ _ => trivial) fun _ => trivial) fun _ => trivial
  cases findJob running.id jobs.items with
  | none => exact hwrite running
  | some current =>
    dsimp only
    split
    · exact fun _ => trivial
    · exact hwrite current

theorem still_saveProgress (jobId lost : String) (progress : γ → γ) :
    Still (π := π) (ρ := ρ) (fun _ => True) (saveProgress call jobId lost progress) := by
  refine still_bind still_listJobs (fun jobs => ?_) fun _ => trivial
  cases findJob jobId jobs.items with
  | none => exact fun _ => trivial
  | some job =>
    dsimp only
    split
    · exact fun _ => trivial
    · exact still_bind still_upsertJob (fun _ _ => trivial) fun _ => trivial

theorem still_workHistoryJob (running : MaterializationJob π ρ γ) (rounds : Nat) :
    Still NotCreated (workHistoryJob call running rounds) := by
  induction rounds with
  | zero => exact fun _ => trivial
  | succ rounds ih =>
    refine still_bind still_ask (fun turn => ?_) fun _ => trivial
    cases turn with
    | attempt lost progress => exact still_bind (still_saveProgress running.id lost progress) (fun _ => ih) fun _ => trivial
    | failed thrown => exact fun _ => trivial
    | finished status result error message final => exact still_settleHistoryJob running _

theorem still_failHistoryJob (running : MaterializationJob π ρ γ) (thrown : Thrown) :
    Still NotCreated (failHistoryJob call running thrown) :=
  still_bind still_ask (fun _ => still_settleHistoryJob running _) fun _ => trivial

theorem still_runHistoryJob (id : String) (rounds : Nat) :
    Still (π := π) (ρ := ρ) (γ := γ) NotCreated (runHistoryJob call id rounds) := by
  refine still_bind still_listJobs (fun jobs => ?_) fun _ => trivial
  cases findJob (trim id) jobs.items with
  | none => exact fun _ => trivial
  | some job =>
    dsimp only
    split
    · exact fun _ => trivial
    · refine still_bind still_now (fun time => still_bind still_upsertJob (fun _ => ?_) fun _ => trivial) fun _ => trivial
      refine still_orElse ?_ fun thrown => still_failHistoryJob _ thrown
      refine still_bind still_ask (fun _ => still_bind still_startWork (fun _ => ?_) fun _ _ h => (by cases h))
        fun _ _ h => (by cases h)
      exact fun s => (still_workHistoryJob _ rounds s).imp fun r _ hr a ha => ha ▸ hr

/-! ## Scripts that change the scheduler -/

/-- The others leave a call's own links as they are. -/
abbrev OwnKept (call : Nat) (s s' : ServiceState π ρ γ) : Prop :=
  ownLinks call s'.rest.scheduler = ownLinks call s.rest.scheduler

abbrev Schedules (call : Nat) (s s' : ServiceState π ρ γ) : Prop :=
  SchedulerStep call s.rest.scheduler s'.rest.scheduler

/-- What a script of a call does to the scheduler, among others. -/
abbrev Does (call : Nat) (Q : Except Thrown α → ServiceState π ρ γ → Prop) (p : ServiceScript π ρ γ α)
    (s : ServiceState π ρ γ) : Prop :=
  p.Safe (fun _ => True) (OwnKept call) (Schedules call) Q s

variable {Q : Except Thrown β → ServiceState π ρ γ → Prop}

theorem Still.does {P : Except Thrown α → Prop} {p : ServiceScript π ρ γ α} (h : Still P p) (s : ServiceState π ρ γ) :
    Does call (fun r s' => P r ∧ OwnKept call s s') p s := by
  suffices ∀ (p : ServiceScript π ρ γ α) s₀, p.Safe (fun _ => True) (fun _ _ => True)
      (fun s s' => s'.rest.scheduler = s.rest.scheduler) (fun r _ => P r) s₀ → OwnKept call s s₀ →
        Does call (fun r s' => P r ∧ OwnKept call s s') p s₀ from this p s (h s) rfl
  intro p
  induction p with
  | done => exact fun s₀ hp hs => ⟨hp, hs⟩
  | act effect next ih =>
    intro s₀ hp hs s' _ hr
    obtain ⟨-, hsame, hnext⟩ := hp s' trivial trivial
    refine ⟨trivial, ?_, ih s' (effect s') hnext ?_⟩
    · rw [Schedules, hsame]
      exact .same
    · rw [OwnKept, hsame]
      exact hr.trans hs

theorem does_then {p : ServiceScript π ρ γ α} {f : α → ServiceScript π ρ γ β} (hp : Does call (fun _ _ => True) p s)
    (hf : ∀ a s', Does call Q (f a) s') (herror : ∀ e s', Q (.error e) s') : Does call Q (p >>= f) s := by
  refine safe_bind.2 (hp.imp fun r s' _ => ?_)
  cases r with
  | ok a => exact hf a s'
  | error e => exact herror e s'

theorem still_then {p : ServiceScript π ρ γ α} {f : α → ServiceScript π ρ γ β} (hp : Still (fun _ => True) p)
    (hf : ∀ a s', OwnKept call s s' → Does call Q (f a) s') (herror : ∀ e s', Q (.error e) s') :
    Does call Q (p >>= f) s := by
  refine safe_bind.2 ((Still.does hp s).imp fun r s' hr => ?_)
  cases r with
  | ok a => exact hf a s' hr.2
  | error e => exact herror e s'

/-- The state with the scheduler changed. -/
def withScheduler (s : ServiceState π ρ γ) (change : Scheduler → Scheduler) : ServiceState π ρ γ :=
  { s with rest := { s.rest with scheduler := change s.rest.scheduler } }

theorem change_then {change : Scheduler → Scheduler} {f : PUnit → ServiceScript π ρ γ β}
    (hstep : ∀ s', OwnKept call s s' → SchedulerStep call s'.rest.scheduler (change s'.rest.scheduler))
    (hf : ∀ s', OwnKept call s s' → Does call Q (f ⟨⟩) (withScheduler s' change)) :
    Does call Q (changeScheduler change >>= f) s := by
  refine safe_bind.2 fun s' _ hs => ⟨trivial, hstep s' hs, hf s' hs⟩

theorem mem_scheduleJob (q : Scheduler) (jobId : String) : jobId ∈ (q.scheduleJob jobId).scheduledJobIds := by
  unfold Scheduler.scheduleJob
  split
  next h => exact h
  next => exact List.mem_append_right _ List.mem_cons_self

/-- A queued job that `createJob` answers with is marked. -/
def Answered : Except Thrown (JobReply π ρ γ) → ServiceState π ρ γ → Prop
  | .ok (.created _ job), s => job.status = .queued → job.id ∈ s.rest.scheduler.scheduledJobIds
  | _, _ => True

theorem answered_of_notCreated {r : Except Thrown (JobReply π ρ γ)} (h : NotCreated r) : Answered r s := by
  unfold NotCreated at h
  split at h
  · exact h.elim
  · rename_i hne
    unfold Answered
    split
    · exact absurd rfl (hne _ _)
    · trivial

theorem does_recoverStaleRunningJob (kind : HistoryKind π) (jobs : Basis (MaterializationJob π ρ γ))
    (job : MaterializationJob π ρ γ) (s : ServiceState π ρ γ) :
    Does call (fun _ _ => True) (recoverStaleRunningJob kind call jobs job) s := by
  refine still_then still_now (fun time s₁ _ => ?_) fun _ _ => trivial
  split
  · refine still_then still_ask (fun telemetry s₂ _ => ?_) fun _ _ => trivial
    refine still_then still_upsertJob (fun _ s₃ _ => ?_) fun _ _ => trivial
    refine change_then (fun _ _ => .abandon job.id) fun s₄ _ => ?_
    exact still_then still_ask (fun _ _ _ => trivial) fun _ _ => trivial
  · trivial

theorem does_findActiveJob (kind : HistoryKind π) (sourceKey : String) (jobs : Basis (MaterializationJob π ρ γ))
    (rest : List (MaterializationJob π ρ γ)) (s : ServiceState π ρ γ) :
    Does call (fun _ _ => True) (findActiveJob kind call sourceKey jobs rest) s := by
  induction rest generalizing s with
  | nil => trivial
  | cons job rest ih =>
    unfold findActiveJob
    split
    · exact ih s
    · refine does_then (does_recoverStaleRunningJob kind jobs job s) (fun recovered s₁ => ?_) fun _ _ => trivial
      split
      · trivial
      · exact ih s₁

theorem does_createHistoryJob (kind : HistoryKind π) (request : π) (progress : γ) (s : ServiceState π ρ γ) :
    Does call Answered (createHistoryJob kind call request progress) s := by
  unfold createHistoryJob
  cases kind.accept request with
  | error thrown => trivial
  | ok accepted =>
    obtain ⟨normalized, key⟩ := accepted
    refine safe_bind.2 ?_
    show Does call Answered (now >>= _) s
    refine still_then still_now (fun time s₁ _ => ?_) fun _ _ => trivial
    have hfind : Does call (fun _ _ => True) (findActiveJobForSource kind call key) s₁ :=
      still_then still_listJobs (fun jobs s₂ _ => still_then still_noteScan
        (fun _ s₃ _ => does_findActiveJob kind key jobs jobs.items s₃) fun _ _ => trivial) fun _ _ => trivial
    refine does_then hfind (fun found s₂ => ?_) fun _ _ => trivial
    cases found with
    | some active =>
      dsimp only
      split
      · exact change_then (fun _ _ => .schedule active.id) fun s₃ _ _ => mem_scheduleJob s₃.rest.scheduler active.id
      next hqueued => exact fun h => absurd h hqueued
    | none =>
      dsimp only
      refine still_then still_ask (fun id s₃ _ => ?_) fun _ _ => trivial
      refine still_then still_upsertJob (fun _ s₄ _ => ?_) fun _ _ => trivial
      exact change_then (fun _ _ => .schedule id) fun s₅ _ _ => mem_scheduleJob s₅.rest.scheduler id

theorem does_recoverStaleRunningJobs (kind : HistoryKind π) (jobs : Basis (MaterializationJob π ρ γ))
    (rest : List (MaterializationJob π ρ γ)) (s : ServiceState π ρ γ) :
    Does call (fun _ _ => True) (recoverStaleRunningJobs kind call jobs rest) s := by
  induction rest generalizing s with
  | nil => trivial
  | cons job rest ih =>
    refine does_then (does_recoverStaleRunningJob kind jobs job s) (fun _ s₁ => ?_) fun _ _ => trivial
    exact does_then (ih s₁) (fun _ _ => trivial) fun _ _ => trivial

theorem does_listHistoryJobs (kind : HistoryKind π) (s : ServiceState π ρ γ) :
    Does call Answered (listHistoryJobs kind call) s := by
  refine still_then still_listJobs (fun jobs s₁ _ => ?_) fun _ _ => trivial
  exact does_then (does_recoverStaleRunningJobs kind jobs jobs.items s₁) (fun _ _ => trivial) fun _ _ => trivial

theorem does_readHistoryJob (kind : HistoryKind π) (id : String) (s : ServiceState π ρ γ) :
    Does call Answered (readHistoryJob kind call id) s := by
  refine still_then still_listJobs (fun jobs s₁ _ => ?_) fun _ _ => trivial
  cases findJob (trim id) jobs.items with
  | none => trivial
  | some job => exact does_then (does_recoverStaleRunningJob kind jobs job s₁) (fun _ _ => trivial) fun _ _ => trivial

theorem does_recoverHistoryJobs (jobs : Basis (MaterializationJob π ρ γ)) (rest : List (MaterializationJob π ρ γ))
    (recovered : Nat) (s : ServiceState π ρ γ) : Does call Answered (recoverHistoryJobs call jobs rest recovered) s := by
  induction rest generalizing recovered s with
  | nil => trivial
  | cons job rest ih =>
    unfold recoverHistoryJobs
    split
    · exact ih recovered s
    · split
      · refine still_then still_now (fun time s₁ _ => ?_) fun _ _ => trivial
        refine still_then still_upsertJob (fun _ s₂ _ => ?_) fun _ _ => trivial
        exact change_then (fun _ _ => .schedule job.id) fun s₃ _ => ih (recovered + 1) _
      · refine still_then still_now (fun time s₁ _ => ?_) fun _ _ => trivial
        exact still_then still_upsertJob (fun _ s₂ _ => ih (recovered + 1) s₂) fun _ _ => trivial

/-- Scheduled work makes one link, which begins, settles and is finished. -/
theorem does_scheduledWork {jobId : String} {run : ServiceScript π ρ γ (JobReply π ρ γ)} (hrun : Still NotCreated run)
    (hown : ownLinks call s.rest.scheduler = []) :
    Does call Answered (scheduledWork call jobId run fun scheduler => scheduler.unschedule jobId) s := by
  refine change_then (fun s₁ hs => .chain jobId (ownLinks_nil (hs.trans hown))) fun s₁ hs => ?_
  have hchained : ownLinks call (s₁.rest.scheduler.chain call jobId) = [(jobId, false, false)] := by
    rw [ownLinks_chain, hs.trans hown, List.nil_append]
  refine change_then (fun s₂ hs => .begin ?_) fun s₂ hs => ?_
  · obtain ⟨link, hlink, hcall, hfields⟩ := mem_ownLinks ((hs.trans hchained).symm ▸ List.mem_cons_self)
    exact ⟨link, hlink, hcall, congrArg (·.2.1) hfields⟩
  have hbegun : ownLinks call (s₂.rest.scheduler.mark call fun link => { link with begun := true }) =
      [(jobId, true, false)] := by
    refine (ownLinks_mark (fun fields => (fields.1, true, fields.2.2)) ?_ ?_).trans ?_
    · exact fun _ => rfl
    · exact fun _ => rfl
    · rw [hs.trans hchained]
      rfl
  have hcaught : Still (fun _ => True) ((run.bind fun _ => pure ⟨⟩).orElse fun _ => (pure ⟨⟩ : ServiceScript π ρ γ PUnit)) := by
    refine still_orElse ?_ fun _ _ => trivial
    exact still_bind (fun s => (hrun s).imp fun _ _ _ => trivial) (fun _ _ _ _ => trivial) fun _ _ h => (by cases h)
  refine still_then hcaught (fun _ s₃ hs₃ => ?_) fun _ _ => trivial
  have hran := hs₃.trans hbegun
  refine change_then (fun s₄ hs => .settle ?_) fun s₄ hs => ?_
  · obtain ⟨link, hlink, hcall, hfields⟩ := mem_ownLinks ((hs.trans hran).symm ▸ List.mem_cons_self)
    exact ⟨link, hlink, hcall, congrArg (·.2.1) hfields, congrArg (·.2.2) hfields⟩
  have hsettled : ownLinks call (s₄.rest.scheduler.mark call fun link => { link with settled := true }) =
      [(jobId, true, true)] := by
    refine (ownLinks_mark (fun fields => (fields.1, fields.2.1, true)) ?_ ?_).trans ?_
    · exact fun _ => rfl
    · exact fun _ => rfl
    · rw [hs.trans hran]
      rfl
  refine change_then (fun s₅ hs => .finish jobId ?_) fun s₅ hs => trivial
  obtain ⟨link, hlink, hcall, hfields⟩ := mem_ownLinks ((hs.trans hsettled).symm ▸ List.mem_cons_self)
  exact ⟨link, hlink, hcall, congrArg (·.1) hfields⟩

theorem does_of_notCreated {p : ServiceScript π ρ γ (JobReply π ρ γ)} (h : Still NotCreated p) (s : ServiceState π ρ γ) :
    Does call Answered p s := (Still.does h s).imp fun _ _ hr => answered_of_notCreated hr.1

-- its comparisons of texts are not to be evaluated
attribute [local irreducible] cancelJob

theorem does_historyCall (kind : HistoryKind π) (input : JobCall π γ) (hown : ownLinks call s.rest.scheduler = []) :
    Does call Answered (historyCall kind call input) s := by
  cases input with
  | createJob request progress => exact does_createHistoryJob kind request progress s
  | listJobs => exact does_listHistoryJobs kind s
  | readJob id => exact does_readHistoryJob kind id s
  | cancelJob id => exact does_of_notCreated (still_cancelJob "History" id) s
  | runJob id rounds => exact does_of_notCreated (still_runHistoryJob id rounds) s
  | recoverInterruptedJobs =>
    exact still_then still_listJobs (fun jobs s₁ _ => does_recoverHistoryJobs jobs jobs.items 0 s₁) fun _ _ => trivial
  | work jobId rounds => exact does_scheduledWork (still_runHistoryJob jobId rounds) hown

theorem scheduling_compatible (kind : HistoryKind π) :
    Threads.Compatible JobInit (historyCall (ρ := ρ) (γ := γ) kind) disturbJobs (fun _ => True) OwnKept Schedules
      fun _ _ => Answered where
  refl _ _ := rfl
  trans h h' := h'.trans h
  init _ _ := trivial
  outside _ hs := by
    cases hs
    exact ⟨trivial, fun _ => rfl⟩
  others hne _ hstep := hstep.others hne
  call i input s₀ s hinit hs _ := by
    refine does_historyCall kind input (hs.trans ?_)
    rw [hinit.2.2.1]
    rfl

end Scripts

/-! ## Runs -/

section Runs

variable {π ρ γ : Type} {kind : HistoryKind π} {c c' : JobThreads π ρ γ}

/-- Work is begun for a job that was handed to `schedule`, and runs in its turn; nothing else calls `runJob`. -/
def Scheduled (c : JobThreads π ρ γ) : Threads.Event (JobCall π γ) (JobSurroundings ρ γ) → Prop
  | .start (.runJob _ _) => False
  | .start (.work jobId _) => jobId ∈ c.state.rest.scheduler.callbacks
  | .act call => ∀ link ∈ c.state.rest.scheduler.links, link.call = call → link.begun = false →
    ∀ m, link.after = some m → SettledAt c.state.rest.scheduler m
  | _ => True

/-- The history service and its scheduler. -/
def queueSystem (kind : HistoryKind π) (ρ γ : Type) :
    TransitionSystem (JobThreads π ρ γ) (Threads.Event (JobCall π γ) (JobSurroundings ρ γ)) :=
  (historySystem kind ρ γ JobInit).restrict Scheduled

/-- Every declaration of a stale run has found it alone in the chain. -/
def DeclaredAlone (c : JobThreads π ρ γ) : Prop := ∀ declared ∈ c.state.rest.scheduler.declared, declared.Alone

instance : Decidable (DeclaredAlone c) := inferInstanceAs (Decidable (∀ declared ∈ _, _))

theorem queueInv_init : QueueInv ⟨[], [], [], none, []⟩ :=
  ⟨fun _ h => (by cases h), fun _ _ _ h => (by cases h), fun _ _ _ h => (by cases h), fun _ h => (by cases h),
    fun _ _ _ h => (by cases h), fun _ ⟨_, h, _⟩ => (by cases h), fun _ _ _ h => (by cases h), fun _ h => (by cases h),
    fun _ h => (by cases h), List.nodup_nil⟩

/-- **The run lemma of the chain.** -/
theorem queueInv_of_reachable (hc : (queueSystem kind ρ γ).Reachable c) (halone : DeclaredAlone c) :
    QueueInv c.state.rest.scheduler := by
  revert halone
  induction hc with
  | init h =>
    intro _
    rw [h.1.2.2.1]
    exact queueInv_init
  | @step c c' event hc hstep ih =>
    intro halone
    have hreachable : (historySystem kind ρ γ JobInit).Reachable c := hc.of_restrict
    cases event with
    | start input =>
      cases hstep.2
      exact ih halone
    | act call =>
      have hsched := (Threads.act_of_reachable (scheduling_compatible kind) hreachable hstep.2).1
      exact (ih fun declared hm => halone declared (hsched.declared.subset hm)).step hsched hstep.1 halone
    | other surroundings =>
      cases hstep.2
      exact ih halone

/-- What the scheduler owes a stored job: it is in the callbacks, or in a link that runs or whose turn has come or will
come, or it is not marked and the next call schedules it. -/
def Awaited (q : Scheduler) (jobId : String) : Prop :=
  jobId ∈ q.callbacks ∨
    (∃ k link, q.links[k]? = some link ∧ link.jobId = jobId ∧ link.finished = false ∧ Live q k) ∨
      (jobId ∉ q.scheduledJobIds ∧ jobId ∈ (q.scheduleJob jobId).callbacks)

structure NoStuckQueue (kind : HistoryKind π) (c : JobThreads π ρ γ) : Prop where
  queued : ∀ job ∈ c.state.items, job.status = .queued → Awaited c.state.rest.scheduler job.id
  single : ∀ (k l : Nat) first second, c.state.rest.scheduler.links[k]? = some first →
    c.state.rest.scheduler.links[l]? = some second → k ≠ l → first.Running → second.Running →
      first.stale = true ∨ second.stale = true
  answered : ∀ (call : Nat) c', (queueSystem kind ρ γ).Step c (.act call) c' → ∀ reused job,
    c'.scripts[call]? = some (.done (.ok (.created reused job))) → job.status = .queued →
      job.id ∈ c'.state.rest.scheduler.scheduledJobIds

theorem mem_callbacks_of_scheduleJob {q : Scheduler} {jobId : String} (h : jobId ∉ q.scheduledJobIds) :
    jobId ∈ (q.scheduleJob jobId).callbacks := by
  rw [Scheduler.scheduleJob, if_neg h]
  exact List.mem_append_right _ List.mem_cons_self

/-- **No stuck queue**: as long as runs are declared stale only when they are alone in the chain, every queued job is
awaited, a queued job that `createJob` answers with is marked, and of two jobs that run one was declared stale. -/
theorem no_stuck_queue (hc : (queueSystem kind ρ γ).Reachable c) (halone : DeclaredAlone c) : NoStuckQueue kind c := by
  have hinv := queueInv_of_reachable hc halone
  refine ⟨fun job _ _ => ?_, fun k l first second hk hl hne hfirst hsecond => ?_,
    fun call c' hstep reused job hdone hqueued => ?_⟩
  · by_cases hmarked : job.id ∈ c.state.rest.scheduler.scheduledJobIds
    · exact (hinv.live_of_marked hmarked).imp_right .inl
    · exact .inr (.inr ⟨hmarked, mem_callbacks_of_scheduleJob hmarked⟩)
  · rcases Nat.lt_or_gt_of_ne hne with hlt | hlt
    · exact hinv.single hk hl hfirst hsecond hlt
    · exact (hinv.single hl hk hsecond hfirst hlt).symm
  · obtain ⟨-, input, rest, hrest, hsafe⟩ :=
      Threads.act_of_reachable (scheduling_compatible kind) hc.of_restrict hstep.2
    rw [hdone] at hrest
    cases hrest
    exact hsafe hqueued

end Runs

/-! ## A run that hangs -/

section Sample

instance (q : Scheduler) (k : Nat) : Decidable (SettledAt q k) :=
  decidable_of_iff ((q.links[k]?).any (·.settled) = true) (by simp [SettledAt, Option.any_eq_true])

instance (c : JobThreads String String Unit) (event : Threads.Event (JobCall String Unit) (JobSurroundings String Unit)) :
    Decidable (Scheduled c event) := by
  unfold Scheduled
  split
  · infer_instance
  · infer_instance
  · exact decidable_of_iff (∀ link ∈ c.state.rest.scheduler.links, link.call = _ → link.begun = false →
      ∀ m ∈ link.after, SettledAt c.state.rest.scheduler m) .rfl
  · infer_instance

/-- A schedule whose steps are all scheduled. -/
def queueRun : JobThreads String String Unit → List (Threads.Event (JobCall String Unit) (JobSurroundings String Unit)) →
    Option (JobThreads String String Unit) :=
  TransitionSystem.execute fun c event =>
    if decide (Scheduled c event) then Threads.next (historyCall sampleKind) disturbJobs c event else none

theorem reachable_queueRun {events : List (Threads.Event (JobCall String Unit) (JobSurroundings String Unit))}
    {c : JobThreads String String Unit} (h : queueRun ⟨emptyState, []⟩ events = some c) :
    (queueSystem sampleKind String Unit).Reachable c :=
  TransitionSystem.reachable_execute_where (fun _ _ h => of_decide_eq_true h) (.init ⟨emptyState_start.1, rfl⟩) h

/-- The job of one source runs, and that of another is chained behind it. -/
def waitingSchedule : List (Threads.Event (JobCall String Unit) (JobSurroundings String Unit)) :=
  .other { sampleJobSurroundings with generateId := "a" } :: .start (.createJob "a" ()) :: List.replicate 7 (.act 0) ++
    .start (.work "a" 1) :: List.replicate 6 (.act 1) ++ .other { sampleJobSurroundings with generateId := "b" } ::
      .start (.createJob "b" ()) :: List.replicate 7 (.act 2) ++ [.start (.work "b" 1), .act 3]

def lateTime : IsoTime := ⟨1801000, by decide⟩

/-- The run hangs; a list call declares it stale, and the other job is requested again. -/
def staleSchedule : List (Threads.Event (JobCall String Unit) (JobSurroundings String Unit)) :=
  .other { sampleJobSurroundings with clock := lateTime } :: .start .listJobs :: List.replicate 8 (.act 4) ++
    .start (.createJob "b" ()) :: List.replicate 5 (.act 5)

/-- The stored queued jobs. -/
def queuedIds (c : JobThreads String String Unit) : List String :=
  (c.state.items.filter fun job => job.status = .queued).map (·.id)

theorem mem_of_queuedIds {c : JobThreads String String Unit} {id : String} (h : id ∈ queuedIds c) :
    ∃ job ∈ c.state.items, job.status = .queued ∧ job.id = id := by
  obtain ⟨job, hjob, hid⟩ := List.mem_map.1 h
  obtain ⟨hmem, hqueued⟩ := List.mem_filter.1 hjob
  exact ⟨job, hmem, of_decide_eq_true hqueued, hid⟩

/-- The second job waits for its turn behind the first. -/
theorem waitingJob_awaited : ∃ c, queueRun ⟨emptyState, []⟩ waitingSchedule = some c ∧ queuedIds c = ["b"] ∧
    NoStuckQueue sampleKind c := by
  have hobserved : ((queueRun ⟨emptyState, []⟩ waitingSchedule).bind fun c =>
      if DeclaredAlone c then some (queuedIds c) else none) = some ["b"] := by decide +kernel
  obtain ⟨c, hc, hobserved⟩ := Option.bind_eq_some_iff.1 hobserved
  split at hobserved
  · rename_i halone
    exact ⟨c, hc, Option.some.inj hobserved, no_stuck_queue (reachable_queueRun hc) halone⟩
  · cases hobserved

def staleLink : QueueLink := ⟨1, "a", none, true, false, false, true⟩

def waitingLink : QueueLink := ⟨3, "b", some 0, false, false, false, false⟩

theorem not_live_of_stale {q : Scheduler} (h : q.links = [staleLink, waitingLink]) : ¬Live q 1 := by
  have hfirst : q.links[0]? = some staleLink := by rw [h]; rfl
  have hsecond : q.links[1]? = some waitingLink := by rw [h]; rfl
  intro hlive
  cases hlive with
  | begun hl hf hb =>
    rw [hsecond] at hl
    cases hl
    cases hb
  | first hl hf ha =>
    rw [hsecond] at hl
    cases hl
    cases ha
  | next hl hf ha hs =>
    rw [hsecond] at hl
    cases hl
    cases ha
    obtain ⟨link, hlink, hsettled⟩ := hs
    rw [hfirst] at hlink
    cases hlink
    cases hsettled
  | behind hl hf ha hlive =>
    rw [hsecond] at hl
    cases hl
    cases ha
    cases hlive with
    | begun hl hf | first hl hf | next hl hf | behind hl hf =>
      rw [hfirst] at hl
      cases hl
      cases hf

theorem not_awaited {q : Scheduler} (hcallbacks : q.callbacks = []) (hmarked : q.scheduledJobIds = ["b"])
    (hlinks : q.links = [staleLink, waitingLink]) : ¬Awaited q "b" := by
  rintro (hc | ⟨k, link, hk, hid, -, hlive⟩ | ⟨hm, -⟩)
  · rw [hcallbacks] at hc
    cases hc
  · rw [hlinks] at hk
    rcases k with - | - | k
    · cases hk
      exact absurd hid (by decide)
    · exact not_live_of_stale hlinks hlive
    · cases hk
  · rw [hmarked] at hm
    exact hm List.mem_cons_self

/-- The job is queued, marked, and behind a run that was declared stale; `createJob` answers with it, and does not
schedule it. -/
theorem waitingJob_stuck : ¬∀ c, (queueSystem sampleKind String Unit).Reachable c → NoStuckQueue sampleKind c := by
  intro hclaim
  have hobserved : ((queueRun ⟨emptyState, []⟩ (waitingSchedule ++ staleSchedule)).map fun c =>
      (queuedIds c, reusedBy c 5, c.state.rest.scheduler.callbacks, c.state.rest.scheduler.scheduledJobIds,
        c.state.rest.scheduler.links)) =
      some (["b"], some true, [], ["b"], [staleLink, waitingLink]) := by decide +kernel
  obtain ⟨c, hc, hobserved⟩ := Option.map_eq_some_iff.1 hobserved
  simp only [Prod.mk.injEq] at hobserved
  obtain ⟨hids, -, hcallbacks, hmarked, hlinks⟩ := hobserved
  obtain ⟨job, hmem, hqueued, hid⟩ := mem_of_queuedIds (hids ▸ List.mem_cons_self : "b" ∈ queuedIds c)
  have hawaited := (hclaim c (reachable_queueRun hc)).queued job hmem hqueued
  rw [hid] at hawaited
  exact not_awaited hcallbacks hmarked hlinks hawaited

end Sample

end AuraCall.Materialization
