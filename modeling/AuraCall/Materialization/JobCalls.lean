import AuraCall.Materialization.JobSteps

/-!
# Every call of the job services keeps the store sound

For every script of `JobServices`: each of its steps keeps the invariant of the store and moves the jobs as they may
move, whatever the others do in between (`Steps`). What a call knows in the middle is `Lasting`: neither the others nor
its own quiet steps take it away. `Replied` is what its answer says.
-/

namespace AuraCall.Materialization

open Script SharedDocument

section Calls

variable {π ρ γ α β : Type} {s s' : ServiceState π ρ γ} {call : Nat} {Start : Prop} {P : ServiceState π ρ γ → Prop}

/-- A script of a call among others. -/
abbrev Steps (Start : Prop) (call : Nat) (Q : Except Thrown α → ServiceState π ρ γ → Prop)
    (p : ServiceScript π ρ γ α) (s : ServiceState π ρ γ) : Prop :=
  p.Safe (JobInv Start) (OtherJobs call) (OwnJobs call) Q s

/-! ## What lasts -/

/-- Neither the others nor quiet steps take it away. -/
structure Lasting (call : Nat) (P : ServiceState π ρ γ → Prop) : Prop where
  others : ∀ {s s'}, OtherJobs call s s' → P s → P s'
  quiet : ∀ {s s'}, Quiet s s' → P s → P s'

theorem lasting_of_moves (h : ∀ {s s'}, JobMoves s s' → P s → P s') : Lasting call P :=
  ⟨fun hs => h hs.moves, fun hs => h hs.jobMoves⟩

theorem lasting_true : Lasting call fun _ : ServiceState π ρ γ => True := lasting_of_moves fun _ _ => trivial

theorem Lasting.and {P' : ServiceState π ρ γ → Prop} (h : Lasting call P) (h' : Lasting call P') :
    Lasting call fun s => P s ∧ P' s :=
  ⟨fun hs hp => ⟨h.others hs hp.1, h'.others hs hp.2⟩, fun hs hp => ⟨h.quiet hs hp.1, h'.quiet hs hp.2⟩⟩

theorem lasting_stored {job : MaterializationJob π ρ γ} : Lasting call (Stored job) :=
  lasting_of_moves fun hm h => h.moves hm

theorem lasting_reads {jobs : Basis (MaterializationJob π ρ γ)} : Lasting call (Reads jobs) :=
  lasting_of_moves fun hm h => h.moves hm

/-- The call has not written since a reading. -/
def Unwritten (call : Nat) (jobs : Basis (MaterializationJob π ρ γ)) (s : ServiceState π ρ γ) : Prop :=
  jobs.position ≤ s.writes.length ∧ ∀ write ∈ s.writes.drop jobs.position, write.call ≠ call

theorem drop_new {position : Nat} {writes new : List (Write (MaterializationJob π ρ γ))} (hle : position ≤ writes.length)
    {write : Write (MaterializationJob π ρ γ)} (hw : write ∈ (writes ++ new).drop position) :
    write ∈ writes.drop position ∨ write ∈ new := by
  rw [List.drop_append_of_le_length hle] at hw
  exact List.mem_append.1 hw

theorem lasting_unwritten {jobs : Basis (MaterializationJob π ρ γ)} : Lasting call (Unwritten call jobs) := by
  refine ⟨fun hs h => ?_, fun hs h => ⟨hs.writes ▸ h.1, fun write hw => h.2 write (hs.writes ▸ hw)⟩⟩
  obtain ⟨new, hnew, hcall⟩ := hs.writes
  refine ⟨hnew ▸ (by rw [List.length_append]; exact Nat.le_add_right_of_le h.1), fun write hw => ?_⟩
  rw [hnew] at hw
  exact (drop_new h.1 hw).elim (h.2 write) (hcall write)

theorem Reads.le {jobs : Basis (MaterializationJob π ρ γ)} (h : Reads jobs s) : jobs.position ≤ s.writes.length := by
  obtain ⟨document, -, hread⟩ := h.comes
  exact hread.le

theorem lasting_scanned {jobs : Basis (MaterializationJob π ρ γ)} {sourceKey : String} :
    Lasting call (Scanned call jobs sourceKey) := by
  refine ⟨fun hs h => ⟨h.reads.moves hs.moves, hs.moves.scans.subset h.noted, fun write hw hcall => ?_⟩,
    fun hs h => ⟨h.reads.moves hs.jobMoves, hs.scans ▸ h.noted, fun write hw => h.own write (hs.writes ▸ hw)⟩⟩
  obtain ⟨new, hnew, hother⟩ := hs.writes
  rw [hnew] at hw
  exact (drop_new h.reads.le hw).elim (fun hw => h.own write hw hcall) fun hw => absurd hcall (hother write hw)

theorem Declared.moves {jobs : Basis (MaterializationJob π ρ γ)} {old : MaterializationJob π ρ γ}
    (h : Declared call jobs old s) (hm : s.writes <+: s'.writes) : Declared call jobs old s' := by
  obtain ⟨write, hw, hcall⟩ := h
  obtain ⟨new, hnew⟩ := hm
  refine ⟨write, ?_, hcall⟩
  rw [← hnew, List.drop_append]
  exact List.mem_append_left _ hw

theorem lasting_declared {jobs : Basis (MaterializationJob π ρ γ)} {old : MaterializationJob π ρ γ} :
    Lasting call (Declared call jobs old) := lasting_of_moves fun hm h => h.moves hm.moves.history

/-- The call has created a job. -/
def CreatedBy (call : Nat) (job : MaterializationJob π ρ γ) (s : ServiceState π ρ γ) : Prop :=
  ∃ write ∈ s.writes, write.call = call ∧ write.basis = none ∧ job ∈ write.items

theorem lasting_created {job : MaterializationJob π ρ γ} : Lasting call (CreatedBy call job) := by
  refine lasting_of_moves fun hm h => ?_
  obtain ⟨write, hw, hcreated⟩ := h
  exact ⟨write, hm.moves.history.subset hw, hcreated⟩

theorem createdBy_of_writes {job : MaterializationJob π ρ γ} {current : Option (List (MaterializationJob π ρ γ))}
    {write : Write (MaterializationJob π ρ γ)} (h : Writes call none job current write s s') : CreatedBy call job s' := by
  refine ⟨write, ?_, h.call, h.basis, ?_⟩
  · rw [h.replaces.writes]
    exact List.mem_append_right _ List.mem_cons_self
  · rw [h.items]
    exact List.mem_cons_self

/-- What lasts, and is not taken away when the call writes a job that is not active. -/
structure Enduring (call : Nat) (P : ServiceState π ρ γ → Prop) : Prop extends Lasting call P where
  inactive : ∀ {s s' basis job current write}, Writes call basis job current write s s' → JobMoves s s' →
    isActiveStatus job.status = false → P s → P s'

theorem enduring_of_moves (h : ∀ {s s'}, JobMoves s s' → P s → P s') : Enduring call P :=
  ⟨lasting_of_moves h, fun _ hm _ => h hm⟩

theorem enduring_reads {jobs : Basis (MaterializationJob π ρ γ)} : Enduring call (Reads jobs) :=
  enduring_of_moves fun hm h => h.moves hm

theorem enduring_scanned {jobs : Basis (MaterializationJob π ρ γ)} {sourceKey : String} :
    Enduring call (Scanned call jobs sourceKey) := by
  refine ⟨lasting_scanned, fun hw hm hinactive h => ⟨h.reads.moves hm, hm.scans.subset h.noted, fun write hwrite hcall => ?_⟩⟩
  rw [hw.replaces.writes] at hwrite
  rcases drop_new h.reads.le hwrite with hwrite | hwrite
  · exact h.own write hwrite hcall
  · rw [List.mem_singleton.1 hwrite, hw.items]
    intro job hjob
    rw [List.mem_singleton.1 hjob, hinactive]

/-- The call has looked for the source, and every active job that it has found is declared stale. -/
def Vacant (call : Nat) (jobs : Basis (MaterializationJob π ρ γ)) (sourceKey : String) (s : ServiceState π ρ γ) :
    Prop :=
  Scanned call jobs sourceKey s ∧ ∀ old ∈ jobs.items, old.sourceKey = sourceKey → isActiveStatus old.status = true →
    Declared call jobs old s

theorem lasting_vacant {jobs : Basis (MaterializationJob π ρ γ)} {sourceKey : String} :
    Lasting call (Vacant call jobs sourceKey) :=
  ⟨fun hs h => ⟨lasting_scanned.others hs h.1, fun old hold hkey hactive =>
      lasting_declared.others hs (h.2 old hold hkey hactive)⟩,
    fun hs h => ⟨lasting_scanned.quiet hs h.1, fun old hold hkey hactive =>
      lasting_declared.quiet hs (h.2 old hold hkey hactive)⟩⟩

/-! ## Actions -/

variable {Q : Except Thrown β → ServiceState π ρ γ → Prop}

/-- What follows an end: the rest of the script, or its failure. -/
def Goes (Start : Prop) (call : Nat) (Q : Except Thrown β → ServiceState π ρ γ → Prop) (f : α → ServiceScript π ρ γ β) :
    Except Thrown α → ServiceState π ρ γ → Prop
  | .ok a, s => Steps Start call Q (f a) s
  | .error e, s => Q (.error e) s

theorem steps_bind {p : ServiceScript π ρ γ α} {f : α → ServiceScript π ρ γ β}
    (h : Steps Start call (Goes Start call Q f) p s) : Steps Start call Q (p >>= f) s :=
  safe_bind.2 (h.imp fun r s' hr => by cases r <;> exact hr)

/-- What follows a `try`: its answer, or the handling of its error. -/
def Handles (Start : Prop) (call : Nat) (Q : Except Thrown β → ServiceState π ρ γ → Prop)
    (handler : Thrown → ServiceScript π ρ γ β) : Except Thrown β → ServiceState π ρ γ → Prop
  | .ok a, s => Q (.ok a) s
  | .error e, s => Steps Start call Q (handler e) s

theorem steps_orElse {p : ServiceScript π ρ γ β} {handler : Thrown → ServiceScript π ρ γ β}
    (h : Steps Start call (Handles Start call Q handler) p s) : Steps Start call Q (p.orElse handler) s :=
  safe_orElse.2 (h.imp fun r s' hr => by cases r <;> exact hr)

/-- An action that leaves the document alone, and what follows it. -/
theorem quiet_bind {action : ServiceState π ρ γ → Except Thrown α × ServiceState π ρ γ}
    {f : α → ServiceScript π ρ γ β} (hquiet : ∀ s, Quiet s (action s).2) (hP : Lasting call P) (h : P s)
    (hf : ∀ a s', P s' → Steps Start call Q (f a) s') (herror : ∀ e s', P s' → Q (.error e) s') :
    Steps Start call Q (perform action >>= f) s := by
  have haction : Steps Start call (fun _ => P) (perform action) s := fun s' hinv hs => by
    have hq := hquiet s'
    exact ⟨hinv.same hq.document hq.writes (hq.scans ▸ List.prefix_refl _), hq.own, hP.quiet hq (hP.others hs h)⟩
  refine steps_bind (haction.imp fun r s' hp => ?_)
  cases r with
  | ok a => exact hf a s' hp
  | error e => exact herror e s' hp

theorem quiet_refl (s : ServiceState π ρ γ) : Quiet s s := ⟨rfl, rfl, rfl, rfl⟩

theorem ask_bind {read : JobSurroundings ρ γ → Except Thrown α} {f : α → ServiceScript π ρ γ β} (hP : Lasting call P)
    (h : P s) (hf : ∀ a s', P s' → Steps Start call Q (f a) s') (herror : ∀ e s', P s' → Q (.error e) s') :
    Steps Start call Q (ask read >>= f) s := by
  have hask : Steps Start call Q (perform (fun s => (read s.rest.surroundings, s)) >>= f) s :=
    quiet_bind quiet_refl hP h hf herror
  exact hask

theorem now_bind {f : IsoTime → ServiceScript π ρ γ β} (hP : Lasting call P) (h : P s)
    (hf : ∀ time s', P s' → Steps Start call Q (f time) s') (herror : ∀ e s', P s' → Q (.error e) s') :
    Steps Start call Q (now >>= f) s := ask_bind hP h hf herror

theorem scheduler_bind {change : Scheduler → Scheduler} {f : PUnit → ServiceScript π ρ γ β} (hP : Lasting call P)
    (h : P s) (hf : ∀ s', P s' → Steps Start call Q (f ⟨⟩) s') (herror : ∀ e s', P s' → Q (.error e) s') :
    Steps Start call Q (changeScheduler change >>= f) s := by
  have hchange : Steps Start call Q (perform (fun s =>
      (.ok ⟨⟩, { s with rest := { s.rest with scheduler := change s.rest.scheduler } })) >>= f) s :=
    quiet_bind (fun _ => ⟨rfl, rfl, rfl, rfl⟩) hP h (fun _ s' hp => hf s' hp) herror
  exact hchange

/-- **The jobs are read.** -/
theorem listJobs_bind {f : Basis (MaterializationJob π ρ γ) → ServiceScript π ρ γ β} (hP : Lasting call P) (h : P s)
    (hf : ∀ jobs s', P s' → Reads jobs s' → Unwritten call jobs s' → Steps Start call Q (f jobs) s')
    (herror : ∀ e s', P s' → Q (.error e) s') : Steps Start call Q (listJobs storeFault >>= f) s := by
  have hread : Steps Start call (fun r s' => P s' ∧ ∀ current seen, r = .ok (current, seen) →
      Reads ⟨seen, current.getD []⟩ s' ∧ Unwritten call ⟨seen, current.getD []⟩ s') (readDocument storeFault) s := by
    refine fun s' hinv hs => ⟨hinv, (quiet_refl s').own, hP.others hs h, fun current seen hr => ?_⟩
    dsimp only at hr
    split at hr
    · cases hr
    · cases hr
      refine ⟨reads_here hinv, Nat.le_refl _, fun write hw => ?_⟩
      have hnew : write ∈ s'.writes.drop s'.writes.length := hw
      rw [List.drop_length] at hnew
      cases hnew
  refine steps_bind (steps_bind (hread.imp fun r s' hr => ?_))
  cases r with
  | ok answer => exact hf _ s' hr.1 (hr.2 _ _ rfl).1 (hr.2 _ _ rfl).2
  | error e => exact herror e s' hr.1

/-- **A job is written.** -/
theorem upsertJob_bind {basis : Option (Basis (MaterializationJob π ρ γ))} {job : MaterializationJob π ρ γ}
    {f : Basis (MaterializationJob π ρ γ) → ServiceScript π ρ γ β} (hP : Lasting call P) (h : P s)
    (horigin : ∀ s', P s' → Origin call s' job basis)
    (hf : ∀ jobs s₁ s₂ current write, P s₁ → Writes call basis job current write s₁ s₂ → JobMoves s₁ s₂ →
      Reads jobs s₂ → job ∈ jobs.items → Stored job s₂ → Steps Start call Q (f jobs) s₂)
    (herror : ∀ e s', P s' → Q (.error e) s') : Steps Start call Q (upsertJob storeFault call basis job >>= f) s := by
  have hread : Steps Start call (fun r s' => P s' ∧ ∀ current seen, r = .ok (current, seen) →
      ReadAt MaterializationJob.id seen current s' ∧ ((current.getD []).map MaterializationJob.id).Nodup)
      (readDocument storeFault) s := by
    refine fun s' hinv hs => ⟨hinv, (quiet_refl s').own, hP.others hs h, fun current seen hr => ?_⟩
    dsimp only at hr
    split at hr
    · cases hr
    · cases hr
      exact ⟨readAt_here, hinv.nodup⟩
  refine steps_bind (steps_bind (hread.imp fun r s₀ hr => ?_))
  cases r with
  | error e => exact herror e s₀ hr.1
  | ok answer =>
    obtain ⟨current, seen⟩ := answer
    obtain ⟨hp₀, hr⟩ := hr
    obtain ⟨hat, hnodup⟩ := hr current seen rfl
    have hreplace : Steps Start call (Goes Start call Q f)
        (replaceDocument MaterializationJob.id byUpdatedAt storeFault call current seen basis [job] fun _ => false) s₀ := by
      intro s₁ hinv hs
      have hp := hP.others hs hp₀
      cases hfault : storeFault s₁.rest with
      | some thrown =>
        simp only [hfault]
        exact ⟨hinv, (quiet_refl s₁).own, herror thrown s₁ hp⟩
      | none =>
        simp only [hfault]
        have hwrites : Writes call basis job current ⟨call, seen, basis, [job], fun _ => false, s₁.items⟩ s₁ { s₁ with
            document := some (byUpdatedAt.place
              (retain MaterializationJob.id [job] (fun _ => false) (current.getD [])) [job])
            writes := s₁.writes ++ [⟨call, seen, basis, [job], fun _ => false, s₁.items⟩] } :=
          ⟨replaces_of_place, hs.moves.moves.read _ _ hat, hnodup, rfl, rfl, rfl, fun _ => rfl, rfl⟩
        have hinv' := hwrites.inv hinv (horigin s₁ hp)
        have hmem : job ∈ byUpdatedAt.place
            (retain MaterializationJob.id [job] (fun _ => false) (current.getD [])) [job] :=
          (byUpdatedAt.perm _ _).mem_iff.2 (List.mem_append_right _ List.mem_cons_self)
        refine ⟨hinv', hwrites.own (horigin s₁ hp), hf _ s₁ _ _ _ hp hwrites (hwrites.jobMoves (horigin s₁ hp)) ?_ hmem
          fun _ => ⟨job, hmem, .refl job⟩⟩
        have hreads := reads_here hinv'
        rwa [List.length_append] at hreads
    exact hreplace

theorem noteScan_bind {jobs : Basis (MaterializationJob π ρ γ)} {sourceKey : String}
    {f : PUnit → ServiceScript π ρ γ β} (hreads : Reads jobs s) (hunwritten : Unwritten call jobs s)
    (hf : ∀ s', Scanned call jobs sourceKey s' → Steps Start call Q (f ⟨⟩) s') :
    Steps Start call Q (noteScan call jobs.position sourceKey >>= f) s := by
  have hnote : Steps Start call (Goes Start call Q f) (noteScan call jobs.position sourceKey) s := by
    intro s' hinv hs
    have hprefix : s'.rest.scans <+: s'.rest.scans ++ [⟨call, jobs.position, sourceKey⟩] := ⟨_, rfl⟩
    have hmoves : JobMoves s'
        { s' with rest := { s'.rest with scans := s'.rest.scans ++ [⟨call, jobs.position, sourceKey⟩] } } :=
      jobMoves_of_same rfl rfl hprefix fun _ => ⟨[], (List.append_nil _).symm, fun _ h => nomatch h⟩
    refine ⟨hinv.same rfl rfl hprefix, ⟨hmoves, [], (List.append_nil _).symm, fun _ h => nomatch h⟩, hf _ ?_⟩
    refine ⟨(hreads.moves hs.moves).moves hmoves, List.mem_append_right _ List.mem_cons_self, fun write hw hcall => ?_⟩
    exact absurd hcall ((lasting_unwritten.others hs hunwritten).2 write hw)
  exact steps_bind hnote

/-- Provider work is started for a stored job that was taken from the queue. -/
theorem startWork_bind {job : MaterializationJob π ρ γ} {f : PUnit → ServiceScript π ρ γ β}
    (hP : ∀ {s s'}, JobMoves s s' → P s → P s') (h : P s) (hstored : Stored job s) (hbegun : PastQueue job)
    (hf : ∀ s', P s' → Steps Start call Q (f ⟨⟩) s') :
    Steps Start call Q (startWork call job.id >>= f) s := by
  have hstart : Steps Start call (Goes Start call Q f) (startWork call job.id) s := by
    intro s' hinv hs
    let startedWork (s : ServiceState π ρ γ) : ServiceState π ρ γ :=
      { s with rest := { s.rest with work := s.rest.work ++ [⟨call, job.id⟩] } }
    have hmoves : JobMoves s' (startedWork s') := by
      refine jobMoves_of_same rfl rfl (List.prefix_refl _) fun hsound => ⟨[⟨call, job.id⟩], rfl, ?_⟩
      intro started hstarted other ho hid
      rw [List.mem_singleton.1 hstarted] at hid
      have hwrites : (startedWork s').writes = s'.writes := rfl
      obtain ⟨later, hlater, hadv⟩ := hstored.moves hs.moves (sound_of_same hwrites hsound)
      rw [eq_of_id hinv.nodup hlater ho (hid.trans hadv.id.symm)]
      exact (hadv.begun hbegun).2
    exact ⟨hinv.same rfl rfl (List.prefix_refl _), ⟨hmoves, [], (List.append_nil _).symm, fun _ h => nomatch h⟩,
      hf _ (hP hmoves (hP hs.moves h))⟩
  exact steps_bind hstart

/-! ## Jobs that are written -/

theorem advances_cancelled {job : MaterializationJob π ρ γ} (h : job.status = .queued) (time : IsoTime)
    (message : String) : Advances job (cancelledJob job time message) :=
  advances_of_active (by rw [h]; rfl) rfl rfl fun hb => absurd h hb.1

theorem advances_running {job : MaterializationJob π ρ γ} (h : isActiveStatus job.status = true) (time : IsoTime)
    (message : String) : Advances job (runningJob job time message) :=
  advances_of_active h rfl rfl fun _ => ⟨fun h => (by cases h), fun h => (by cases h)⟩

theorem advances_failed {job : MaterializationJob π ρ γ} (h : isActiveStatus job.status = true) (time : IsoTime)
    (error : JobError) (message : String) : Advances job (failedJob job time error message) :=
  advances_of_active h rfl rfl fun _ => ⟨fun h => (by cases h), fun h => (by cases h)⟩

theorem pastQueue_of_running {job : MaterializationJob π ρ γ} (h : job.status = .running) : PastQueue job := by
  rw [PastQueue, h]
  exact ⟨fun h => (by cases h), fun h => (by cases h)⟩

/-! ## Both services -/

/-- What an answer says: a job that was cancelled, or that a call with the source key was given. -/
def Replied (call : Nat) (sourceKey : Option String) :
    Except Thrown (JobReply π ρ γ) → ServiceState π ρ γ → Prop
  | .ok (.cancelled job), s => job.status = .cancelled ∧ Stored job s
  | .ok (.created reused job), s =>
    sourceKey = some job.sourceKey ∧ isActiveStatus job.status = true ∧ Stored job s ∧
      (reused = false → CreatedBy call job s)
  | _, _ => True

variable {sourceKey : Option String}

theorem steps_cancelJob (service id : String) (s : ServiceState π ρ γ) :
    Steps Start call (Replied call sourceKey) (cancelJob call service id) s := by
  unfold cancelJob
  dsimp only
  split
  · trivial
  · refine listJobs_bind lasting_true trivial (fun jobs s₁ _ hreads _ => ?_) fun _ _ _ => trivial
    cases hfind : findJob (trim id) jobs.items with
    | none => trivial
    | some job =>
      have hmem := (mem_of_findJob hfind).1
      dsimp only
      split
      next hcancelled => exact ⟨hcancelled, hreads.stored job hmem⟩
      next =>
        split
        · trivial
        next hqueued =>
          rw [Decidable.not_not] at hqueued
          refine now_bind lasting_reads hreads (fun time s₂ hreads => ?_) fun _ _ _ => trivial
          refine upsertJob_bind lasting_reads hreads (fun s' hr => .stored jobs hr ?_)
            (fun _ _ _ _ _ _ _ _ _ _ hstored => ⟨rfl, hstored⟩) fun _ _ _ => trivial
          exact improves_of_mem hreads.nodup hmem (by rw [hqueued]; rfl) (advances_cancelled hqueued time _)

/-! ## The archive service -/

theorem steps_settleArchiveJob {started : Basis (MaterializationJob π ρ γ)} {running : MaterializationJob π ρ γ}
    {settled : IsoTime → MaterializationJob π ρ γ} (hreads : Reads started s) (hmem : running ∈ started.items)
    (hactive : isActiveStatus running.status = true) (hadvances : ∀ time, Advances running (settled time)) :
    Steps Start call (Replied call sourceKey) (settleArchiveJob call started settled) s := by
  refine now_bind lasting_reads hreads (fun time s₁ hreads => ?_) fun _ _ _ => trivial
  refine upsertJob_bind lasting_reads hreads (fun s' hr => .stored started hr ?_)
    (fun _ _ _ _ _ _ _ _ _ _ _ => trivial) fun _ _ _ => trivial
  exact improves_of_mem hreads.nodup hmem hactive (hadvances time)

/-- What a failed run of the archive service knows. -/
def ArchiveRan (call : Nat) (sourceKey : Option String) (started : Basis (MaterializationJob π ρ γ)) :
    Except Thrown (JobReply π ρ γ) → ServiceState π ρ γ → Prop
  | .ok reply, s => Replied call sourceKey (.ok reply) s
  | .error _, s => Reads started s

theorem steps_workArchiveJob {started : Basis (MaterializationJob π ρ γ)} {running : MaterializationJob π ρ γ}
    (hreads : Reads started s) (hstored : Stored running s) (hmem : running ∈ started.items)
    (hrunning : running.status = .running) :
    Steps Start call (ArchiveRan call sourceKey started) (workArchiveJob call running started) s := by
  refine startWork_bind (fun hm h => h.moves hm) hreads hstored (pastQueue_of_running hrunning) fun s₁ hreads => ?_
  refine ask_bind lasting_reads hreads (fun turn s₂ hreads => ?_) fun _ _ h => h
  cases turn with
  | attempt lost progress => exact hreads
  | failed thrown => exact hreads
  | finished status result error message final =>
    have hactive : isActiveStatus running.status = true := by rw [hrunning]; rfl
    refine now_bind lasting_reads hreads (fun time s₃ hreads => ?_) fun _ _ h => h
    refine upsertJob_bind lasting_reads hreads (fun s' hr => .stored started hr ?_)
      (fun _ _ _ _ _ _ _ _ _ _ _ => trivial) fun _ _ h => h
    refine improves_of_mem hreads.nodup hmem hactive (advances_of_active hactive rfl rfl fun _ => ?_)
    dsimp only [PastQueue]
    split <;> exact ⟨fun h => (by cases h), fun h => (by cases h)⟩

theorem steps_runArchiveJob (id : String) (s : ServiceState π ρ γ) :
    Steps Start call (Replied call sourceKey) (runArchiveJob call id) s := by
  refine listJobs_bind lasting_true trivial (fun jobs s₁ _ hreads _ => ?_) fun _ _ _ => trivial
  cases hfind : findJob (trim id) jobs.items with
  | none => trivial
  | some job =>
    have hmem := (mem_of_findJob hfind).1
    dsimp only
    split
    · trivial
    next hactive =>
      rw [Bool.not_eq_true', Bool.not_eq_false] at hactive
      refine now_bind lasting_reads hreads (fun time s₂ hreads => ?_) fun _ _ _ => trivial
      refine upsertJob_bind lasting_reads hreads (fun s' hr => .stored jobs hr ?_)
        (fun started s₃ s₄ _ _ _ _ _ hstarted hrun hstored => ?_) fun _ _ _ => trivial
      · exact improves_of_mem hr.nodup hmem hactive (advances_running hactive time _)
      have hwork : Steps Start call (ArchiveRan call sourceKey started) (workArchiveJob call _ started) s₄ :=
        steps_workArchiveJob hstarted hstored hrun rfl
      refine steps_orElse (hwork.imp fun r s₅ hr => ?_)
      cases r with
      | ok reply => exact hr
      | error thrown =>
        have hactive : isActiveStatus JobStatus.running = true := rfl
        exact steps_settleArchiveJob hr hrun hactive fun time => advances_of_active hactive rfl rfl
          fun _ => ⟨fun h => (by cases h), fun h => (by cases h)⟩

theorem steps_recoverArchiveJobs {jobs : Basis (MaterializationJob π ρ γ)} (rest : List (MaterializationJob π ρ γ))
    (hrest : ∀ job ∈ rest, job ∈ jobs.items) (recovered : Nat) (hreads : Reads jobs s) :
    Steps Start call (Replied call sourceKey) (recoverArchiveJobs call jobs rest recovered) s := by
  induction rest generalizing recovered s with
  | nil => trivial
  | cons job rest ih =>
    have hrest' : ∀ job ∈ rest, job ∈ jobs.items := fun job hm => hrest job (List.mem_cons_of_mem _ hm)
    unfold recoverArchiveJobs
    split
    · exact ih hrest' recovered hreads
    next hactive =>
      rw [Bool.not_eq_true', Bool.not_eq_false] at hactive
      refine now_bind lasting_reads hreads (fun time s₁ hreads => ?_) fun _ _ _ => trivial
      refine upsertJob_bind lasting_reads hreads (fun s' hr => .stored jobs hr ?_)
        (fun _ _ _ _ _ hr _ hm _ _ _ => ih hrest' _ (hr.moves hm)) fun _ _ _ => trivial
      exact improves_of_mem hr.nodup (hrest job List.mem_cons_self) hactive (advances_failed hactive time _ _)

theorem steps_createArchiveJob (request : ArchiveRequest) (progress : γ) (s : ServiceState ArchiveRequest ρ γ) :
    Steps Start call (Replied call (some (trim request.archiveItemId))) (createArchiveJob call request progress) s := by
  unfold createArchiveJob
  dsimp only
  split
  · trivial
  · refine now_bind lasting_true trivial (fun time s₁ _ => ?_) fun _ _ _ => trivial
    refine listJobs_bind lasting_true trivial (fun jobs s₂ _ hreads hunwritten => ?_) fun _ _ _ => trivial
    refine noteScan_bind hreads hunwritten fun s₃ hscanned => ?_
    cases hfind : findActiveJobForArchiveItem (trim request.archiveItemId) jobs.items with
    | some active =>
      have hmatch := List.find?_some hfind
      rw [Bool.and_eq_true, beq_iff_eq] at hmatch
      exact ⟨congrArg some hmatch.1.symm, hmatch.2, hscanned.reads.stored active (List.mem_of_find?_eq_some hfind),
        fun h => (by cases h)⟩
    | none =>
      have hvacant : Vacant call jobs (trim request.archiveItemId) s₃ := by
        refine ⟨hscanned, fun old hold hkey hactive => ?_⟩
        have hnone := List.find?_eq_none.1 hfind old hold
        rw [hkey, hactive, beq_self_eq_true] at hnone
        exact absurd rfl hnone
      refine ask_bind lasting_vacant hvacant (fun id s₄ hvacant => ?_) fun _ _ _ => trivial
      refine upsertJob_bind lasting_vacant hvacant (fun s' h => .created jobs h.1 h.2)
        (fun _ s₅ s₆ _ write _ hw _ _ _ hstored => ?_) fun _ _ _ => trivial
      refine scheduler_bind (lasting_stored.and lasting_created) ⟨hstored, createdBy_of_writes hw⟩ (fun s' h => ?_)
        fun _ _ _ => trivial
      exact ⟨rfl, rfl, h.1, fun _ => h.2⟩

/-! ## The history service -/

/-- What is known when a job that was read may have been declared stale. -/
def Recovered (call : Nat) (P : ServiceState π ρ γ → Prop) (jobs : Basis (MaterializationJob π ρ γ))
    (job : MaterializationJob π ρ γ) : Except Thrown (MaterializationJob π ρ γ) → ServiceState π ρ γ → Prop
  | .ok recovered, s => P s ∧
    (recovered = job ∨ (isActiveStatus recovered.status = false ∧ Declared call jobs job s))
  | .error _, _ => True

theorem declared_of_writes {jobs : Basis (MaterializationJob π ρ γ)} {old job : MaterializationJob π ρ γ}
    {basis : Option (Basis (MaterializationJob π ρ γ))} {current : Option (List (MaterializationJob π ρ γ))}
    {write : Write (MaterializationJob π ρ γ)} (h : Writes call basis job current write s s') (hreads : Reads jobs s)
    (hid : job.id = old.id) : Declared call jobs old s' := by
  refine ⟨write, ?_, h.call, job, ?_, hid⟩
  · rw [h.replaces.writes, List.drop_append_of_le_length hreads.le]
    exact List.mem_append_right _ List.mem_cons_self
  · rw [h.items]
    exact List.mem_cons_self

theorem steps_recoverStaleRunningJob (kind : HistoryKind π) {jobs : Basis (MaterializationJob π ρ γ)}
    {job : MaterializationJob π ρ γ} (hP : Enduring call P) (h : P s) (hreads : Reads jobs s) (hmem : job ∈ jobs.items) :
    Steps Start call (Recovered call P jobs job) (recoverStaleRunningJob kind call jobs job) s := by
  have hlasting : Lasting call fun s => P s ∧ Reads jobs s := hP.toLasting.and lasting_reads
  refine now_bind hlasting ⟨h, hreads⟩ (fun time s₁ h => ?_) fun _ _ _ => trivial
  split
  next hstale =>
    rw [isTimedOutRunningJob, canRunningJobTimeout, Bool.and_eq_true, decide_eq_true_eq] at hstale
    refine ask_bind hlasting h (fun telemetry s₂ h => ?_) fun _ _ _ => trivial
    refine upsertJob_bind hlasting h (fun s' hr => .stored jobs hr.2 ?_)
      (fun _ s₃ s₄ _ _ hr hw hm _ _ _ => ?_) fun _ _ _ => trivial
    · have hactive : isActiveStatus job.status = true := by rw [hstale.1]; rfl
      exact improves_of_mem hr.2.nodup hmem hactive (advances_of_active hactive rfl rfl
        fun _ => ⟨fun h => (by cases h), fun h => (by cases h)⟩)
    have hafter : P s₄ ∧ Declared call jobs job s₄ :=
      ⟨hP.inactive hw hm rfl hr.1, declared_of_writes hw hr.2 rfl⟩
    have hlasts : Lasting call fun s => P s ∧ Declared call jobs job s := hP.toLasting.and lasting_declared
    refine scheduler_bind hlasts hafter (fun s₅ h => ?_) fun _ _ _ => trivial
    exact ask_bind hlasts h (fun _ s₆ h => ⟨h.1, .inr ⟨rfl, h.2⟩⟩) fun _ _ _ => trivial
  next => exact ⟨h.1, .inl rfl⟩

/-- What the look for an active job tells. -/
def FoundActive (call : Nat) (jobs : Basis (MaterializationJob π ρ γ)) (sourceKey : String)
    (rest : List (MaterializationJob π ρ γ)) :
    Except Thrown (Option (MaterializationJob π ρ γ)) → ServiceState π ρ γ → Prop
  | .ok (some job), s => job.sourceKey = sourceKey ∧ isActiveStatus job.status = true ∧ Stored job s
  | .ok none, s => Scanned call jobs sourceKey s ∧ ∀ old ∈ rest, old.sourceKey = sourceKey →
    isActiveStatus old.status = true → Declared call jobs old s
  | .error _, _ => True

theorem steps_findActiveJob (kind : HistoryKind π) {jobs : Basis (MaterializationJob π ρ γ)} {sourceKey : String}
    (rest : List (MaterializationJob π ρ γ)) (hrest : ∀ job ∈ rest, job ∈ jobs.items)
    (hscanned : Scanned call jobs sourceKey s) :
    Steps Start call (FoundActive call jobs sourceKey rest) (findActiveJob kind call sourceKey jobs rest) s := by
  induction rest generalizing s with
  | nil => exact ⟨hscanned, fun _ h => nomatch h⟩
  | cons job rest ih =>
    have hrest' : ∀ job ∈ rest, job ∈ jobs.items := fun job hm => hrest job (List.mem_cons_of_mem _ hm)
    unfold findActiveJob
    split
    next hskip =>
      refine (ih hrest' hscanned).imp fun r s' hr => ?_
      rcases r with - | (- | job)
      · trivial
      · refine ⟨hr.1, fun old hold hkey hactive => ?_⟩
        rcases List.mem_cons.1 hold with rfl | hold
        · rcases hskip with hskip | hskip
          · exact absurd hkey hskip
          · rw [hskip] at hactive
            cases hactive
        · exact hr.2 old hold hkey hactive
      · exact hr
    next hmatch =>
      rw [not_or, Decidable.not_not, Bool.not_eq_false] at hmatch
      have hrecover : Steps Start call _ _ s := steps_recoverStaleRunningJob kind enduring_scanned hscanned hscanned.reads
        (hrest job List.mem_cons_self)
      refine steps_bind (hrecover.imp fun r s₁ hr => ?_)
      cases r with
      | error => trivial
      | ok recovered =>
        obtain ⟨hscanned, hrecovered⟩ := hr
        show Steps Start call _ (if isActiveStatus recovered.status = true then _ else _) s₁
        split
        next hactive =>
          obtain rfl : recovered = job := by
            rcases hrecovered with rfl | ⟨hinactive, -⟩
            · rfl
            · rw [hactive] at hinactive
              cases hinactive
          exact ⟨hmatch.1, hmatch.2, hscanned.reads.stored recovered (hrest recovered List.mem_cons_self)⟩
        next hinactive =>
          have hdeclared : Declared call jobs job s₁ := by
            rcases hrecovered with rfl | ⟨-, hdeclared⟩
            · exact absurd hmatch.2 hinactive
            · exact hdeclared
          have hframe := (ih hrest' hscanned).frame hdeclared (fun hs h => lasting_declared.others hs h)
            fun hs h => h.moves hs.moves.moves.history
          refine hframe.imp fun r s' hr => ?_
          rcases r with - | (- | job)
          · trivial
          · refine ⟨hr.1.1, fun old hold hkey hactive => ?_⟩
            rcases List.mem_cons.1 hold with rfl | hold
            · exact hr.2
            · exact hr.1.2 old hold hkey hactive
          · exact hr.1

/-- What `findActiveJobForSource` tells. -/
def FoundForSource (call : Nat) (sourceKey : String) :
    Except Thrown (Option (MaterializationJob π ρ γ)) → ServiceState π ρ γ → Prop
  | .ok (some job), s => job.sourceKey = sourceKey ∧ isActiveStatus job.status = true ∧ Stored job s
  | .ok none, s => ∃ jobs, Vacant call jobs sourceKey s
  | .error _, _ => True

theorem steps_findActiveJobForSource (kind : HistoryKind π) (key : String) (s : ServiceState π ρ γ) :
    Steps Start call (FoundForSource call key) (findActiveJobForSource kind call key) s := by
  refine listJobs_bind lasting_true trivial (fun jobs s₁ _ hreads hunwritten => ?_) fun _ _ _ => trivial
  refine noteScan_bind hreads hunwritten fun s₂ hscanned => ?_
  refine (steps_findActiveJob kind jobs.items (fun _ hm => hm) hscanned).imp fun r s₃ hr => ?_
  rcases r with - | (- | active)
  · trivial
  · exact ⟨jobs, hr⟩
  · exact hr

/-- The source key of a request of the history service. -/
def historyKey (kind : HistoryKind π) (request : π) : Option String := (kind.accept request).toOption.map (·.2)

theorem steps_createHistoryJob (kind : HistoryKind π) (request : π) (progress : γ) (s : ServiceState π ρ γ) :
    Steps Start call (Replied call (historyKey kind request)) (createHistoryJob kind call request progress) s := by
  unfold createHistoryJob historyKey
  cases kind.accept request with
  | error thrown => trivial
  | ok accepted =>
    obtain ⟨normalized, key⟩ := accepted
    refine now_bind (s := s) lasting_true trivial (fun time s₁ _ => ?_) fun _ _ _ => trivial
    refine steps_bind ((steps_findActiveJobForSource kind key s₁).imp fun r s₂ hr => ?_)
    rcases r with - | (- | active)
    · trivial
    · obtain ⟨jobs, hvacant⟩ := hr
      dsimp only [Goes]
      refine ask_bind lasting_vacant hvacant (fun id s₃ hvacant => ?_) fun _ _ _ => trivial
      refine upsertJob_bind lasting_vacant hvacant (fun s' h => .created jobs h.1 h.2)
        (fun _ s₄ s₅ _ write _ hw _ _ _ hstored => ?_) fun _ _ _ => trivial
      refine scheduler_bind (lasting_stored.and lasting_created) ⟨hstored, createdBy_of_writes hw⟩ (fun s' h => ?_)
        fun _ _ _ => trivial
      exact ⟨rfl, rfl, h.1, fun _ => h.2⟩
    · obtain ⟨hkey, hactive, hstored⟩ := hr
      have hreply : ∀ s', Stored active s' → Replied call (some key) (.ok (.created true active)) s' :=
        fun s' h => ⟨congrArg some hkey.symm, hactive, h, fun h => (by cases h)⟩
      dsimp only [Goes]
      split
      · exact scheduler_bind lasting_stored hstored (fun s' h => hreply s' h) fun _ _ _ => trivial
      · exact hreply s₂ hstored

theorem steps_readHistoryJob (kind : HistoryKind π) (id : String) (s : ServiceState π ρ γ) :
    Steps Start call (Replied call sourceKey) (readHistoryJob kind call id) s := by
  refine listJobs_bind lasting_true trivial (fun jobs s₁ _ hreads _ => ?_) fun _ _ _ => trivial
  cases hfind : findJob (trim id) jobs.items with
  | none => trivial
  | some job =>
    have hrecover : Steps Start call _ _ s₁ := steps_recoverStaleRunningJob kind enduring_reads hreads hreads
      (mem_of_findJob hfind).1
    refine steps_bind (hrecover.imp fun r s₂ _ => ?_)
    cases r <;> trivial

theorem steps_recoverStaleRunningJobs (kind : HistoryKind π) {jobs : Basis (MaterializationJob π ρ γ)}
    (rest : List (MaterializationJob π ρ γ)) (hrest : ∀ job ∈ rest, job ∈ jobs.items) (hreads : Reads jobs s) :
    Steps Start call (fun _ _ => True) (recoverStaleRunningJobs kind call jobs rest) s := by
  induction rest generalizing s with
  | nil => trivial
  | cons job rest ih =>
    have hrecover : Steps Start call _ _ s := steps_recoverStaleRunningJob kind enduring_reads hreads hreads
      (hrest job List.mem_cons_self)
    refine steps_bind (hrecover.imp fun r s₁ hr => ?_)
    cases r with
    | error => trivial
    | ok recovered =>
      refine steps_bind ((ih (fun job hm => hrest job (List.mem_cons_of_mem _ hm)) hr.1).imp fun r s₂ _ => ?_)
      cases r <;> trivial

theorem steps_listHistoryJobs (kind : HistoryKind π) (s : ServiceState π ρ γ) :
    Steps Start call (Replied call sourceKey) (listHistoryJobs kind call) s := by
  refine listJobs_bind lasting_true trivial (fun jobs s₁ _ hreads _ => ?_) fun _ _ _ => trivial
  refine steps_bind ((steps_recoverStaleRunningJobs kind jobs.items (fun _ hm => hm) hreads).imp fun r s₂ _ => ?_)
  cases r <;> trivial

theorem steps_saveProgress (jobId lost : String) (progress : γ → γ) (s : ServiceState π ρ γ) :
    Steps Start call (fun _ _ => True) (saveProgress call jobId lost progress) s := by
  refine listJobs_bind lasting_true trivial (fun jobs s₁ _ hreads _ => ?_) fun _ _ _ => trivial
  cases hfind : findJob jobId jobs.items with
  | none => trivial
  | some job =>
    dsimp only
    split
    · trivial
    next hrunning =>
      rw [Decidable.not_not] at hrunning
      have hactive : isActiveStatus job.status = true := by rw [hrunning]; rfl
      refine upsertJob_bind lasting_reads hreads (fun s' hr => .stored jobs hr ?_)
        (fun _ _ _ _ _ _ _ _ _ _ _ => trivial) fun _ _ _ => trivial
      exact improves_of_mem hr.nodup (mem_of_findJob hfind).1 hactive (advances_of_active hactive rfl rfl fun h => h)

/-- A job that is settled. -/
structure Settles (settled : MaterializationJob π ρ γ → IsoTime → MaterializationJob π ρ γ) : Prop where
  id : ∀ job time, (settled job time).id = job.id
  sourceKey : ∀ job time, (settled job time).sourceKey = job.sourceKey
  inactive : ∀ job time, isActiveStatus (settled job time).status = false
  begun : ∀ job time, PastQueue (settled job time)

theorem steps_settleHistoryJob {running : MaterializationJob π ρ γ}
    {settled : MaterializationJob π ρ γ → IsoTime → MaterializationJob π ρ γ} (h : Settles settled)
    (s : ServiceState π ρ γ) :
    Steps Start call (Replied call sourceKey) (settleHistoryJob call running settled) s := by
  refine listJobs_bind lasting_true trivial (fun jobs s₁ _ hreads _ => ?_) fun _ _ _ => trivial
  cases hfind : findJob running.id jobs.items with
  | none =>
    refine now_bind lasting_reads hreads (fun time s₂ hreads => ?_) fun _ _ _ => trivial
    refine upsertJob_bind lasting_reads hreads (fun s' hr => .stored jobs hr ⟨fun old hold hid => ?_, fun hactive => ?_⟩)
      (fun _ _ _ _ _ _ _ _ _ _ _ => trivial) fun _ _ _ => trivial
    · exact absurd (hid.trans (h.id running time)) (not_mem_of_findJob hfind old hold)
    · rw [h.inactive] at hactive
      cases hactive
  | some current =>
    dsimp only
    split
    · trivial
    next hactive =>
      rw [Bool.not_eq_true', Bool.not_eq_false] at hactive
      refine now_bind lasting_reads hreads (fun time s₂ hreads => ?_) fun _ _ _ => trivial
      refine upsertJob_bind lasting_reads hreads (fun s' hr => .stored jobs hr ?_)
        (fun _ _ _ _ _ _ _ _ _ _ _ => trivial) fun _ _ _ => trivial
      exact improves_of_mem hr.nodup (mem_of_findJob hfind).1 hactive
        (advances_of_active hactive (h.id current time) (h.sourceKey current time) fun _ => h.begun current time)

theorem pastQueue_of_final {status : JobStatus} (h : status = .succeeded ∨ status = .skipped ∨ status = .failed) :
    isActiveStatus status = false ∧ status ≠ .queued ∧ status ≠ .cancelled := by
  rcases h with rfl | rfl | rfl <;> exact ⟨rfl, fun h => (by cases h), fun h => (by cases h)⟩

theorem steps_workHistoryJob (running : MaterializationJob π ρ γ) (rounds : Nat) (s : ServiceState π ρ γ) :
    Steps Start call (Replied call sourceKey) (workHistoryJob call running rounds) s := by
  induction rounds generalizing s with
  | zero => trivial
  | succ rounds ih =>
    refine ask_bind lasting_true trivial (fun turn s₁ _ => ?_) fun _ _ _ => trivial
    cases turn with
    | attempt lost progress =>
      refine steps_bind ((steps_saveProgress running.id lost progress s₁).imp fun r s₂ _ => ?_)
      cases r with
      | ok => exact ih s₂
      | error => trivial
    | failed thrown => trivial
    | finished status result error message final =>
      have hfinal := pastQueue_of_final final
      refine steps_settleHistoryJob ?_ s₁
      exact ⟨fun _ _ => rfl, fun _ _ => rfl, fun _ _ => hfinal.1, fun _ _ => hfinal.2⟩

theorem steps_failHistoryJob (running : MaterializationJob π ρ γ) (thrown : Thrown) (s : ServiceState π ρ γ) :
    Steps Start call (Replied call sourceKey) (failHistoryJob call running thrown) s := by
  refine ask_bind lasting_true trivial (fun progress s₁ _ => ?_) fun _ _ _ => trivial
  refine steps_settleHistoryJob ?_ s₁
  exact ⟨fun _ _ => rfl, fun _ _ => rfl, fun _ _ => rfl, fun _ _ => ⟨fun h => (by cases h), fun h => (by cases h)⟩⟩

theorem steps_runHistoryJob (id : String) (rounds : Nat) (s : ServiceState π ρ γ) :
    Steps Start call (Replied call sourceKey) (runHistoryJob call id rounds) s := by
  refine listJobs_bind lasting_true trivial (fun jobs s₁ _ hreads _ => ?_) fun _ _ _ => trivial
  cases hfind : findJob (trim id) jobs.items with
  | none => trivial
  | some job =>
    dsimp only
    split
    · trivial
    next hactive =>
      rw [Bool.not_eq_true', Bool.not_eq_false] at hactive
      refine now_bind lasting_reads hreads (fun time s₂ hreads => ?_) fun _ _ _ => trivial
      refine upsertJob_bind lasting_reads hreads (fun s' hr => .stored jobs hr ?_)
        (fun _ s₃ s₄ _ _ _ _ _ _ _ hstored => ?_) fun _ _ _ => trivial
      · exact improves_of_mem hr.nodup (mem_of_findJob hfind).1 hactive (advances_running hactive time _)
      have htry : Steps Start call (Replied call sourceKey) (tryHistoryJob call
          (runningJob job time "History materialization job is running.") rounds) s₄ := by
        refine ask_bind lasting_stored hstored (fun _ s₅ hstored => ?_) fun _ _ _ => trivial
        refine startWork_bind (fun hm h => h.moves hm) hstored hstored (pastQueue_of_running rfl) fun s₆ _ => ?_
        exact steps_workHistoryJob _ rounds s₆
      refine steps_orElse (htry.imp fun r s₅ hr => ?_)
      cases r with
      | ok reply => exact hr
      | error thrown => exact steps_failHistoryJob _ thrown s₅

theorem steps_recoverHistoryJobs {jobs : Basis (MaterializationJob π ρ γ)} (rest : List (MaterializationJob π ρ γ))
    (hrest : ∀ job ∈ rest, job ∈ jobs.items) (recovered : Nat) (hreads : Reads jobs s) :
    Steps Start call (Replied call sourceKey) (recoverHistoryJobs call jobs rest recovered) s := by
  induction rest generalizing recovered s with
  | nil => trivial
  | cons job rest ih =>
    have hrest' : ∀ job ∈ rest, job ∈ jobs.items := fun job hm => hrest job (List.mem_cons_of_mem _ hm)
    unfold recoverHistoryJobs
    split
    · exact ih hrest' recovered hreads
    next hactive =>
      rw [Bool.not_eq_true', Bool.not_eq_false] at hactive
      split
      next hqueued =>
        refine now_bind lasting_reads hreads (fun time s₁ hreads => ?_) fun _ _ _ => trivial
        refine upsertJob_bind lasting_reads hreads (fun s' hr => .stored jobs hr ?_)
          (fun _ _ s₂ _ _ hr _ hm _ _ _ => ?_) fun _ _ _ => trivial
        · exact improves_of_mem hr.nodup (hrest job List.mem_cons_self) hactive
            (advances_of_active hactive rfl rfl fun h => absurd hqueued h.1)
        exact scheduler_bind lasting_reads (hr.moves hm) (fun s₃ hr => ih hrest' _ hr) fun _ _ _ => trivial
      next =>
        refine now_bind lasting_reads hreads (fun time s₁ hreads => ?_) fun _ _ _ => trivial
        refine upsertJob_bind lasting_reads hreads (fun s' hr => .stored jobs hr ?_)
          (fun _ _ _ _ _ hr _ hm _ _ _ => ih hrest' _ (hr.moves hm)) fun _ _ _ => trivial
        exact improves_of_mem hr.nodup (hrest job List.mem_cons_self) hactive (advances_failed hactive time _ _)

/-! ## Scheduled work -/

theorem steps_scheduledWork {jobId : String} {run : ServiceScript π ρ γ (JobReply π ρ γ)}
    {settled : Scheduler → Scheduler} (hrun : ∀ s, Steps Start call (Replied call sourceKey) run s)
    (s : ServiceState π ρ γ) :
    Steps Start call (Replied call sourceKey) (scheduledWork call jobId run settled) s := by
  refine scheduler_bind lasting_true trivial (fun s₁ _ => ?_) fun _ _ _ => trivial
  refine scheduler_bind lasting_true trivial (fun s₂ _ => ?_) fun _ _ _ => trivial
  have hrun' : Steps Start call (fun _ _ => True) (run >>= fun _ => (pure ⟨⟩ : ServiceScript π ρ γ PUnit)) s₂ :=
    steps_bind ((hrun s₂).imp fun r _ _ => by cases r <;> trivial)
  have hcaught : Steps Start call (fun _ _ => True)
      ((run >>= fun _ => pure ⟨⟩).orElse fun _ => (pure ⟨⟩ : ServiceScript π ρ γ PUnit)) s₂ :=
    steps_orElse (hrun'.imp fun r _ _ => by cases r <;> trivial)
  refine steps_bind (hcaught.imp fun r s₃ _ => ?_)
  cases r with
  | error => trivial
  | ok =>
    dsimp only [Goes]
    refine scheduler_bind lasting_true trivial (fun s₄ _ => ?_) fun _ _ _ => trivial
    exact scheduler_bind lasting_true trivial (fun _ _ => trivial) fun _ _ _ => trivial

end Calls

/-! ## All calls -/

section Compatible

variable {π ρ γ : Type} {Start : Prop}

/-- A process starts; when `Start` holds, with single active jobs. -/
def JobStart (Start : Prop) (s : ServiceState π ρ γ) : Prop := JobInit s ∧ (Start → SingleActive s.items)

theorem jobInv_of_start {s : ServiceState π ρ γ} (h : JobStart Start s) : JobInv Start s := by
  obtain ⟨⟨hwrites, hnodup, -⟩, hsingle⟩ := h
  have hnone : ∀ write, write ∉ s.writes := fun write hw => by
    rw [hwrites] at hw
    cases hw
  refine ⟨hnodup, fun write hw => absurd hw (hnone write), fun _ write hw => absurd hw (hnone write), ?_, ?_⟩
  · exact fun hstart _ _ => hsingle hstart
  · exact fun _ _ write hw => absurd hw (hnone write)

/-- The source key of a call that creates a job. -/
def archiveKey : JobCall ArchiveRequest γ → Option String
  | .createJob request _ => some (trim request.archiveItemId)
  | _ => none

def createKey (kind : HistoryKind π) : JobCall π γ → Option String
  | .createJob request _ => historyKey kind request
  | _ => none

-- from here on the lemmas above say what these scripts do, and their comparisons of texts are not to be evaluated
attribute [local irreducible] cancelJob createArchiveJob createHistoryJob

theorem steps_archiveCall (call : Nat) (input : JobCall ArchiveRequest γ) (s : ServiceState ArchiveRequest ρ γ) :
    Steps Start call (Replied call (archiveKey input)) (archiveCall call input) s := by
  cases input with
  | createJob request progress => exact steps_createArchiveJob request progress s
  | listJobs => exact listJobs_bind lasting_true trivial (fun _ _ _ _ _ => trivial) fun _ _ _ => trivial
  | readJob id => exact listJobs_bind lasting_true trivial (fun _ _ _ _ _ => trivial) fun _ _ _ => trivial
  | cancelJob id => exact steps_cancelJob "Archive" id s
  | runJob id rounds => exact steps_runArchiveJob id s
  | recoverInterruptedJobs =>
    exact listJobs_bind lasting_true trivial
      (fun jobs _ _ hreads _ => steps_recoverArchiveJobs jobs.items (fun _ hm => hm) 0 hreads) fun _ _ _ => trivial
  | work jobId rounds =>
    have hrun : ∀ s : ServiceState ArchiveRequest ρ γ, Steps Start call (Replied call none) (runArchiveJob call jobId) s :=
      fun s => steps_runArchiveJob jobId s
    exact steps_scheduledWork hrun s

theorem steps_historyCall (kind : HistoryKind π) (call : Nat) (input : JobCall π γ) (s : ServiceState π ρ γ) :
    Steps Start call (Replied call (createKey kind input)) (historyCall kind call input) s := by
  cases input with
  | createJob request progress => exact steps_createHistoryJob kind request progress s
  | listJobs => exact steps_listHistoryJobs kind s
  | readJob id => exact steps_readHistoryJob kind id s
  | cancelJob id => exact steps_cancelJob "History" id s
  | runJob id rounds => exact steps_runHistoryJob id rounds s
  | recoverInterruptedJobs =>
    exact listJobs_bind lasting_true trivial
      (fun jobs _ _ hreads _ => steps_recoverHistoryJobs jobs.items (fun _ hm => hm) 0 hreads) fun _ _ _ => trivial
  | work jobId rounds =>
    have hrun : ∀ s : ServiceState π ρ γ, Steps Start call (Replied call none) (runHistoryJob call jobId rounds) s :=
      fun s => steps_runHistoryJob jobId rounds s
    show Steps Start call (Replied call none) (scheduledWork call jobId _ fun scheduler => scheduler.unschedule jobId) s
    exact steps_scheduledWork hrun s

theorem quiet_of_disturb {s s' : ServiceState π ρ γ} {surroundings : JobSurroundings ρ γ}
    (h : disturbJobs s surroundings = some s') : Quiet s s' := by
  cases h
  exact ⟨rfl, rfl, rfl, rfl⟩

theorem OwnJobs.others {i j : Nat} {s s' : ServiceState π ρ γ} (h : OwnJobs i s s') (hne : i ≠ j) : OtherJobs j s s' := by
  obtain ⟨new, hnew, hcall⟩ := h.writes
  exact ⟨h.moves, new, hnew, fun write hw heq => hne ((hcall write hw).symm.trans heq)⟩

theorem Quiet.others {call : Nat} {s s' : ServiceState π ρ γ} (h : Quiet s s') : OtherJobs call s s' :=
  ⟨h.jobMoves, [], by rw [h.writes, List.append_nil], fun _ h => nomatch h⟩

section Init

variable {Init : ServiceState π ρ γ → Prop} (hinit : ∀ s, Init s → JobStart Start s)

include hinit

/-- **Any calls of a job service keep the store sound.** -/
theorem compatible_of_steps {call : Nat → JobCall π γ → ServiceScript π ρ γ (JobReply π ρ γ)}
    {key : JobCall π γ → Option String}
    (h : ∀ i input s, Steps Start i (Replied i (key input)) (call i input) s) :
    Threads.Compatible Init call disturbJobs (JobInv Start) OtherJobs OwnJobs
      fun i input => Replied i (key input) where
  refl _ s := .refl s
  trans h h' := h.trans h'
  init s hs := jobInv_of_start (hinit s hs)
  outside hinv hs :=
    have hquiet := quiet_of_disturb hs
    ⟨hinv.same hquiet.document hquiet.writes (hquiet.scans ▸ List.prefix_refl _), fun _ => hquiet.others⟩
  others hne _ hown := hown.others hne
  call i input _ s _ _ _ := h i input s

theorem history_compatible (kind : HistoryKind π) :
    Threads.Compatible Init (historyCall kind) disturbJobs (JobInv Start) OtherJobs OwnJobs
      fun i input => Replied i (createKey kind input) := compatible_of_steps hinit (steps_historyCall kind)

end Init

theorem archive_compatible {Init : ServiceState ArchiveRequest ρ γ → Prop} (hinit : ∀ s, Init s → JobStart Start s) :
    Threads.Compatible Init archiveCall disturbJobs (JobInv Start) OtherJobs OwnJobs
      fun i input => Replied i (archiveKey input) := compatible_of_steps hinit steps_archiveCall

end Compatible

end AuraCall.Materialization
