import AuraCall.Materialization.JobServices
import Mathlib.Tactic.SplitIfs

/-!
# What the job services do to the store

A run is `Sound` when every replacement of the document is in its window and no job is created under the id of a stored
one. In a sound run a job only `Advances`: it is never changed again when it is not active any more, and it never goes
back into the queue or is cancelled when it has been started. `JobMoves` says so of any number of steps, and that
provider work is started only for jobs that are not cancelled.

A writer must know what it replaces: `Reads` is what a reading of the store tells it, and `Improves` what a job must be
that was made from it.
-/

namespace AuraCall.Materialization

open Script SharedDocument EventTrace

section Jobs

variable {π ρ γ : Type}

/-! ## Jobs -/

/-- The job was taken from the queue. -/
def PastQueue (job : MaterializationJob π ρ γ) : Prop := job.status ≠ .queued ∧ job.status ≠ .cancelled

/-- What may become of a job. -/
structure Advances (old new : MaterializationJob π ρ γ) : Prop where
  id : new.id = old.id
  sourceKey : new.sourceKey = old.sourceKey
  final : isActiveStatus old.status = false → new = old
  begun : PastQueue old → PastQueue new

theorem Advances.refl (job : MaterializationJob π ρ γ) : Advances job job :=
  ⟨rfl, rfl, fun _ => rfl, fun h => h⟩

theorem Advances.trans {job job' job'' : MaterializationJob π ρ γ} (h : Advances job job') (h' : Advances job' job'') :
    Advances job job'' where
  id := h'.id.trans h.id
  sourceKey := h'.sourceKey.trans h.sourceKey
  final hi := by
    have hsame := h.final hi
    rw [← hsame] at hi
    rw [h'.final hi, hsame]
  begun hb := h'.begun (h.begun hb)

theorem advances_of_active {old new : MaterializationJob π ρ γ} (hactive : isActiveStatus old.status = true)
    (hid : new.id = old.id) (hkey : new.sourceKey = old.sourceKey) (hbegun : PastQueue old → PastQueue new) :
    Advances old new :=
  ⟨hid, hkey, fun h => absurd (hactive.symm.trans h) Bool.noConfusion, hbegun⟩

/-- At most one job of a source is active. -/
def SingleActive (jobs : List (MaterializationJob π ρ γ)) : Prop :=
  ∀ job ∈ jobs, ∀ other ∈ jobs, isActiveStatus job.status = true → isActiveStatus other.status = true →
    other.sourceKey = job.sourceKey → other = job

/-- In a list of jobs whose ids differ, the id says which job it is. -/
theorem eq_of_id {jobs : List (MaterializationJob π ρ γ)} (h : (jobs.map (·.id)).Nodup)
    {job other : MaterializationJob π ρ γ} (hm : job ∈ jobs) (ho : other ∈ jobs) (hid : other.id = job.id) :
    other = job := List.inj_on_of_nodup_map h ho hm hid

theorem mem_of_findJob {jobs : List (MaterializationJob π ρ γ)} {id : String} {job : MaterializationJob π ρ γ}
    (h : findJob id jobs = some job) : job ∈ jobs ∧ job.id = id := by
  have hid := List.find?_some h
  exact ⟨List.mem_of_find?_eq_some h, beq_iff_eq.1 hid⟩

theorem not_mem_of_findJob {jobs : List (MaterializationJob π ρ γ)} {id : String} (h : findJob id jobs = none) :
    ∀ job ∈ jobs, job.id ≠ id := fun job hm heq => List.find?_eq_none.1 h job hm (beq_iff_eq.2 heq)

end Jobs

/-! ## Runs -/

section Runs

variable {π ρ γ : Type} {s s' s'' : ServiceState π ρ γ} {call : Nat}

/-- Replacements are in their windows, and no job is created under the id of a stored one. -/
structure Sound (s : ServiceState π ρ γ) : Prop where
  orderly : Orderly MaterializationJob.id s
  fresh : ∀ write ∈ s.writes, write.basis = none → ∀ job ∈ write.items, ∀ old ∈ write.found, old.id ≠ job.id

instance : Decidable (Sound s) :=
  decidable_of_iff (Orderly MaterializationJob.id s ∧ ∀ write ∈ s.writes, write.basis = none →
    ∀ job ∈ write.items, ∀ old ∈ write.found, old.id ≠ job.id) ⟨fun h => ⟨h.1, h.2⟩, fun h => ⟨h.orderly, h.fresh⟩⟩

/-- No other call has written a job of the source between the scan of a call that creates a job and its writing. -/
def ScansFresh (s : ServiceState π ρ γ) : Prop :=
  Lawful (fun before write => write.basis = none → ∀ scan ∈ s.rest.scans, scan.call = write.call →
    ∀ other ∈ before.drop scan.position, other.call ≠ write.call → ∀ job ∈ other.items,
      job.sourceKey ≠ scan.sourceKey) s.writes

instance : Decidable (ScansFresh s) := inferInstanceAs (Decidable (Lawful _ _))

/-- What any steps do to the jobs. -/
structure JobMoves (s s' : ServiceState π ρ γ) : Prop where
  moves : Moves MaterializationJob.id s s'
  scans : s.rest.scans <+: s'.rest.scans
  jobs : Sound s' → ∀ job ∈ s.items, ∃ job' ∈ s'.items, Advances job job'
  work : Sound s' → ∃ new, s'.rest.work = s.rest.work ++ new ∧ ∀ started ∈ new, ∀ job ∈ s.items,
    job.id = started.jobId → job.status ≠ .cancelled

theorem Sound.before (h : Sound s') (hm : Moves MaterializationJob.id s s') : Sound s :=
  ⟨hm.orderly h.orderly, fun write hw => h.fresh write (hm.history.subset hw)⟩

theorem ScansFresh.before (h : ScansFresh s') (hwrites : s.writes <+: s'.writes) (hscans : s.rest.scans <+: s'.rest.scans) :
    ScansFresh s := by
  obtain ⟨new, hnew⟩ := hwrites
  intro before write after heq hbasis scan hscan
  exact h before write (after ++ new) (by rw [← hnew, heq, List.append_assoc, List.cons_append]) hbasis scan
    (hscans.subset hscan)

theorem JobMoves.refl (s : ServiceState π ρ γ) : JobMoves s s :=
  ⟨.refl s, List.prefix_refl _, fun _ job hm => ⟨job, hm, .refl job⟩, fun _ => ⟨[], (List.append_nil _).symm,
    fun _ h => nomatch h⟩⟩

theorem JobMoves.trans (h : JobMoves s s') (h' : JobMoves s' s'') : JobMoves s s'' := by
  refine ⟨h.moves.trans h'.moves, h.scans.trans h'.scans, fun hs job hm => ?_, fun hs => ?_⟩
  · obtain ⟨job', hm', hadv⟩ := h.jobs (hs.before h'.moves) job hm
    obtain ⟨job'', hm'', hadv'⟩ := h'.jobs hs job' hm'
    exact ⟨job'', hm'', hadv.trans hadv'⟩
  · obtain ⟨new, hnew, hwork⟩ := h.work (hs.before h'.moves)
    obtain ⟨new', hnew', hwork'⟩ := h'.work hs
    refine ⟨new ++ new', by rw [hnew', hnew, List.append_assoc], fun started hstarted job hm hid => ?_⟩
    rcases List.mem_append.1 hstarted with hstarted | hstarted
    · exact hwork started hstarted job hm hid
    · obtain ⟨job', hm', hadv⟩ := h.jobs (hs.before h'.moves) job hm
      intro hcancelled
      have hsame := hadv.final (by rw [hcancelled]; rfl)
      exact hwork' started hstarted job' hm' (hadv.id.trans hid) (hsame ▸ hcancelled)

/-- The invariant of the store; `Start` says that it has started with single active jobs. -/
structure JobInv (Start : Prop) (s : ServiceState π ρ γ) : Prop where
  nodup : (s.items.map MaterializationJob.id).Nodup
  removed : ∀ write ∈ s.writes, ∀ job, write.removed job = false
  written : Sound s → ∀ write ∈ s.writes, ∀ job ∈ write.items, ∃ job' ∈ s.items, Advances job job'
  single : Start → Sound s → ScansFresh s → SingleActive s.items
  created : Sound s → ScansFresh s → ∀ write ∈ s.writes, write.basis = none → ∀ job ∈ write.items,
    ∀ old ∈ write.found, old.sourceKey = job.sourceKey → isActiveStatus old.status = false

/-- What the others do. -/
structure OtherJobs (call : Nat) (s s' : ServiceState π ρ γ) : Prop where
  moves : JobMoves s s'
  writes : ∃ new, s'.writes = s.writes ++ new ∧ ∀ write ∈ new, write.call ≠ call

/-- What a call does. -/
structure OwnJobs (call : Nat) (s s' : ServiceState π ρ γ) : Prop where
  moves : JobMoves s s'
  writes : ∃ new, s'.writes = s.writes ++ new ∧ ∀ write ∈ new, write.call = call

theorem OtherJobs.refl (s : ServiceState π ρ γ) : OtherJobs call s s :=
  ⟨.refl s, [], (List.append_nil _).symm, fun _ h => nomatch h⟩

theorem OtherJobs.trans (h : OtherJobs call s s') (h' : OtherJobs call s' s'') : OtherJobs call s s'' := by
  obtain ⟨new, hnew, hcall⟩ := h.writes
  obtain ⟨new', hnew', hcall'⟩ := h'.writes
  refine ⟨h.moves.trans h'.moves, new ++ new', by rw [hnew', hnew, List.append_assoc], fun write hw => ?_⟩
  exact (List.mem_append.1 hw).elim (hcall write) (hcall' write)

/-! ## Steps that leave the document alone -/

/-- Only the scheduler and the surroundings change. -/
structure Quiet (s s' : ServiceState π ρ γ) : Prop where
  document : s'.document = s.document
  writes : s'.writes = s.writes
  work : s'.rest.work = s.rest.work
  scans : s'.rest.scans = s.rest.scans

/-- A step that leaves the document and its trace alone, and may start work and note scans. -/
theorem jobMoves_of_same (hdocument : s'.document = s.document) (hwrites : s'.writes = s.writes)
    (hscans : s.rest.scans <+: s'.rest.scans)
    (hwork : Sound s' → ∃ new, s'.rest.work = s.rest.work ++ new ∧ ∀ started ∈ new, ∀ job ∈ s.items,
      job.id = started.jobId → job.status ≠ .cancelled) : JobMoves s s' := by
  have hitems : s'.items = s.items := congrArg (·.getD []) hdocument
  exact ⟨moves_of_same hdocument hwrites, hscans, fun _ job hm => ⟨job, hitems ▸ hm, .refl job⟩, hwork⟩

theorem Quiet.jobMoves (h : Quiet s s') : JobMoves s s' :=
  jobMoves_of_same h.document h.writes (h.scans ▸ List.prefix_refl _) fun _ =>
    ⟨[], by rw [h.work, List.append_nil], fun _ h => nomatch h⟩

theorem sound_of_same (hwrites : s'.writes = s.writes) (h : Sound s') : Sound s := by
  refine ⟨?_, fun write hw => h.fresh write (hwrites ▸ hw)⟩
  have ho := h.orderly
  rwa [Orderly, hwrites] at ho

theorem JobInv.same {Start : Prop} (h : JobInv Start s) (hdocument : s'.document = s.document)
    (hwrites : s'.writes = s.writes) (hscans : s.rest.scans <+: s'.rest.scans) : JobInv Start s' := by
  have hitems : s'.items = s.items := congrArg (·.getD []) hdocument
  refine ⟨hitems ▸ h.nodup, fun write hw => h.removed write (hwrites ▸ hw), fun hs write hw => ?_, fun hstart hs hf => ?_,
    fun hs hf write hw => ?_⟩
  · rw [hitems]
    exact h.written (sound_of_same hwrites hs) write (hwrites ▸ hw)
  · rw [hitems]
    exact h.single hstart (sound_of_same hwrites hs) (hf.before (hwrites ▸ List.prefix_refl _) hscans)
  · exact h.created (sound_of_same hwrites hs) (hf.before (hwrites ▸ List.prefix_refl _) hscans) write (hwrites ▸ hw)

theorem Quiet.own (h : Quiet s s') : OwnJobs call s s' :=
  ⟨h.jobMoves, [], by rw [h.writes, List.append_nil], fun _ h => nomatch h⟩

/-! ## Writing a job -/

/-- The job is stored, and may have gone on since. -/
def Stored (job : MaterializationJob π ρ γ) (s : ServiceState π ρ γ) : Prop :=
  Sound s → ∃ job' ∈ s.items, Advances job job'

theorem Stored.moves {job : MaterializationJob π ρ γ} (h : Stored job s) (hm : JobMoves s s') : Stored job s' := by
  intro hs
  obtain ⟨job', hjob', hadv⟩ := h (hs.before hm.moves)
  obtain ⟨job'', hjob'', hadv'⟩ := hm.jobs hs job' hjob'
  exact ⟨job'', hjob'', hadv.trans hadv'⟩

/-- What a reading of the store tells. -/
structure Reads (jobs : Basis (MaterializationJob π ρ γ)) (s : ServiceState π ρ γ) : Prop where
  comes : ∃ document, document.getD [] = jobs.items ∧ ReadAt MaterializationJob.id jobs.position document s
  nodup : (jobs.items.map MaterializationJob.id).Nodup
  stored : ∀ job ∈ jobs.items, Stored job s

theorem Reads.moves {jobs : Basis (MaterializationJob π ρ γ)} (h : Reads jobs s) (hm : JobMoves s s') :
    Reads jobs s' := by
  obtain ⟨document, hitems, hread⟩ := h.comes
  exact ⟨⟨document, hitems, hm.moves.read _ _ hread⟩, h.nodup, fun job hjob => (h.stored job hjob).moves hm⟩

theorem reads_here {Start : Prop} (hinv : JobInv Start s) : Reads ⟨s.writes.length, s.items⟩ s :=
  ⟨⟨s.document, rfl, readAt_here⟩, hinv.nodup, fun job hm _ => ⟨job, hm, .refl job⟩⟩

/-- A job that was made from a reading. -/
structure Improves (jobs : Basis (MaterializationJob π ρ γ)) (job : MaterializationJob π ρ γ) : Prop where
  advances : ∀ old ∈ jobs.items, old.id = job.id → Advances old job
  active : isActiveStatus job.status = true → ∃ old ∈ jobs.items, old.id = job.id ∧
    isActiveStatus old.status = true ∧ old.sourceKey = job.sourceKey

/-- A stored job that goes on. -/
theorem improves_of_mem {jobs : Basis (MaterializationJob π ρ γ)} {old job : MaterializationJob π ρ γ}
    (hnodup : (jobs.items.map MaterializationJob.id).Nodup) (hm : old ∈ jobs.items)
    (hactive : isActiveStatus old.status = true) (h : Advances old job) : Improves jobs job := by
  refine ⟨fun other ho hid => ?_, fun _ => ⟨old, hm, h.id.symm, hactive, h.sourceKey.symm⟩⟩
  rw [eq_of_id hnodup hm ho (hid.trans h.id)]
  exact h

/-- What a call that creates a job knows of its source: when it has looked, and that what it has written since is not
active. -/
structure Scanned (call : Nat) (jobs : Basis (MaterializationJob π ρ γ)) (sourceKey : String)
    (s : ServiceState π ρ γ) : Prop where
  reads : Reads jobs s
  noted : ⟨call, jobs.position, sourceKey⟩ ∈ s.rest.scans
  own : ∀ write ∈ s.writes.drop jobs.position, write.call = call → ∀ job ∈ write.items,
    isActiveStatus job.status = false

/-- The call has declared a job stale that it has found. -/
def Declared (call : Nat) (jobs : Basis (MaterializationJob π ρ γ)) (old : MaterializationJob π ρ γ)
    (s : ServiceState π ρ γ) : Prop :=
  ∃ write ∈ s.writes.drop jobs.position, write.call = call ∧ ∃ job ∈ write.items, job.id = old.id

/-- Where the job of a writing comes from. -/
inductive Origin (call : Nat) (s : ServiceState π ρ γ) (job : MaterializationJob π ρ γ) :
    Option (Basis (MaterializationJob π ρ γ)) → Prop
  | stored (jobs : Basis (MaterializationJob π ρ γ)) : Reads jobs s → Improves jobs job → Origin call s job (some jobs)
  | created (jobs : Basis (MaterializationJob π ρ γ)) : Scanned call jobs job.sourceKey s →
      (∀ old ∈ jobs.items, old.sourceKey = job.sourceKey → isActiveStatus old.status = true →
        Declared call jobs old s) → Origin call s job none

/-- A writing of a job. -/
structure Writes (call : Nat) (basis : Option (Basis (MaterializationJob π ρ γ))) (job : MaterializationJob π ρ γ)
    (current : Option (List (MaterializationJob π ρ γ))) (write : Write (MaterializationJob π ρ γ))
    (s s' : ServiceState π ρ γ) : Prop where
  replaces : Replaces MaterializationJob.id current write s s'
  read : ReadAt MaterializationJob.id write.seen current s
  nodup : ((current.getD []).map MaterializationJob.id).Nodup
  call : write.call = call
  basis : write.basis = basis
  items : write.items = [job]
  removed : ∀ item, write.removed item = false
  rest : s'.rest = s.rest

section Writing

variable {Start : Prop} {basis : Option (Basis (MaterializationJob π ρ γ))} {job : MaterializationJob π ρ γ}
  {current : Option (List (MaterializationJob π ρ γ))} {write : Write (MaterializationJob π ρ γ)}

theorem Writes.mem (h : Writes call basis job current write s s') (hs : Sound s') (item : MaterializationJob π ρ γ) :
    item ∈ s'.items ↔ item = job ∨ (item ∈ s.items ∧ item.id ≠ job.id) := by
  obtain ⟨-, -, hcurrent⟩ := h.replaces.read h.read hs.orderly
  rw [h.replaces.mem, h.items, hcurrent]
  simp [Write.Supersedes, h.items, h.removed, Shared.items]

/-- No write of a job that was read, if none is in its window. -/
theorem unwritten_of_window {jobs : Basis (MaterializationJob π ρ γ)}
    (h : Writes call (some jobs) job current write s s') (hs : Sound s') {id : String} (hid : id = job.id) :
    ∀ other ∈ s.writes.drop jobs.position, id ∉ other.items.map MaterializationJob.id := by
  obtain ⟨-, hwindow, -⟩ := h.replaces.read h.read hs.orderly
  intro other hother
  rw [hid]
  exact hwindow.2 jobs h.basis other hother job (by rw [h.items]; exact List.mem_cons_self)

/-- A stored job of the same id was read, and nothing else has been written under it since. -/
theorem Reads.found {jobs : Basis (MaterializationJob π ρ γ)} (hreads : Reads jobs s)
    (h : Writes call (some jobs) job current write s s') (hs : Sound s') {old : MaterializationJob π ρ γ}
    (hold : old ∈ s.items) (hid : old.id = job.id) : old ∈ jobs.items := by
  obtain ⟨document, hitems, hat⟩ := hreads.comes
  obtain ⟨ho, -, -⟩ := h.replaces.read h.read hs.orderly
  exact hitems ▸ hat.unseen ho old hold (unwritten_of_window h hs hid)

theorem Reads.kept {jobs : Basis (MaterializationJob π ρ γ)} (hreads : Reads jobs s) (hinv : JobInv Start s)
    (h : Writes call (some jobs) job current write s s') (hs : Sound s') {old : MaterializationJob π ρ γ}
    (hold : old ∈ jobs.items) (hid : old.id = job.id) : old ∈ s.items := by
  obtain ⟨document, hitems, hat⟩ := hreads.comes
  obtain ⟨ho, -, -⟩ := h.replaces.read h.read hs.orderly
  refine hat.kept ho old (hitems ▸ hold) fun other hother hsup => ?_
  rcases hsup with hkey | hremoved
  · exact unwritten_of_window h hs hid other hother hkey
  · rw [hinv.removed other (List.mem_of_mem_drop hother)] at hremoved
    cases hremoved

theorem Writes.advances (h : Writes call basis job current write s s') (horigin : Origin call s job basis)
    (hs : Sound s') {old : MaterializationJob π ρ γ} (hold : old ∈ s.items) : ∃ new ∈ s'.items, Advances old new := by
  by_cases hid : old.id = job.id
  · refine ⟨job, (h.mem hs job).2 (.inl rfl), ?_⟩
    cases horigin with
    | stored jobs hreads himproves => exact himproves.advances old (hreads.found h hs hold hid) hid
    | created jobs =>
      have hne := hs.fresh write (by rw [h.replaces.writes]; exact List.mem_append_right _ List.mem_cons_self) h.basis
        job (by rw [h.items]; exact List.mem_cons_self) old (h.replaces.found ▸ hold)
      exact absurd hid hne
  · exact ⟨old, (h.mem hs old).2 (.inr ⟨hold, hid⟩), .refl old⟩

theorem Writes.jobMoves (h : Writes call basis job current write s s') (horigin : Origin call s job basis) :
    JobMoves s s' := by
  refine ⟨h.replaces.moves h.read, h.rest ▸ List.prefix_refl _, fun hs old hold => h.advances horigin hs hold, fun _ => ?_⟩
  exact ⟨[], by rw [h.rest, List.append_nil], fun _ h => nomatch h⟩

theorem Writes.own (h : Writes call basis job current write s s') (horigin : Origin call s job basis) :
    OwnJobs call s s' := by
  refine ⟨h.jobMoves horigin, [write], h.replaces.writes, fun other ho => ?_⟩
  rw [List.mem_singleton.1 ho, h.call]

/-- The job that is created is the only active one of its source. -/
theorem Writes.alone (h : Writes call none job current write s s') (hinv : JobInv Start s)
    (horigin : Origin call s job none) (hs : Sound s') (hfresh : ScansFresh s') {old : MaterializationJob π ρ γ}
    (hold : old ∈ s.items) (hkey : old.sourceKey = job.sourceKey) : isActiveStatus old.status = false := by
  cases horigin with
  | created jobs hscanned hdeclared =>
    have hs' : Sound s := hs.before (h.replaces.moves h.read)
    -- what was written under the id since the scan was written by the call itself, and is not active
    by_contra hactive
    rw [Bool.not_eq_false] at hactive
    have hunwritten : ∀ other ∈ s.writes.drop jobs.position, old.id ∉ other.items.map MaterializationJob.id := by
      intro other hother hid
      obtain ⟨item, hitem, hitemId⟩ := List.mem_map.1 hid
      obtain ⟨later, hlater, hadv⟩ := hinv.written hs' other (List.mem_of_mem_drop hother) item hitem
      have hsame := eq_of_id hinv.nodup hold hlater (hadv.id.trans hitemId)
      subst hsame
      by_cases hown : other.call = call
      · have hfinal := hadv.final (hscanned.own other hother hown item hitem)
        rw [hfinal, hscanned.own other hother hown item hitem] at hactive
        cases hactive
      · have hscan : ⟨call, jobs.position, job.sourceKey⟩ ∈ s'.rest.scans := h.rest ▸ hscanned.noted
        exact hfresh s.writes write [] h.replaces.writes h.basis _ hscan h.call.symm other hother
          (fun heq => hown (heq.trans h.call)) item hitem (hadv.sourceKey.symm.trans hkey)
    obtain ⟨document, hitems, hat⟩ := hscanned.reads.comes
    have hread : old ∈ jobs.items := hitems ▸ hat.unseen hs'.orderly old hold hunwritten
    obtain ⟨other, hother, -, item, hitem, hid⟩ := hdeclared old hread hkey hactive
    exact hunwritten other hother (List.mem_map.2 ⟨item, hitem, hid⟩)

/-- **A writing keeps the invariant.** -/
theorem Writes.inv (h : Writes call basis job current write s s') (hinv : JobInv Start s)
    (horigin : Origin call s job basis) : JobInv Start s' := by
  have hmoves := h.jobMoves horigin
  refine ⟨?_, fun other ho => ?_, fun hs other ho item hitem => ?_, fun hstart hs hfresh => ?_, fun hs hfresh other ho => ?_⟩
  · refine h.replaces.nodup h.nodup ?_
    rw [h.items]
    exact List.nodup_singleton _
  · rw [h.replaces.writes, List.mem_append, List.mem_singleton] at ho
    rcases ho with ho | rfl
    · exact hinv.removed other ho
    · exact h.removed
  · rw [h.replaces.writes, List.mem_append, List.mem_singleton] at ho
    rcases ho with ho | rfl
    · obtain ⟨later, hlater, hadv⟩ := hinv.written (hs.before hmoves.moves) other ho item hitem
      obtain ⟨last, hlast, hadv'⟩ := hmoves.jobs hs later hlater
      exact ⟨last, hlast, hadv.trans hadv'⟩
    · rw [h.items, List.mem_singleton] at hitem
      subst hitem
      exact ⟨item, (h.mem hs item).2 (.inl rfl), .refl item⟩
  · have hsingle := hinv.single hstart (hs.before hmoves.moves)
      (hfresh.before hmoves.moves.history (h.rest ▸ List.prefix_refl _))
    -- a stored active job of the same source has the id of the job
    have halone : isActiveStatus job.status = true → ∀ old ∈ s.items, old.id ≠ job.id →
        isActiveStatus old.status = true → old.sourceKey ≠ job.sourceKey := by
      intro hactive old hold hne hold' hkey
      cases horigin with
      | stored jobs hreads himproves =>
        obtain ⟨before, hbefore, hid, hbefore', hkey'⟩ := himproves.active hactive
        have hstored := hreads.kept hinv h hs hbefore hid
        rw [hsingle before hstored old hold hbefore' hold' (hkey.trans hkey'.symm)] at hne
        exact hne hid
      | created jobs hscanned hdeclared =>
        have hfalse := h.alone hinv (.created jobs hscanned hdeclared) hs hfresh hold hkey
        rw [hold'] at hfalse
        cases hfalse
    intro first hfirst second hsecond hactive hactive' hkey
    rcases (h.mem hs first).1 hfirst with rfl | ⟨hfirst, hne⟩
    · rcases (h.mem hs second).1 hsecond with rfl | ⟨hsecond, hne'⟩
      · rfl
      · exact absurd hkey (halone hactive second hsecond hne' hactive')
    · rcases (h.mem hs second).1 hsecond with rfl | ⟨hsecond, hne'⟩
      · exact absurd hkey.symm (halone hactive' first hfirst hne hactive)
      · exact hsingle first hfirst second hsecond hactive hactive' hkey
  · intro hnone item hitem old hold hkey
    rw [h.replaces.writes, List.mem_append, List.mem_singleton] at ho
    rcases ho with ho | rfl
    · exact hinv.created (hs.before hmoves.moves) (hfresh.before hmoves.moves.history (h.rest ▸ List.prefix_refl _))
        other ho hnone item hitem old hold hkey
    · obtain rfl : basis = none := h.basis.symm.trans hnone
      rw [h.items, List.mem_singleton] at hitem
      rw [hitem] at hkey
      exact h.alone hinv horigin hs hfresh (h.replaces.found ▸ hold) hkey

end Writing

end Runs

end AuraCall.Materialization
