import AuraCall.Materialization.JobServices

/-!
# The chain of scheduled jobs

What calls do to the scheduler of the history service (`SchedulerStep`), and what holds of the chain as long as a run is
declared stale only when no other job is in it (`StaleDeclaration.Alone`): the jobs run one at a time, every marked job is
in the callbacks or in a link whose turn has come or will come (`QueueInv`).

The chain is first in, first out: a link waits for the one before it, and the one that was added last is what the next
one waits for.
-/

namespace AuraCall.Materialization

/-! ## Links -/

/-- The link has settled. -/
def SettledAt (q : Scheduler) (k : Nat) : Prop := ∃ link, q.links[k]? = some link ∧ link.settled = true

/-- The link has not settled, and its run was not declared stale. -/
def PendingAt (q : Scheduler) (k : Nat) : Prop :=
  ∃ link, q.links[k]? = some link ∧ link.settled = false ∧ link.stale = false

def QueueLink.Running (link : QueueLink) : Prop := link.begun = true ∧ link.settled = false

/-- The link runs, or its turn has come, or it is behind such a link; and no run on the way was declared stale. -/
inductive Live (q : Scheduler) : Nat → Prop
  | begun {k : Nat} {link : QueueLink} : q.links[k]? = some link → link.stale = false → link.begun = true → Live q k
  | first {k : Nat} {link : QueueLink} : q.links[k]? = some link → link.stale = false → link.after = none → Live q k
  | next {k m : Nat} {link : QueueLink} : q.links[k]? = some link → link.stale = false → link.after = some m →
      SettledAt q m → Live q k
  | behind {k m : Nat} {link : QueueLink} : q.links[k]? = some link → link.stale = false → link.after = some m →
      Live q m → Live q k

/-- When the run was declared stale, the other links had settled or were stale themselves; and the run was marked, or
no link of the chain. -/
def StaleDeclaration.Alone (declared : StaleDeclaration) : Prop :=
  if declared.marked then ∀ link ∈ declared.links, link.settled = false →
    link.stale = true ∨ (link.jobId = declared.jobId ∧ link.begun = true)
  else ∀ link ∈ declared.links, link.jobId = declared.jobId → link.begun = true → link.settled = false →
    link.stale = true

instance (declared : StaleDeclaration) : Decidable declared.Alone := by
  unfold StaleDeclaration.Alone
  infer_instance

/-! ## Steps -/

/-- What a step of a call does to the scheduler. -/
inductive SchedulerStep (call : Nat) (q : Scheduler) : Scheduler → Prop
  | same : SchedulerStep call q q
  | schedule (jobId : String) : SchedulerStep call q (q.scheduleJob jobId)
  | abandon (jobId : String) : SchedulerStep call q (q.abandon jobId)
  | chain (jobId : String) : (∀ link ∈ q.links, link.call ≠ call) → SchedulerStep call q (q.chain call jobId)
  | begin : (∃ link ∈ q.links, link.call = call ∧ link.begun = false) →
      SchedulerStep call q (q.mark call fun link => { link with begun := true })
  | settle : (∃ link ∈ q.links, link.call = call ∧ link.begun = true ∧ link.settled = false) →
      SchedulerStep call q (q.mark call fun link => { link with settled := true })
  | finish (jobId : String) : (∃ link ∈ q.links, link.call = call ∧ link.jobId = jobId) →
      SchedulerStep call q ((q.mark call fun link => { link with finished := true }).unschedule jobId)

section Links

variable {q : Scheduler} {call k : Nat} {link : QueueLink} {jobId : String} {f : QueueLink → QueueLink}

@[simp] theorem scheduleJob_links : (q.scheduleJob jobId).links = q.links := by
  unfold Scheduler.scheduleJob
  split <;> rfl

@[simp] theorem scheduleJob_declared : (q.scheduleJob jobId).declared = q.declared := by
  unfold Scheduler.scheduleJob
  split <;> rfl

/-- What the runs of a job become when it is declared stale. -/
def markStale (jobId : String) (link : QueueLink) : QueueLink :=
  if link.jobId = jobId ∧ link.begun = true ∧ link.settled = false then { link with stale := true } else link

@[simp] theorem abandon_links : (q.abandon jobId).links = q.links.map (markStale jobId) := by
  unfold Scheduler.abandon
  split <;> rfl

@[simp] theorem abandon_callbacks : (q.abandon jobId).callbacks = q.callbacks := by
  unfold Scheduler.abandon
  split <;> rfl

theorem abandon_declared :
    (q.abandon jobId).declared = q.declared ++ [⟨jobId, decide (jobId ∈ q.scheduledJobIds), q.links⟩] := by
  unfold Scheduler.abandon
  split <;> rfl

/-- A call's own links, as the others leave them. -/
def ownLinks (call : Nat) (q : Scheduler) : List (String × Bool × Bool) :=
  (q.links.filter fun link => link.call = call).map fun link => (link.jobId, link.begun, link.settled)

theorem ownLinks_map (h : ∀ link ∈ q.links, (f link).call = link.call)
    (hown : ∀ link ∈ q.links, link.call = call →
      ((f link).jobId, (f link).begun, (f link).settled) = (link.jobId, link.begun, link.settled)) :
    ownLinks call { q with links := q.links.map f } = ownLinks call q := by
  unfold ownLinks
  generalize q.links = links at h hown
  induction links with
  | nil => rfl
  | cons link links ih =>
    have hcall := h link List.mem_cons_self
    have ih := ih (fun link hm => h link (List.mem_cons_of_mem _ hm)) fun link hm => hown link (List.mem_cons_of_mem _ hm)
    simp only [List.map_cons, List.filter_cons, hcall]
    split
    next hc => simp only [List.map_cons, ih, hown link List.mem_cons_self (of_decide_eq_true hc)]
    next => exact ih

theorem mem_ownLinks {fields : String × Bool × Bool} (h : fields ∈ ownLinks call q) :
    ∃ link ∈ q.links, link.call = call ∧ (link.jobId, link.begun, link.settled) = fields := by
  obtain ⟨link, hlink, hfields⟩ := List.mem_map.1 h
  obtain ⟨hmem, hcall⟩ := List.mem_filter.1 hlink
  exact ⟨link, hmem, of_decide_eq_true hcall, hfields⟩

theorem ownLinks_nil (h : ownLinks call q = []) : ∀ link ∈ q.links, link.call ≠ call := by
  intro link hlink hcall
  have hmem : (link.jobId, link.begun, link.settled) ∈ ownLinks call q :=
    List.mem_map_of_mem (List.mem_filter.2 ⟨hlink, decide_eq_true hcall⟩)
  rw [h] at hmem
  cases hmem

theorem ownLinks_chain : ownLinks call (q.chain call jobId) = ownLinks call q ++ [(jobId, false, false)] := by
  show List.map _ ((q.links ++ [_]).filter _) = _
  rw [List.filter_append, List.filter_cons_of_pos (by simp), List.filter_nil, List.map_append]
  rfl

theorem ownLinks_mark (g : String × Bool × Bool → String × Bool × Bool) (hcall : ∀ link, (f link).call = link.call)
    (hfields : ∀ link, ((f link).jobId, (f link).begun, (f link).settled) = g (link.jobId, link.begun, link.settled)) :
    ownLinks call (q.mark call f) = (ownLinks call q).map g := by
  show List.map _ ((q.links.map fun link => if link.call = call then f link else link).filter _) = _
  unfold ownLinks
  induction q.links with
  | nil => rfl
  | cons link links ih =>
    rw [List.map_cons]
    by_cases hc : link.call = call
    · rw [if_pos hc, List.filter_cons_of_pos (by simpa using (hcall link).trans hc),
        List.filter_cons_of_pos (by simpa using hc), List.map_cons, List.map_cons, List.map_cons, hfields, ih]
    · rw [if_neg hc, List.filter_cons_of_neg (by simpa using hc), List.filter_cons_of_neg (by simpa using hc), ih]

/-- The steps of another call leave a call's own links as they are. -/
theorem SchedulerStep.others {other : Nat} {q' : Scheduler} (h : SchedulerStep other q q') (hne : other ≠ call) :
    ownLinks call q' = ownLinks call q := by
  have hmark : ∀ f : QueueLink → QueueLink, (∀ link, (f link).call = link.call) →
      ownLinks call (q.mark other f) = ownLinks call q := by
    intro f hf
    refine ownLinks_map (fun link _ => ?_) fun link _ hc => ?_
    · split
      · exact hf link
      · rfl
    · rw [if_neg fun heq => hne (heq.symm.trans hc)]
  cases h with
  | same => rfl
  | schedule jobId => rw [ownLinks, ownLinks, scheduleJob_links]
  | abandon jobId =>
    have hstale : ownLinks call { q with links := q.links.map (markStale jobId) } = ownLinks call q := by
      refine ownLinks_map (fun link _ => ?_) fun link _ _ => ?_ <;> unfold markStale <;> split <;> rfl
    rw [← hstale, ownLinks, ownLinks, abandon_links]
  | chain jobId hnew =>
    show List.map _ ((q.links ++ [_]).filter _) = _
    rw [List.filter_append, List.filter_cons_of_neg (by simpa using hne), List.filter_nil, List.append_nil]
    rfl
  | begin hown => exact hmark _ fun _ => rfl
  | settle hown => exact hmark _ fun _ => rfl
  | finish jobId hown => exact hmark _ fun _ => rfl

end Links

/-! ## The chain -/

/-- What holds of the scheduler as long as only runs are declared stale that are alone. -/
structure QueueInv (q : Scheduler) : Prop where
  last : ∀ m, q.queue = some m → m + 1 = q.links.length
  previous : ∀ (l : Nat) (link : QueueLink) (m : Nat), q.links[l]? = some link → link.after = some m → m + 1 = l
  begun : ∀ (l : Nat) (link : QueueLink) (m : Nat), q.links[l]? = some link → link.begun = true → link.after = some m →
    SettledAt q m
  settled : ∀ link ∈ q.links, link.settled = true → link.begun = true
  ahead : ∀ (l : Nat) (link : QueueLink) (k : Nat), q.links[l]? = some link → link.stale = false → k < l → PendingAt q k →
    ∃ m, link.after = some m ∧ PendingAt q m
  pending : ∀ k, PendingAt q k → ∃ m, q.queue = some m ∧ PendingAt q m
  waits : ∀ (l : Nat) (link : QueueLink) (m : Nat), q.links[l]? = some link → link.settled = false →
    link.stale = false → link.after = some m → SettledAt q m ∨ PendingAt q m
  free : ∀ m, q.queue = some m → SettledAt q m ∨ PendingAt q m
  marked : ∀ jobId ∈ q.scheduledJobIds, jobId ∈ q.callbacks ∨
    ∃ link ∈ q.links, link.jobId = jobId ∧ link.finished = false ∧ link.stale = false
  calls : (q.links.map QueueLink.call).Nodup

section Chain

variable {q q' : Scheduler} {call k l m : Nat} {link : QueueLink} {jobId : String} {f : QueueLink → QueueLink}

theorem not_pending_of_settled (h : SettledAt q m) : ¬PendingAt q m := by
  rintro ⟨link, hlink, hopen, -⟩
  obtain ⟨other, hother, hsettled⟩ := h
  rw [hlink] at hother
  cases hother
  rw [hopen] at hsettled
  cases hsettled

theorem QueueInv.eq_of_call (h : QueueInv q) {other : QueueLink} (hl : link ∈ q.links) (ho : other ∈ q.links)
    (hcall : other.call = link.call) : other = link := List.inj_on_of_nodup_map h.calls ho hl hcall

/-- **One at a time**: of two runs that have begun and have not settled, one was declared stale. -/
theorem QueueInv.single (h : QueueInv q) {first second : QueueLink} (hk : q.links[k]? = some first)
    (hl : q.links[l]? = some second) (hfirst : first.Running) (hsecond : second.Running) (hlt : k < l) :
    first.stale = true ∨ second.stale = true := by
  by_contra hboth
  rw [not_or, Bool.not_eq_true, Bool.not_eq_true] at hboth
  obtain ⟨m, hafter, hpending⟩ := h.ahead l second k hl hboth.2 hlt ⟨first, hk, hfirst.2, hboth.1⟩
  exact not_pending_of_settled (h.begun l second m hl hsecond.1 hafter) hpending

/-- **Nothing is stuck**: a link that is pending runs, or its turn has come or will come. -/
theorem QueueInv.live (h : QueueInv q) : ∀ (k : Nat) link, q.links[k]? = some link → link.settled = false →
    link.stale = false → Live q k := by
  intro k
  induction k using Nat.strong_induction_on with
  | _ k ih =>
    intro link hlink hopen hfresh
    cases hafter : link.after with
    | none => exact .first hlink hfresh hafter
    | some m =>
      rcases h.waits k link m hlink hopen hfresh hafter with hsettled | ⟨prior, hprior, hopen', hfresh'⟩
      · exact .next hlink hfresh hafter hsettled
      · have hlt := h.previous k link m hlink hafter
        exact .behind hlink hfresh hafter (ih m (by omega) prior hprior hopen' hfresh')

/-- A marked job that is not in the callbacks is in a link that is live. -/
theorem QueueInv.live_of_marked (h : QueueInv q) (hm : jobId ∈ q.scheduledJobIds) : jobId ∈ q.callbacks ∨
    ∃ k link, q.links[k]? = some link ∧ link.jobId = jobId ∧ link.finished = false ∧ Live q k := by
  rcases h.marked jobId hm with hc | ⟨link, hmem, hid, hunfinished, hfresh⟩
  · exact .inl hc
  · obtain ⟨k, hk⟩ := List.mem_iff_getElem?.1 hmem
    refine .inr ⟨k, link, hk, hid, hunfinished, ?_⟩
    cases hopen : link.settled with
    | false => exact h.live k link hk hopen hfresh
    | true => exact .begun hk hfresh (h.settled link hmem hopen)

/-! ### Flags that are set -/

theorem links_map (hlinks : q'.links = q.links.map f) (h : q'.links[k]? = some link) :
    ∃ old, q.links[k]? = some old ∧ link = f old := by
  rw [hlinks, List.getElem?_map, Option.map_eq_some_iff] at h
  obtain ⟨old, hold, rfl⟩ := h
  exact ⟨old, hold, rfl⟩

theorem links_map_of (hlinks : q'.links = q.links.map f) (h : q.links[k]? = some link) :
    q'.links[k]? = some (f link) := by rw [hlinks, List.getElem?_map, h, Option.map_some]

theorem SettledAt.map (hlinks : q'.links = q.links.map f) (hf : ∀ link, link.settled = true → (f link).settled = true)
    (h : SettledAt q k) : SettledAt q' k := by
  obtain ⟨link, hlink, hsettled⟩ := h
  exact ⟨f link, links_map_of hlinks hlink, hf link hsettled⟩

/-- A map of the links that leaves alone what the chain depends on. -/
structure Marks (f : QueueLink → QueueLink) : Prop where
  call : ∀ link, (f link).call = link.call
  after : ∀ link, (f link).after = link.after
  settled : ∀ link, (f link).settled = link.settled
  stale : ∀ link, (f link).stale = link.stale

theorem Marks.pending (hf : Marks f) (hlinks : q'.links = q.links.map f) : PendingAt q' k ↔ PendingAt q k := by
  constructor
  · rintro ⟨link, hlink, hopen, hfresh⟩
    obtain ⟨old, hold, rfl⟩ := links_map hlinks hlink
    exact ⟨old, hold, hf.settled old ▸ hopen, hf.stale old ▸ hfresh⟩
  · rintro ⟨link, hlink, hopen, hfresh⟩
    exact ⟨f link, links_map_of hlinks hlink, (hf.settled link).trans hopen, (hf.stale link).trans hfresh⟩

/-- Marks of the links that only let runs begin whose turn has come. -/
theorem QueueInv.marks (h : QueueInv q) (hf : Marks f) (hlinks : q'.links = q.links.map f) (hqueue : q'.queue = q.queue)
    (hbegun : ∀ (l : Nat) link m, q.links[l]? = some link → (f link).begun = true → link.after = some m → SettledAt q m)
    (hsettled : ∀ link ∈ q.links, link.begun = true → (f link).begun = true)
    (hmarked : ∀ jobId ∈ q'.scheduledJobIds, jobId ∈ q'.callbacks ∨
      ∃ link ∈ q'.links, link.jobId = jobId ∧ link.finished = false ∧ link.stale = false) : QueueInv q' := by
  have hkept : ∀ m, SettledAt q m → SettledAt q' m := fun m => .map hlinks fun link hs => (hf.settled link).trans hs
  refine ⟨fun m hm => ?_, fun l link m hl hm => ?_, fun l link m hl hb hm => ?_, fun link hl hs => ?_,
    fun l link k hl hfresh hlt hk => ?_, fun k hk => ?_, fun l link m hl hopen hfresh hm => ?_, fun m hm => ?_, hmarked, ?_⟩
  · rw [hlinks, List.length_map]
    exact h.last m (hqueue ▸ hm)
  · obtain ⟨old, hold, rfl⟩ := links_map hlinks hl
    exact h.previous l old m hold (hf.after old ▸ hm)
  · obtain ⟨old, hold, rfl⟩ := links_map hlinks hl
    exact hkept m (hbegun l old m hold hb (hf.after old ▸ hm))
  · obtain ⟨old, hold, rfl⟩ := List.mem_map.1 (hlinks ▸ hl)
    exact hsettled old hold (h.settled old hold (hf.settled old ▸ hs))
  · obtain ⟨old, hold, rfl⟩ := links_map hlinks hl
    obtain ⟨m, hafter, hpending⟩ := h.ahead l old k hold (hf.stale old ▸ hfresh) hlt ((hf.pending hlinks).1 hk)
    exact ⟨m, (hf.after old).trans hafter, (hf.pending hlinks).2 hpending⟩
  · obtain ⟨m, hm, hpending⟩ := h.pending k ((hf.pending hlinks).1 hk)
    exact ⟨m, hqueue.trans hm, (hf.pending hlinks).2 hpending⟩
  · obtain ⟨old, hold, rfl⟩ := links_map hlinks hl
    exact (h.waits l old m hold (hf.settled old ▸ hopen) (hf.stale old ▸ hfresh) (hf.after old ▸ hm)).imp (hkept m)
      (hf.pending hlinks).2
  · exact (h.free m (hqueue ▸ hm)).imp (hkept m) (hf.pending hlinks).2
  · have hcalls : q'.links.map QueueLink.call = q.links.map QueueLink.call := by
      rw [hlinks, List.map_map]
      exact List.map_congr_left fun link _ => hf.call link
    rw [hcalls]
    exact h.calls

/-- The link of a call is changed. -/
def markLink (call : Nat) (f : QueueLink → QueueLink) (link : QueueLink) : QueueLink :=
  if link.call = call then f link else link

theorem mark_links : (q.mark call f).links = q.links.map (markLink call f) := rfl

theorem marks_mark (hcall : ∀ link, (f link).call = link.call) (hafter : ∀ link, (f link).after = link.after)
    (hsettled : ∀ link, (f link).settled = link.settled) (hstale : ∀ link, (f link).stale = link.stale) :
    Marks (markLink call f) := by
  refine ⟨fun link => ?_, fun link => ?_, fun link => ?_, fun link => ?_⟩ <;> unfold markLink <;> split
  · exact hcall link
  · rfl
  · exact hafter link
  · rfl
  · exact hsettled link
  · rfl
  · exact hstale link
  · rfl

theorem QueueInv.marked_map (h : QueueInv q) (hlinks : q'.links = q.links.map f) (hcallbacks : q'.callbacks = q.callbacks)
    {jobId : String} (hm : jobId ∈ q.scheduledJobIds)
    (hf : ∀ link ∈ q.links, link.jobId = jobId → link.finished = false → link.stale = false →
      (f link).jobId = jobId ∧ (f link).finished = false ∧ (f link).stale = false) :
    jobId ∈ q'.callbacks ∨ ∃ link ∈ q'.links, link.jobId = jobId ∧ link.finished = false ∧ link.stale = false := by
  rcases h.marked jobId hm with hc | ⟨link, hlink, hid, hunfinished, hfresh⟩
  · exact .inl (hcallbacks ▸ hc)
  · exact .inr ⟨f link, hlinks ▸ List.mem_map_of_mem hlink, hf link hlink hid hunfinished hfresh⟩

/-! ### One step -/

/-- **A run begins** when its turn has come. -/
theorem QueueInv.begin (h : QueueInv q)
    (hready : ∀ link ∈ q.links, link.call = call → link.begun = false → ∀ m, link.after = some m → SettledAt q m) :
    QueueInv (q.mark call fun link => { link with begun := true }) := by
  have hmarks : Marks (markLink call fun link => { link with begun := true }) :=
    marks_mark (fun _ => rfl) (fun _ => rfl) (fun _ => rfl) fun _ => rfl
  refine h.marks hmarks mark_links rfl
    (fun l link m hl hb hm => ?_) (fun link _ hb => ?_)
    fun jobId hm => h.marked_map mark_links rfl hm fun link _ hid hu hf => ?_
  · cases hbegun : link.begun with
    | true => exact h.begun l link m hl hbegun hm
    | false =>
      unfold markLink at hb
      split at hb
      next hcall => exact hready link (List.mem_of_getElem? hl) hcall hbegun m hm
      next =>
        rw [hbegun] at hb
        cases hb
  · unfold markLink
    split
    · rfl
    · exact hb
  · unfold markLink
    split <;> exact ⟨hid, hu, hf⟩

/-- **A run is finished**, and its job is not marked any more. -/
theorem QueueInv.finish (h : QueueInv q) (hown : ∃ link ∈ q.links, link.call = call ∧ link.jobId = jobId) :
    QueueInv ((q.mark call fun link => { link with finished := true }).unschedule jobId) := by
  obtain ⟨own, hmem, hcall, hown⟩ := hown
  have hlinks : ((q.mark call fun link => { link with finished := true }).unschedule jobId).links =
      q.links.map (markLink call fun link => { link with finished := true }) := rfl
  have hmarks : Marks (markLink call fun link => { link with finished := true }) :=
    marks_mark (fun _ => rfl) (fun _ => rfl) (fun _ => rfl) fun _ => rfl
  refine h.marks hmarks hlinks rfl
    (fun l link m hl hb hm => ?_) (fun link _ hb => ?_) fun id hm => ?_
  · refine h.begun l link m hl ?_ hm
    unfold markLink at hb
    split at hb <;> exact hb
  · unfold markLink
    split <;> exact hb
  · obtain ⟨hm, hne⟩ := List.mem_filter.1 hm
    refine h.marked_map hlinks rfl hm fun link hlink hid hu hf => ?_
    rw [markLink, if_neg]
    · exact ⟨hid, hu, hf⟩
    · intro heq
      rw [h.eq_of_call hmem hlink (heq.trans hcall.symm), hown] at hid
      exact absurd hid.symm (of_decide_eq_true hne)

theorem QueueInv.scheduleJob (h : QueueInv q) : QueueInv (q.scheduleJob jobId) := by
  unfold Scheduler.scheduleJob
  split
  · exact h
  · refine ⟨h.last, h.previous, h.begun, h.settled, h.ahead, h.pending, h.waits, h.free, fun id hm => ?_, h.calls⟩
    rcases List.mem_append.1 hm with hm | hm
    · exact (h.marked id hm).imp_left fun hc => List.mem_append_left _ hc
    · exact .inl (List.mem_append_right _ hm)

/-- **A job is chained.** -/
theorem QueueInv.chain (h : QueueInv q) (hnew : ∀ link ∈ q.links, link.call ≠ call) :
    QueueInv (q.chain call jobId) := by
  have hold : ∀ {l : Nat} {link : QueueLink}, (q.chain call jobId).links[l]? = some link →
      q.links[l]? = some link ∨ (l = q.links.length ∧ link = ⟨call, jobId, q.queue, false, false, false, false⟩) :=
    fun hl => Indexed.append_cases hl
  have hkept : ∀ {k link}, q.links[k]? = some link → (q.chain call jobId).links[k]? = some link :=
    fun hl => Indexed.getElem?_append hl
  have hsettled : ∀ m, SettledAt q m → SettledAt (q.chain call jobId) m := fun m ⟨link, hl, hs⟩ => ⟨link, hkept hl, hs⟩
  have hpending : ∀ m, PendingAt q m → PendingAt (q.chain call jobId) m := fun m ⟨link, hl, hs⟩ => ⟨link, hkept hl, hs⟩
  have hbefore : ∀ k, PendingAt (q.chain call jobId) k → k = q.links.length ∨ PendingAt q k := by
    rintro k ⟨link, hl, hs⟩
    rcases hold hl with hl | ⟨hk, -⟩
    · exact .inr ⟨link, hl, hs⟩
    · exact .inl hk
  have hlast : PendingAt (q.chain call jobId) q.links.length :=
    ⟨_, List.getElem?_concat_length, rfl, rfl⟩
  refine ⟨fun m hm => ?_, fun l link m hl hm => ?_, fun l link m hl hb hm => ?_, fun link hl hs => ?_,
    fun l link k hl hfresh hlt hk => ?_, fun k hk => ⟨_, rfl, hlast⟩, fun l link m hl hopen hfresh hm => ?_,
    fun m hm => ?_, fun id hm => ?_, ?_⟩
  · cases hm
    show _ = (q.links ++ [_]).length
    rw [List.length_append, List.length_singleton]
  · rcases hold hl with hl | ⟨rfl, rfl⟩
    · exact h.previous l link m hl hm
    · exact h.last m hm
  · rcases hold hl with hl | ⟨rfl, rfl⟩
    · exact hsettled m (h.begun l link m hl hb hm)
    · cases hb
  · rcases List.mem_append.1 hl with hl | hl
    · exact h.settled link hl hs
    · rw [List.mem_singleton.1 hl] at hs
      cases hs
  · rcases hold hl with hl | ⟨rfl, rfl⟩
    · have hlt' := (List.getElem?_eq_some_iff.1 hl).1
      obtain ⟨m, hm, hp⟩ := h.ahead l link k hl hfresh hlt ((hbefore k hk).resolve_left (by omega))
      exact ⟨m, hm, hpending m hp⟩
    · obtain ⟨m, hm, hp⟩ := h.pending k ((hbefore k hk).resolve_left (by omega))
      exact ⟨m, hm, hpending m hp⟩
  · rcases hold hl with hl | ⟨rfl, rfl⟩
    · exact (h.waits l link m hl hopen hfresh hm).imp (hsettled m) (hpending m)
    · exact (h.free m hm).imp (hsettled m) (hpending m)
  · cases hm
    exact .inr hlast
  · rcases h.marked id hm with hc | ⟨link, hlink, hid⟩
    · by_cases heq : id = jobId
      · exact .inr ⟨_, List.mem_append_right _ List.mem_cons_self, heq.symm, rfl, rfl⟩
      · exact .inl ((List.mem_erase_of_ne heq).2 hc)
    · exact .inr ⟨link, List.mem_append_left _ hlink, hid⟩
  · show ((q.links ++ [_]).map QueueLink.call).Nodup
    rw [List.map_append]
    refine List.Nodup.append h.calls (List.nodup_singleton _) fun c hc hc' => ?_
    obtain ⟨link, hl, rfl⟩ := List.mem_map.1 hc
    exact hnew link hl (List.mem_singleton.1 hc')

/-- **A run settles**: those behind it were waiting for it, and nothing was pending before it. -/
theorem QueueInv.settle (h : QueueInv q)
    (hown : ∃ link ∈ q.links, link.call = call ∧ link.begun = true ∧ link.settled = false) :
    QueueInv (q.mark call fun link => { link with settled := true }) := by
  obtain ⟨own, hmem, hcall, hbegun, hopen⟩ := hown
  obtain ⟨i, hi⟩ := List.mem_iff_getElem?.1 hmem
  have hlinks : (q.mark call fun link => { link with settled := true }).links =
      q.links.map (markLink call fun link => { link with settled := true }) := rfl
  generalize hq' : (q.mark call fun link => { link with settled := true }) = q' at hlinks
  have hqueue : q'.queue = q.queue := by rw [← hq']; rfl
  have hmarks : ∀ link, (markLink call (fun link => { link with settled := true }) link).after = link.after ∧
      (markLink call (fun link => { link with settled := true }) link).stale = link.stale ∧
      (markLink call (fun link => { link with settled := true }) link).begun = link.begun := fun link => by
    unfold markLink
    split <;> exact ⟨rfl, rfl, rfl⟩
  have hkept : ∀ m, SettledAt q m → SettledAt q' m := fun m => .map hlinks fun link hs => by
    unfold markLink
    split
    · rfl
    · exact hs
  have hself : SettledAt q' i := ⟨_, links_map_of hlinks hi, by rw [markLink, if_pos hcall]⟩
  -- what is pending was pending, and is another link
  have hbefore : ∀ k, PendingAt q' k → PendingAt q k ∧ k ≠ i := by
    rintro k ⟨link, hl, hs, hf⟩
    obtain ⟨old, hold, rfl⟩ := links_map hlinks hl
    refine ⟨⟨old, hold, ?_, (hmarks old).2.1 ▸ hf⟩, fun heq => ?_⟩
    · unfold markLink at hs
      split at hs
      · cases hs
      · exact hs
    · exact not_pending_of_settled (heq ▸ hself) ⟨_, hl, hs, hf⟩
  have hafter : ∀ k, PendingAt q k → k ≠ i → PendingAt q' k := by
    rintro k ⟨link, hl, hs, hf⟩ hne
    refine ⟨_, links_map_of hlinks hl, ?_, (hmarks link).2.1.trans hf⟩
    rw [markLink, if_neg]
    · exact hs
    · intro heq
      have hsame := h.eq_of_call hmem (List.mem_of_getElem? hl) (heq.trans hcall.symm)
      rw [hsame] at hl
      exact hne ((List.getElem?_inj (List.getElem?_eq_some_iff.1 hl).1 (List.Nodup.of_map _ h.calls)).1 (hl.trans hi.symm))
  -- nothing is pending before a run that has begun
  have hfirst : ∀ k, k < i → own.stale = false → ¬PendingAt q k := by
    intro k hlt hfresh hk
    obtain ⟨m, hm, hp⟩ := h.ahead i own k hi hfresh hlt hk
    exact not_pending_of_settled (h.begun i own m hi hbegun hm) hp
  have hmoves : ∀ m, SettledAt q m ∨ PendingAt q m → SettledAt q' m ∨ PendingAt q' m := by
    rintro m (hs | hp)
    · exact .inl (hkept m hs)
    · by_cases hne : m = i
      · exact .inl (hne ▸ hself)
      · exact .inr (hafter m hp hne)
  have hstale : PendingAt q i → own.stale = false := by
    rintro ⟨link, hl, -, hf⟩
    rw [hi] at hl
    cases hl
    exact hf
  refine ⟨fun m hm => ?_, fun l link m hl hm => ?_, fun l link m hl hb hm => ?_, fun link hl hs => ?_,
    fun l link k hl hfresh hlt hk => ?_, fun k hk => ?_, fun l link m hl hs hfresh hm => ?_,
    fun m hm => hmoves m (h.free m (hqueue ▸ hm)), fun id hm => ?_, ?_⟩
  · rw [hlinks, List.length_map]
    exact h.last m (hqueue ▸ hm)
  · obtain ⟨old, hold, rfl⟩ := links_map hlinks hl
    exact h.previous l old m hold ((hmarks old).1 ▸ hm)
  · obtain ⟨old, hold, rfl⟩ := links_map hlinks hl
    exact hkept m (h.begun l old m hold ((hmarks old).2.2 ▸ hb) ((hmarks old).1 ▸ hm))
  · obtain ⟨old, hold, rfl⟩ := List.mem_map.1 (hlinks ▸ hl)
    rw [(hmarks old).2.2]
    unfold markLink at hs
    split at hs
    next hc => rw [h.eq_of_call hmem hold (hc.trans hcall.symm), hbegun]
    next => exact h.settled old hold hs
  · obtain ⟨old, hold, rfl⟩ := links_map hlinks hl
    obtain ⟨hk, hne⟩ := hbefore k hk
    obtain ⟨m, hm, hp⟩ := h.ahead l old k hold ((hmarks old).2.1 ▸ hfresh) hlt hk
    refine ⟨m, (hmarks old).1.trans hm, hafter m hp fun heq => ?_⟩
    subst heq
    have hlast := h.previous l old m hold hm
    exact hfirst k (by omega) (hstale hp) hk
  · obtain ⟨hk, hne⟩ := hbefore k hk
    obtain ⟨m, hm, hp⟩ := h.pending k hk
    refine ⟨m, hqueue.trans hm, hafter m hp fun heq => ?_⟩
    subst heq
    have hlast := h.last m hm
    have hlt : k < q.links.length := by
      obtain ⟨link, hl, -⟩ := hk
      exact (List.getElem?_eq_some_iff.1 hl).1
    exact hfirst k (by omega) (hstale hp) hk
  · obtain ⟨old, hold, rfl⟩ := links_map hlinks hl
    refine hmoves m (h.waits l old m hold ?_ ((hmarks old).2.1 ▸ hfresh) ((hmarks old).1 ▸ hm))
    unfold markLink at hs
    split at hs
    · cases hs
    · exact hs
  · have hcallbacks : q'.callbacks = q.callbacks := by rw [← hq']; rfl
    have hids : q'.scheduledJobIds = q.scheduledJobIds := by rw [← hq']; rfl
    refine h.marked_map hlinks hcallbacks (hids ▸ hm) fun link _ hid hu hf => ?_
    unfold markLink
    split <;> exact ⟨hid, hu, hf⟩
  · have hcalls : q'.links.map QueueLink.call = q.links.map QueueLink.call := by
      rw [hlinks, List.map_map]
      refine List.map_congr_left fun link _ => ?_
      dsimp only [Function.comp, markLink]
      split <;> rfl
    rw [hcalls]
    exact h.calls

theorem markStale_fields (link : QueueLink) : (markStale jobId link).call = link.call ∧
    (markStale jobId link).after = link.after ∧ (markStale jobId link).begun = link.begun ∧
      (markStale jobId link).settled = link.settled := by
  unfold markStale
  split <;> exact ⟨rfl, rfl, rfl, rfl⟩

/-- **A run is declared stale** when it is alone. -/
theorem QueueInv.abandon (h : QueueInv q)
    (halone : StaleDeclaration.Alone ⟨jobId, decide (jobId ∈ q.scheduledJobIds), q.links⟩) :
    QueueInv (q.abandon jobId) := by
  have hlinks : (q.abandon jobId).links = q.links.map (markStale jobId) := abandon_links
  unfold StaleDeclaration.Alone at halone
  dsimp only at halone
  by_cases hm : jobId ∈ q.scheduledJobIds
  · rw [decide_eq_true hm, if_pos rfl] at halone
    have hqueue : (q.abandon jobId).queue = none := by rw [Scheduler.abandon, if_pos hm]
    -- all that has not settled is stale now
    have hnone : ∀ link ∈ (q.abandon jobId).links, link.settled = false → link.stale = true := by
      intro link hl hs
      obtain ⟨old, hold, rfl⟩ := List.mem_map.1 (hlinks ▸ hl)
      rw [(markStale_fields old).2.2.2] at hs
      rcases halone old hold hs with hstale | hrun
      · unfold markStale
        split
        · rfl
        · exact hstale
      · rw [markStale, if_pos ⟨hrun.1, hrun.2, hs⟩]
    have hfresh : ∀ k, ¬PendingAt (q.abandon jobId) k := by
      rintro k ⟨link, hl, hs, hf⟩
      rw [hnone link (List.mem_of_getElem? hl) hs] at hf
      cases hf
    refine ⟨fun m hm => ?_, fun l link m hl hm => ?_, fun l link m hl hb hm => ?_, fun link hl hs => ?_,
      fun l link k _ _ _ hk => absurd hk (hfresh k), fun k hk => absurd hk (hfresh k),
      fun l link m hl hs hf _ => ?_, fun m hm => ?_, fun id hid => ?_, ?_⟩
    · rw [hqueue] at hm
      cases hm
    · obtain ⟨old, hold, rfl⟩ := links_map hlinks hl
      exact h.previous l old m hold ((markStale_fields old).2.1 ▸ hm)
    · obtain ⟨old, hold, rfl⟩ := links_map hlinks hl
      have hsettled := h.begun l old m hold ((markStale_fields old).2.2.1 ▸ hb) ((markStale_fields old).2.1 ▸ hm)
      exact hsettled.map hlinks fun link hs => (markStale_fields link).2.2.2.trans hs
    · obtain ⟨old, hold, rfl⟩ := List.mem_map.1 (hlinks ▸ hl)
      rw [(markStale_fields old).2.2.1]
      exact h.settled old hold ((markStale_fields old).2.2.2 ▸ hs)
    · rw [hnone link (List.mem_of_getElem? hl) hs] at hf
      cases hf
    · rw [hqueue] at hm
      cases hm
    · rw [Scheduler.abandon, if_pos hm] at hid
      obtain ⟨hid, hne⟩ := List.mem_filter.1 hid
      refine h.marked_map hlinks abandon_callbacks hid fun link _ hjob hu hf => ?_
      rw [markStale, if_neg fun hboth => of_decide_eq_true hne (hjob.symm.trans hboth.1)]
      exact ⟨hjob, hu, hf⟩
    · have hcalls : (q.abandon jobId).links.map QueueLink.call = q.links.map QueueLink.call := by
        rw [hlinks, List.map_map]
        exact List.map_congr_left fun link _ => (markStale_fields link).1
      rw [hcalls]
      exact h.calls
  · rw [decide_eq_false hm, if_neg Bool.false_ne_true] at halone
    have hsame : q.links.map (markStale jobId) = q.links := by
      refine (List.map_congr_left fun link hl => ?_).trans (List.map_id _)
      unfold markStale
      split
      next hrun =>
        have hstale := halone link hl hrun.1 hrun.2.1 hrun.2.2
        cases link
        cases hstale
        rfl
      next => rfl
    have hq : q.abandon jobId = { q with declared := q.declared ++ [⟨jobId, decide (jobId ∈ q.scheduledJobIds), q.links⟩] } := by
      rw [Scheduler.abandon, if_neg hm]
      show { q with links := q.links.map (markStale jobId), declared := _ } = _
      rw [hsame]
    rw [hq]
    exact ⟨h.last, h.previous, h.begun, h.settled, h.ahead, h.pending, h.waits, h.free, h.marked, h.calls⟩

/-- **A step of a call keeps the chain**, when a run begins in its turn and is declared stale when it is alone. -/
theorem QueueInv.step (h : QueueInv q) (hstep : SchedulerStep call q q')
    (hready : ∀ link ∈ q.links, link.call = call → link.begun = false → ∀ m, link.after = some m → SettledAt q m)
    (halone : ∀ declared ∈ q'.declared, declared.Alone) : QueueInv q' := by
  cases hstep with
  | same => exact h
  | schedule jobId => exact h.scheduleJob
  | abandon jobId =>
    refine h.abandon (halone _ ?_)
    rw [abandon_declared]
    exact List.mem_append_right _ List.mem_cons_self
  | chain jobId hnew => exact h.chain hnew
  | begin hown => exact h.begin hready
  | settle hown => exact h.settle hown
  | finish jobId hown => exact h.finish hown

theorem SchedulerStep.declared (h : SchedulerStep call q q') : q.declared <+: q'.declared := by
  cases h with
  | same => exact List.prefix_refl _
  | schedule jobId => exact scheduleJob_declared ▸ List.prefix_refl _
  | abandon jobId => exact ⟨_, abandon_declared.symm⟩
  | chain | begin | settle | finish => exact List.prefix_refl _

end Chain

end AuraCall.Materialization
