import AuraCall.TabLease.Fencing
import AuraCall.TabLease.Ownership
import AuraCall.TabLease.Retirement

/-!
# What a retirement pass closes

A pass closes a target by what it has read of the lease. When nobody has written the lease since the pass has listed
it, or since it has begun its retirement, the lease is still retiring, under the same revision and bound to the target,
and nobody else holds the target; in every run these are the only such closes (`retirement_closes_own_iff`). The
revision fences the end of the retirement but not the close: an operator who takes the lease from a pass and gives the
target to another lease loses it (`released_target_closed`).
-/

namespace AuraCall.TabLease

open Script EventTrace

/-! ## What a close finds -/

/-- **A close of the own target**: the lease is still retiring, under the revision it was read with and bound to the
target, it is owned, and no other lease holds the target. -/
def ClosesOwnTarget (_before : List RetirementEvent) : RetirementEvent → Prop
  | .changed _ => True
  | .closing lease _ found holders =>
    (∃ current, found = some current ∧ current.state = .retiring ∧ current.revision = lease.revision ∧
      current.targetId = lease.targetId ∧ isUnownedBrowserTabLease current = false) ∧
    ∀ id ∈ holders, id = lease.leaseId

/-- Nobody has written the lease since it was read. -/
def Undisturbed (before : List RetirementEvent) : RetirementEvent → Prop
  | .changed _ => True
  | .closing lease position _ _ => .changed lease.leaseId ∉ before.drop position

instance (before : List RetirementEvent) (event : RetirementEvent) : Decidable (Undisturbed before event) := by
  cases event <;> unfold Undisturbed <;> infer_instance

/-- A lease after some events: it is the same, or one of a later revision. -/
def LeaseMoves (events : List RetirementEvent) (old new : BrowserTabLease) : Prop :=
  (new = old ∧ .changed old.leaseId ∉ events) ∨ (old.revision < new.revision ∧ .changed old.leaseId ∈ events)

/-- What the pass knows when it closes a target. -/
def Known (before : List RetirementEvent) : RetirementEvent → Prop
  | .changed _ => True
  | .closing lease position found holders =>
    lease.state = .retiring ∧ isUnownedBrowserTabLease lease = false ∧ ∃ current, found = some current ∧
      LeaseMoves (before.drop position) lease current ∧ (current = lease → ∀ id ∈ holders, id = lease.leaseId)

theorem Known.closesOwn_iff {before : List RetirementEvent} {event : RetirementEvent} (h : Known before event) :
    ClosesOwnTarget before event ↔ Undisturbed before event := by
  cases event with
  | changed _ => exact .rfl
  | closing lease position found holders =>
    obtain ⟨hstate, howned, current, rfl, hmoves, hholders⟩ := h
    rcases hmoves with ⟨rfl, hsame⟩ | ⟨hlater, hchanged⟩
    · exact ⟨fun _ => hsame, fun _ => ⟨⟨current, rfl, hstate, rfl, rfl, howned⟩, hholders rfl⟩⟩
    · refine ⟨fun hown => ?_, fun hsame => absurd hchanged hsame⟩
      obtain ⟨⟨_, heq, -, hrevision, -⟩, -⟩ := hown
      cases heq
      exact absurd hrevision (Nat.ne_of_gt hlater)

/-! ## Steps of the registry -/

section Steps

variable {registry registry' : Registry} {s s' s'' : RetirementState} {events events' : List RetirementEvent}
  {old new new' : BrowserTabLease}

/-- A call leaves a lease as it is, or moves its revision on. -/
theorem StepEffect.same_or_later {operation : Operation} {outcome : Checked Reply}
    (h : StepEffect registry operation outcome registry') (hm : old ∈ registry.leases) :
    ∃ new ∈ registry'.leases, new.leaseId = old.leaseId ∧ (new = old ∨ old.revision < new.revision) := by
  cases h with
  | reserved hr => exact ⟨old, KeyedMap.mem_set_of_ne hm (hr.fresh old hm), rfl, .inl rfl⟩
  | @rewritten _ new hr =>
    obtain ⟨found, _, hs⟩ := hr
    by_cases hid : old.leaseId = found.leaseId
    · obtain rfl := KeyedMap.eq_of_key hm hs.mem hid
      exact ⟨new, KeyedMap.mem_set_self _ _, hs.leaseId, .inr (by rw [hs.revision]; exact Nat.lt_succ_self _)⟩
    · exact ⟨old, KeyedMap.mem_set_of_ne hm fun h => hid (h.trans hs.leaseId), rfl, .inl rfl⟩
  | _ => exact ⟨old, hm, rfl, .inl rfl⟩

theorem mem_changedIds {id : String} :
    id ∈ changedIds registry registry' ↔
      ∃ lease ∈ registry'.leases, lease.leaseId = id ∧ registry.leases.get? id ≠ some lease := by
  simp only [changedIds, List.mem_map, List.mem_filter, decide_eq_true_eq, KeyedMap.mem_def]
  constructor
  · rintro ⟨lease, ⟨hm, hne⟩, rfl⟩
    exact ⟨lease, hm, rfl, hne⟩
  · rintro ⟨lease, hm, rfl, hne⟩
    exact ⟨lease, ⟨hm, hne⟩, rfl⟩

theorem LeaseMoves.trans (h : LeaseMoves events old new) (h' : LeaseMoves events' new new')
    (hid : new.leaseId = old.leaseId) : LeaseMoves (events ++ events') old new' := by
  rw [LeaseMoves, hid] at h'
  rw [LeaseMoves, List.mem_append]
  rcases h with ⟨rfl, hout⟩ | ⟨hlt, hin⟩ <;> rcases h' with ⟨rfl, hout'⟩ | ⟨hlt', hin'⟩
  · exact .inl ⟨rfl, fun h => h.elim hout hout'⟩
  · exact .inr ⟨hlt', .inr hin'⟩
  · exact .inr ⟨hlt, .inl hin⟩
  · exact .inr ⟨hlt.trans hlt', .inl hin⟩

/-- Every lease is as it was, or later and written in between. -/
def Advances (s s' : RetirementState) : Prop :=
  ∃ events, s'.trace = s.trace ++ events ∧ ∀ old ∈ s.registry.leases,
    ∃ new ∈ s'.registry.leases, new.leaseId = old.leaseId ∧ LeaseMoves events old new

theorem advances_of_unchanged (hregistry : s'.registry = s.registry) (htrace : s'.trace = s.trace ++ events)
    (hevents : ∀ id, .changed id ∉ events) : Advances s s' :=
  ⟨events, htrace, fun old hold => ⟨old, hregistry ▸ hold, rfl, .inl ⟨rfl, hevents _⟩⟩⟩

theorem Advances.refl (s : RetirementState) : Advances s s :=
  advances_of_unchanged rfl (List.append_nil _).symm fun _ h => by cases h

theorem Advances.trans (h : Advances s s') (h' : Advances s' s'') : Advances s s'' := by
  obtain ⟨events, htrace, hleases⟩ := h
  obtain ⟨events', htrace', hleases'⟩ := h'
  refine ⟨events ++ events', by rw [htrace', htrace, List.append_assoc], fun old hold => ?_⟩
  obtain ⟨new, hnew, hid, hmoves⟩ := hleases old hold
  obtain ⟨new', hnew', hid', hmoves'⟩ := hleases' new hnew
  exact ⟨new', hnew', hid'.trans hid, hmoves.trans hmoves' hid⟩

/-- A step of the registry. -/
theorem advances_advance {operation : Operation} {outcome : Checked Reply}
    (h : StepEffect s.registry operation outcome registry') : Advances s (s.advance registry') := by
  refine ⟨_, rfl, fun old hold => ?_⟩
  obtain ⟨new, hnew, hid, hsame⟩ := h.same_or_later hold
  refine ⟨new, hnew, hid, ?_⟩
  have hget : s.registry.leases.get? old.leaseId = some old := KeyedMap.get?_self hold
  have hchanged : .changed old.leaseId ∈ (changedIds s.registry registry').map RetirementEvent.changed ↔
      old.leaseId ∈ changedIds s.registry registry' := by simp
  rw [LeaseMoves, hchanged, mem_changedIds]
  rcases hsame with rfl | hlater
  · refine .inl ⟨rfl, ?_⟩
    rintro ⟨lease, hlease, hlid, hne⟩
    rw [KeyedMap.eq_of_key hlease hnew hlid] at hne
    exact hne hget
  · refine .inr ⟨hlater, new, hnew, hid, ?_⟩
    rw [hget]
    intro heq
    cases heq
    exact Nat.lt_irrefl _ hlater

end Steps

/-! ## Custody -/

/-- No resource has two holders, and each close is by what was known. -/
structure Custody (s : RetirementState) : Prop where
  owned : KeyedMap.Owned Holds s.registry.leases
  known : Lawful Known s.trace

/-- The lease was like this, and is the same or later now. -/
def Tracked (seen : SeenLease) (s : RetirementState) : Prop :=
  seen.position ≤ s.trace.length ∧ ∃ current ∈ s.registry.leases, current.leaseId = seen.lease.leaseId ∧
    LeaseMoves (s.trace.drop seen.position) seen.lease current

/-- A lease that the pass may retire. -/
def RetiringLease (seen : SeenLease) (s : RetirementState) : Prop :=
  seen.lease.state = .retiring ∧ isUnownedBrowserTabLease seen.lease = false ∧ Tracked seen s

/-- A candidate of the list. -/
def Candidate (seen : SeenLease) (s : RetirementState) : Prop :=
  (seen.lease.state = .idle ∨ seen.lease.state = .retiring) ∧ Tracked seen s

section States

variable {s s' : RetirementState} {seen : SeenLease} {lease : BrowserTabLease}

theorem Tracked.advances (h : Tracked seen s) (ha : Advances s s') : Tracked seen s' := by
  obtain ⟨hposition, current, hcurrent, hid, hmoves⟩ := h
  obtain ⟨events, htrace, hleases⟩ := ha
  obtain ⟨new, hnew, hnid, hmoves'⟩ := hleases current hcurrent
  refine ⟨?_, new, hnew, hnid.trans hid, ?_⟩
  · rw [htrace, List.length_append]
    omega
  · rw [htrace, List.drop_append_of_le_length hposition]
    exact hmoves.trans hmoves' hid

theorem RetiringLease.advances (h : RetiringLease seen s) (ha : Advances s s') : RetiringLease seen s' :=
  ⟨h.1, h.2.1, h.2.2.advances ha⟩

/-- A lease that is there now. -/
theorem tracked_here (hm : lease ∈ s.registry.leases) : Tracked ⟨lease, s.trace.length⟩ s :=
  ⟨Nat.le_refl _, lease, hm, rfl, .inl ⟨rfl, by rw [List.drop_length]; exact List.not_mem_nil⟩⟩

/-- What the registry has under the revision that was read is what was read. -/
theorem Tracked.same (h : Tracked seen s) {current : BrowserTabLease}
    (hget : s.registry.leases.get? seen.lease.leaseId = some current)
    (hrevision : current.revision = seen.lease.revision) : current = seen.lease := by
  obtain ⟨-, found, hfound, hid, hmoves⟩ := h
  rw [← hid, KeyedMap.get?_self hfound] at hget
  cases hget
  rcases hmoves with ⟨hsame, -⟩ | ⟨hlater, -⟩
  · exact hsame
  · exact absurd hrevision (Nat.ne_of_gt hlater)

theorem Custody.advance {operation : Operation} {outcome : Checked Reply} {registry' : Registry} (hs : Custody s)
    (h : StepEffect s.registry operation outcome registry') : Custody (s.advance registry') := by
  refine ⟨h.owned hs.owned, ?_⟩
  show Lawful Known (s.trace ++ _)
  generalize changedIds s.registry registry' = ids
  suffices ∀ trace, Lawful Known trace → Lawful Known (trace ++ ids.map .changed) from this _ hs.known
  induction ids with
  | nil => exact fun trace h => by rwa [List.map_nil, List.append_nil]
  | cons id ids ih =>
    intro trace h
    rw [List.map_cons, List.append_cons]
    exact ih _ (h.push trivial)

/-- Nobody else holds the target of a lease that is not released. -/
theorem targetHolders_own (howned : KeyedMap.Owned Holds s.registry.leases) (hm : lease ∈ s.registry.leases)
    (hf : fenced lease.state = true) :
    ∀ id ∈ targetHolders lease.scope lease.targetId s.registry, id = lease.leaseId := by
  intro id hid
  obtain ⟨other, hother, rfl⟩ := List.mem_map.1 hid
  obtain ⟨hmem, hholds⟩ := List.mem_filter.1 hother
  simp only [sameTargetDomain, Bool.and_eq_true, beq_iff_eq] at hholds
  obtain ⟨⟨hfenced, hprofile, hservice⟩, htarget⟩ := hholds
  exact congrArg _ (howned other hmem lease hm (.target _ _ _) ⟨hfenced, hprofile, hservice, htarget⟩
    ⟨hf, rfl, rfl, rfl⟩)

theorem RetiringLease.known (h : RetiringLease seen s) (hs : Custody s) :
    Known s.trace (.closing seen.lease seen.position (s.registry.leases.get? seen.lease.leaseId)
      (targetHolders seen.lease.scope seen.lease.targetId s.registry)) := by
  obtain ⟨hstate, howned, -, current, hcurrent, hid, hmoves⟩ := h
  refine ⟨hstate, howned, current, by rw [← hid, KeyedMap.get?_self hcurrent], hmoves, fun heq => ?_⟩
  subst heq
  exact targetHolders_own hs.owned hcurrent (by rw [hstate]; rfl)

end States

/-! ## Passes -/

/-- A part of a pass, among others. -/
abbrev Retires {α : Type} (Q : Except String α → RetirementState → Prop) (p : RetirementScript α)
    (s : RetirementState) : Prop :=
  p.Safe Custody (fun s s' => Advances s s') (fun s s' => Advances s s') Q s

section Passes

variable {input : TabLeaseRetirementInput} {endpoint : Option TabLeaseRetirementEndpoint}
  {live : TabLeaseRetirementEndpoint} {n : Nat} {seen : SeenLease} {reason : TabLeaseRetirementReason}
  {s : RetirementState} {α : Type}

theorem retires_listCandidates :
    Retires (Answers fun candidates s' => ∀ seen ∈ candidates, Candidate seen s') (listCandidates input) s := by
  refine safe_look .refl fun s' _ _ seen hseen => ?_
  obtain ⟨lease, hlease, rfl⟩ := List.mem_map.1 hseen
  obtain ⟨hm, hlisted⟩ := List.mem_filter.1 hlease
  simp only [Bool.and_eq_true, Bool.or_eq_true, beq_iff_eq] at hlisted
  exact ⟨hlisted.2, tracked_here hm⟩

theorem beginRetirement_of_tracked {request : BeginRetirementInput} {new : BrowserTabLease} (h : Tracked seen s)
    (hid : request.leaseId = seen.lease.leaseId) (hrevision : request.expectedRevision = seen.lease.revision)
    (hbegun : beginRetirement request s.registry = .ok new) :
    new.state = .retiring ∧ new.workload = seen.lease.workload := by
  simp only [beginRetirement, bind_eq_ok, fencedLease_eq_ok, pure_eq_ok] at hbegun
  obtain ⟨existing, ⟨hget, hrev⟩, _, _, _, _, _, _, _, _, rfl⟩ := hbegun
  rw [h.same (hid ▸ hget) (hrev.trans hrevision)]
  exact ⟨rfl, rfl⟩

theorem retires_beginCandidate (h : Tracked seen s) (howned : isUnownedBrowserTabLease seen.lease = false) :
    Retires (Answers fun begun s' => ∀ new, begun = .ok new → RetiringLease new s')
      (beginCandidate input seen.lease reason) s := by
  intro s₁ hs ha
  have hseen := h.advances ha
  dsimp only
  cases hbegun : beginRetirement ⟨seen.lease.leaseId, seen.lease.revision, .at input.startedAt.ms, reason⟩
      s₁.registry with
  | error stop =>
    have heffect : StepEffect s₁.registry (.lease (.beginRetirement ⟨seen.lease.leaseId, seen.lease.revision,
        .at input.startedAt.ms, reason⟩)) (.error stop) s₁.registry := .refused _ stop
    refine ⟨hs.advance heffect, advances_advance heffect, ?_⟩
    cases stop with
    | refused conflict => exact fun new heq => by cases heq
    | thrown message => trivial
  | ok new =>
    have heffect : StepEffect s₁.registry (.lease (.beginRetirement ⟨seen.lease.leaseId, seen.lease.revision,
        .at input.startedAt.ms, reason⟩)) _ _ := .rewritten (beginRetirement_spec hbegun)
    refine ⟨hs.advance heffect, advances_advance heffect, fun _ heq => ?_⟩
    cases heq
    obtain ⟨hstate, hworkload⟩ := beginRetirement_of_tracked hseen rfl rfl hbegun
    refine ⟨hstate, ?_, tracked_here (KeyedMap.mem_set_self _ _)⟩
    rw [isUnownedBrowserTabLease, hworkload]
    exact howned

theorem retires_finishCandidate (lease : BrowserTabLease) (disposition : TabLeaseFinalDisposition) :
    Retires (Answers fun _ _ => True) (finishCandidate input n lease disposition) s := by
  intro s₁ hs ha
  dsimp only
  have hanswers : ∀ (result : Except String (Except TabLeaseConflict BrowserTabLease)) (s' : RetirementState),
      Answers (fun _ _ => True) result s' := fun result _ => by cases result <;> trivial
  cases hfinished : finishRetirement ⟨lease.leaseId, lease.revision, .at (input.finishedAt n).ms, disposition⟩
      s₁.registry with
  | error stop =>
    have heffect : StepEffect s₁.registry (.lease (.finishRetirement ⟨lease.leaseId, lease.revision,
        .at (input.finishedAt n).ms, disposition⟩)) (.error stop) s₁.registry := .refused _ stop
    exact ⟨hs.advance heffect, advances_advance heffect, hanswers _ _⟩
  | ok new =>
    have heffect : StepEffect s₁.registry (.lease (.finishRetirement ⟨lease.leaseId, lease.revision,
        .at (input.finishedAt n).ms, disposition⟩)) _ _ := .rewritten (finishRetirement_spec hfinished)
    exact ⟨hs.advance heffect, advances_advance heffect, hanswers _ _⟩

/-- **A request to close** a lease that the pass may retire. -/
theorem retires_requestClose (h : RetiringLease seen s) :
    Retires (Answers fun _ _ => True) (requestClose seen) s := by
  intro s₁ hs ha
  refine ⟨⟨hs.owned, hs.known.push ((h.advances ha).known hs)⟩, ?_, trivial⟩
  exact advances_of_unchanged rfl rfl fun id hid => by cases List.mem_singleton.1 hid

/-- A callback leaves the registry alone. -/
theorem retires_ofExcept {P : RetirementState → Prop} (result : Except String α) (h : P s) :
    Retires (Answers fun _ s' => P s') (ofExcept result) s := by
  cases result with
  | ok _ => exact h
  | error _ => trivial

theorem retires_closeCandidate (h : RetiringLease seen s) :
    Retires (Answers fun _ _ => True) (closeCandidate input n live seen) s :=
  safe_answers (retires_ofExcept _ h) fun _ _ h₁ =>
    safe_answers (retires_requestClose h₁) fun _ _ _ =>
      safe_answers (retires_ofExcept (P := fun _ => True) _ trivial) fun _ _ _ =>
        safe_answers (retires_ofExcept (P := fun _ => True) _ trivial) fun _ _ _ => trivial

theorem retires_inspectCandidate (h : RetiringLease seen s) :
    Retires (Answers fun _ _ => True) (inspectCandidate input n live seen) s := by
  refine safe_answers (retires_ofExcept _ h) fun target s₁ h₁ => ?_
  cases target with
  | none => trivial
  | some target =>
    refine safe_answers (retires_ofExcept _ h₁) fun same s₂ h₂ => ?_
    cases same with
    | true => exact retires_closeCandidate h₂
    | false => trivial

theorem retires_disposeCandidate (h : RetiringLease seen s) :
    Retires (Answers fun _ _ => True) (disposeCandidate input endpoint n seen) s := by
  cases endpoint with
  | none => trivial
  | some live =>
    refine safe_orElse.2 ((retires_inspectCandidate h).imp fun r s' _ => ?_)
    cases r <;> trivial

theorem retires_retireCandidate (h : RetiringLease seen s) :
    Retires (Answers fun _ _ => True) (retireCandidate input endpoint n seen reason) s := by
  refine safe_answers (retires_disposeCandidate h) fun disposed s₁ _ => ?_
  refine safe_answers (retires_finishCandidate _ _) fun finished s₂ _ => ?_
  refine safe_answers (retires_ofExcept (P := fun _ => True) _ trivial) fun _ s₃ _ => ?_
  cases finished <;> trivial

theorem retires_fenceCandidate (h : Candidate seen s) (howned : isUnownedBrowserTabLease seen.lease = false) :
    Retires (Answers fun _ _ => True) (fenceCandidate input endpoint n seen reason) s := by
  unfold fenceCandidate
  split
  case isTrue =>
    refine safe_answers (retires_beginCandidate h.2 howned) fun begun s₁ hbegun => ?_
    cases begun with
    | ok new => exact retires_retireCandidate (hbegun new rfl)
    | error conflict => trivial
  case isFalse hidle => exact retires_retireCandidate ⟨h.1.resolve_left hidle, howned, h.2⟩

theorem retires_visitCandidate (h : Candidate seen s) :
    Retires (Answers fun _ _ => True) (visitCandidate input endpoint n seen) s := by
  unfold visitCandidate
  split
  case isTrue => trivial
  case isFalse howned =>
    split
    · trivial
    · split
      · trivial
      · exact safe_answers (retires_fenceCandidate h (Bool.eq_false_iff.2 howned)) fun _ _ _ => trivial

/-- **The loop**: the rest of the list stays tracked while a candidate is visited. -/
theorem retires_visitCandidates : ∀ (candidates : List SeenLease) (n : Nat) (s : RetirementState),
    (∀ seen ∈ candidates, Candidate seen s) →
    Retires (Answers fun _ _ => True) (visitCandidates input endpoint n candidates) s
  | [], _, _, _ => trivial
  | seen :: rest, n, s, h => by
    have hrest : ∀ seen ∈ rest, Candidate seen s := fun seen hseen => h seen (List.mem_cons_of_mem _ hseen)
    have hkept : ∀ {s s' : RetirementState}, Advances s s' → (∀ seen ∈ rest, Candidate seen s) →
        ∀ seen ∈ rest, Candidate seen s' :=
      fun ha hall seen hseen => ⟨(hall seen hseen).1, (hall seen hseen).2.advances ha⟩
    have hone : Retires (Answers fun _ _ => True) (visitCandidate input endpoint n seen) s :=
      retires_visitCandidate (h seen List.mem_cons_self)
    have hvisit := Safe.frame hone hrest (fun ha => hkept ha) fun ha => hkept ha
    refine safe_bind.2 (hvisit.imp fun r s₁ hr => ?_)
    cases r with
    | error _ => trivial
    | ok outcome => exact safe_answers (retires_visitCandidates rest (n + 1) s₁ hr.2) fun _ _ _ => trivial

theorem retires_pass : Retires (Answers fun _ _ => True) (retireExpiredTabLeases input) s :=
  safe_answers retires_listCandidates fun candidates s₁ hcandidates =>
    retires_visitCandidates candidates 0 s₁ hcandidates

end Passes

/-! ## Runs -/

section Runs

variable {table : CaseTable} {c : Threads RetirementState String (List TabLeaseRetirementOutcome)}

theorem retirement_compatible (table : CaseTable) :
    Threads.Compatible (fun s => s = ⟨.empty, []⟩) (fun _ => retireExpiredTabLeases)
      (fun s call => some (s.advance (perform table call s.registry).2)) Custody (fun _ s s' => Advances s s')
      (fun _ s s' => Advances s s') (fun _ _ => Answers fun _ _ => True) where
  refl _ := .refl
  trans := .trans
  init s hs := by
    subst hs
    exact ⟨KeyedMap.Owned.empty, lawful_nil⟩
  outside hs houtside := by
    cases houtside
    exact ⟨hs.advance (perform_effect _ _ _), fun _ => advances_advance (perform_effect _ _ _)⟩
  others _ _ ha := ha
  call _ _ _ _ _ _ _ := retires_pass

theorem retirement_custody (h : (retirementSystem table).Reachable c) : Custody c.state :=
  (Threads.safe_of_reachable (retirement_compatible table) h).inv

/-- **In every run the passes close their own targets only, exactly if nobody has written a lease between its reading
and the close.** -/
theorem retirement_closes_own_iff (table : CaseTable)
    (c : Threads RetirementState String (List TabLeaseRetirementOutcome)) (h : (retirementSystem table).Reachable c) :
    Lawful ClosesOwnTarget c.state.trace ↔ Lawful Undisturbed c.state.trace := by
  have hknown := (retirement_custody h).known
  constructor
  · intro hown before event after heq
    exact (hknown before event after heq).closesOwn_iff.1 (hown before event after heq)
  · intro hundisturbed before event after heq
    exact (hknown before event after heq).closesOwn_iff.2 (hundisturbed before event after heq)

end Runs

/-! ## A lease that an operator takes from a pass -/

section Sample

/-- A pass that finds every target where it looks for it. -/
def samplePass : TabLeaseRetirementInput where
  scope := sampleScope
  startedAt := ⟨100000, by decide⟩
  finishedAt _ := ⟨100001, by decide⟩
  resolveEndpoint := .ok (some ⟨"127.0.0.1", 9222, none⟩)
  inspectTarget _ _ _ := .ok (some ⟨"https://chatgpt.com/c/conversation-1"⟩)
  targetMatchesLease _ _ := .ok true
  closeAudit _ := .ok ⟨⟩
  closeTarget _ _ _ := .ok ⟨⟩
  inspectAfterClose _ _ _ := .ok none
  finishAudit _ := .ok ⟨⟩
  endpointAbsenceProvesTargetsMissing := false

/-- The owner of the first lease is done with it. -/
def sampleIdle : Call :=
  ⟨sampleOptions 10 "lease-1", .lease (.idle {
    claim := ⟨"lease-1", 1, "operation"⟩, now := .at 1000, effectState := .settled, notInFlight := settled_notInFlight })⟩

/-- The operator gives up the retiring lease, and keeps its target, -/
def sampleHandover : List Call :=
  [⟨sampleOptions 30 "lease-2", .lease (.markLost ⟨"lease-1", 3, .at 100000, .restartUnverified⟩)⟩,
    ⟨sampleOptions 30 "lease-2", .lease (.releasePreserved ⟨"lease-1", 4, .at 100000⟩)⟩,
    sampleReserve 20 "lease-2" "target-1" "conversation-2" none]

/-- An idle lease, and a pass with calls of the operator between the begin of its retirement and the close. -/
def retirementRun (between : List Call) : Option (Threads RetirementState String (List TabLeaseRetirementOutcome)) :=
  TransitionSystem.execute (Threads.next (fun _ => retireExpiredTabLeases)
      fun s (call : Call) => some (s.advance (perform .lowered call s.registry).2)) ⟨⟨.empty, []⟩, []⟩
    ([.other (sampleReserve 10 "lease-1" "target-1" "conversation-1" none), .other sampleIdle, .start samplePass,
      .act 0, .act 0] ++ between.map .other ++ [.act 0])

theorem retirementRun_reachable {between : List Call}
    {c : Threads RetirementState String (List TabLeaseRetirementOutcome)} (h : retirementRun between = some c) :
    (retirementSystem .lowered).Reachable c :=
  TransitionSystem.reachable_execute (.init ⟨rfl, rfl⟩) h

/-- What a close has found, without the leases themselves. -/
def RetirementEvent.close : RetirementEvent → Option (Option (TabLeaseState × Nat) × List String)
  | .changed _ => none
  | .closing _ _ found holders => some (found.map fun lease => (lease.state, lease.revision), holders)

/-- Without the operator the pass closes the target of its lease. -/
theorem undisturbed_pass_closes_own : ∃ c, (retirementSystem .lowered).Reachable c ∧
    c.state.trace.filterMap (·.close) = [(some (.retiring, 3), ["lease-1"])] ∧ Lawful ClosesOwnTarget c.state.trace := by
  have hrun : (retirementRun []).map (fun c =>
        (c.state.trace.filterMap (·.close), decide (Lawful Undisturbed c.state.trace))) =
      some ([(some (.retiring, 3), ["lease-1"])], true) := by
    decide +kernel
  obtain ⟨c, hc, hobserved⟩ := Option.map_eq_some_iff.1 hrun
  obtain ⟨hcloses, hundisturbed⟩ := Prod.mk.inj hobserved
  have hreachable := retirementRun_reachable hc
  have hlawful : Lawful Undisturbed c.state.trace := of_decide_eq_true hundisturbed
  exact ⟨c, hreachable, hcloses, (retirement_closes_own_iff .lowered c hreachable).2 hlawful⟩

/-- **A pass closes a target that belongs to another lease by then.** -/
theorem released_target_closed :
    ¬ ∀ (table : CaseTable) (c : Threads RetirementState String (List TabLeaseRetirementOutcome)),
      (retirementSystem table).Reachable c → Lawful ClosesOwnTarget c.state.trace := by
  intro h
  have hrun : (retirementRun sampleHandover).map (fun c => c.state.trace.filterMap (·.close)) =
      some [(some (.released, 5), ["lease-2"])] := by
    decide +kernel
  obtain ⟨c, hc, hcloses⟩ := Option.map_eq_some_iff.1 hrun
  have hmem : (some (.released, 5), ["lease-2"]) ∈ c.state.trace.filterMap (·.close) := by
    rw [hcloses]
    exact List.mem_singleton_self _
  obtain ⟨event, hevent, hclose⟩ := List.mem_filterMap.1 hmem
  obtain ⟨before, -, -, hown⟩ := (h .lowered c (retirementRun_reachable hc)).of_mem hevent
  cases event with
  | changed _ => cases hclose
  | closing lease position found holders =>
    obtain ⟨⟨current, rfl, hstate, -⟩, -⟩ := hown
    simp [RetirementEvent.close, hstate] at hclose

end Sample

end AuraCall.TabLease
