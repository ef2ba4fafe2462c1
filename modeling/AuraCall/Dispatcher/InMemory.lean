import AuraCall.Lib.KeyedMap
import AuraCall.Lib.Transition
import AuraCall.Dispatcher.Model

/-!
# The in-memory dispatcher

`InMemoryBrowserOperationDispatcher` keeps one record a key. Shared reads of one key are compatible, so several may hold
it while the map names only the last one granted; its release deletes the key under the others, and the next request,
exclusive or not, finds the key free.

`State` is the map with the history of grants and releases. `inMemory_compatible` shows that the grants of a run are
compatible as long as nobody releases the recorded operation of a key before the others, and that any other release
opens the key to a conflicting grant. `staleReader_conflict` is the shortest run that does it.
-/

namespace AuraCall.Dispatcher

/-! ## The dispatcher -/

/-- `this.active`: the operation recorded for each key. -/
abbrev Active := KeyedMap BrowserOperationRecord.key

section Operations

variable (host : Host) (isOwnerAlive : Int → Bool)

/-- `acquire`, with the identifier and the time of the record it may build. -/
def acquire (input : BrowserOperationAcquireInput) (id : String) (nowMs : Int) (active : Active) :
    Except (Stop BrowserOperationBusyResult) BrowserOperationRecord × Active :=
  let key := buildBrowserOperationKey host input
  let existing := active.get? key
  match existing.filter fun record => isOwnerAlive record.ownerPid && isBrowserOperationConflict record input with
  | some record => (.error (.refused (busyResult key record)), active)
  | none =>
    let kept := if existing.any (fun record => !isOwnerAlive record.ownerPid) then active.delete key else active
    match buildOperationRecord host input key id nowMs with
    | .error stop => (.error stop, kept)
    | .ok operation => (.ok operation, kept.set operation)

/-- The `release` of a granted operation. -/
def release (operation : BrowserOperationRecord) (active : Active) : Active :=
  if (active.get? operation.key).any (·.id == operation.id) then active.delete operation.key else active

def getActive (key : String) (active : Active) : Option BrowserOperationRecord × Active :=
  match active.get? key with
  | none => (none, active)
  | some existing => if isOwnerAlive existing.ownerPid then (some existing, active) else (none, active.delete key)

end Operations

/-! ## Runs -/

/-- The map, the operations granted so far, and the identifiers of those released. -/
structure State where
  active : Active
  granted : List BrowserOperationRecord
  released : List String

/-- Granted and not yet released. -/
def Held (s : State) (operation : BrowserOperationRecord) : Prop :=
  operation ∈ s.granted ∧ operation.id ∉ s.released

inductive Call
  | acquire (input : BrowserOperationAcquireInput) (id : String) (nowMs : Int)
  | release (operation : BrowserOperationRecord)
  | getActive (key : String)

/-- A call of the dispatcher; every owner is alive. `crypto.randomUUID()` repeats no identifier, and only a granted
operation has a `release`. -/
def next (host : Host) (s : State) : Call → Option State
  | .acquire input id nowMs =>
    if id ∈ s.granted.map (·.id) then none
    else match acquire host (fun _ => true) input id nowMs s.active with
      | (.ok operation, active) => some { s with active, granted := s.granted ++ [operation] }
      | (.error _, active) => some { s with active }
  | .release operation =>
    if operation ∈ s.granted then
      some { s with active := release operation s.active, released := operation.id :: s.released }
    else none
  | .getActive key => some { s with active := (getActive (fun _ => true) key s.active).2 }

def State.initial : State := ⟨.empty, [], []⟩

/-- All runs of a dispatcher. -/
def inMemory (host : Host) : TransitionSystem State Call := .ofNext (· = .initial) (next host)

/-! ## The record of a key -/

variable {host : Host} {s s' : State} {call : Call}

/-- The identifiers of the grants differ, what is on record is held, and what is held exclusively is on record. -/
structure Recorded (s : State) : Prop where
  distinct : (s.granted.map (·.id)).Nodup
  released : ∀ id ∈ s.released, id ∈ s.granted.map (·.id)
  held : ∀ operation ∈ s.active, Held s operation
  exclusive : ∀ operation, Held s operation → operation.operationClass ≠ .sharedRead → operation ∈ s.active

/-- With every owner alive, an acquisition is refused by the conflicting record of its key or replaces the record. -/
theorem acquire_cases (host : Host) (input : BrowserOperationAcquireInput) (id : String) (nowMs : Int)
    (active : Active) :
    (∃ stop, acquire host (fun _ => true) input id nowMs active = (.error stop, active)) ∨
    ∃ operation, acquire host (fun _ => true) input id nowMs active = (.ok operation, active.set operation) ∧
      operation.id = id ∧ operation.key = buildBrowserOperationKey host input ∧
      operation.operationClass = input.operationClass ∧
      ∀ record ∈ active, record.key = operation.key → isBrowserOperationConflict record input = false := by
  simp only [acquire, Bool.true_and, Bool.not_true, Option.any_false, Bool.false_eq_true, ↓reduceIte]
  cases hf : (active.get? (buildBrowserOperationKey host input)).filter (isBrowserOperationConflict · input) with
  | some record => exact Or.inl ⟨_, rfl⟩
  | none =>
    cases hb : (buildOperationRecord host input (buildBrowserOperationKey host input) id nowMs :
        Except (Stop BrowserOperationBusyResult) BrowserOperationRecord) with
    | error stop => exact Or.inl ⟨stop, rfl⟩
    | ok operation =>
      obtain ⟨hid, hkey, hclass, _⟩ := buildOperationRecord_eq_ok hb
      refine Or.inr ⟨operation, rfl, hid, hkey, hclass, fun record hm hrk => ?_⟩
      rw [KeyedMap.get?_eq_some.2 ⟨hm, hrk.trans hkey⟩] at hf
      simpa [Option.filter] using hf

theorem getActive_active (key : String) (active : Active) : (getActive (fun _ => true) key active).2 = active := by
  unfold getActive
  split <;> rfl

/-! ### Acquiring -/

theorem held_granted {operation earlier : BrowserOperationRecord} {active : Active} :
    Held { s with active, granted := s.granted ++ [operation] } earlier ↔
      Held s earlier ∨ (earlier = operation ∧ operation.id ∉ s.released) := by
  simp only [Held, List.mem_append, List.mem_singleton]
  constructor
  · rintro ⟨hg | rfl, hr⟩
    · exact Or.inl ⟨hg, hr⟩
    · exact Or.inr ⟨rfl, hr⟩
  · rintro (⟨hg, hr⟩ | ⟨rfl, hr⟩)
    · exact ⟨Or.inl hg, hr⟩
    · exact ⟨Or.inr rfl, hr⟩

/-- What a request does not conflict with is no exclusive operation. -/
theorem sharedRead_of_no_conflict {record : BrowserOperationRecord} {input : BrowserOperationAcquireInput}
    (h : isBrowserOperationConflict record input = false) :
    record.operationClass = .sharedRead ∧ input.operationClass = .sharedRead := by
  simpa only [isBrowserOperationConflict, Bool.or_eq_false_iff, bne_eq_false_iff_eq] using h

theorem Recorded.grant (h : Recorded s) {input : BrowserOperationAcquireInput} {operation : BrowserOperationRecord}
    (hid : operation.id ∉ s.granted.map (·.id))
    (hfree : ∀ record ∈ s.active, record.key = operation.key → isBrowserOperationConflict record input = false) :
    Recorded { s with active := s.active.set operation, granted := s.granted ++ [operation] } where
  distinct := by
    rw [List.map_append, List.nodup_append]
    refine ⟨h.distinct, by simp, fun a ha b hb hab => ?_⟩
    rw [List.map_singleton, List.mem_singleton] at hb
    exact hid (hb ▸ hab ▸ ha)
  released := fun id hm => by
    rw [List.map_append]
    exact List.mem_append_left _ (h.released id hm)
  held := by
    intro record hm
    rw [held_granted]
    rcases KeyedMap.mem_set.1 hm with rfl | ⟨hold, _⟩
    · exact Or.inr ⟨rfl, fun hr => hid (h.released _ hr)⟩
    · exact Or.inl (h.held record hold)
  exclusive := by
    intro earlier he hx
    rcases held_granted.1 he with hold | ⟨rfl, _⟩
    · have hm := h.exclusive earlier hold hx
      exact KeyedMap.mem_set_of_ne hm fun hkey => hx (sharedRead_of_no_conflict (hfree earlier hm hkey)).1
    · exact KeyedMap.mem_set_self _ _

/-! ### Releasing -/

theorem held_released {operation earlier : BrowserOperationRecord} {active : Active} :
    Held { s with active, released := operation.id :: s.released } earlier ↔
      Held s earlier ∧ earlier.id ≠ operation.id := by
  simp only [Held, List.mem_cons, not_or]
  constructor
  · rintro ⟨hg, hne, hr⟩; exact ⟨⟨hg, hr⟩, hne⟩
  · rintro ⟨⟨hg, hr⟩, hne⟩; exact ⟨hg, hne, hr⟩

/-- Two granted operations with one identifier are the same. -/
theorem Recorded.eq_of_id (h : Recorded s) {a b : BrowserOperationRecord} (ha : a ∈ s.granted) (hb : b ∈ s.granted)
    (hid : a.id = b.id) : a = b := List.inj_on_of_nodup_map h.distinct ha hb hid

/-- A release deletes the record of its key when it is its own, and nothing else. -/
theorem Recorded.mem_release (h : Recorded s) {operation record : BrowserOperationRecord}
    (hg : operation ∈ s.granted) : record ∈ release operation s.active ↔ record ∈ s.active ∧ record ≠ operation := by
  unfold release
  constructor
  · intro hm
    split at hm
    · obtain ⟨hin, hkey⟩ := KeyedMap.mem_delete.1 hm
      exact ⟨hin, fun e => hkey (by rw [e])⟩
    · rename_i hno
      refine ⟨hm, fun e => hno ?_⟩
      rw [← e, KeyedMap.get?_self hm]
      simp
  · rintro ⟨hin, hne⟩
    split
    · rename_i hown
      obtain ⟨own, hget, hid⟩ := (Option.any_eq_true _ _).1 hown
      obtain ⟨hmem, hkey⟩ := KeyedMap.get?_eq_some.1 hget
      have heq : own = operation := h.eq_of_id (h.held own hmem).1 hg (beq_iff_eq.1 hid)
      refine KeyedMap.mem_delete.2 ⟨hin, fun e => hne ?_⟩
      rw [← heq]
      exact KeyedMap.eq_of_key hin hmem (e.trans hkey.symm)
    · exact hin

theorem Recorded.release (h : Recorded s) {operation : BrowserOperationRecord} (hg : operation ∈ s.granted) :
    Recorded { s with active := release operation s.active, released := operation.id :: s.released } where
  distinct := h.distinct
  released := fun id hm => by
    rcases List.mem_cons.1 hm with rfl | hm
    · exact List.mem_map.2 ⟨operation, hg, rfl⟩
    · exact h.released id hm
  held := by
    intro record hm
    obtain ⟨hin, hne⟩ := (h.mem_release hg).1 hm
    exact held_released.2 ⟨h.held record hin, fun e => hne (h.eq_of_id (h.held record hin).1 hg e)⟩
  exclusive := by
    intro earlier he hx
    obtain ⟨hold, hne⟩ := held_released.1 he
    exact (h.mem_release hg).2 ⟨h.exclusive earlier hold hx, fun e => hne (by rw [e])⟩

/-! ### Steps -/

/-- What a call does, with every owner alive. -/
inductive CallEffect (host : Host) (s : State) : Call → State → Prop
  | unchanged (call : Call) : CallEffect host s call s
  | granted {input : BrowserOperationAcquireInput} {id : String} {nowMs : Int} {operation : BrowserOperationRecord} :
      operation.id ∉ s.granted.map (·.id) →
      (∀ record ∈ s.active, record.key = operation.key → isBrowserOperationConflict record input = false) →
      CallEffect host s (.acquire input id nowMs)
        { s with active := s.active.set operation, granted := s.granted ++ [operation] }
  | released {operation : BrowserOperationRecord} : operation ∈ s.granted →
      CallEffect host s (.release operation)
        { s with active := release operation s.active, released := operation.id :: s.released }

theorem next_effect (h : next host s call = some s') : CallEffect host s call s' := by
  cases call with
  | acquire input id nowMs =>
    simp only [next] at h
    split at h
    · cases h
    rename_i hid
    obtain ⟨stop, he⟩ | ⟨operation, he, rfl, _, _, hfree⟩ :=
      acquire_cases host input id nowMs s.active
    · rw [he] at h
      cases h
      exact .unchanged _
    · rw [he] at h
      cases h
      exact .granted hid hfree
  | release operation =>
    simp only [next] at h
    split at h
    · cases h
      exact .released ‹_›
    · cases h
  | getActive key =>
    simp only [next, getActive_active, Option.some.injEq] at h
    subst h
    exact .unchanged _

theorem CallEffect.recorded (h : CallEffect host s call s') (hr : Recorded s) : Recorded s' := by
  cases h with
  | unchanged => exact hr
  | granted hid hfree => exact hr.grant hid hfree
  | released hg => exact hr.release hg

theorem Recorded.initial : Recorded .initial where
  distinct := List.nodup_nil
  released := fun _ hm => absurd hm List.not_mem_nil
  held := fun operation hm => absurd hm (KeyedMap.not_mem_empty operation)
  exclusive := fun _ he => absurd he.1 List.not_mem_nil

theorem reachable_recorded (h : (inMemory host).Reachable s) : Recorded s :=
  h.invariant (fun _ e => e ▸ Recorded.initial) fun _ _ _ _ hr hs => (next_effect hs).recorded hr

/-! ## Compatible grants -/

/-- A grant conflicts with no earlier operation that is held. -/
def Compatible (host : Host) (s : State) : Prop :=
  ∀ input id nowMs operation, (acquire host (fun _ => true) input id nowMs s.active).1 = .ok operation →
    ∀ earlier, Held s earlier → earlier.key = operation.key → isBrowserOperationConflict earlier input = false

/-- A release of the operation on record for a key leaves no other operation that holds the key. -/
def ReleasesLast (s : State) : Call → Prop
  | .release operation => operation ∈ s.active → ∀ other, Held s other → other.key = operation.key → other = operation
  | _ => True

/-- A held key has a record. -/
def Covered (s : State) : Prop := ∀ earlier, Held s earlier → ∃ record ∈ s.active, record.key = earlier.key

theorem CallEffect.covered (h : CallEffect host s call s') (hr : Recorded s) (hlast : ReleasesLast s call)
    (hc : Covered s) : Covered s' := by
  cases h with
  | unchanged => exact hc
  | @granted _ _ _ operation _ _ =>
    intro earlier he
    rcases held_granted.1 he with hold | ⟨rfl, _⟩
    · obtain ⟨record, hm, hkey⟩ := hc earlier hold
      by_cases hop : record.key = operation.key
      · exact ⟨operation, KeyedMap.mem_set_self _ _, hop.symm.trans hkey⟩
      · exact ⟨record, KeyedMap.mem_set_of_ne hm hop, hkey⟩
    · exact ⟨earlier, KeyedMap.mem_set_self _ _, rfl⟩
  | @released operation hg =>
    intro earlier he
    obtain ⟨hold, hne⟩ := held_released.1 he
    obtain ⟨record, hm, hkey⟩ := hc earlier hold
    refine ⟨record, (hr.mem_release hg).2 ⟨hm, fun e => hne ?_⟩, hkey⟩
    subst e
    rw [hlast hm earlier hold hkey.symm]

/-- When every held key has a record, the record decides for all its holders. -/
theorem Recorded.compatible (hr : Recorded s) (hc : Covered s) : Compatible host s := by
  intro input id nowMs operation hok earlier hheld hkey
  obtain ⟨stop, he⟩ | ⟨operation', he, _, _, _, hfree⟩ :=
    acquire_cases host input id nowMs s.active
  · rw [he] at hok; cases hok
  rw [he] at hok
  cases hok
  obtain ⟨record, hm, hrk⟩ := hc earlier hheld
  obtain ⟨hshared, hinput⟩ := sharedRead_of_no_conflict (hfree record hm (hrk.trans hkey))
  have hearlier : earlier.operationClass = .sharedRead := by
    by_contra hx
    have heq := KeyedMap.eq_of_key (hr.exclusive earlier hheld hx) hm hrk.symm
    exact hx (heq ▸ hshared)
  simp [isBrowserOperationConflict, hearlier, hinput]

theorem reachable_covered (h : ((inMemory host).restrict ReleasesLast).Reachable s) : Covered s :=
  h.invariant (fun _ e => e ▸ fun _ he => absurd he.1 List.not_mem_nil) fun _ _ _ hreach hc hs =>
    (next_effect hs.2).covered (reachable_recorded hreach.of_restrict) hs.1 hc

/-- Releasing the record of a key under another holder opens the key to every exclusive request. -/
theorem release_opens (hr : Recorded s) {operation other : BrowserOperationRecord} (hm : operation ∈ s.active)
    (hkey : other.key = operation.key) {input : BrowserOperationAcquireInput}
    (hi : buildBrowserOperationKey host input = operation.key) (hx : input.operationClass ≠ .sharedRead)
    {nowMs : Int} (hnow : -maxTime ≤ nowMs ∧ nowMs ≤ maxTime) (id : String) :
    ∃ new, (acquire host (fun _ => true) input id nowMs (release operation s.active)).1 = .ok new ∧
      new.key = other.key ∧ isBrowserOperationConflict other input = true := by
  have hg := (hr.held operation hm).1
  have hfree : (release operation s.active).get? (buildBrowserOperationKey host input) = none := by
    refine KeyedMap.get?_eq_none.2 fun record hrec e => ?_
    obtain ⟨hin, hneq⟩ := (hr.mem_release hg).1 hrec
    exact hneq (KeyedMap.eq_of_key hin hm (e.trans hi))
  refine ⟨_, by simp [acquire, hfree, buildOperationRecord, toISOString, hnow, bind, Except.bind]; rfl, ?_, ?_⟩
  · exact hi.trans hkey.symm
  · simp [isBrowserOperationConflict, hx]

/-- **The grants of a run are compatible as long as every release that deletes the record of a key leaves no other
operation holding it; any other release opens the key to a grant that conflicts.** -/
theorem inMemory_compatible (host : Host) :
    (∀ s, ((inMemory host).restrict ReleasesLast).Reachable s → Compatible host s) ∧
    ∀ s operation s', (inMemory host).Reachable s → next host s (.release operation) = some s' →
      ¬ReleasesLast s (.release operation) → ∀ input, buildBrowserOperationKey host input = operation.key →
      input.operationClass ≠ .sharedRead → ¬Compatible host s' := by
  refine ⟨fun s h => (reachable_recorded h.of_restrict).compatible (reachable_covered h), ?_⟩
  intro s operation s' h hstep hlast input hi hx hcompat
  have hr := reachable_recorded h
  simp only [ReleasesLast, not_forall] at hlast
  obtain ⟨hm, other, hheld, hkey, hne⟩ := hlast
  obtain ⟨new, hok, hnew, hconflict⟩ :=
    release_opens hr hm hkey hi hx (show -maxTime ≤ 0 ∧ 0 ≤ maxTime by decide) ""
  simp only [next, (hr.held operation hm).1, ↓reduceIte, Option.some.injEq] at hstep
  subst hstep
  have hid : other.id ≠ operation.id := fun e => hne (hr.eq_of_id hheld.1 (hr.held operation hm).1 e)
  rw [hcompat input "" 0 new hok other (held_released.2 ⟨hheld, hid⟩) hnew.symm] at hconflict
  cases hconflict

/-! ## Two readers and a writer -/

/-- A reader of the sample profile. -/
def sampleReader (id : String) : BrowserOperationRecord :=
  ⟨id, buildBrowserOperationKey sampleHost (sampleRequest .sharedRead), .browserTools, .sharedRead, some "profile",
    "chatgpt", none, 10, none, .at 0, .at 0, none⟩

/-- Two readers hold the key, and the second one releases it. -/
def secondReaderReleases : List Call :=
  [.acquire (sampleRequest .sharedRead) "reader-1" 0, .acquire (sampleRequest .sharedRead) "reader-2" 0,
    .release (sampleReader "reader-2")]

/-- The first reader still holds the key when a writer is granted it. -/
theorem staleReader_conflict : ¬∀ s, (inMemory sampleHost).Reachable s → Compatible sampleHost s := by
  intro h
  have hrun : TransitionSystem.execute (next sampleHost) .initial secondReaderReleases =
      some ⟨.empty, [sampleReader "reader-1", sampleReader "reader-2"], ["reader-2"]⟩ := by rfl
  have hreach : (inMemory sampleHost).Reachable _ := TransitionSystem.reachable_execute (.init rfl) hrun
  have hno := h _ hreach (sampleRequest .exclusiveMutating) "writer" 0 _ rfl (sampleReader "reader-1")
    ⟨by decide, by decide⟩ rfl
  cases hno

end AuraCall.Dispatcher
