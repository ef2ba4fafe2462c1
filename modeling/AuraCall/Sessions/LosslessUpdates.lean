import AuraCall.Sessions.Metadata

/-!
# Updates of a session

The writings of a run are `Lossless` when every update changes the fields it names and no others, what an update has
written stays until a later one names it, and no mark of a listing takes the place of a final status. A writing is
`Undisturbed` when the view it starts from says of the other fields what is stored by then: nothing that was written
since it has read the record, and nothing that it has derived from the processes, the clock and the files of the model
runs, makes a difference. A run is lossless exactly when all its writings are undisturbed (`session_updates_lossless_iff`).
-/

namespace AuraCall.Sessions

open Script EventTrace AssocRecord

variable {host : SessionHost}

/-! ## Lossless runs -/

/-- A writing names a field, and what it makes of it. -/
def SessionWrite.Sets (write : SessionWrite) (key : String) (value : Option Json) : Prop :=
  write.updates.lookup key = some value

def SessionWrite.Leaves (write : SessionWrite) (key : String) : Prop := write.updates.lookup key = none

/-- The session has completed, or has ended with an error. -/
def FinalStatus (record : JsonRecord) : Prop :=
  record.get "status" = some (.string "completed") ∨ record.get "status" = some (.string "error")

structure Lossless (trace : List SessionWrite) : Prop where
  /-- an update changes exactly the fields it names -/
  exact : ∀ before write after, trace = before ++ write :: after → ∀ updates, write.cause = .update updates →
    ∀ key, write.written.get key = assigned write.found updates key
  /-- its fields stay stored until a later update names them -/
  kept : ∀ before write between later after, trace = before ++ write :: (between ++ later :: after) → ∀ key value,
    write.Sets key value → (∀ other ∈ between, other.Leaves key) → later.Leaves key → later.written.get key = value
  /-- no reading replaces a final status -/
  final : ∀ write ∈ trace, write.cause = .mark → FinalStatus write.found →
    write.written.get "status" = write.found.get "status"

/-- The view of the writer is right about a field. -/
def SessionWrite.Agrees (write : SessionWrite) (key : String) : Prop :=
  write.view.record.get key = write.found.get key

/-- The view of an update is right about the fields it does not name, that of a mark about those that updates have named,
and about a final status. -/
def Undisturbed (before : List SessionWrite) (write : SessionWrite) : Prop :=
  match write.cause with
  | .update updates => ∀ key, updates.lookup key = none → write.Agrees key
  | .mark => (∀ key, ∀ earlier ∈ before, ¬earlier.Leaves key → write.Agrees key) ∧
      (FinalStatus write.found → write.Agrees "status")

/-! ## What a run writes -/

/-- Every writing finds what the one before it has left. -/
structure SoundSession (s : SessionState) : Prop where
  chained : ∀ before write next after, s.trace = before ++ write :: next :: after → next.found = write.written
  stored : ∀ before write, s.trace = before ++ [write] → s.stored = some write.written

section Runs

variable {s : SessionState} {α : Type}

/-- **What a writing leaves.** -/
theorem soundSession_write (hs : SoundSession s) (cause : WriteCause) (view : SessionView) :
    SoundSession ((fun s : SessionState =>
      let write : SessionWrite := ⟨cause, view.position, view.base, view.derived, s.current host⟩
      { s with stored := some write.written, trace := s.trace ++ [write] }) s) := by
  constructor
  · intro before write next after heq
    rcases List.eq_nil_or_concat after with rfl | ⟨after, last, rfl⟩
    · have happend : before ++ write :: [next] = (before ++ [write]) ++ [next] := by simp
      obtain ⟨htrace, hlast⟩ := List.append_inj' (heq.trans happend) rfl
      obtain rfl := List.singleton_inj.1 hlast
      show s.current host = write.written
      rw [SessionState.current, hs.stored before write htrace]
      rfl
    · have happend : before ++ write :: next :: after.concat last = (before ++ write :: next :: after) ++ [last] := by
        simp
      obtain ⟨htrace, -⟩ := List.append_inj' (heq.trans happend) rfl
      exact hs.chained before write next after htrace
  · intro before write heq
    obtain ⟨-, hlast⟩ := List.append_inj' heq rfl
    obtain rfl := List.singleton_inj.1 hlast
    rfl

/-- The others do as they like. -/
abbrev SessionRuns (p : SessionScript α) (s : SessionState) : Prop :=
  p.Safe SoundSession (fun _ _ => True) (fun _ _ => True) (fun _ _ => True) s

theorem sessionRuns_bind {β : Type} {p : SessionScript α} {f : α → SessionScript β} (hp : SessionRuns p s)
    (hf : ∀ a s', SessionRuns (f a) s') : SessionRuns (p >>= f) s :=
  safe_bind.2 (hp.imp fun r s' _ => by cases r with
    | ok a => exact hf a s'
    | error e => trivial)

theorem sessionRuns_map {β : Type} {p : SessionScript α} (f : α → β) (hp : SessionRuns p s) :
    SessionRuns (f <$> p) s := sessionRuns_bind hp fun _ _ => trivial

theorem sessionRuns_ask (question : World → α) : SessionRuns (ask question) s :=
  safe_look (fun _ => trivial) fun _ _ _ => trivial

theorem sessionRuns_writeSession (cause : WriteCause) (view : SessionView) :
    SessionRuns (writeSession host cause view) s :=
  safe_perform.2 fun _ hs _ => ⟨soundSession_write hs cause view, trivial, trivial⟩

theorem sessionRuns_readFile (file : SessionState → Option JsonRecord) : SessionRuns (readFile file) s :=
  safe_look (fun _ => trivial) fun _ _ _ => trivial

theorem sessionRuns_attachModelRuns (view : SessionView) : SessionRuns (attachModelRuns view) s :=
  sessionRuns_bind (sessionRuns_ask _) fun _ _ => trivial

theorem sessionRuns_askWhere {β : Type} (value : Option α) (question : α → World → β) :
    SessionRuns (askWhere value question) s := by
  cases value with
  | none => trivial
  | some a => exact sessionRuns_bind (sessionRuns_ask _) fun _ _ => trivial

theorem sessionRuns_probeRuntime (runtime : BrowserRuntime) : SessionRuns (probeRuntime runtime) s := by
  unfold probeRuntime
  split
  · exact sessionRuns_bind (sessionRuns_ask _) fun _ _ => trivial
  · exact sessionRuns_bind (sessionRuns_askWhere _ _) fun _ _ =>
      sessionRuns_bind (sessionRuns_askWhere _ _) fun _ _ => trivial

theorem sessionRuns_markFields (message : String) (more : Updates) : SessionRuns (markFields host message more) s :=
  sessionRuns_bind (sessionRuns_ask _) fun _ _ => trivial

theorem sessionRuns_applyMark (persist : Bool) (view : SessionView) (fields : Updates) :
    SessionRuns (applyMark host persist view fields) s := by
  unfold applyMark
  dsimp only
  split
  · exact sessionRuns_bind (sessionRuns_writeSession _ _) fun _ _ => trivial
  · trivial

theorem sessionRuns_markDeadBrowser (persist : Bool) (view : SessionView) :
    SessionRuns (markDeadBrowser host persist view) s := by
  unfold markDeadBrowser
  split
  · trivial
  split
  · trivial
  refine sessionRuns_bind (sessionRuns_probeRuntime _) fun answer s₁ => ?_
  dsimp only
  split
  all_goals
    split
    · exact sessionRuns_bind (sessionRuns_markFields _ _) fun _ _ => sessionRuns_applyMark _ _ _
    · trivial

theorem sessionRuns_browserAlive (view : SessionView) : SessionRuns (browserAlive view) s := by
  unfold browserAlive
  split
  · trivial
  · exact sessionRuns_bind (sessionRuns_probeRuntime _) fun _ _ => trivial

theorem sessionRuns_markZombie (persist : Bool) (view : SessionView) :
    SessionRuns (markZombie host persist view) s := by
  refine sessionRuns_bind (sessionRuns_ask _) fun now s₁ => ?_
  split
  · refine sessionRuns_bind (sessionRuns_browserAlive view) fun alive s₂ => ?_
    split
    · trivial
    · exact sessionRuns_bind (sessionRuns_markFields _ _) fun _ _ => sessionRuns_applyMark _ _ _
  · trivial

theorem sessionRuns_deriveSession (view : SessionView) : SessionRuns (deriveSession host view) s :=
  sessionRuns_bind (sessionRuns_attachModelRuns _) fun _ _ =>
    sessionRuns_bind (sessionRuns_markDeadBrowser _ _) fun _ _ => sessionRuns_markZombie _ _

theorem sessionRuns_readModernSessionMetadata : SessionRuns (readModernSessionMetadata host) s := by
  refine sessionRuns_bind (sessionRuns_readFile _) fun found s₁ => ?_
  split
  · trivial
  · exact sessionRuns_map _ (sessionRuns_deriveSession _)

theorem sessionRuns_readLegacySessionMetadata : SessionRuns (readLegacySessionMetadata host) s := by
  refine sessionRuns_bind (sessionRuns_readFile _) fun found s₁ => ?_
  split
  · trivial
  · exact sessionRuns_map _ (sessionRuns_deriveSession _)

theorem sessionRuns_readSessionMetadata : SessionRuns (readSessionMetadata host) s := by
  refine sessionRuns_bind sessionRuns_readModernSessionMetadata fun modern s₁ => ?_
  split
  · trivial
  · exact sessionRuns_readLegacySessionMetadata

theorem sessionRuns_updateSessionMetadata (updates : Updates) : SessionRuns (updateSessionMetadata host updates) s := by
  refine sessionRuns_bind sessionRuns_readSessionMetadata fun existing s₁ => ?_
  split
  · exact sessionRuns_writeSession _ _
  · exact sessionRuns_bind (safe_look (fun _ => trivial) fun _ _ _ => trivial) fun _ _ => sessionRuns_writeSession _ _

theorem sessionRuns_listSessionsMetadata : SessionRuns (listSessionsMetadata host) s := by
  refine sessionRuns_bind sessionRuns_readSessionMetadata fun listed s₁ => ?_
  split
  · trivial
  · exact sessionRuns_bind (sessionRuns_markDeadBrowser _ _) fun _ _ => sessionRuns_map _ (sessionRuns_markZombie _ _)

theorem sessions_compatible : Threads.Compatible (fun s : SessionState => s.trace = []) (fun _ => sessionCall host)
    (fun s world => some { s with world }) SoundSession (fun _ _ _ => True) (fun _ _ _ => True) (fun _ _ _ _ => True) where
  refl _ _ := trivial
  trans _ _ := trivial
  init s hs := by
    constructor
    · intro before write next after heq
      rw [hs] at heq
      cases List.append_eq_nil_iff.1 heq.symm |>.2
    · intro before write heq
      rw [hs] at heq
      cases List.append_eq_nil_iff.1 heq.symm |>.2
  outside {s world s'} hs h := by
    cases h
    exact ⟨⟨hs.chained, hs.stored⟩, fun _ => trivial⟩
  others _ _ _ := trivial
  call _ input _ _ _ _ _ := by
    cases input with
    | update updates => exact sessionRuns_bind (sessionRuns_updateSessionMetadata updates) fun _ _ => trivial
    | read => exact sessionRuns_bind sessionRuns_readSessionMetadata fun _ _ => trivial
    | list => exact sessionRuns_bind sessionRuns_listSessionsMetadata fun _ _ => trivial

theorem soundSession_of_reachable {c : Threads SessionState Unit PUnit} (h : (sessionSystem host).Reachable c) :
    SoundSession c.state :=
  (Threads.safe_of_reachable sessions_compatible h).inv

end Runs

/-! ## Fields -/

section Fields

variable {s : SessionState} {write later : SessionWrite} {key : String} {value : Option Json}

theorem written_get : write.written.get key = assigned write.view.record write.updates key := lookup_assign _ _ _

theorem SessionWrite.Sets.written (h : write.Sets key value) : write.written.get key = value := by
  rw [written_get, assigned, h, Option.getD_some]

theorem SessionWrite.Leaves.written (h : write.Leaves key) : write.written.get key = write.view.record.get key := by
  rw [written_get, assigned, h, Option.getD_none, JsonRecord.get]

theorem SessionWrite.updates_of_cause {updates : Updates} (h : write.cause = .update updates) :
    write.updates = updates := by
  rw [SessionWrite.updates, h]

theorem SessionWrite.leaves_of_mark (h : write.cause = .mark) (key : String) : write.Leaves key := by
  rw [SessionWrite.Leaves, SessionWrite.updates, h]
  rfl

theorem last_naming {before : List SessionWrite} (h : ∃ earlier ∈ before, ¬earlier.Leaves key) :
    ∃ first write between value, before = first ++ write :: between ∧ write.Sets key value ∧
      ∀ other ∈ between, other.Leaves key := by
  induction before using List.reverseRecOn with
  | nil =>
    obtain ⟨earlier, hmem, -⟩ := h
    cases hmem
  | append_singleton before last ih =>
    by_cases hlast : last.Leaves key
    · obtain ⟨earlier, hmem, hnames⟩ := h
      have hbefore : earlier ∈ before := by
        rcases List.mem_append.1 hmem with hmem | hmem
        · exact hmem
        · exact absurd hlast (List.mem_singleton.1 hmem ▸ hnames)
      obtain ⟨first, write, between, value, rfl, hsets, hleft⟩ := ih ⟨earlier, hbefore, hnames⟩
      refine ⟨first, write, between ++ [last], value, by simp, hsets, fun other hother => ?_⟩
      rcases List.mem_append.1 hother with hother | hother
      · exact hleft other hother
      · exact List.mem_singleton.1 hother ▸ hlast
    · obtain ⟨value, hvalue⟩ := Option.ne_none_iff_exists'.1 hlast
      exact ⟨before, last, [], value, rfl, hvalue, fun _ h => absurd h List.not_mem_nil⟩

/-- What is found after some writings is what the last one has left. -/
theorem SoundSession.found_of_kept (hs : SoundSession s) {first between after : List SessionWrite}
    (htrace : s.trace = first ++ write :: (between ++ later :: after)) (hsets : write.Sets key value)
    (hbetween : ∀ before last, between = before ++ [last] → last.written.get key = value) :
    later.found.get key = value := by
  rcases List.eq_nil_or_concat between with rfl | ⟨before, last, rfl⟩
  · rw [hs.chained first write later after htrace]
    exact hsets.written
  · have hsplit : s.trace = (first ++ write :: before) ++ last :: later :: after := by
      rw [htrace]
      simp
    rw [hs.chained _ last later after hsplit]
    exact hbetween before last (List.concat_eq_append ..)

end Fields

/-! ## The equivalence -/

section Equivalence

variable {s : SessionState}

theorem Lossless.undisturbed (hs : SoundSession s) (h : Lossless s.trace) : Lawful Undisturbed s.trace := by
  intro before write after heq
  cases hcause : write.cause with
  | update updates =>
    have hleaves : ∀ key, updates.lookup key = none → write.Leaves key := fun key hkey => by
      rw [SessionWrite.Leaves, SessionWrite.updates_of_cause hcause, hkey]
    rw [Undisturbed, hcause]
    intro key hkey
    have hexact := h.exact before write after heq updates hcause key
    rw [(hleaves key hkey).written, assigned, hkey, Option.getD_none] at hexact
    exact hexact
  | mark =>
    have hleaves := SessionWrite.leaves_of_mark hcause
    rw [Undisturbed, hcause]
    refine ⟨fun key earlier hearlier hnames => ?_, fun hfinal => ?_⟩
    · obtain ⟨first, named, between, value, rfl, hsets, hleft⟩ := last_naming ⟨earlier, hearlier, hnames⟩
      have htrace : s.trace = first ++ named :: (between ++ write :: after) := by rw [heq]; simp
      have hwritten := h.kept first named between write after htrace key value hsets hleft (hleaves key)
      rw [(hleaves key).written] at hwritten
      refine hwritten.trans (hs.found_of_kept htrace hsets fun rest last hbetween => ?_).symm
      subst hbetween
      refine h.kept first named rest last (write :: after) (by rw [htrace]; simp) key value hsets ?_ ?_
      · exact fun other hother => hleft other (List.mem_append_left _ hother)
      · exact hleft last (List.mem_append_right _ List.mem_cons_self)
    · have hmem : write ∈ s.trace := heq ▸ List.mem_append_right _ List.mem_cons_self
      have hstatus := h.final write hmem hcause hfinal
      rwa [(hleaves "status").written] at hstatus

/-- In an undisturbed run a writing that does not name a field leaves what it finds of it, once an update has named it. -/
theorem undisturbed_leaves {before after : List SessionWrite} {write : SessionWrite} {key : String}
    (h : Lawful Undisturbed s.trace) (heq : s.trace = before ++ write :: after)
    (hnamed : ∃ earlier ∈ before, ¬earlier.Leaves key) (hleaves : write.Leaves key) :
    write.written.get key = write.found.get key := by
  have hundisturbed := h before write after heq
  rw [hleaves.written]
  cases hcause : write.cause with
  | update updates =>
    rw [Undisturbed, hcause] at hundisturbed
    refine hundisturbed key ?_
    rwa [SessionWrite.Leaves, SessionWrite.updates_of_cause hcause] at hleaves
  | mark =>
    rw [Undisturbed, hcause] at hundisturbed
    obtain ⟨earlier, hearlier, hnames⟩ := hnamed
    exact hundisturbed.1 key earlier hearlier hnames

theorem lossless_of_undisturbed (hs : SoundSession s) (h : Lawful Undisturbed s.trace) : Lossless s.trace := by
  refine ⟨fun before write after heq updates hcause key => ?_, ?_, fun write hmem hcause hfinal => ?_⟩
  · have hundisturbed := h before write after heq
    rw [Undisturbed, hcause] at hundisturbed
    rw [written_get, SessionWrite.updates_of_cause hcause, assigned, assigned]
    cases hkey : updates.lookup key with
    | some value => rfl
    | none => exact hundisturbed key hkey
  · intro before write between
    -- what was written is there after each of the writings that follow
    induction between using List.reverseRecOn with
    | nil =>
      intro later after htrace key value hsets hleft hlater
      have hnamed : ¬write.Leaves key := fun hleaves => by rw [SessionWrite.Sets, hleaves] at hsets; cases hsets
      have hfound := hs.found_of_kept htrace hsets fun rest last hbetween => by simp at hbetween
      have hsplit : s.trace = (before ++ [write]) ++ later :: after := by rw [htrace]; simp
      rw [undisturbed_leaves h hsplit ⟨write, by simp, hnamed⟩ hlater, hfound]
    | append_singleton rest last ih =>
      intro later after htrace key value hsets hleft hlater
      have hnamed : ¬write.Leaves key := fun hleaves => by rw [SessionWrite.Sets, hleaves] at hsets; cases hsets
      have hlast : last.written.get key = value := by
        refine ih last (later :: after) (by rw [htrace]; simp) key value hsets ?_ ?_
        · exact fun other hother => hleft other (List.mem_append_left _ hother)
        · exact hleft last (List.mem_append_right _ List.mem_cons_self)
      have hfound := hs.found_of_kept htrace hsets fun rest' last' hbetween => by
        obtain ⟨-, hsame⟩ := List.append_inj' hbetween rfl
        obtain rfl := List.singleton_inj.1 hsame
        exact hlast
      have hsplit : s.trace = (before ++ write :: (rest ++ [last])) ++ later :: after := by rw [htrace]; simp
      rw [undisturbed_leaves h hsplit ⟨write, by simp, hnamed⟩ hlater, hfound]
  · obtain ⟨before, after, heq⟩ := List.append_of_mem hmem
    have hundisturbed := h before write after heq
    rw [Undisturbed, hcause] at hundisturbed
    rw [(SessionWrite.leaves_of_mark hcause "status").written]
    exact hundisturbed.2 hfinal

end Equivalence

/-! ## A session of two hours ago -/

def sampleSessionHost : SessionHost where
  sessionId := "session"
  parseDate text := if text = "2026-01-01T00:00:00.000Z" then some 1767225600000 else none
  isoString _ := "2026-01-01T02:00:00.000Z"

def sampleSession (status : String) : JsonRecord :=
  [("id", .string "session"), ("createdAt", .string "2026-01-01T00:00:00.000Z"), ("status", .string status),
    ("mode", .string "api")]

def elapsedUpdate : Updates := [("elapsedMs", some (.ofNat 7200000))]

/-- An update comes two hours after the session was created. -/
def updateLater (status : String) (actions : Nat) : Option (Threads SessionState Unit PUnit) :=
  TransitionSystem.execute (Threads.next (fun _ => sessionCall sampleSessionHost) fun s world => some { s with world })
    ⟨⟨some (sampleSession status), none, ⟨1767232800000, [], true, fun _ => false, fun _ => false, fun _ _ => false⟩, []⟩, []⟩
    (.start (.update elapsedUpdate) :: List.replicate actions (.act 0))

theorem updateLater_reachable {status : String} {actions : Nat} {c : Threads SessionState Unit PUnit}
    (h : updateLater status actions = some c) : (sessionSystem sampleSessionHost).Reachable c :=
  TransitionSystem.reachable_execute (.init ⟨rfl, rfl⟩) h

end AuraCall.Sessions
