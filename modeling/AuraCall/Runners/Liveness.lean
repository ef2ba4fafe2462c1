import AuraCall.Runners.Control

/-!
# Live runners

A run in which no heartbeat that is still good falls between a listing and the expiry, or the deletion, it leads to
keeps its live runners, and only such a run does (`live_runners_stay_live`). `expireRunners` reads the record again
before it marks it, so that the compare-and-swap does not see a heartbeat from before that reading, and
`compactStaleRunners` deletes what its listing has found stale (`revived_runner_marked_stale`).
-/

namespace AuraCall.Runners

open AuraCall.Runtime (notAfter)
open Script EventTrace

/-! ## What a trace says of a runner -/

/-- The last event of a runner. -/
def lastEvent (id : String) (trace : List RunnerEvent) : Option RunnerEvent :=
  (history RunnerEvent.runnerId id trace).getLast?

/-- The expiry of a heartbeat. -/
def RunnerEvent.expiry : RunnerEvent → Option String
  | heartbeat _ expiresAt => some expiresAt
  | _ => none

/-- The expiry of the latest heartbeat of a runner. -/
def latestHeartbeat (id : String) (trace : List RunnerEvent) : Option String :=
  ((history RunnerEvent.runnerId id trace).filterMap (·.expiry)).getLast?

/-- The expiry comes at `now` or before. -/
def Expired (expiresAt now : String) : Prop := laterThan expiresAt now = false

instance (expiresAt now : String) : Decidable (Expired expiresAt now) := inferInstanceAs (Decidable (_ = false))

/-- **Live runners stay live**: only expired runners are marked stale, no runner is deleted while its heartbeat has made
it active, and a runner has the expiry of each heartbeat until a later one or an expiry in time. -/
structure Live (s : RunnerState) : Prop where
  marks : ∀ before id now listed after, s.trace = before ++ .stale id now listed :: after →
    ∀ expiresAt, latestHeartbeat id before = some expiresAt → Expired expiresAt now
  deletions : ∀ before id listed after, s.trace = before ++ .deleted id listed :: after →
    ∀ expiresAt, lastEvent id before ≠ some (.heartbeat id expiresAt)
  kept : ∀ before id expiresAt after, s.trace = before ++ .heartbeat id expiresAt :: after →
    (∃ later, .heartbeat id later ∈ after) ∨ (∃ now listed, .stale id now listed ∈ after ∧ Expired expiresAt now) ∨
      ∃ record, s.records.get? id = some record ∧ record.runner.status = .active ∧ record.runner.expiresAt = expiresAt

/-- No heartbeat since the listing stands against the expiry or deletion. -/
def Timely (before : List RunnerEvent) : RunnerEvent → Prop
  | .heartbeat _ _ => True
  | .stale id now listed => ∀ expiresAt, latestHeartbeat id (before.drop listed) = some expiresAt → Expired expiresAt now
  | .deleted id listed => ∀ expiresAt, lastEvent id (before.drop listed) ≠ some (.heartbeat id expiresAt)

/-- What a listing has seen of a runner that it leads to expire or to delete. -/
def Seen (before : List RunnerEvent) : RunnerEvent → Prop
  | .heartbeat _ _ => True
  | .stale id now listed =>
    ∀ event, lastEvent id (before.take listed) = some event → ∃ expiresAt, event.expiry = some expiresAt ∧ Expired expiresAt now
  | .deleted id listed => ∀ expiresAt, lastEvent id (before.take listed) ≠ some (.heartbeat id expiresAt)

section Traces

variable {id : String} {trace events : List RunnerEvent} {event : RunnerEvent}

theorem lastEvent_push (h : event.runnerId = id) : lastEvent id (trace ++ [event]) = some event := by
  simp [lastEvent, history, List.filter_append, h]

theorem lastEvent_push_ne (h : event.runnerId ≠ id) : lastEvent id (trace ++ [event]) = lastEvent id trace := by
  simp [lastEvent, history, List.filter_append, h]

/-- The last event comes from the second part of a trace, if that has one. -/
theorem lastEvent_append : lastEvent id (trace ++ events) = (lastEvent id events).or (lastEvent id trace) := by
  rw [lastEvent, history_append, List.getLast?_append, lastEvent, lastEvent]

theorem latestHeartbeat_append :
    latestHeartbeat id (trace ++ events) = (latestHeartbeat id events).or (latestHeartbeat id trace) := by
  rw [latestHeartbeat, history_append, List.filterMap_append, List.getLast?_append, latestHeartbeat, latestHeartbeat]

theorem latestHeartbeat_of_lastEvent {expiresAt : String} (h : lastEvent id trace = some event)
    (he : event.expiry = some expiresAt) : latestHeartbeat id trace = some expiresAt := by
  obtain ⟨before, hbefore⟩ := List.getLast?_eq_some_iff.1 h
  rw [latestHeartbeat, hbefore, List.filterMap_append]
  simp [he]

theorem lastEvent_eq_none (h : lastEvent id trace = none) : latestHeartbeat id trace = none := by
  rw [lastEvent, List.getLast?_eq_none_iff] at h
  rw [latestHeartbeat, h]
  rfl

theorem first_event (h : lastEvent id trace ≠ none) :
    ∃ before event after, trace = before ++ event :: after ∧ event.runnerId = id ∧ lastEvent id before = none := by
  induction trace with
  | nil => exact absurd rfl h
  | cons head rest ih =>
    by_cases hhead : head.runnerId = id
    · exact ⟨[], head, rest, rfl, hhead, rfl⟩
    · have hskip : ∀ events, lastEvent id (head :: events) = lastEvent id events := fun events => by
        simp [lastEvent, history, hhead]
      rw [hskip] at h
      obtain ⟨before, event, after, rfl, hevent, hbefore⟩ := ih h
      exact ⟨head :: before, event, after, rfl, hevent, by rw [hskip, hbefore]⟩

end Traces

/-! ## What a trace says of the records -/

/-- The record of a runner is as its last event has left it. -/
def Agrees : RunnerEvent → Option ExecutionRunnerRecord → Prop
  | .heartbeat _ expiresAt, found => ∃ runner, found = some runner ∧ runner.status = .active ∧ runner.expiresAt = expiresAt
  | .stale _ _ _, found => ∃ runner, found = some runner ∧ runner.status = .stale
  | .deleted _ _, found => found = none

/-- The runner with this id. -/
def RunnerState.runner (s : RunnerState) (id : String) : Option ExecutionRunnerRecord := (s.records.get? id).map (·.runner)

/-- The records agree with the trace, and each expiry and deletion with its listing. -/
structure Sound (s : RunnerState) : Prop where
  agrees : ∀ id event, lastEvent id s.trace = some event → Agrees event (s.runner id)
  seen : Lawful Seen s.trace

/-- The record was there; what is there now is the same or of a later revision. -/
def Known (record : ExecutionRunnerStoredRecord) (s : RunnerState) : Prop :=
  ∀ current, s.records.get? record.runnerId = some current → current = record ∨ record.revision < current.revision

/-- The trace goes on, and revisions do not come back. -/
structure Moves (s s' : RunnerState) : Prop where
  history : s.trace <+: s'.trace
  known : ∀ record, Known record s → Known record s'

theorem Moves.refl (s : RunnerState) : Moves s s := ⟨List.prefix_refl _, fun _ h => h⟩

theorem Moves.trans {s s' s'' : RunnerState} (h : Moves s s') (h' : Moves s' s'') : Moves s s'' :=
  ⟨h.history.trans h'.history, fun record hk => h'.known record (h.known record hk)⟩

/-- The runner was like this when the trace was so long. -/
def Saw (reading : Reading ExecutionRunnerRecord) (s : RunnerState) : Prop :=
  reading.position ≤ s.trace.length ∧
    ∀ event, lastEvent reading.value.id (s.trace.take reading.position) = some event → Agrees event (some reading.value)

/-- A script on the records, among others. -/
abbrev Runs {α : Type} (Q : Except RunnerError α → RunnerState → Prop) (p : RunnerScript α) (s : RunnerState) : Prop :=
  p.Safe Sound (fun s s' => Moves s s') (fun s s' => Moves s s') Q s

section Steps

variable {id : String} {s s' : RunnerState} {record : ExecutionRunnerStoredRecord}
  {reading : Reading ExecutionRunnerRecord}

theorem Saw.moves (h : Saw reading s) (hm : Moves s s') : Saw reading s' := by
  obtain ⟨new, hnew⟩ := hm.history
  refine ⟨h.1.trans hm.history.length_le, ?_⟩
  rw [← hnew, List.take_append_of_le_length h.1]
  exact h.2

theorem known_here (h : s.records.get? id = some record) : Known record s := by
  intro current hcurrent
  have hid : record.runnerId = id := (KeyedMap.get?_eq_some.1 h).2
  rw [hid, h] at hcurrent
  exact .inl (Option.some.inj hcurrent).symm

/-- The runner of a record that is there has been seen. -/
theorem saw_here (hs : Sound s) (h : s.records.get? id = some record) : Saw ⟨record.runner, s.trace.length⟩ s := by
  have hid : record.runner.id = id := (KeyedMap.get?_eq_some.1 h).2
  refine ⟨Nat.le_refl _, fun event hevent => ?_⟩
  rw [List.take_length] at hevent
  have hagrees := hs.agrees _ event hevent
  rwa [hid, RunnerState.runner, h] at hagrees

/-- A record is replaced by one of the next revision. -/
theorem known_set {next known : ExecutionRunnerStoredRecord} (hnext : next.runnerId = record.runnerId)
    (hrevision : next.revision = record.revision + 1) (hcurrent : s.records.get? record.runnerId = some record)
    (h : Known known s) : ∀ current, (s.records.set next).get? known.runnerId = some current →
      current = known ∨ known.revision < current.revision := by
  intro current hget
  by_cases hid : known.runnerId = next.runnerId
  · rw [hid, KeyedMap.get?_set_self] at hget
    cases hget
    rcases h record (by rw [hid, hnext, hcurrent]) with rfl | hlt
    · exact .inr (by omega)
    · exact .inr (by omega)
  · rw [KeyedMap.get?_set_of_ne hid] at hget
    exact h current hget

/-- A write by one who knows the record it replaces. -/
inductive Fits (trace : List RunnerEvent) (record : ExecutionRunnerStoredRecord) (runner : ExecutionRunnerRecord) :
    List RunnerEvent → Prop
  | silent : runner.status = record.runner.status → runner.expiresAt = record.runner.expiresAt →
      Fits trace record runner []
  | event {event : RunnerEvent} : event.runnerId = record.runnerId → Agrees event (some runner) → Seen trace event →
      Fits trace record runner [event]

theorem Agrees.same {event : RunnerEvent} {runner runner' : ExecutionRunnerRecord} (h : Agrees event (some runner))
    (hstatus : runner'.status = runner.status) (hexpiresAt : runner'.expiresAt = runner.expiresAt) :
    Agrees event (some runner') := by
  cases event with
  | heartbeat _ expiresAt =>
    obtain ⟨_, heq, hactive, hat⟩ := h
    cases heq
    exact ⟨runner', rfl, hstatus.trans hactive, hexpiresAt.trans hat⟩
  | stale _ _ _ =>
    obtain ⟨_, heq, hstale⟩ := h
    cases heq
    exact ⟨runner', rfl, hstatus.trans hstale⟩
  | deleted _ _ => cases h

/-- **What a write leaves.** -/
theorem sound_set {next : ExecutionRunnerStoredRecord} {events : List RunnerEvent} (hs : Sound s)
    (hnext : next.runnerId = record.runnerId) (hcurrent : s.records.get? record.runnerId = some record)
    (hfits : Fits s.trace record next.runner events) : Sound ⟨s.records.set next, s.trace ++ events⟩ := by
  have hrunner : ∀ id, RunnerState.runner ⟨s.records.set next, s.trace ++ events⟩ id =
      if id = next.runnerId then some next.runner else s.runner id := by
    intro id
    by_cases hid : id = next.runnerId
    · rw [if_pos hid, hid, RunnerState.runner, KeyedMap.get?_set_self, Option.map_some]
    · rw [if_neg hid, RunnerState.runner, RunnerState.runner, KeyedMap.get?_set_of_ne hid]
  have hfound : s.runner next.runnerId = some record.runner := by rw [RunnerState.runner, hnext, hcurrent, Option.map_some]
  cases hfits with
  | silent hstatus hexpiresAt =>
    refine ⟨fun id event hevent => ?_, by rw [List.append_nil]; exact hs.seen⟩
    rw [List.append_nil] at hevent
    have hagrees := hs.agrees id event hevent
    rw [hrunner]
    by_cases hid : id = next.runnerId
    · rw [hid, hfound] at hagrees
      rw [if_pos hid]
      exact hagrees.same hstatus hexpiresAt
    · rw [if_neg hid]
      exact hagrees
  | @event event hid hagrees hseen =>
    refine ⟨fun id event' hevent => ?_, hs.seen.push hseen⟩
    rw [hrunner]
    by_cases heq : event.runnerId = id
    · rw [lastEvent_push heq] at hevent
      cases hevent
      rw [if_pos (by rw [hnext, ← hid, heq])]
      exact hagrees
    · rw [lastEvent_push_ne heq] at hevent
      rw [if_neg fun h => heq (by rw [hid, ← hnext, h])]
      exact hs.agrees id event' hevent

theorem runs_writeRunner {runner : ExecutionRunnerRecord} {persistedAt : Option String} {events : List RunnerEvent}
    (hknown : Known record s) (hid : runner.id = record.runnerId)
    (hfits : ∀ s', Moves s s' → Fits s'.trace record runner events) :
    Runs (fun _ s' => Moves s s') (writeRunner runner record.revision persistedAt events) s := by
  intro s₁ hsound hmoves
  dsimp only
  split
  case isTrue => exact ⟨hsound, .refl s₁, hmoves⟩
  case isFalse hrevision =>
    have hcurrent : s₁.records.get? record.runnerId = some record := by
      rw [hid, ne_eq, Decidable.not_not] at hrevision
      cases hget : s₁.records.get? record.runnerId with
      | none =>
        rw [hget] at hrevision
        exact absurd record.positive (by rw [← hrevision]; exact Nat.lt_irrefl 0)
      | some current =>
        rw [hget] at hrevision
        rcases hmoves.known record hknown current hget with rfl | hlt
        · rfl
        · exact absurd hrevision (Nat.ne_of_gt hlt)
    have hnext : (((s₁.records.get? runner.id).map (·.revision)).getD 0) = record.revision := by
      rw [hid, hcurrent]
      rfl
    have hmoves' : Moves s₁ ⟨s₁.records.set ⟨((s₁.records.get? runner.id).map (·.revision)).getD 0 + 1,
        persistedAt.getD runner.lastHeartbeatAt, runner, Nat.succ_pos _⟩, s₁.trace ++ events⟩ :=
      ⟨List.prefix_append _ _, fun known hk => known_set hid (congrArg (· + 1) hnext) hcurrent hk⟩
    exact ⟨sound_set hsound hid hcurrent (hfits s₁ hmoves), hmoves', hmoves.trans hmoves'⟩

/-! ## Scripts -/

/-- What a reading of a record tells. -/
def ReadsRecord (reading : Reading (Option ExecutionRunnerStoredRecord)) (s : RunnerState) : Prop :=
  ∀ record, reading.value = some record → Known record s ∧ Saw ⟨record.runner, reading.position⟩ s

theorem runs_readRecord : Runs (Answers ReadsRecord) (readRecord id) s :=
  safe_look .refl fun _ hs _ _ hrecord => ⟨known_here hrecord, saw_here hs hrecord⟩

/-- What was seen stays seen while a script runs. -/
theorem Runs.keep {α : Type} {Q : α → RunnerState → Prop} {p : RunnerScript α} {P : RunnerState → Prop}
    (hP : ∀ {s s' : RunnerState}, Moves s s' → P s → P s') (h : Runs (Answers Q) p s) (hs : P s) :
    Runs (Answers fun a s' => Q a s' ∧ P s') p s :=
  (Safe.frame h hs (fun hm => hP hm) fun hm => hP hm).imp fun r s' hr => by
    cases r with
    | ok a => exact hr
    | error _ => trivial

/-- What a required record tells. -/
def FoundRecord (runnerId : String) (record : ExecutionRunnerStoredRecord) (s : RunnerState) : Prop :=
  record.runnerId = runnerId ∧ Known record s

theorem runs_requireStoredRunnerRecord : Runs (Answers (FoundRecord id)) (requireStoredRunnerRecord id) s := by
  have hread : Runs (Answers fun reading s => ∀ record, reading.value = some record → FoundRecord id record s)
      (readRecord id) s :=
    safe_look .refl fun _ _ _ _ hrecord => ⟨(KeyedMap.get?_eq_some.1 hrecord).2, known_here hrecord⟩
  refine safe_answers hread fun reading s₁ hr => ?_
  split
  case h_1 record hrecord => exact hr record hrecord
  case h_2 => trivial

theorem runs_updateAttempts {update : ExecutionRunnerRecord → ExecutionRunnerRecord} {persistedAt : Option String}
    {events : List RunnerEvent} (hid : ∀ runner, (update runner).id = runner.id)
    (hfits : ∀ record : ExecutionRunnerStoredRecord, record.runnerId = id →
      ∀ trace, Fits trace record (update record.runner) events) :
    ∀ (attempts : Nat) (last : RunnerError) (s : RunnerState),
      Runs (Answers fun _ _ => True) (updateAttempts id update persistedAt events attempts last) s := by
  intro attempts
  induction attempts with
  | zero => exact fun _ _ => trivial
  | succ attempts ih =>
    refine fun last s => safe_answers runs_requireStoredRunnerRecord fun record s₁ ⟨hrecord, hknown⟩ => ?_
    have hwrite : ∀ s₂, Moves s₁ s₂ → Fits s₂.trace record (update record.runner) events :=
      fun s₂ _ => hfits record hrecord s₂.trace
    refine safe_orElse.2 ((runs_writeRunner hknown (hid record.runner) hwrite).imp fun r s₂ _ => ?_)
    cases r with
    | ok _ => trivial
    | error error =>
      dsimp only
      split
      · exact ih error s₂
      · trivial

theorem runs_heartbeatRunner (input : HeartbeatExecutionRunnerInput) :
    Runs (Answers fun _ _ => True) (heartbeatRunner input) s := by
  have hid : ∀ runner, (input.update runner).id = runner.id := fun _ => rfl
  have hfits : ∀ record : ExecutionRunnerStoredRecord, record.runnerId = input.runnerId → ∀ trace,
      Fits trace record (input.update record.runner) [.heartbeat input.runnerId input.expiresAt] := by
    intro record hrecord trace
    have howner : RunnerEvent.runnerId (.heartbeat input.runnerId input.expiresAt) = record.runnerId := hrecord.symm
    exact .event howner ⟨_, rfl, rfl, rfl⟩ trivial
  exact runs_updateAttempts hid hfits RUNNER_UPDATE_MAX_ATTEMPTS (.mismatchAfterRetry input.runnerId) s

theorem runs_recordRunnerActivity (input : RecordExecutionRunnerActivityInput) :
    Runs (Answers fun _ _ => True) (recordRunnerActivity input) s := by
  have hid : ∀ runner, (input.update runner).id = runner.id := fun _ => rfl
  have hfits : ∀ record : ExecutionRunnerStoredRecord, record.runnerId = input.runnerId → ∀ trace,
      Fits trace record (input.update record.runner) [] := fun _ _ _ => .silent rfl rfl
  exact runs_updateAttempts hid hfits RUNNER_UPDATE_MAX_ATTEMPTS (.mismatchAfterRetry input.runnerId) s

theorem runs_markRunnerStale {input : MarkExecutionRunnerStaleInput} {listed : Nat}
    {P : RunnerState → Prop} (hP : ∀ {s s' : RunnerState}, Moves s s' → P s → P s') (h : P s)
    (hseen : ∀ s', P s' → Seen s'.trace (.stale input.runnerId input.staleAt listed)) :
    Runs (Answers fun _ s' => P s') (markRunnerStale input listed) s := by
  refine safe_answers (Runs.keep hP runs_requireStoredRunnerRecord h) fun record s₁ ⟨⟨hrecord, hknown⟩, hp⟩ => ?_
  have hfits : ∀ s₂, Moves s₁ s₂ →
      Fits s₂.trace record (input.update record.runner) [.stale input.runnerId input.staleAt listed] := by
    intro s₂ hs₂
    have howner : RunnerEvent.runnerId (.stale input.runnerId input.staleAt listed) = record.runnerId := hrecord.symm
    exact .event howner ⟨_, rfl, rfl⟩ (hseen s₂ (hP hs₂ hp))
  have hid : (input.update record.runner).id = record.runnerId := rfl
  refine (runs_writeRunner hknown hid hfits).imp fun r s₂ hs => ?_
  cases r with
  | ok _ => exact hP hs hp
  | error _ => trivial

/-- All the records of a listing have been seen. -/
def SawAll (listing : List (Reading ExecutionRunnerRecord)) (s : RunnerState) : Prop := ∀ reading ∈ listing, Saw reading s

theorem SawAll.moves {listing : List (Reading ExecutionRunnerRecord)} (h : SawAll listing s) (hm : Moves s s') :
    SawAll listing s' := fun reading hreading => (h reading hreading).moves hm

/-- The runner of a record that was read. -/
def runnerOf (reading : Reading ExecutionRunnerStoredRecord) : Reading ExecutionRunnerRecord :=
  ⟨reading.value.runner, reading.position⟩

/-- What the readings of some records tell. -/
def ReadsAll (readings : List (String × Reading (Option ExecutionRunnerStoredRecord))) (s : RunnerState) : Prop :=
  ∀ reading ∈ readings, ∀ record, reading.2.value = some record → Saw ⟨record.runner, reading.2.position⟩ s

theorem ReadsAll.moves {readings : List (String × Reading (Option ExecutionRunnerStoredRecord))}
    (h : ReadsAll readings s) (hm : Moves s s') : ReadsAll readings s' :=
  fun reading hreading record hrecord => (h reading hreading record hrecord).moves hm

theorem runs_readRecords : ∀ (ids : List String) (s : RunnerState), Runs (Answers ReadsAll) (readRecords ids) s
  | [], _ => fun reading hreading => by cases hreading
  | id :: ids, s => by
    refine safe_answers runs_readRecord fun reading s₁ hr => ?_
    have hread : ReadsAll [(id, reading)] s₁ := fun other hother record hrecord => by
      cases List.mem_singleton.1 hother
      exact (hr record hrecord).2
    refine safe_answers (Runs.keep (fun hm h => ReadsAll.moves h hm) (runs_readRecords ids s₁) hread)
      fun readings s₂ ⟨hall, hone⟩ other hother record hrecord => ?_
    rcases List.mem_cons.1 hother with rfl | hother
    · exact hone _ List.mem_cons_self record hrecord
    · exact hall other hother record hrecord

theorem sawAll_pickRecords {ids : List String} {readings : List (String × Reading (Option ExecutionRunnerStoredRecord))}
    (h : ReadsAll readings s) : SawAll ((pickRecords ids readings).map runnerOf) s := by
  intro reading hreading
  obtain ⟨stored, hstored, rfl⟩ := List.mem_map.1 hreading
  obtain ⟨id, -, hpick⟩ := List.mem_filterMap.1 hstored
  obtain ⟨found, hlookup, hvalue⟩ := Option.bind_eq_some_iff.1 hpick
  obtain ⟨record, hrecord, rfl⟩ := Option.map_eq_some_iff.1 hvalue
  obtain ⟨before, after, heq, -⟩ := List.lookup_eq_some_iff.1 hlookup
  exact h (id, found) (heq ▸ List.mem_append_right _ List.mem_cons_self) record hrecord

variable {host : RunnerHost}

theorem runs_readAll (ids : List String) :
    Runs (Answers fun records => SawAll (records.map runnerOf)) (readAll host ids) s :=
  safe_answers (runs_readRecords (host.readOrder ids) s) fun _ _ hr => sawAll_pickRecords hr

/-- The listed runners have been seen, and the options admit them. -/
def Lists (options : ListExecutionRunnerRecordOptions) (listing : List (Reading ExecutionRunnerRecord))
    (s : RunnerState) : Prop :=
  SawAll listing s ∧ ∀ reading ∈ listing, options.admits reading.value = true

theorem Lists.subset {options : ListExecutionRunnerRecordOptions} {listing listing' : List (Reading ExecutionRunnerRecord)}
    (h : Lists options listing s) (hsub : ∀ reading ∈ listing', reading ∈ listing) : Lists options listing' s :=
  ⟨fun reading hreading => h.1 reading (hsub reading hreading), fun reading hreading => h.2 reading (hsub reading hreading)⟩

theorem runs_listStoredRunners (options : ListExecutionRunnerRecordOptions) :
    Runs (Answers (Lists options)) (listStoredRunners host options) s := by
  have hentries : Runs (Answers fun _ _ => True)
      (look fun s => .ok (s.records.values.map (·.runnerId)) : RunnerScript (List String)) s :=
    safe_look .refl fun _ _ _ => trivial
  refine safe_answers hentries fun entries s₁ _ => safe_answers (runs_readAll entries) fun records s₂ hr => ?_
  have hfiltered : Lists options ((records.map runnerOf).filter fun runner => options.admits runner.value) s₂ :=
    ⟨fun reading hreading => hr reading (List.mem_filter.1 hreading).1, fun reading hreading => (List.mem_filter.1 hreading).2⟩
  refine hfiltered.subset fun reading hreading => ?_
  split at hreading
  · split at hreading
    · exact (List.perm_insertionSort _ _).mem_iff.1 (List.mem_of_mem_take hreading)
    · exact (List.perm_insertionSort _ _).mem_iff.1 hreading
  · exact (List.perm_insertionSort _ _).mem_iff.1 hreading

theorem runs_listRunners (options : ListExecutionRunnerRecordOptions) :
    Runs (Answers fun records => SawAll (records.map runnerOf)) (listRunners host options) s :=
  safe_answers (runs_listStoredRunners options) fun _ _ _ => runs_readAll _

theorem seen_stale {now : String} (h : Saw reading s) (hactive : reading.value.status = .active)
    (hexpired : Expired reading.value.expiresAt now) : Seen s.trace (.stale reading.value.id now reading.position) := by
  intro event hevent
  have hagrees := h.2 event hevent
  cases event with
  | heartbeat _ expiresAt =>
    obtain ⟨runner, heq, -, rfl⟩ := hagrees
    cases heq
    exact ⟨_, rfl, hexpired⟩
  | stale _ _ _ =>
    obtain ⟨runner, heq, hstale⟩ := hagrees
    cases heq
    rw [hactive] at hstale
    cases hstale
  | deleted _ _ => cases hagrees

theorem seen_deleted (h : Saw reading s) (hstale : reading.value.status = .stale) :
    Seen s.trace (.deleted reading.value.id reading.position) := by
  intro expiresAt hevent
  obtain ⟨runner, heq, hactive, -⟩ := h.2 _ hevent
  cases heq
  rw [hstale] at hactive
  cases hactive

theorem runs_expireListed {input : ExpireExecutionRunnersInput} :
    ∀ (listing : List (Reading ExecutionRunnerStoredRecord)) (s : RunnerState), SawAll (listing.map runnerOf) s →
      Runs (Answers fun _ _ => True) (expireListed input listing) s
  | [], _, _ => trivial
  | listed :: rest, s, h => by
    have hrest : ∀ {s}, SawAll ((listed :: rest).map runnerOf) s → SawAll (rest.map runnerOf) s :=
      fun h reading hreading => h reading (List.mem_cons_of_mem _ hreading)
    rw [expireListed]
    split
    · exact runs_expireListed rest s (hrest h)
    case isFalse hexpires =>
      simp only [ne_eq, Bool.or_eq_true, not_or, decide_eq_true_eq, Decidable.not_not, Bool.not_eq_true] at hexpires
      refine safe_answers (runs_markRunnerStale (fun hm h => SawAll.moves h hm) h fun s' h' => ?_) fun updated s₁ h₁ => ?_
      · exact seen_stale (h' (runnerOf listed) List.mem_cons_self) hexpires.1 hexpires.2
      · exact safe_answers (runs_expireListed rest s₁ (hrest h₁)) fun _ _ _ => trivial

theorem runs_expireRunners (input : ExpireExecutionRunnersInput) :
    Runs (Answers fun _ _ => True) (expireRunners host input) s :=
  safe_answers (runs_listRunners {}) fun records s₁ hr =>
    safe_answers (runs_expireListed records s₁ hr) fun _ _ _ => trivial

/-- **What a deletion leaves.** -/
theorem sound_delete {listed : Nat} (hs : Sound s) (hseen : Seen s.trace (.deleted id listed)) :
    Sound ⟨s.records.delete id, s.trace ++ [.deleted id listed]⟩ := by
  refine ⟨fun other event hevent => ?_, hs.seen.push hseen⟩
  by_cases hid : RunnerEvent.runnerId (.deleted id listed) = other
  · rw [lastEvent_push hid] at hevent
    cases hevent
    show Option.map _ ((s.records.delete id).get? other) = none
    rw [← hid]
    exact congrArg _ (KeyedMap.get?_delete_self _ _)
  · rw [lastEvent_push_ne hid] at hevent
    have hagrees := hs.agrees other event hevent
    rw [RunnerState.runner] at hagrees ⊢
    have hother : (s.records.delete id).get? other = s.records.get? other := KeyedMap.get?_delete_of_ne (Ne.symm hid)
    rwa [hother]

theorem moves_delete {listed : Nat} : Moves s ⟨s.records.delete id, s.trace ++ [.deleted id listed]⟩ := by
  refine ⟨List.prefix_append _ _, fun record hk current hget => hk current ?_⟩
  obtain ⟨hmem, hkey⟩ := KeyedMap.get?_eq_some.1 hget
  rw [← hkey]
  exact KeyedMap.get?_self (KeyedMap.mem_delete.1 hmem).1

theorem runs_deleteListed : ∀ (listing : List (Reading ExecutionRunnerRecord)) (s : RunnerState),
    Lists { status := some .stale } listing s → Runs (Answers fun _ _ => True) (deleteListed listing) s
  | [], _, _ => trivial
  | listed :: rest, s, h => by
    have hstale : listed.value.status = .stale := by
      have hadmits := h.2 listed List.mem_cons_self
      simp only [ListExecutionRunnerRecordOptions.admits, Option.all_some, Option.all_none, Bool.and_true,
        beq_iff_eq] at hadmits
      exact hadmits.symm
    intro s₁ hs₁ hm
    have hlists : Lists { status := some .stale } (listed :: rest) s₁ := ⟨h.1.moves hm, h.2⟩
    dsimp only
    split
    · have hmoves : Moves s₁ ⟨s₁.records.delete listed.value.id,
          s₁.trace ++ [.deleted listed.value.id listed.position]⟩ := moves_delete
      refine ⟨sound_delete hs₁ (seen_deleted (hlists.1 listed List.mem_cons_self) hstale), hmoves, ?_⟩
      exact runs_deleteListed rest _ (Lists.subset ⟨hlists.1.moves hmoves, h.2⟩ fun _ => List.mem_cons_of_mem _)
    · exact ⟨hs₁, .refl s₁, runs_deleteListed rest s₁ (hlists.subset fun _ => List.mem_cons_of_mem _)⟩

theorem runs_compactStaleRunners (input : CompactStaleExecutionRunnersInput) :
    Runs (Answers fun _ _ => True) (compactStaleRunners host input) s :=
  safe_answers (runs_listStoredRunners _) fun listing s₁ hr =>
    safe_answers (runs_deleteListed (listing.drop (input.kept listing.length)) s₁
      (hr.subset fun _ => List.mem_of_mem_drop)) fun _ _ _ => trivial

/-- **Every call.** -/
theorem runs_runnerCall (input : RunnerCall) : Runs (Answers fun _ _ => True) (runnerCall host input) s := by
  cases input with
  | heartbeat input => exact safe_answers (runs_heartbeatRunner input) fun _ _ _ => trivial
  | activity input => exact safe_answers (runs_recordRunnerActivity input) fun _ _ _ => trivial
  | expire input => exact safe_answers (runs_expireRunners input) fun _ _ _ => trivial
  | compact input => exact safe_answers (runs_compactStaleRunners input) fun _ _ _ => trivial

end Steps

/-! ## Runs -/

section Runs

variable {host : RunnerHost} {s : RunnerState} {c : Threads RunnerState RunnerError PUnit}

theorem runners_compatible : Threads.Compatible (fun s : RunnerState => s.trace = []) (fun _ => runnerCall host)
    (fun _ (event : Empty) => event.elim) Sound (fun _ => Moves) (fun _ => Moves) (fun _ _ => Answers fun _ _ => True) where
  refl _ s := .refl s
  trans h h' := h.trans h'
  init s hs := by
    refine ⟨fun id event hevent => ?_, hs ▸ lawful_nil⟩
    rw [hs] at hevent
    cases hevent
  outside {_ event _} _ _ := event.elim
  others _ _ h := h
  call _ input _ _ _ _ _ := runs_runnerCall input

theorem sound_of_reachable (h : (runnerSystem host).Reachable c) : Sound c.state :=
  (Threads.safe_of_reachable runners_compatible h).inv

/-- What was listed and what has happened since, together. -/
theorem split_at (before : List RunnerEvent) (listed : Nat) : before.take listed ++ before.drop listed = before :=
  List.take_append_drop listed before

theorem Sound.live (hs : Sound s) (h : Lawful (fun before event => Timely before event) s.trace) : Live s := by
  have hmarks : ∀ before id now listed after, s.trace = before ++ .stale id now listed :: after →
      ∀ expiresAt, latestHeartbeat id before = some expiresAt → Expired expiresAt now := by
    intro before id now listed after heq expiresAt hlatest
    rw [← split_at before listed, latestHeartbeat_append, Option.or_eq_some_iff] at hlatest
    rcases hlatest with hlatest | ⟨-, hlatest⟩
    · exact h before _ after heq expiresAt hlatest
    · cases hlast : lastEvent id (before.take listed) with
      | none =>
        rw [lastEvent_eq_none hlast] at hlatest
        cases hlatest
      | some event =>
        obtain ⟨expiresAt', hexpiry, hexpired⟩ := hs.seen before _ after heq event hlast
        rw [latestHeartbeat_of_lastEvent hlast hexpiry] at hlatest
        cases hlatest
        exact hexpired
  have hdeletions : ∀ before id listed after, s.trace = before ++ .deleted id listed :: after →
      ∀ expiresAt, lastEvent id before ≠ some (.heartbeat id expiresAt) := by
    intro before id listed after heq expiresAt hlast
    rw [← split_at before listed, lastEvent_append, Option.or_eq_some_iff] at hlast
    rcases hlast with hlast | ⟨-, hlast⟩
    · exact h before _ after heq expiresAt hlast
    · exact hs.seen before _ after heq expiresAt hlast
  refine ⟨hmarks, hdeletions, fun before id expiresAt after heq => ?_⟩
  have hheartbeat : ∀ rest, lastEvent id rest = none →
      lastEvent id (before ++ .heartbeat id expiresAt :: rest) = some (.heartbeat id expiresAt) := by
    intro rest hrest
    rw [← List.singleton_append, ← List.append_assoc, lastEvent_append, hrest, Option.none_or]
    exact lastEvent_push rfl
  by_cases hafter : lastEvent id after = none
  · -- nothing has happened to the runner since
    have hagrees := hs.agrees id _ (heq ▸ hheartbeat after hafter)
    obtain ⟨runner, hrunner, hactive, hat⟩ := hagrees
    obtain ⟨record, hrecord, rfl⟩ := Option.map_eq_some_iff.1 hrunner
    exact .inr (.inr ⟨record, hrecord, hactive, hat⟩)
  · obtain ⟨first, event, rest, rfl, hid, hfirst⟩ := first_event hafter
    rw [← List.cons_append, ← List.append_assoc] at heq
    have hlast := hheartbeat first hfirst
    cases event with
    | heartbeat id' later =>
      cases hid
      exact .inl ⟨later, List.mem_append_right _ List.mem_cons_self⟩
    | stale id' now listed =>
      cases hid
      have hlatest := latestHeartbeat_of_lastEvent hlast rfl
      exact .inr (.inl ⟨now, listed, List.mem_append_right _ List.mem_cons_self, hmarks _ _ now listed rest heq _ hlatest⟩)
    | deleted id' listed =>
      cases hid
      exact absurd hlast (hdeletions _ _ listed rest heq expiresAt)

theorem Live.timely (h : Live s) : Lawful (fun before event => Timely before event) s.trace := by
  intro before event after heq
  cases event with
  | heartbeat id expiresAt => trivial
  | stale id now listed =>
    intro expiresAt hlatest
    refine h.marks before id now listed after heq expiresAt ?_
    rw [← split_at before listed, latestHeartbeat_append, hlatest, Option.some_or]
  | deleted id listed =>
    intro expiresAt hlast
    refine h.deletions before id listed after heq expiresAt ?_
    rw [← split_at before listed, lastEvent_append, hlast, Option.some_or]

/-- **Live runners stay live** in a run exactly when no heartbeat that is still good comes between a listing and what it
leads to. -/
theorem live_runners_stay_live (h : (runnerSystem host).Reachable c) : Live c.state ↔ Lawful Timely c.state.trace :=
  ⟨Live.timely, (sound_of_reachable h).live⟩

end Runs

/-! ## A heartbeat between a listing and its mark -/

def plainRunnerHost : RunnerHost := ⟨id, fun ids => List.Perm.refl ids, fun left right => if notAfter left right then .lt else .gt⟩

/-- A runner of this host at the start of a minute, until the end of the next. -/
def sampleRunner (status : ExecutionRunnerStatus) : ExecutionRunnerRecord :=
  { id := "runner", hostId := "host", status, startedAt := "2026-01-01T00:00:00.000Z"
    lastHeartbeatAt := "2026-01-01T00:00:00.000Z", expiresAt := "2026-01-01T00:01:00.000Z", lastActivityAt := none
    lastClaimedRunId := none, serviceIds := [], runtimeProfileIds := [], browserProfileIds := []
    serviceAccountIds := [], browserCapable := false, eligibilityNote := none }

def sampleRecords (status : ExecutionRunnerStatus) : KeyedMap ExecutionRunnerStoredRecord.runnerId :=
  .ofList _ [⟨1, "2026-01-01T00:00:00.000Z", sampleRunner status, Nat.one_pos⟩]

def sampleHeartbeat : HeartbeatExecutionRunnerInput :=
  ⟨"runner", "2026-01-01T00:01:30.000Z", "2026-01-01T00:02:30.000Z", none, none, none, none, none, none⟩

/-- A pass lists the runner, a heartbeat comes through, and the pass goes on. -/
def heartbeatWithin (status : ExecutionRunnerStatus) (pass : RunnerCall) (listing rest : Nat) :
    Option (Threads RunnerState RunnerError PUnit) :=
  TransitionSystem.execute (Threads.next (fun _ => runnerCall plainRunnerHost) fun _ (event : Empty) => event.elim)
    ⟨⟨sampleRecords status, []⟩, []⟩
    ([.start pass] ++ List.replicate listing (.act 0) ++ [.start (.heartbeat sampleHeartbeat), .act 1, .act 1] ++
      List.replicate rest (.act 0))

theorem heartbeatWithin_reachable {status : ExecutionRunnerStatus} {pass : RunnerCall} {listing rest : Nat}
    {c : Threads RunnerState RunnerError PUnit} (h : heartbeatWithin status pass listing rest = some c) :
    (runnerSystem plainRunnerHost).Reachable c :=
  TransitionSystem.reachable_execute (.init ⟨rfl, rfl⟩) h

/-- A heartbeat has come before the listing, and the runner has expired since. -/
theorem expired_runner_stopped : ∃ c, (runnerSystem plainRunnerHost).Reachable c ∧
    c.state.trace = [.heartbeat "runner" "2026-01-01T00:02:30.000Z", .stale "runner" "2026-01-01T00:02:30.000Z" 1] ∧
    Live c.state := by
  have hrun : (heartbeatWithin .active (.expire ⟨"2026-01-01T00:02:30.000Z", none⟩) 0 5).map (·.state.trace) =
      some [.heartbeat "runner" "2026-01-01T00:02:30.000Z", .stale "runner" "2026-01-01T00:02:30.000Z" 1] := by
    decide +kernel
  obtain ⟨c, hc, htrace⟩ := Option.map_eq_some_iff.1 hrun
  refine ⟨c, heartbeatWithin_reachable hc, htrace, (live_runners_stay_live (heartbeatWithin_reachable hc)).2 ?_⟩
  rw [htrace]
  have hheartbeat : Lawful Timely [.heartbeat "runner" "2026-01-01T00:02:30.000Z"] := lawful_nil.push trivial
  refine hheartbeat.push fun expiresAt hlatest => ?_
  cases hlatest

/-- **A runner that was listed as expired is marked stale although its heartbeat has come.** -/
theorem revived_runner_marked_stale :
    ¬ ∀ (host : RunnerHost) (c : Threads RunnerState RunnerError PUnit), (runnerSystem host).Reachable c → Live c.state := by
  intro h
  have hrun : (heartbeatWithin .active (.expire ⟨"2026-01-01T00:01:30.000Z", none⟩) 3 2).map (·.state.trace) =
      some [.heartbeat "runner" "2026-01-01T00:02:30.000Z", .stale "runner" "2026-01-01T00:01:30.000Z" 0] := by
    decide +kernel
  obtain ⟨c, hc, htrace⟩ := Option.map_eq_some_iff.1 hrun
  have hexpired := (h _ c (heartbeatWithin_reachable hc)).marks [.heartbeat "runner" "2026-01-01T00:02:30.000Z"] "runner"
    "2026-01-01T00:01:30.000Z" 0 [] htrace "2026-01-01T00:02:30.000Z" (by decide +kernel)
  exact absurd hexpired (by decide +kernel)

/-- A runner that was listed as stale is deleted although its heartbeat has made it active. -/
theorem revived_runner_deleted : ∃ c, (runnerSystem plainRunnerHost).Reachable c ∧
    c.state.trace = [.heartbeat "runner" "2026-01-01T00:02:30.000Z", .deleted "runner" 0] := by
  have hrun : (heartbeatWithin .stale (.compact ⟨.finite 0⟩) 2 1).map (·.state.trace) =
      some [.heartbeat "runner" "2026-01-01T00:02:30.000Z", .deleted "runner" 0] := by
    decide +kernel
  obtain ⟨c, hc, htrace⟩ := Option.map_eq_some_iff.1 hrun
  exact ⟨c, heartbeatWithin_reachable hc, htrace⟩

end AuraCall.Runners
