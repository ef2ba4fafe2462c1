import AuraCall.Lib.KeyedMap
import AuraCall.Runtime.TenantScope
import Mathlib.Data.Finset.Card

/-!
# The tenant execution limit gate

`createTenantExecutionLimitGate`: a call of the gate reads the clock, awaits a listing of the runs, and then decides
without another `await`. It prunes the reservations of the tenant against its own listing, weighs the chats that are
left against the limits, and on success reserves a place for its run.

The gate is a transition system: any number of calls are under way, each listing reads the run directory, then the time
of every entry, then the records, and between any two reads the runtime may write any record.
-/

namespace AuraCall.Runtime

/-! ## Reservations -/

structure TenantExecutionReservation where
  runId : String
  reservedAtMs : Int
  deriving DecidableEq

/-- A `Map` of reservations by their runs. -/
abbrev TenantReservations := KeyedMap TenantExecutionReservation.runId

def tenantReservationTtlMs : Int := 60000

def hourMs : Int := 60 * 60000

def dayMs : Int := 24 * hourMs

/-- What the gate is created with, and what the host gives it. -/
structure TenantGateDeps where
  config : JsonRecord
  table : CaseTable
  dates : Dates

/-- The run a record is stored under. -/
def runIdOf (record : ExecutionRunStoredRecord) : String := record.value.run.id

def isTerminalRun (record : ExecutionRunStoredRecord) : Bool := record.value.run.status.isTerminal

def recordHasActiveLease (record : ExecutionRunStoredRecord) : Bool :=
  record.value.leases.any (·.status == .active)

/-- What `countActiveTenantChats` asks of a record: a run of the tenant that is executed under a lease. -/
def isActiveTenantChat (deps : TenantGateDeps) (tenantKey : String) (record : ExecutionRunStoredRecord) : Bool :=
  ! isTerminalRun record && recordHasActiveLease record &&
    recordMatchesTenantScope deps.table deps.config tenantKey record

/-- `nowMs - reservation.reservedAtMs > TENANT_RESERVATION_TTL_MS`. -/
def TenantExecutionReservation.isExpired (reservation : TenantExecutionReservation) (nowMs : Int) : Bool :=
  decide (nowMs - reservation.reservedAtMs > tenantReservationTtlMs)

/-- The `activeRunIds` of `countActiveTenantChats`. -/
def activeTenantChats (deps : TenantGateDeps) (records : List ExecutionRunStoredRecord)
    (reservations : TenantReservations) (tenantKey excludingRunId : String) (nowMs : Int) : Finset String :=
  ((records.filter fun record => runIdOf record != excludingRunId && isActiveTenantChat deps tenantKey record).map
      runIdOf ++
    (reservations.values.filter fun reservation =>
      reservation.runId != excludingRunId && ! reservation.isExpired nowMs).map (·.runId)).toFinset

/-- The `startedRunIds` and `startedChatKeys` of `countTenantStartedChats`. -/
structure StartedChats where
  runIds : List String := []
  chatKeys : List String := []

def StartedChats.add (started : StartedChats) (runId chatKey : String) : StartedChats :=
  if started.chatKeys.contains chatKey then started
  else { runIds := started.runIds ++ [runId], chatKeys := started.chatKeys ++ [chatKey] }

/-- `event.stepId ? stepsById.get(event.stepId) ?? null : selectExecutionScopeStep(record)`. -/
def eventScopeStep (record : ExecutionRunStoredRecord) (event : ExecutionRunEvent) : Option ExecutionRunStep :=
  match truthy event.stepId with
  | some stepId => record.value.steps.reverse.find? (·.id == stepId)
  | none => selectExecutionScopeStep record.value

def eventChatKey (record : ExecutionRunStoredRecord) (event : ExecutionRunEvent) : String :=
  match truthy event.stepId with
  | some stepId => runIdOf record ++ "\x00" ++ stepId
  | none => runIdOf record

/-- The event starts a chat of the tenant, and not before the cutoff. -/
def startsTenantChat (deps : TenantGateDeps) (tenantKey : String) (cutoffMs : Int) (record : ExecutionRunStoredRecord)
    (event : ExecutionRunEvent) : Bool :=
  event.type == .stepStarted && (deps.dates.parse event.createdAt).any (cutoffMs ≤ ·) &&
    (eventScopeStep record event).any (stepMatchesTenantScope deps.table deps.config tenantKey)

def startedTenantChats (deps : TenantGateDeps) (records : List ExecutionRunStoredRecord) (tenantKey : String)
    (cutoffMs : Int) : StartedChats :=
  records.foldl (fun started record =>
    record.value.events.foldl (fun started event =>
      if startsTenantChat deps tenantKey cutoffMs record event then
        started.add (runIdOf record) (eventChatKey record event)
      else started) started) {}

def countTenantStartedChats (deps : TenantGateDeps) (records : List ExecutionRunStoredRecord)
    (reservations : TenantReservations) (tenantKey : String) (cutoffMs : Int) : Nat :=
  let started := startedTenantChats deps records tenantKey cutoffMs
  started.chatKeys.length +
    (reservations.values.filter fun reservation =>
      decide (cutoffMs ≤ reservation.reservedAtMs) && ! started.runIds.contains reservation.runId).length

/-- The checks `pruneTenantReservations` makes before it keeps a reservation. -/
def keepsReservation (deps : TenantGateDeps) (records : List ExecutionRunStoredRecord) (tenantKey : String)
    (nowMs : Int) (reservation : TenantExecutionReservation) : Bool :=
  match (KeyedMap.ofList runIdOf records).get? reservation.runId with
  | none => false
  | some record =>
    ! isTerminalRun record && recordMatchesTenantScope deps.table deps.config tenantKey record &&
      ! (reservation.isExpired nowMs && ! recordHasActiveLease record && ! record.value.steps.any (·.status == .running))

def pruneTenantReservations (deps : TenantGateDeps) (records : List ExecutionRunStoredRecord)
    (reservations : TenantReservations) (tenantKey : String) (nowMs : Int) : TenantReservations :=
  reservations.filter (keepsReservation deps records tenantKey nowMs)

/-! ## The decision -/

inductive GateAnswer
  | allowed
  | refused (reason : String)
  deriving DecidableEq

/-- `if (limit !== null && count >= limit)`, with the reason of the refusal. -/
def refuseAtLimit (limit : Option Int) (count : Nat) (reason : Nat → Int → String) : Option String :=
  limit.bind fun max => if max ≤ count then some (reason count max) else none

/-- What the gate does once it has its listing: the reservations it leaves, and its answer. -/
def decideTenantGate (deps : TenantGateDeps) (scope : TenantExecutionScope) (runId : String) (nowMs : Int)
    (allRecords : List ExecutionRunStoredRecord) (stored : TenantReservations) : TenantReservations × GateAnswer :=
  let reservations := pruneTenantReservations deps allRecords stored scope.tenantKey nowMs
  let concurrency := refuseAtLimit scope.limits.maxConcurrentChats
    (activeTenantChats deps allRecords reservations scope.tenantKey runId nowMs).card
    fun activeCount max =>
      s!"chatgpt tenant {scope.tenantLabel} concurrency limit reached: {activeCount}/{max} active chats"
  let hourly := refuseAtLimit scope.limits.maxChatsPerHour
    (countTenantStartedChats deps allRecords reservations scope.tenantKey (nowMs - hourMs))
    fun hourlyCount max =>
      s!"chatgpt tenant {scope.tenantLabel} hourly chat rate limit reached: {hourlyCount}/{max} chats per hour"
  let daily := refuseAtLimit scope.limits.maxChatsPerDay
    (countTenantStartedChats deps allRecords reservations scope.tenantKey (nowMs - dayMs))
    fun dailyCount max =>
      s!"chatgpt tenant {scope.tenantLabel} daily chat rate limit reached: {dailyCount}/{max} chats per day"
  match concurrency <|> hourly <|> daily with
  | some reason => (reservations, .refused reason)
  | none => (reservations.set ⟨runId, nowMs⟩, .allowed)

/-- A decision refuses and leaves the pruned reservations, or it reserves a place below the concurrency limit. -/
theorem decideTenantGate_cases (deps : TenantGateDeps) (scope : TenantExecutionScope) (runId : String) (nowMs : Int)
    (allRecords : List ExecutionRunStoredRecord) (stored : TenantReservations) :
    (∃ reason, decideTenantGate deps scope runId nowMs allRecords stored =
      (pruneTenantReservations deps allRecords stored scope.tenantKey nowMs, .refused reason)) ∨
    (decideTenantGate deps scope runId nowMs allRecords stored =
        ((pruneTenantReservations deps allRecords stored scope.tenantKey nowMs).set ⟨runId, nowMs⟩, .allowed) ∧
      ∀ max, scope.limits.maxConcurrentChats = some max →
        ((activeTenantChats deps allRecords (pruneTenantReservations deps allRecords stored scope.tenantKey nowMs)
          scope.tenantKey runId nowMs).card : Int) < max) := by
  unfold decideTenantGate
  dsimp only
  split
  · exact .inl ⟨_, rfl⟩
  · rename_i hnone
    refine .inr ⟨rfl, fun max hmax => ?_⟩
    simp only [Option.orElse_eq_orElse, Option.orElse_eq_or, Option.or_eq_none_iff] at hnone
    simpa [refuseAtLimit, hmax] using hnone.1

theorem mem_activeTenantChats {deps : TenantGateDeps} {records : List ExecutionRunStoredRecord}
    {reservations : TenantReservations} {tenantKey excludingRunId runId : String} {nowMs : Int} :
    runId ∈ activeTenantChats deps records reservations tenantKey excludingRunId nowMs ↔
      runId ≠ excludingRunId ∧
        ((∃ record ∈ records, runIdOf record = runId ∧ isActiveTenantChat deps tenantKey record = true) ∨
          ∃ reservation ∈ reservations, reservation.runId = runId ∧ reservation.isExpired nowMs = false) := by
  simp only [activeTenantChats, List.mem_toFinset, List.mem_append, List.mem_map, List.mem_filter, Bool.and_eq_true,
    bne_iff_ne, Bool.not_eq_true', ← KeyedMap.mem_def]
  constructor
  · rintro (⟨record, ⟨hm, hne, hactive⟩, rfl⟩ | ⟨reservation, ⟨hm, hne, hexp⟩, rfl⟩)
    · exact ⟨hne, .inl ⟨record, hm, rfl, hactive⟩⟩
    · exact ⟨hne, .inr ⟨reservation, hm, rfl, hexp⟩⟩
  · rintro ⟨hne, ⟨record, hm, rfl, hactive⟩ | ⟨reservation, hm, rfl, hexp⟩⟩
    · exact .inl ⟨record, ⟨hm, hne, hactive⟩, rfl⟩
    · exact .inr ⟨reservation, ⟨hm, hne, hexp⟩, rfl⟩

/-! ## Listings -/

/-- A record as it is on disk, with the time of its file. -/
structure StoredRun where
  record : ExecutionRunStoredRecord
  mtimeMs : Int

def StoredRun.runId (run : StoredRun) : String := runIdOf run.record

/-- `listRuns({ updatedSince })` on its way: the entries whose times it has still to read, once it has read the
directory; the entries that are recent enough and whose records it has still to read; and the records it has read. -/
structure RunListing where
  entries : Option (List String) := none
  candidates : List String := []
  records : KeyedMap runIdOf := .empty

inductive ListingStep
  | readDirectory
  | stat (runId : String)
  | readRecord (runId : String)

/-- The next step of a listing: the record reads start when the times of all entries are known. -/
def RunListing.next (stored : KeyedMap StoredRun.runId) (cutoffMs : Int) (listing : RunListing) :
    ListingStep → Option RunListing
  | .readDirectory =>
    if listing.entries.isNone then some { listing with entries := some (stored.values.map (·.runId)) } else none
  | .stat runId =>
    listing.entries.bind fun entries =>
      if entries.contains runId then
        let recent := (stored.get? runId).any (cutoffMs ≤ ·.mtimeMs)
        some { listing with
          entries := some (entries.erase runId)
          candidates := if recent then listing.candidates ++ [runId] else listing.candidates }
      else none
  | .readRecord runId =>
    if listing.entries = some [] ∧ listing.candidates.contains runId then
      some { listing with
        candidates := listing.candidates.erase runId
        records := match stored.get? runId with
          | some run => listing.records.set run.record
          | none => listing.records }
    else none

def RunListing.isComplete (listing : RunListing) : Bool := listing.entries == some [] && listing.candidates.isEmpty

/-! ## The gate under way -/

/-- A call of the gate that awaits its listing. -/
structure GateCall where
  record : ExecutionRunStoredRecord
  scope : TenantExecutionScope
  nowMs : Int
  listing : RunListing := {}

def GateCall.runId (call : GateCall) : String := runIdOf call.record

def GateCall.records (call : GateCall) : List ExecutionRunStoredRecord := call.listing.records.values

/-- An answer `{ allowed: true }`. -/
structure TenantGrant where
  tenantKey : String
  runId : String
  reservedAtMs : Int

/-- `granted` has the grants whose run has not been terminal since. -/
structure GateState where
  clock : Int
  stored : KeyedMap StoredRun.runId
  reservationsByTenant : String → TenantReservations
  calls : Nat → Option GateCall
  granted : List TenantGrant

namespace GateState

/-- The run is stored as terminal. -/
def isTerminal (s : GateState) (runId : String) : Bool := (s.stored.get? runId).any (isTerminalRun ·.record)

/-- Forget the grants whose run is terminal. -/
def dropTerminal (s : GateState) : GateState :=
  { s with granted := s.granted.filter fun grant => ! s.isTerminal grant.runId }

def setCall (s : GateState) (id : Nat) (call : Option GateCall) : GateState :=
  { s with calls := Function.update s.calls id call }

/-- The reservations and the answer of the call. -/
def decision (deps : TenantGateDeps) (s : GateState) (call : GateCall) : TenantReservations × GateAnswer :=
  decideTenantGate deps call.scope call.runId call.nowMs call.records (s.reservationsByTenant call.scope.tenantKey)

/-- The call decides: it leaves its reservations, and a grant if it has one. -/
def decided (deps : TenantGateDeps) (s : GateState) (id : Nat) (call : GateCall) : GateState :=
  dropTerminal
    { s.setCall id none with
      reservationsByTenant :=
        Function.update s.reservationsByTenant call.scope.tenantKey (s.decision deps call).1
      granted :=
        if (s.decision deps call).2 = .allowed then
          s.granted ++ [⟨call.scope.tenantKey, call.runId, call.nowMs⟩]
        else s.granted }

end GateState

/-- The clock goes on, the runtime writes a record, or a call of the gate starts, lists, fails or decides. -/
inductive GateStep
  | tick (time : Int)
  | write (record : ExecutionRunStoredRecord)
  | call (id : Nat) (record : ExecutionRunStoredRecord)
  | list (id : Nat) (step : ListingStep)
  | fail (id : Nat)
  | decide (id : Nat)

def gateNext (deps : TenantGateDeps) (s : GateState) : GateStep → Option GateState
  | .tick time => if s.clock ≤ time then some { s with clock := time } else none
  | .write record => some (GateState.dropTerminal { s with stored := s.stored.set ⟨record, s.clock⟩ })
  | .call id record =>
    if (s.calls id).isSome then none
    else
      match resolveTenantExecutionScope deps.table deps.config record with
      | none => some s
      | some scope => some (s.setCall id (some { record, scope, nowMs := s.clock }))
  | .list id step =>
    (s.calls id).bind fun call =>
      (call.listing.next s.stored (call.nowMs - dayMs) step).map fun listing =>
        s.setCall id (some { call with listing })
  | .fail id => (s.calls id).map fun _ => s.setCall id none
  | .decide id => (s.calls id).bind fun call => if call.listing.isComplete then some (s.decided deps id call) else none

/-- What a step does. -/
inductive GateEffect (deps : TenantGateDeps) (s : GateState) : GateStep → GateState → Prop
  | tick {time : Int} (hle : s.clock ≤ time) : GateEffect deps s (.tick time) { s with clock := time }
  | write (record : ExecutionRunStoredRecord) :
      GateEffect deps s (.write record) (GateState.dropTerminal { s with stored := s.stored.set ⟨record, s.clock⟩ })
  | unlimited (id : Nat) (record : ExecutionRunStoredRecord) : GateEffect deps s (.call id record) s
  | called {id : Nat} {record : ExecutionRunStoredRecord} {scope : TenantExecutionScope}
      (hscope : resolveTenantExecutionScope deps.table deps.config record = some scope) :
      GateEffect deps s (.call id record) (s.setCall id (some { record, scope, nowMs := s.clock }))
  | listed {id : Nat} {step : ListingStep} {call : GateCall} {listing : RunListing} (hcall : s.calls id = some call)
      (hnext : call.listing.next s.stored (call.nowMs - dayMs) step = some listing) :
      GateEffect deps s (.list id step) (s.setCall id (some { call with listing }))
  | failed (id : Nat) : GateEffect deps s (.fail id) (s.setCall id none)
  | decided {id : Nat} {call : GateCall} (hcall : s.calls id = some call)
      (hcomplete : call.listing.isComplete = true) : GateEffect deps s (.decide id) (s.decided deps id call)

theorem gateNext_effect {deps : TenantGateDeps} {s s' : GateState} {step : GateStep}
    (h : gateNext deps s step = some s') : GateEffect deps s step s' := by
  cases step with
  | tick time =>
    simp only [gateNext, Option.ite_none_right_eq_some, Option.some.injEq] at h
    obtain ⟨hle, rfl⟩ := h
    exact .tick hle
  | write record =>
    cases h
    exact .write record
  | call id record =>
    simp only [gateNext, Option.ite_none_left_eq_some] at h
    obtain ⟨-, h⟩ := h
    split at h
    · cases h
      exact .unlimited id record
    · rename_i scope hscope
      cases h
      exact .called hscope
  | list id step =>
    simp only [gateNext, Option.bind_eq_some_iff, Option.map_eq_some_iff] at h
    obtain ⟨call, hcall, listing, hnext, rfl⟩ := h
    exact .listed hcall hnext
  | fail id =>
    simp only [gateNext, Option.map_eq_some_iff] at h
    obtain ⟨-, -, rfl⟩ := h
    exact .failed id
  | decide id =>
    simp only [gateNext, Option.bind_eq_some_iff, Option.ite_none_right_eq_some, Option.some.injEq] at h
    obtain ⟨call, hcall, hcomplete, rfl⟩ := h
    exact .decided hcall hcomplete

/-- A gate that has not been called yet. -/
def gateStart (clock : Int) (stored : KeyedMap StoredRun.runId) : GateState :=
  { clock, stored, reservationsByTenant := fun _ => .empty, calls := fun _ => none, granted := [] }

/-- The gate, from a clock and what the store holds when it is created. -/
def gateSystem (deps : TenantGateDeps) (clock : Int) (stored : KeyedMap StoredRun.runId) :
    TransitionSystem GateState GateStep :=
  .ofNext (· = gateStart clock stored) (gateNext deps)

end AuraCall.Runtime
