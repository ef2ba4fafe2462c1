import AuraCall.AccountMirror.StoreReaders
import AuraCall.Lib.AssocRecord
import AuraCall.Lib.EventTrace
import AuraCall.Lib.Interleaving

/-!
# The metadata of a session

`sessionManager.ts`: the record of a session in its file. A reading derives more than it finds: the model runs come from
files of their own, a running browser session whose Chrome is gone is marked as an error, and so is a session that has
been running for too long. An update merges its fields into such a reading, and writes all of it. A listing reads in the
same way, derives once more, and writes what it marks then.

The processes, the clock and the other files are the `World`, which changes at any time. Every writing is in the trace,
with what its writer had read and derived.
-/

namespace AuraCall.Sessions

open Script AssocRecord

/-! ## Records -/

/-- `isSessionMetadataRecord`. -/
def isSessionMetadataRecord (record : JsonRecord) : Bool :=
  (record.string? "id").isSome && match record.get "status" with
    | some (.string status) => status != ""
    | some (.bool value) => value
    | some (.number value) => value != .finite 0 && value != .nan
    | some (.array _) | some (.object _) => true
    | some .null | none => false

/-- Fields that are named, with their new values; `none` takes a field away. -/
abbrev Updates := List (String × Option Json)

/-- What a browser session runs in, as far as it is known. -/
structure BrowserRuntime where
  chromePid : Option JsNumber
  userDataDir : Option String
  chromePort : Option JsNumber
  chromeHost : Option String

/-- A number that is neither zero nor `NaN`. -/
def truthyNumber (value : Option Json) : Option JsNumber :=
  (value.bind (·.number?)).filter fun number => number != .finite 0 && number != .nan

def browserRuntime (record : JsonRecord) : Option BrowserRuntime := do
  let browser ← record.record? "browser"
  let runtime ← browser.record? "runtime"
  pure
    { chromePid := truthyNumber (runtime.get "chromePid")
      userDataDir := (runtime.string? "userDataDir").filter (· != "")
      chromePort := truthyNumber (runtime.get "chromePort")
      chromeHost := runtime.string? "chromeHost" }

def BrowserRuntime.host (runtime : BrowserRuntime) : String := runtime.chromeHost.getD "127.0.0.1"

/-! ## The world -/

/-- Whether a Chrome runs with these data. -/
structure ChromeProbe where
  pid : JsNumber
  userDataDir : String
  port : Option JsNumber
  host : String

structure World where
  now : Int
  /-- what the files of the model runs hold -/
  modelRuns : List Json
  /-- a file can be read now -/
  readable : Bool
  chromeAlive : ChromeProbe → Bool
  processAlive : JsNumber → Bool
  portOpen : String → JsNumber → Bool

/-- The host: dates, and the id of the session. -/
structure SessionHost where
  sessionId : String
  parseDate : String → Option Int
  isoString : Int → String

/-! ## The state -/

inductive WriteCause
  | update (updates : Updates)
  | mark

/-- A writing: how many there were when its writer has read the record, the record it started from, and the fields it has
derived since, the newest first. -/
structure SessionWrite where
  cause : WriteCause
  position : Nat
  base : JsonRecord
  derived : Updates
  /-- the record that was there -/
  found : JsonRecord

structure SessionState where
  stored : Option JsonRecord
  legacy : Option JsonRecord
  world : World
  trace : List SessionWrite

abbrev SessionScript := Script SessionState Unit

/-- A reading: what was read, when, and what was derived. -/
structure SessionView where
  position : Nat
  base : JsonRecord
  derived : Updates

def SessionView.record (view : SessionView) : JsonRecord := assign view.base view.derived

def SessionView.derive (view : SessionView) (fields : Updates) : SessionView :=
  { view with derived := fields ++ view.derived }

def SessionWrite.view (write : SessionWrite) : SessionView := ⟨write.position, write.base, write.derived⟩

/-- The fields that a writing names. -/
def SessionWrite.updates (write : SessionWrite) : Updates :=
  match write.cause with
  | .update updates => updates
  | .mark => []

/-- The record that was written. -/
def SessionWrite.written (write : SessionWrite) : JsonRecord := assign write.view.record write.updates

section Scripts

variable (host : SessionHost)

/-- `{ id: sessionId }`. -/
def SessionHost.emptyRecord : JsonRecord := [("id", .string host.sessionId)]

/-- What is stored: the file of the session, or else the legacy file. -/
def SessionState.current (s : SessionState) : JsonRecord := (s.stored.or s.legacy).getD host.emptyRecord

/-- What the world answers. -/
def ask {α : Type} (question : World → α) : SessionScript α := look fun s => .ok (question s.world)

def writeSession (cause : WriteCause) (view : SessionView) : SessionScript JsonRecord :=
  perform fun s =>
    let write : SessionWrite := ⟨cause, view.position, view.base, view.derived, s.current host⟩
    (.ok write.written, { s with stored := some write.written, trace := s.trace ++ [write] })

/-! ## What a reading derives -/

/-- `attachModelRuns`. -/
def attachModelRuns (view : SessionView) : SessionScript SessionView := do
  let runs ← ask (·.modelRuns)
  pure (if runs.isEmpty then view else view.derive [("models", some (.array runs))])

/-- Whether the browser is there: the answer for its Chrome, or those for its process and its port. -/
inductive RuntimeSignals
  | chrome (alive : Bool)
  | signals (alive : List Bool)

def askWhere {α β : Type} (value : Option α) (question : α → World → β) : SessionScript (List β) :=
  match value with
  | none => pure []
  | some a => do
    let answer ← ask (question a)
    pure [answer]

def probeRuntime (runtime : BrowserRuntime) : SessionScript RuntimeSignals :=
  match runtime.chromePid, runtime.userDataDir with
  | some pid, some userDataDir => do
    let alive ← ask fun world => world.chromeAlive ⟨pid, userDataDir, runtime.chromePort, runtime.host⟩
    pure (.chrome alive)
  | chromePid, _ => do
    let process ← askWhere chromePid fun pid world => world.processAlive pid
    let port ← askWhere runtime.chromePort fun port world => world.portOpen runtime.host port
    pure (.signals (process ++ port))

/-- The fields of a mark, at the present time. -/
def markFields (errorMessage : String) (more : Updates) : SessionScript Updates := do
  let now ← ask (·.now)
  pure ([("status", some (.string "error")), ("errorMessage", some (.string errorMessage)),
    ("completedAt", some (.string (host.isoString now)))] ++ more)

/-- A mark that is persisted is written at once. -/
def applyMark (persist : Bool) (view : SessionView) (fields : Updates) : SessionScript SessionView := do
  let updated := view.derive fields
  if persist then do
    let _ ← writeSession host .mark updated
    pure updated
  else pure updated

/-- The response of a session whose Chrome is gone. -/
def disconnectedResponse (record : JsonRecord) : Json :=
  let response := (record.record? "response").getD []
  .object (assign response [("status", some (.string "error")),
    ("incompleteReason", some (match response.get "incompleteReason" with
      | none | some .null => .string "chrome-disconnected"
      | some reason => reason))])

def markDeadBrowser (persist : Bool) (view : SessionView) : SessionScript SessionView :=
  if view.record.string? "status" ≠ some "running" ∨ view.record.string? "mode" ≠ some "browser" then pure view
  else
    match browserRuntime view.record with
    | none => pure view
    | some runtime => do
      let answer ← probeRuntime runtime
      let dead := match answer with
        | .chrome alive => !alive
        | .signals alive => !alive.isEmpty && !alive.any id
      if dead then do
        let fields ← markFields host "Browser session ended (Chrome is no longer reachable)"
          [("response", some (disconnectedResponse view.record))]
        applyMark host persist view fields
      else pure view

def ZOMBIE_MAX_AGE_MS : Int := 60 * 60 * 1000

def isZombie (record : JsonRecord) (now : Int) : Bool :=
  record.string? "status" == some "running" &&
    match ((record.string? "startedAt").or (record.string? "createdAt")).bind host.parseDate with
    | some startedMs => decide (ZOMBIE_MAX_AGE_MS < now - startedMs)
    | none => false

/-- Whether the browser of a browser session is there. -/
def browserAlive (view : SessionView) : SessionScript Bool :=
  match (browserRuntime view.record).filter fun _ => view.record.string? "mode" = some "browser" with
  | none => pure false
  | some runtime => do
    let answer ← probeRuntime runtime
    pure (match answer with
      | .chrome alive => alive
      | .signals alive => alive.any id)

def markZombie (persist : Bool) (view : SessionView) : SessionScript SessionView := do
  let now ← ask (·.now)
  if isZombie host view.record now then do
    let alive ← browserAlive view
    if alive then pure view
    else do
      let fields ← markFields host "Session marked as zombie (>60m stale)" []
      applyMark host persist view fields
  else pure view

def deriveSession (view : SessionView) : SessionScript SessionView := do
  let enriched ← attachModelRuns view
  let runtimeChecked ← markDeadBrowser host false enriched
  markZombie host false runtimeChecked

/-! ## The calls -/

/-- A file of the session; `none` when it cannot be read. -/
def readFile (file : SessionState → Option JsonRecord) : SessionScript (Option SessionView) :=
  look fun s => .ok (if s.world.readable then (file s).map fun record => ⟨s.trace.length, record, []⟩ else none)

def readModernSessionMetadata : SessionScript (Option SessionView) := do
  let found ← readFile fun s => s.stored.filter isSessionMetadataRecord
  match found with
  | none => pure none
  | some view => some <$> deriveSession host view

def readLegacySessionMetadata : SessionScript (Option SessionView) := do
  let found ← readFile (·.legacy)
  match found with
  | none => pure none
  | some view => some <$> deriveSession host view

def readSessionMetadata : SessionScript (Option SessionView) := do
  let modern ← readModernSessionMetadata host
  match modern with
  | some view => pure (some view)
  | none => readLegacySessionMetadata host

def updateSessionMetadata (updates : Updates) : SessionScript JsonRecord := do
  let existing ← readSessionMetadata host
  match existing with
  | some view => writeSession host (.update updates) view
  | none => do
    let position ← look fun s => .ok s.trace.length
    writeSession host (.update updates) ⟨position, host.emptyRecord, []⟩

/-- The part of a listing that is about this session. -/
def listSessionsMetadata : SessionScript (Option SessionView) := do
  let listed ← readSessionMetadata host
  match listed with
  | none => pure none
  | some view => do
    let runtimeChecked ← markDeadBrowser host true view
    some <$> markZombie host true runtimeChecked

inductive SessionCall
  | update (updates : Updates)
  | read
  | list

def sessionCall : SessionCall → SessionScript PUnit
  | .update updates => do
    let _ ← updateSessionMetadata host updates
  | .read => do
    let _ ← readSessionMetadata host
  | .list => do
    let _ ← listSessionsMetadata host

/-- All interleavings of any number of calls; the world changes as it likes. -/
def sessionSystem : TransitionSystem (Threads SessionState Unit PUnit) (Threads.Event SessionCall World) :=
  Threads.system (fun s => s.trace = []) (fun _ => sessionCall host) fun s world => some { s with world }

end Scripts

end AuraCall.Sessions
