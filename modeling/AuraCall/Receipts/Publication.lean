import AuraCall.Lib.Interleaving
import AuraCall.Receipts.Receipt

/-!
# Publishing and reconciling receipts

`prepareTerminalSessionReceipt`, `publishTerminalSessionReceipt` and `reconcileTerminalSessionReceipts` as scripts of
single file system actions, so that any number of them can interleave and crash. Receipts and results are files that are
linked into place from temporary ones and never changed.

The file system may answer any action with an error (`ReceiptState.fault`), sessions may be changed by others at any
time, and the clock may show anything.
-/

namespace AuraCall.Receipts

open Script

/-! ## State -/

/-- A call, and which of its publications. -/
abbrev Publication := Nat × Nat

/-- A file that was linked into place. `creator` is the publication that linked it; it is `none` for a file that was
there before. -/
structure ImmutableFile where
  text : String
  creator : Option Publication
  deriving DecidableEq

inductive Disposition
  | emitted
  | deduplicated
  deriving DecidableEq

structure Emission where
  eventId : String
  sessionRef : String
  publishedAt : String
  disposition : Disposition
  deriving DecidableEq

/-- `TerminalReceiptReconciliationSummary`. -/
structure ReconciliationSummary where
  scanned : Nat
  emitted : Nat
  deduplicated : Nat
  skipped : Nat
  failed : Nat
  completedAt : String
  deriving DecidableEq

/-- `TerminalReceiptLedger`. -/
structure ReceiptLedger where
  lastSuccessfulEmission : Option Emission
  lastFailure : Option ReceiptFailure
  reconciliation : Option ReconciliationSummary
  deriving DecidableEq

structure ReceiptState where
  fault : Option String
  clock : String
  sessions : List SessionMetadata
  files : String → Option ImmutableFile
  ledger : ReceiptLedger

/-- The configuration, with the outcome of `resolveAndValidateRoot`. -/
structure ReceiptConfig where
  enabled : Bool
  rootFailure : Option String

/-- `TerminalReceiptOperationResult`. -/
inductive Operation (α : Type)
  | disabled
  | succeeded (value : α)
  | deduplicated (value : α)
  | failed (failure : ReceiptFailure)

def Operation.value? {α : Type} : Operation α → Option α
  | succeeded value | deduplicated value => some value
  | disabled | failed _ => none

abbrev ReceiptScript (α : Type) := Script ReceiptState ReceiptFault α

/-! ## Files -/

section Files

variable {α : Type}

/-- An action of the file system. -/
def io (action : ReceiptState → Except ReceiptFault α × ReceiptState) : ReceiptScript α :=
  perform fun s => match s.fault with
    | some code => (.error (.io code), s)
    | none => action s

def now : ReceiptScript String := look fun s => .ok s.clock

/-- `resolveRequiredRoot`. -/
def resolveRoot (config : ReceiptConfig) : ReceiptScript PUnit :=
  io fun s => (match config.rootFailure with
    | some code => .error (.invariant code)
    | none => .ok ⟨⟩, s)

def readExistingImmutableFile (locator : String) : ReceiptScript (Option String) :=
  io fun s => (.ok ((s.files locator).map (·.text)), s)

def readImmutablePrivateFile (locator : String) : ReceiptScript String := do
  match ← readExistingImmutableFile locator with
  | some text => pure text
  | none => throw (.io "ENOENT")

/-- `fs.link` of a temporary file; `false` is `EEXIST`. -/
def linkFile (publication : Publication) (locator text : String) : ReceiptScript Bool :=
  io fun s => match s.files locator with
    | some _ => (.ok false, s)
    | none =>
      (.ok true, { s with files := fun l => if l = locator then some ⟨text, some publication⟩ else s.files l })

def readLedger : ReceiptScript ReceiptLedger := io fun s => (.ok s.ledger, s)

def writeLedger (ledger : ReceiptLedger) : ReceiptScript PUnit := io fun s => (.ok ⟨⟩, { s with ledger })

def updateLedger (update : ReceiptLedger → ReceiptLedger) : ReceiptScript PUnit := do
  let current ← readLedger
  writeLedger (update current)

end Files

section Publishing

variable (host : ReceiptHost)

/-- The same length and the same digest. -/
def sameContent (existing payload : String) : Bool :=
  existing.utf8ByteSize = payload.utf8ByteSize ∧ digestBuffer host existing = digestBuffer host payload

/-- A file that is there must have the content. -/
def requireContent (payload : String) : Option String → ReceiptScript Bool
  | some existing =>
    if sameContent host existing payload then pure false else throw (.invariant "immutable_content_mismatch")
  | none => throw (.invariant "immutable_content_mismatch")

/-- `writeImmutableFile` where there was no file: a temporary file is written and linked. -/
def linkImmutableFile (publication : Publication) (locator payload : String) : ReceiptScript Bool := do
  io fun s => (.ok PUnit.unit, s)
  if ← linkFile publication locator payload then
    io fun s => (.ok true, s)
  else
    let raced ← readExistingImmutableFile locator
    requireContent host payload raced

/-- `writeImmutableFile`: whether the file was created. -/
def writeImmutableFile (publication : Publication) (locator payload : String) : ReceiptScript Bool := do
  match ← readExistingImmutableFile locator with
  | some existing => requireContent host payload (some existing)
  | none => linkImmutableFile host publication locator payload

def readExistingReceipt (locator : String) : ReceiptScript (Option TerminalSessionReceipt) := do
  match ← readExistingImmutableFile locator with
  | none => pure none
  | some text =>
    match host.parse text with
    | some receipt => pure (some receipt)
    | none => throw (.invariant "receipt_json_invalid")

def verifyStoredResult (result : ReceiptResult) : ReceiptScript PUnit := do
  ofExcept (resolveContainedPath result.locator)
  let payload ← readImmutablePrivateFile result.locator
  if payload.utf8ByteSize = result.bytes ∧ digestBuffer host payload = result.digest then pure ⟨⟩
  else throw (.invariant "result_digest_mismatch")

def verifyResult : Option ReceiptResult → ReceiptScript PUnit
  | some result => verifyStoredResult host result
  | none => pure ⟨⟩

/-! ## Failures and reports -/

def recordFailureBestEffort (config : ReceiptConfig) (failure : ReceiptFailure) : ReceiptScript PUnit :=
  (do resolveRoot config; updateLedger fun ledger => { ledger with lastFailure := some failure } : ReceiptScript PUnit).orElse
    fun _ => pure ⟨⟩

/-- What a call does with an error. -/
def failOperation {α : Type} (config : ReceiptConfig) (identity : Option EventIdentity) (fault : ReceiptFault) :
    ReceiptScript (Operation α) := do
  let failedAt ← now
  recordFailureBestEffort config ⟨fault.code host, failedAt, identity⟩
  pure (.failed ⟨fault.code host, failedAt, identity⟩)

def recordEmission (receipt : TerminalSessionReceipt) (disposition : Disposition) : ReceiptScript PUnit :=
  updateLedger fun ledger =>
    { ledger with
      lastSuccessfulEmission :=
        some ⟨receipt.identity.eventId, receipt.identity.sessionRef, receipt.publishedAt, disposition⟩
      lastFailure := none }

/-! ## Preparing -/

/-- The result is stored before the intent names it. -/
def prepareResult (publication : Publication) (eventId : String) : Option String → ReceiptScript (Option ReceiptResult)
  | none => pure none
  | some text => do
    ofExcept (resolveContainedPath (resultLocator eventId))
    let _ ← writeImmutableFile host publication (resultLocator eventId) text
    pure (some ⟨resultLocator eventId, digestBuffer host text, text.utf8ByteSize⟩)

def prepareIntent (config : ReceiptConfig) (publication : Publication) (session : SessionMetadata)
    (terminalState : TerminalState) (resultText : Option String) : ReceiptScript ReceiptIntent := do
  resolveRoot config
  let result ← prepareResult host publication (createEventIdentity host session.id).eventId resultText
  ofExcept (throwUnless (terminalState ≠ .succeeded ∨ result.isSome) "successful_result_missing")
  let persistedAt ← now
  pure ⟨receiptSchemaVersion, receiptEventKind, createEventIdentity host session.id, terminalState, persistedAt, result⟩

def prepareTerminalSessionReceipt (config : ReceiptConfig) (publication : Publication) (session : SessionMetadata)
    (terminalState : TerminalState) (resultText : Option String) : ReceiptScript (Operation ReceiptIntent) :=
  if config.enabled then
    (do
      let intent ← prepareIntent host config publication session terminalState resultText
      pure (.succeeded intent) : ReceiptScript (Operation ReceiptIntent)).orElse
      fun fault => failOperation host config (some (createEventIdentity host session.id)) fault
  else pure .disabled

/-! ## Publishing -/

/-- A receipt that is there is returned when it fits the session and its result is stored. -/
def returnExisting (session : SessionMetadata) (existing : TerminalSessionReceipt) :
    ReceiptScript (Operation TerminalSessionReceipt) := do
  ofExcept (assertReceiptMatchesSession existing session (createEventIdentity host session.id))
  verifyResult host existing.result
  recordEmission existing .deduplicated
  pure (.deduplicated existing)

def buildReceipt (session : SessionMetadata) : ReceiptScript TerminalSessionReceipt := do
  let checked ← ofExcept (checkIntent host session)
  verifyResult host checked.2.result
  let publishedAt ← now
  pure (makeReceipt host session checked.1 checked.2 publishedAt)

/-- The receipt is written; `none` is a receipt with another content in its place. -/
def writeReceiptFile (publication : Publication) (locator : String) (receipt : TerminalSessionReceipt) :
    ReceiptScript (Option Bool) :=
  (do
    let created ← writeImmutableFile host publication locator (host.stringify receipt)
    pure (some created) : ReceiptScript (Option Bool)).orElse fun fault =>
      if fault = .invariant "immutable_content_mismatch" then pure none else throw fault

/-- Another publisher was first. -/
def returnRaced (session : SessionMetadata) (locator : String) : ReceiptScript (Operation TerminalSessionReceipt) := do
  match ← readExistingReceipt host locator with
  | some raced => returnExisting host session raced
  | none => throw (.invariant "immutable_content_mismatch")

def reportWritten (receipt : TerminalSessionReceipt) (created : Bool) :
    ReceiptScript (Operation TerminalSessionReceipt) := do
  recordEmission receipt (if created then .emitted else .deduplicated)
  pure (if created then .succeeded receipt else .deduplicated receipt)

def publishNew (publication : Publication) (session : SessionMetadata) (locator : String) :
    ReceiptScript (Operation TerminalSessionReceipt) := do
  let receipt ← buildReceipt host session
  match ← writeReceiptFile host publication locator receipt with
  | none => returnRaced host session locator
  | some created => reportWritten receipt created

def publishAttempt (config : ReceiptConfig) (publication : Publication) (session : SessionMetadata) :
    ReceiptScript (Operation TerminalSessionReceipt) := do
  resolveRoot config
  let locator := receiptLocator (createEventIdentity host session.id).eventId
  ofExcept (resolveContainedPath locator)
  match ← readExistingReceipt host locator with
  | some existing => returnExisting host session existing
  | none => publishNew host publication session locator

def publishTerminalSessionReceipt (config : ReceiptConfig) (publication : Publication) (session : SessionMetadata) :
    ReceiptScript (Operation TerminalSessionReceipt) :=
  if config.enabled then
    (publishAttempt host config publication session).orElse fun fault =>
      failOperation host config (some (createEventIdentity host session.id)) fault
  else pure .disabled

/-! ## Reconciling -/

/-- `updateSessionMetadata` with an intent. -/
def updateSession (sessionId : String) (intent : ReceiptIntent) : ReceiptScript SessionMetadata := do
  let existing ← io fun s =>
    (.ok ((s.sessions.find? (·.id = sessionId)).getD
      ⟨sessionId, "", none, none, none, none, none, none, none, none⟩), s)
  let next := { existing with terminalReceiptIntent := some intent }
  io fun s =>
    (.ok PUnit.unit, { s with sessions := next :: s.sessions.filter (·.id ≠ sessionId) })
  pure next

/-- The intent of a session that has none: only a session that did not succeed gets one now. `none` is a failure. -/
def ensureIntent (config : ReceiptConfig) (publication : Publication) (session : SessionMetadata)
    (state : TerminalState) : ReceiptScript (Option SessionMetadata) :=
  if session.terminalReceiptIntent.isSome then pure (some session)
  else if state = .succeeded then pure none
  else do
    match (← prepareTerminalSessionReceipt host config publication session state none).value? with
    | none => pure none
    | some intent =>
      let candidate ← updateSession session.id intent
      pure (some candidate)

/-- One session of a reconciliation; `none` where nothing is published. -/
def reconcileSession (config : ReceiptConfig) (publication : Publication) (session : SessionMetadata)
    (state : TerminalState) : ReceiptScript (Option (Operation TerminalSessionReceipt)) := do
  match ← ensureIntent host config publication session state with
  | none => pure none
  | some candidate =>
    let published ← publishTerminalSessionReceipt host config publication candidate
    pure (some published)

/-- The summary counts what was published. -/
def ReconciliationSummary.count (summary : ReconciliationSummary) :
    Option (Operation TerminalSessionReceipt) → ReconciliationSummary
  | some (.succeeded _) => { summary with emitted := summary.emitted + 1 }
  | some (.deduplicated _) => { summary with deduplicated := summary.deduplicated + 1 }
  | some .disabled | some (.failed _) | none => { summary with failed := summary.failed + 1 }

/-- The loop of a reconciliation: the summary, and what its publications returned. -/
def reconcileSessions (config : ReceiptConfig) (caller : Nat) : List SessionMetadata → ReconciliationSummary →
    List (Option (Operation TerminalSessionReceipt)) →
    ReceiptScript (ReconciliationSummary × List (Option (Operation TerminalSessionReceipt)))
  | [], summary, published => pure (summary, published)
  | session :: rest, summary, published =>
    match terminalStateFromSession session with
    | none => reconcileSessions config caller rest { summary with skipped := summary.skipped + 1 } published
    | some state => do
      let operation ← reconcileSession host config (caller, published.length) session state
      reconcileSessions config caller rest (summary.count operation) (published ++ [operation])

def maxReconciliationSessions : Nat := 1000

def reconcileAttempt (config : ReceiptConfig) (caller : Nat) (excludeSessionId : Option String) :
    ReceiptScript (Operation ReconciliationSummary × List (Option (Operation TerminalSessionReceipt))) := do
  resolveRoot config
  let listed ← io fun s => (.ok s.sessions, s)
  let sessions := (listed.filter fun session =>
    (terminalStateFromSession session).isSome ∧ some session.id ≠ excludeSessionId).take maxReconciliationSessions
  let startedAt ← now
  let reconciled ← reconcileSessions host config caller sessions ⟨sessions.length, 0, 0, 0, 0, startedAt⟩ []
  let completedAt ← now
  let summary := { reconciled.1 with completedAt }
  updateLedger fun ledger => { ledger with reconciliation := some summary }
  pure (.succeeded summary, reconciled.2)

def reconcileTerminalSessionReceipts (config : ReceiptConfig) (caller : Nat) (excludeSessionId : Option String) :
    ReceiptScript (Operation ReconciliationSummary × List (Option (Operation TerminalSessionReceipt))) :=
  if config.enabled then
    (reconcileAttempt host config caller excludeSessionId).orElse fun fault => do
      let operation ← failOperation host config none fault
      pure (operation, [])
  else pure (.disabled, [])

/-! ## All calls -/

inductive ReceiptCall
  | prepare (session : SessionMetadata) (terminalState : TerminalState) (resultText : Option String)
  | publish (session : SessionMetadata)
  | reconcile (excludeSessionId : Option String)

/-- What a call returns; a reconciliation with what its publications returned. -/
inductive CallResult
  | prepared (operation : Operation ReceiptIntent)
  | published (operation : Operation TerminalSessionReceipt)
  | reconciled (operation : Operation ReconciliationSummary)
      (published : List (Option (Operation TerminalSessionReceipt)))

def receiptCall (config : ReceiptConfig) (caller : Nat) : ReceiptCall → ReceiptScript CallResult
  | .prepare session terminalState resultText => do
    let operation ← prepareTerminalSessionReceipt host config (caller, 0) session terminalState resultText
    pure (.prepared operation)
  | .publish session => do
    let operation ← publishTerminalSessionReceipt host config (caller, 0) session
    pure (.published operation)
  | .reconcile excludeSessionId => do
    let reconciled ← reconcileTerminalSessionReceipts host config caller excludeSessionId
    pure (.reconciled reconciled.1 reconciled.2)

/-- What happens besides. -/
inductive Disturbance
  | fault (code : Option String)
  | clock (time : String)
  | sessions (sessions : List SessionMetadata)

def disturb (s : ReceiptState) : Disturbance → Option ReceiptState
  | .fault fault => some { s with fault }
  | .clock clock => some { s with clock }
  | .sessions sessions => some { s with sessions }

/-- Any number of publishers and reconcilers, over any files that were there before. -/
def receiptSystem (config : ReceiptConfig) :
    TransitionSystem (Threads ReceiptState ReceiptFault CallResult) (Threads.Event ReceiptCall Disturbance) :=
  Threads.system (fun s => ∀ locator file, s.files locator = some file → file.creator = none)
    (receiptCall host config) disturb

end Publishing

end AuraCall.Receipts
