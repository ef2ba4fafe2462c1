import AuraCall.Js.Builtins

/-!
# Terminal session receipts

What a receipt says of a session, and the checks it passes before it is published or returned
(`terminalSessionReceipts.ts`). SHA-256 and the JSON text of a receipt are the host's (`ReceiptHost`).
-/

namespace AuraCall.Receipts

/-! ## Records -/

inductive TerminalState
  | succeeded
  | error
  | cancelled
  deriving DecidableEq

/-- `SessionTerminalReceiptResultMetadata`. -/
structure ReceiptResult where
  locator : String
  digest : String
  bytes : Nat
  deriving DecidableEq

structure EventIdentity where
  sessionRef : String
  eventId : String
  idempotencyKey : String
  deriving DecidableEq

/-- `SessionTerminalReceiptIntentMetadata`. -/
structure ReceiptIntent where
  schemaVersion : Nat
  eventKind : String
  identity : EventIdentity
  terminalState : TerminalState
  persistedAt : String
  result : Option ReceiptResult
  deriving DecidableEq

/-- `SessionMetadata`, with what a receipt is made of. -/
structure SessionMetadata where
  id : String
  status : String
  completedAt : Option String
  mode : Option String
  browserTarget : Option String
  model : Option String
  optionsModel : Option String
  errorCategory : Option String
  transportReason : Option String
  terminalReceiptIntent : Option ReceiptIntent
  deriving DecidableEq

structure Execution where
  mode : String
  provider : Option String
  modelClass : Option String
  deriving DecidableEq

structure ErrorSummary where
  category : String
  code : String
  deriving DecidableEq

structure TerminalSessionReceipt where
  schemaVersion : Nat
  eventKind : String
  identity : EventIdentity
  terminalState : TerminalState
  terminalAt : String
  persistedAt : String
  publishedAt : String
  execution : Execution
  result : Option ReceiptResult
  error : Option ErrorSummary
  deriving DecidableEq

/-- What the host computes: lower case, SHA-256 in hexadecimal, the text of a receipt and `JSON.parse` of it. -/
structure ReceiptHost where
  cases : CaseTable
  sha256 : String → String
  stringify : TerminalSessionReceipt → String
  parse : String → Option TerminalSessionReceipt
  sha256_injective : Function.Injective sha256
  parse_stringify : ∀ receipt, parse (stringify receipt) = some receipt

/-- What goes wrong: a `TerminalReceiptInvariantError`, or an error of the file system with its code. -/
inductive ReceiptFault
  | invariant (code : String)
  | io (code : String)
  deriving DecidableEq

def receiptSchemaVersion : Nat := 1

def receiptEventKind : String := "auracall.session.terminal"

/-! ## Identity and places -/

variable (host : ReceiptHost)

def createEventIdentity (sessionId : String) : EventIdentity :=
  let sessionDigest := host.sha256 ("auracall-session-v1\x00" ++ sessionId)
  let eventDigest := host.sha256 (receiptEventKind ++ "\x00" ++ sessionDigest)
  ⟨"sha256:" ++ sessionDigest, "evt_" ++ eventDigest, "sha256:" ++ eventDigest⟩

def receiptLocator (eventId : String) : String := "receipts/v1/" ++ eventId ++ ".json"

def resultLocator (eventId : String) : String := "results/v1/" ++ eventId ++ ".txt"

def digestBuffer (payload : String) : String := "sha256:" ++ host.sha256 payload

/-- `resolveContainedPath`: the locator is relative, and none of its segments is empty or goes up. -/
def resolveContainedPath (locator : String) : Except ReceiptFault Unit :=
  if locator.toList.contains '\\' ∨
      (locator.toList.splitOn '/').any fun segment => segment = [] ∨ segment = ['.'] ∨ segment = ['.', '.'] then
    .error (.invariant "receipt_locator_invalid")
  else .ok ()

/-! ## What a receipt says -/

def terminalStateFromSession (session : SessionMetadata) : Option TerminalState :=
  if session.status = "completed" then some .succeeded
  else if session.status = "error" then some .error
  else if session.status = "cancelled" then some .cancelled
  else none

/-- `classifyProvider`, and `classifyModel`. -/
def classifyProvider (value : Option String) : Option String :=
  match value with
  | none => none
  | some value =>
    let normalized := host.cases.toLowerCase value
    let starts (text : String) : Bool := text.toList.isPrefixOf normalized.toList
    if value = "" then none
    else if normalized = "chatgpt" || starts "gpt" || starts "openai" then some "openai"
    else if starts "claude" || starts "anthropic" then some "anthropic"
    else if starts "gemini" || starts "google" then some "google"
    else if starts "grok" || starts "xai" then some "xai"
    else some "other"

def summarizeExecution (session : SessionMetadata) : Execution :=
  let mode := if session.mode = some "api" then "api" else if session.mode = some "browser" then "browser" else "unknown"
  let modelClass := classifyProvider host (session.model.or session.optionsModel)
  let provider :=
    if mode = "browser" then (classifyProvider host session.browserTarget).or modelClass else modelClass
  ⟨mode, provider, modelClass⟩

def safeErrorCategories : List String :=
  ["browser-automation", "browser-observation-expired", "browser-terminal-response", "file-validation",
    "prompt-validation"]

def safeTransportCodes : List String :=
  ["api-error", "client-abort", "client-timeout", "connection-lost", "model-unavailable", "unknown",
    "unsupported-endpoint"]

/-- `summarizeError`, with `null` for a session that succeeded. -/
def summarizeError (session : SessionMetadata) : TerminalState → Option ErrorSummary
  | .succeeded => none
  | .cancelled =>
    some ⟨"cancelled", if session.transportReason = some "client-abort" then "client-abort" else "cancelled"⟩
  | .error =>
    let category := (session.errorCategory.filter (· ∈ safeErrorCategories)).getD "session-error"
    some ⟨category, (session.transportReason.filter (· ∈ safeTransportCodes)).getD category⟩

/-! ## Checks -/

def throwUnless (condition : Bool) (code : String) : Except ReceiptFault Unit :=
  if condition then .ok () else .error (.invariant code)

/-- `buildReceipt` up to the reading of the stored result: the state and the intent, which fit the session. -/
def checkIntent (session : SessionMetadata) : Except ReceiptFault (TerminalState × ReceiptIntent) := do
  let some state := terminalStateFromSession session | .error (.invariant "session_not_terminal")
  let some intent := session.terminalReceiptIntent | .error (.invariant "receipt_intent_missing")
  throwUnless (intent.schemaVersion = receiptSchemaVersion ∧ intent.eventKind = receiptEventKind)
    "receipt_schema_mismatch"
  throwUnless (intent.identity = createEventIdentity host session.id) "receipt_identity_mismatch"
  throwUnless (intent.terminalState = state) "terminal_state_mismatch"
  throwUnless (state ≠ .succeeded ∨ intent.result.isSome) "successful_result_missing"
  pure (state, intent)

/-- What `buildReceipt` returns. -/
def makeReceipt (session : SessionMetadata) (state : TerminalState) (intent : ReceiptIntent) (publishedAt : String) :
    TerminalSessionReceipt where
  schemaVersion := receiptSchemaVersion
  eventKind := receiptEventKind
  identity := createEventIdentity host session.id
  terminalState := state
  terminalAt := session.completedAt.getD intent.persistedAt
  persistedAt := intent.persistedAt
  publishedAt
  execution := summarizeExecution host session
  result := intent.result
  error := summarizeError session state

def assertReceiptIdentity (receipt : TerminalSessionReceipt) (identity : EventIdentity) : Except ReceiptFault Unit := do
  throwUnless (receipt.schemaVersion = receiptSchemaVersion ∧ receipt.eventKind = receiptEventKind)
    "receipt_schema_mismatch"
  throwUnless (receipt.identity = identity) "receipt_identity_mismatch"

def assertReceiptMatchesSession (receipt : TerminalSessionReceipt) (session : SessionMetadata)
    (identity : EventIdentity) : Except ReceiptFault Unit := do
  assertReceiptIdentity receipt identity
  throwUnless (terminalStateFromSession session = some receipt.terminalState) "terminal_state_mismatch"
  throwUnless (receipt.result = session.terminalReceiptIntent.bind (·.result)) "receipt_result_mismatch"

/-! ## Failures -/

structure ReceiptFailure where
  code : String
  failedAt : String
  identity : Option EventIdentity
  deriving DecidableEq

/-- Each run of other characters than `a-z0-9._-` becomes one hyphen. -/
def hyphenate (inRun : Bool) : List Char → List Char
  | [] => []
  | c :: rest =>
    if c.isLower || c.isDigit || c = '.' || c = '_' || c = '-' then c :: hyphenate false rest
    else if inRun then hyphenate true rest
    else '-' :: hyphenate true rest

/-- `boundedToken`. -/
def boundedToken (value fallback : String) : String :=
  let normalized := String.ofList ((hyphenate false (host.cases.toLowerCase (trim value)).toList).take 64)
  if normalized = "" then fallback else normalized

/-- The code of `failureFromError`. -/
def ReceiptFault.code : ReceiptFault → String
  | invariant code => code
  | io code => boundedToken host ("receipt_io_" ++ host.cases.toLowerCase code) "receipt_io_failure"

end AuraCall.Receipts
