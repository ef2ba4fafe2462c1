import AuraCall.Js.Builtins

/-!
# The browser operation dispatcher: keys, records and conflicts

The types of `operationDispatcher.ts` and the functions both dispatchers use: the key of an operation
(`buildBrowserOperationKey`), its record (`buildOperationRecord`), and when an active operation conflicts with a request
(`isBrowserOperationConflict`).
-/

namespace AuraCall.Dispatcher

/-! ## Records -/

inductive BrowserOperationClass
  | exclusiveHuman | exclusiveMutating | exclusiveProbe | sharedRead
  deriving DecidableEq

inductive BrowserOperationKind
  | login | setup | doctor | features | browserExecution | mediaGeneration | browserTools | unknown
  deriving DecidableEq

structure BrowserOperationDevTools where
  host : Option String
  port : Option Nat
  targetId : Option String
  url : Option String
  deriving DecidableEq

/-- `BrowserOperationAcquireInput`, with the fields of `BrowserOperationKeyInput` it extends. -/
structure BrowserOperationAcquireInput where
  managedProfileDir : Option String := none
  serviceTarget : Option String := none
  rawDevTools : Option BrowserOperationDevTools := none
  kind : BrowserOperationKind
  operationClass : BrowserOperationClass
  ownerPid : Option Int := none
  ownerCommand : Option String := none
  devTools : Option BrowserOperationDevTools := none

structure BrowserOperationRecord where
  id : String
  key : String
  kind : BrowserOperationKind
  operationClass : BrowserOperationClass
  managedProfileDir : Option String
  serviceTarget : String
  rawDevTools : Option BrowserOperationDevTools
  ownerPid : Int
  ownerCommand : Option String
  startedAt : DateString
  updatedAt : DateString
  devTools : Option BrowserOperationDevTools
  deriving DecidableEq

structure BrowserOperationBusyResult where
  key : String
  blockedBy : BrowserOperationRecord
  recovery : String
  deriving DecidableEq

/-! ## Keys -/

/-- What the dispatcher sees of its process: `path.resolve`, `process.pid` and lower-casing. -/
structure Host where
  table : CaseTable
  resolve : String → String
  pid : Int

section Keys

variable (host : Host)

def normalizeServiceTarget (serviceTarget : String) : String :=
  let normalized := host.table.toLowerCase (trim serviceTarget)
  if normalized = "" then "unknown" else normalized

def normalizeDevToolsHost (devToolsHost : Option String) : String :=
  let normalized := host.table.toLowerCase (trim (devToolsHost.getD ""))
  if normalized = "" then "127.0.0.1" else normalized

def normalizeDevToolsTargetId (targetId : Option String) : Option String :=
  let normalized := trim (targetId.getD "")
  if normalized = "" then none else some normalized

def managedProfileKey (managedProfileDir : String) (serviceTarget : Option String) : String :=
  "managed-profile:" ++ host.resolve managedProfileDir ++ "::service:" ++
    normalizeServiceTarget host (serviceTarget.getD "unknown")

def devToolsKey (devTools : BrowserOperationDevTools) (port : Nat) : String :=
  let endpoint := "devtools:" ++ normalizeDevToolsHost host devTools.host ++ ":" ++ toString port
  match normalizeDevToolsTargetId devTools.targetId with
  | some targetId => endpoint ++ "::target:" ++ targetId
  | none => endpoint

/-- The port of the DevTools endpoint, when it is given and not zero. -/
def devToolsPort (input : BrowserOperationAcquireInput) : Option (BrowserOperationDevTools × Nat) := do
  let devTools ← input.rawDevTools
  let port ← devTools.port
  if port = 0 then none else some (devTools, port)

def buildBrowserOperationKey (input : BrowserOperationAcquireInput) : String :=
  match input.managedProfileDir.filter (· ≠ ""), devToolsPort input with
  | some managedProfileDir, _ => managedProfileKey host managedProfileDir input.serviceTarget
  | none, some (devTools, port) => devToolsKey host devTools port
  | none, none => managedProfileKey host "unknown" input.serviceTarget

/-! ## Operations -/

/-- `buildOperationRecord`, with the identifier `crypto.randomUUID()` gives. -/
def buildOperationRecord {γ : Type} (input : BrowserOperationAcquireInput) (key id : String) (nowMs : Int) :
    Except (Stop γ) BrowserOperationRecord := do
  let timestamp ← toISOString nowMs
  return {
    id, key, kind := input.kind, operationClass := input.operationClass
    managedProfileDir := (input.managedProfileDir.filter (· ≠ "")).map host.resolve
    serviceTarget := normalizeServiceTarget host
      (input.serviceTarget.getD (if input.rawDevTools.isSome then "raw-devtools" else "unknown"))
    rawDevTools := input.rawDevTools, ownerPid := input.ownerPid.getD host.pid, ownerCommand := input.ownerCommand
    startedAt := timestamp, updatedAt := timestamp, devTools := input.devTools }

end Keys

def isBrowserOperationConflict (active : BrowserOperationRecord) (requested : BrowserOperationAcquireInput) : Bool :=
  active.operationClass != .sharedRead || requested.operationClass != .sharedRead

def busyRecovery : String :=
  "Wait for the active browser operation to finish, or close the stale browser/service process before retrying."

def busyResult (key : String) (blockedBy : BrowserOperationRecord) : BrowserOperationBusyResult :=
  ⟨key, blockedBy, busyRecovery⟩

/-- The record of a request carries its key and class under the given identifier. -/
theorem buildOperationRecord_eq_ok {γ : Type} {host : Host} {input : BrowserOperationAcquireInput} {key id : String}
    {nowMs : Int} {operation : BrowserOperationRecord}
    (h : (buildOperationRecord host input key id nowMs : Except (Stop γ) BrowserOperationRecord) = .ok operation) :
    operation.id = id ∧ operation.key = key ∧ operation.operationClass = input.operationClass ∧
      operation.ownerPid = input.ownerPid.getD host.pid := by
  simp only [buildOperationRecord, bind_eq_ok, pure_eq_ok] at h
  obtain ⟨_, _, rfl⟩ := h
  exact ⟨rfl, rfl, rfl, rfl⟩

/-! ## A sample profile -/

def sampleHost : Host := ⟨.lowered, id, 10⟩

/-- A request for the sample profile. -/
def sampleRequest (operationClass : BrowserOperationClass) : BrowserOperationAcquireInput :=
  { managedProfileDir := some "profile", serviceTarget := some "chatgpt", kind := .browserTools, operationClass }

end AuraCall.Dispatcher
