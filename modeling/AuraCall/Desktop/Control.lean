import AuraCall.Desktop.Transition
import AuraCall.Lib.Script

/-!
# Taking and releasing control of native desktops

`NativeDesktopControl.take` and `release` move through three places in a fixed order: the receipt file, the control gate
of the desktop, and a control grant of the provider that shows the desktop. Both run under the lock of the native
desktop store, and the gate changes under its transition file.

Here calls are made one after the other, and each is a script of single file system actions, so that a process can crash
at any of them. The provider is a parameter (`GrantProvider`): it may answer or fail in any way, and a failed call may
have had its effect.
-/

namespace AuraCall.Desktop

open Script

/-! ## Owners of the gate -/

inductive GateRole
  | automation
  | human
  deriving DecidableEq

/-- `GateOwner`. `acquiredAt` is read by nothing. -/
structure GateOwner where
  id : String
  role : GateRole
  binding : String
  ownerPid : Process
  deriving DecidableEq

/-- What is at the lock path: nothing, a directory without `owner.json`, or one with it. -/
inductive LockDirectory
  | absent
  | unpublished
  | published (owner : GateOwner)
  deriving DecidableEq

/-- `owner`: throws when the directory has no `owner.json`, or one that fails its checks. -/
def LockDirectory.readOwner : LockDirectory → Except Unit (Option GateOwner)
  | absent => .ok none
  | unpublished => .error ()
  | published owner => if owner.id = "" ∨ owner.binding = "" then .error () else .ok (some owner)

/-! ## Records -/

/-- `NativeDesktopBrowser`, in the parts that are told apart here: `rest` is everything else in the record. -/
structure NativeBrowser where
  browserId : String
  desktopId : String
  rest : String
  deriving DecidableEq

structure Receipt where
  token : String
  browserId : String
  binding : String
  issuanceKey : String
  routeId : Option String
  revoked : Bool
  inactivityTimeoutMs : Option Nat
  deriving DecidableEq

/-- What the host computes: `nativeBrowserGeneration`, a SHA-256 digest, and the check for a UUID. -/
structure ControlHost where
  generation : NativeBrowser → String
  isUuid : String → Bool
  generation_injective : Function.Injective generation
  generation_ne : ∀ browser, generation browser ≠ ""
  isUuid_ne : ∀ token, isUuid token = true → token ≠ ""

/-! ## The provider -/

structure Grant where
  url : String
  routeId : String
  deriving DecidableEq

/-- An error of `issueEmbed`: the code `consumer_grant_unavailable`, or another error. -/
inductive IssueFailure
  | unavailable
  | other (message : String)
  deriving DecidableEq

def IssueFailure.message : IssueFailure → String
  | unavailable => "Remote View application operation unavailable."
  | other message => message

/-- The provider, with states of type `π`. `Terminal` says that the grant issued under a key can be used no more, and
`IsGrant` that a route is the one issued under a key. Issuing is idempotent in the key: it never brings a terminal grant
back, and it answers `consumer_grant_unavailable` only for a terminal one. A confirmed revocation ends the grant. -/
structure GrantProvider (π : Type) where
  issueEmbed : π → NativeBrowser → String → Except IssueFailure Grant × π
  revokeEmbed : π → String → Except String Unit × π
  Terminal : π → String → Prop
  IsGrant : π → String → String → Prop
  terminal_issue : ∀ {p browser key key'}, Terminal p key → Terminal (issueEmbed p browser key').2 key
  terminal_revoke : ∀ {p route key}, Terminal p key → Terminal (revokeEmbed p route).2 key
  isGrant_issue : ∀ {p browser key key' route}, IsGrant p key route → IsGrant (issueEmbed p browser key').2 key route
  isGrant_revoke : ∀ {p key route route'}, IsGrant p key route → IsGrant (revokeEmbed p route').2 key route
  isGrant_of_issue : ∀ {p browser key grant}, (issueEmbed p browser key).1 = .ok grant →
    IsGrant (issueEmbed p browser key).2 key grant.routeId
  terminal_of_unavailable : ∀ {p browser key}, (issueEmbed p browser key).1 = .error .unavailable →
    Terminal (issueEmbed p browser key).2 key
  terminal_of_revoke : ∀ {p key route}, IsGrant p key route → (revokeEmbed p route).1 = .ok () →
    Terminal (revokeEmbed p route).2 key

/-- A provider that is reached: it issues and revokes, and answers for a terminal grant that it is unavailable. -/
structure GrantProvider.Reached {π : Type} (provider : GrantProvider π) (ok : π → Prop) : Prop where
  issue : ∀ {p browser key}, ok p → ok (provider.issueEmbed p browser key).2 ∧
    ((∃ grant, (provider.issueEmbed p browser key).1 = .ok grant) ∨
      (provider.issueEmbed p browser key).1 = .error .unavailable)
  unavailable : ∀ {p browser key}, ok p → provider.Terminal p key →
    (provider.issueEmbed p browser key).1 = .error .unavailable
  revoke : ∀ {p key route}, ok p → provider.IsGrant p key route → ok (provider.revokeEmbed p route).2 ∧
    ((provider.revokeEmbed p route).1 = .ok () ∨ provider.Terminal (provider.revokeEmbed p route).2 key)

/-! ## Files -/

/-- A call and its process; the number stands for the identifiers it draws. -/
structure Caller where
  id : Nat
  process : Process
  deriving DecidableEq

/-- A control gate: its lock directory, its transition file, and the links of transitions that were reclaimed. -/
structure GateFiles where
  directory : LockDirectory
  transition : Option TransitionOwner
  retired : List (Nat × TransitionOwner)
  deriving DecidableEq

/-- The machine, the files of one selected desktop, the gates by desktop, and the provider. The store's lock directory is
absent, without an owner's record, or with one. `sent` lists the keys under which a control grant was asked for, with the
desktops, and `proved` the keys of the grants that the provider has confirmed to be over. -/
structure ControlState (π : Type) where
  boot : Nat
  crashed : List Process
  lock : Option (Option Caller)
  reconcile : Bool
  receipt : Option Receipt
  released : List Receipt
  gates : String → GateFiles
  provider : π
  sent : List (String × String)
  proved : List String

namespace ControlState

variable {π : Type}

/-- Nothing has happened yet. -/
def new (provider : π) : ControlState π :=
  ⟨0, [], none, false, none, [], fun _ => ⟨.absent, none, []⟩, provider, [], []⟩

/-- There is no entry of the process in `/proc`. -/
def Dead (s : ControlState π) (process : Process) : Prop := process.boot < s.boot ∨ process ∈ s.crashed

instance (s : ControlState π) (process : Process) : Decidable (s.Dead process) :=
  inferInstanceAs (Decidable (_ ∨ _))

def setGate (s : ControlState π) (desktopId : String) (f : GateFiles → GateFiles) : ControlState π :=
  { s with gates := fun d => if d = desktopId then f (s.gates d) else s.gates d }

end ControlState

abbrev ControlScript (π α : Type) := Script (ControlState π) String α

section Scripts

variable {π α : Type}

/-! ## The lock of the store -/

/-- `fs.mkdir` of the lock; `false` is `EEXIST`. -/
def makeLock : ControlScript π Bool :=
  perform fun s => match s.lock with
    | none => (.ok true, { s with lock := some none })
    | some _ => (.ok false, s)

/-- `owner.json` is written to a temporary file and renamed. -/
def publishLock (caller : Caller) : ControlScript π PUnit := change fun s => { s with lock := some (some caller) }

/-- `readOwner`. -/
def readLockOwner : ControlScript π Caller :=
  look fun s => match s.lock with
    | some (some owner) => .ok owner
    | _ => .error "Native desktop operation is busy; owner record is missing or invalid; preserve the lock and inspect ownership before recovery."

def makeReconcile : ControlScript π PUnit :=
  perform fun s =>
    if s.reconcile then (.error "Native desktop operation is busy; inspect retained ownership before retrying.", s)
    else (.ok ⟨⟩, { s with reconcile := true })

/-- The owner's process must have no entry in `/proc`. -/
def requireDead (owner : Caller) : ControlScript π PUnit :=
  look fun s =>
    if s.Dead owner.process then .ok ⟨⟩ else .error "Native desktop operation is busy; original owner is still present."

/-- `fs.rm` of the lock: first its file, then the directory. -/
def removeLock : ControlScript π PUnit := do
  change fun s => { s with lock := some none }
  change fun s => { s with lock := none }

/-- The part under the reconciliation lock. -/
def reconcileLock (caller : Caller) : ControlScript π PUnit := do
  let previous ← readLockOwner
  requireDead previous
  change fun s => { s with lock := none }
  if ← makeLock then publishLock caller
  else throw "Native desktop operation is busy; another process acquired it during reconciliation."

/-- `acquire`, and what follows when the lock is there. -/
def acquireLock (caller : Caller) : ControlScript π PUnit := do
  if ← makeLock then publishLock caller
  else
    makeReconcile
    (reconcileLock caller).ensure (change fun s => { s with reconcile := false })

/-- The end of `exclusive`. -/
def releaseLock (caller : Caller) : ControlScript π PUnit := do
  let current ← readLockOwner
  if current.id = caller.id then removeLock

/-- `NativeDesktopStore.exclusive`. -/
def exclusive (caller : Caller) (operation : ControlScript π α) : ControlScript π α := do
  acquireLock caller
  operation.ensure (releaseLock caller)

/-! ## The gate -/

/-- The record that a call links to the transition path. -/
def Caller.transitionOwner (caller : Caller) : TransitionOwner := ⟨caller.id, caller.process, some caller.process.boot⟩

/-- `fs.link` of the pending file; `false` is `EEXIST`. -/
def linkTransition (caller : Caller) (desktopId : String) : ControlScript π Bool :=
  perform fun s => match (s.gates desktopId).transition with
    | none => (.ok true, s.setGate desktopId fun gate => { gate with transition := some caller.transitionOwner })
    | some _ => (.ok false, s)

/-- The record at `retired-<id>`. -/
def GateFiles.retiredRecord (gate : GateFiles) (id : Nat) : Option TransitionOwner :=
  (gate.retired.find? fun entry => entry.1 = id).map Prod.snd

/-- `fs.link` of the transition file to `retired-<id>`; `false` is `EEXIST` or `ENOENT`. -/
def linkRetired (desktopId : String) (previous : TransitionOwner) : ControlScript π Bool :=
  perform fun s =>
    match (s.gates desktopId).retiredRecord previous.id, (s.gates desktopId).transition with
    | none, some record =>
      (.ok true, s.setGate desktopId fun gate => { gate with retired := (previous.id, record) :: gate.retired })
    | _, _ => (.ok false, s)

/-- `reclaimDeadTransition`, with a boot identifier. -/
def reclaimDeadTransition (caller : Caller) (desktopId : String) : ControlScript π PUnit := do
  let found ← look fun s => .ok (s.gates desktopId).transition
  match found with
  | none => pure ⟨⟩
  | some previous =>
    if previous.bootId ≠ some caller.process.boot then pure ⟨⟩
    else
      let dead ← look fun s => .ok (decide (s.Dead previous.ownerPid))
      if dead then
        if ← linkRetired desktopId previous then
          let same ← look fun s =>
            .ok (decide ((s.gates desktopId).retiredRecord previous.id = some previous ∧
              (s.gates desktopId).transition = some previous))
          if same then change fun s => s.setGate desktopId fun gate => { gate with transition := none }

/-- The loop of `transition`. -/
def acquireTransition (caller : Caller) (desktopId : String) : Nat → ControlScript π PUnit
  | 0 => throw "Desktop control coordination is busy. Preserve unqualified transition records for explicit recovery."
  | attempts + 1 => do
    if ← linkTransition caller desktopId then pure ⟨⟩
    else
      reclaimDeadTransition caller desktopId
      acquireTransition caller desktopId attempts

/-- `releaseTransition`. -/
def releaseTransition (caller : Caller) (desktopId : String) : ControlScript π PUnit := do
  let found ← look fun s => .ok (s.gates desktopId).transition
  if found = some caller.transitionOwner then
    change fun s => s.setGate desktopId fun gate => { gate with transition := none }
  else throw "Desktop control transition ownership changed; refusing stale release."

/-- `transition`. -/
def gateTransition (caller : Caller) (desktopId : String) (operation : ControlScript π α) : ControlScript π α := do
  acquireTransition caller desktopId 100
  operation.ensure (releaseTransition caller desktopId)

/-- `owner`. -/
def readGateOwner (desktopId : String) : ControlScript π (Option GateOwner) :=
  look fun s => match (s.gates desktopId).directory.readOwner with
    | .ok owner => .ok owner
    | .error _ => .error "Desktop control ownership record is invalid or incomplete; automation remains blocked. Preserve the record and qualify an explicit control recovery."

def setDirectory (desktopId : String) (directory : LockDirectory) : ControlScript π PUnit :=
  change fun s => s.setGate desktopId fun gate => { gate with directory }

/-- `fs.rm` of the gate's lock directory. -/
def removeGate (desktopId : String) : ControlScript π PUnit := do
  setDirectory desktopId .unpublished
  setDirectory desktopId .absent

/-- `fs.mkdir` of the gate's lock directory. -/
def makeGate (desktopId : String) : ControlScript π PUnit :=
  perform fun s =>
    if (s.gates desktopId).directory = .absent then
      (.ok ⟨⟩, s.setGate desktopId fun gate => { gate with directory := .unpublished })
    else (.error "Desktop control is busy; automation or another human owns the display.", s)

/-- `acquire` removes the lock directory of automation whose process is dead. -/
def removeDeadAutomation (desktopId : String) : Option GateOwner → ControlScript π PUnit
  | none => pure ⟨⟩
  | some previous =>
    if previous.role = .automation then do
      if ← look fun s => .ok (decide (s.Dead previous.ownerPid)) then removeGate desktopId
    else pure ⟨⟩

/-- The operation of `acquire`. -/
def acquireGate (desktopId : String) (owner : GateOwner) : ControlScript π PUnit := do
  removeDeadAutomation desktopId (← readGateOwner desktopId)
  makeGate desktopId
  setDirectory desktopId (.published owner)

def takeControl (caller : Caller) (desktopId binding token : String) : ControlScript π PUnit :=
  gateTransition caller desktopId (acquireGate desktopId ⟨token, .human, binding, caller.process⟩)

/-- The owner is the human with this token. -/
def controls (token binding : String) (owner : Option GateOwner) : Bool :=
  owner.any fun owner => owner.id = token ∧ owner.role = .human ∧ owner.binding = binding

def assertControl (desktopId token binding : String) : ControlScript π PUnit := do
  if controls token binding (← readGateOwner desktopId) then pure ⟨⟩
  else throw "Desktop control ownership changed; refusing stale control."

/-- The operation of `releaseControl`. -/
def releaseOwner (desktopId token binding : String) : ControlScript π PUnit := do
  if controls token binding (← readGateOwner desktopId) then removeGate desktopId
  else throw "Desktop control ownership changed; refusing stale release."

def releaseControl (caller : Caller) (desktopId token binding : String) : ControlScript π PUnit :=
  gateTransition caller desktopId (releaseOwner desktopId token binding)

/-! ## Receipts and grants -/

def readReceipt : ControlScript π (Option Receipt) := look fun s => .ok s.receipt

def writeReceipt (receipt : Receipt) : ControlScript π PUnit := change fun s => { s with receipt := some receipt }

def removeReceipt : ControlScript π PUnit := change fun s => { s with receipt := none }

/-- `wasReleased`. -/
def wasReleased (host : ControlHost) (browserId token : String) : ControlScript π Bool :=
  look fun s =>
    if host.isUuid token then
      .ok ((s.released.find? (·.token = token)).any fun receipt => receipt.browserId = browserId ∧ receipt.revoked)
    else .error "Invalid uuid"

def writeReleased (receipt : Receipt) : ControlScript π PUnit :=
  change fun s => { s with released := receipt :: s.released.filter (·.token ≠ receipt.token) }

/-- `browser`: the one ready browser with the identifier. -/
def selectBrowser (ready : Except String (List NativeBrowser)) (browserId : String) : ControlScript π NativeBrowser :=
  ofExcept (match ready with
    | .error message => .error message
    | .ok browsers =>
      match browsers.filter (·.browserId = browserId) with
      | [browser] => .ok browser
      | _ => .error "Select a ready AuraCall-owned native browser.")

variable (provider : GrantProvider π)

def issueEmbed (browser : NativeBrowser) (key : String) : ControlScript π (Except IssueFailure Grant) :=
  perform fun s =>
    let (answer, state) := provider.issueEmbed s.provider browser key
    (.ok answer,
      { s with
        provider := state
        sent := (key, browser.desktopId) :: s.sent
        proved := match answer with
          | .error .unavailable => key :: s.proved
          | _ => s.proved })

/-- `revokeEmbed` of the route that was issued under a key. -/
def revokeEmbed (key routeId : String) : ControlScript π (Except String Unit) :=
  perform fun s =>
    let (answer, state) := provider.revokeEmbed s.provider routeId
    (.ok answer,
      { s with
        provider := state
        proved := match answer with
          | .ok _ => key :: s.proved
          | .error _ => s.proved })

/-! ## Taking and releasing -/

variable (host : ControlHost) (caller : Caller)

/-- What a call is given. `ready` is the answer of `readyNativeDesktopBrowsers`, and `issuanceKey` the UUID it draws. -/
structure ControlRequest where
  ready : Except String (List NativeBrowser)
  browserId : String
  token : String
  issuanceKey : String
  inactivityTimeoutMs : Option Nat

structure ControlView where
  url : String
  token : String
  inactivityTimeoutSeconds : Nat

/-- A `NativeDesktopControlError` says whether the claim is retained; any other error is `none`. -/
structure ControlFailure where
  message : String
  claimRetained : Option Bool

/-- The claim of a call is the one in the receipt. -/
def Receipt.matches (receipt : Receipt) (request : ControlRequest) (binding : String) : Bool :=
  receipt.token = request.token ∧ receipt.browserId = request.browserId ∧ receipt.binding = binding

/-- The receipt of a claim: the one that is there, or a new one, which is written before the gate is taken. -/
def claimReceipt (request : ControlRequest) (desktopId binding : String) : ControlScript π Receipt := do
  match ← readReceipt with
  | some receipt =>
    if receipt.matches request binding = true ∧ receipt.revoked = false then
      assertControl desktopId request.token binding
      pure receipt
    else throw "Desktop control is already held; release the retained claim before another takeover."
  | none =>
    let receipt : Receipt :=
      { token := request.token
        browserId := request.browserId
        binding
        issuanceKey := request.issuanceKey
        routeId := none
        revoked := false
        inactivityTimeoutMs := some (request.inactivityTimeoutMs.getD 120000) }
    writeReceipt receipt
    (takeControl caller desktopId binding request.token).orElse fun message => do
      removeReceipt
      throw message
    pure receipt

/-- `take`, under the lock. -/
def takeExclusive (request : ControlRequest) : ControlScript π ControlView := do
  let browser ← selectBrowser request.ready request.browserId
  let receipt ← claimReceipt caller request browser.desktopId (host.generation browser)
  match ← issueEmbed provider browser receipt.issuanceKey with
  | .error failure => throw failure.message
  | .ok grant =>
    writeReceipt { receipt with routeId := some grant.routeId }
    pure ⟨grant.url, request.token,
      ((receipt.inactivityTimeoutMs.or request.inactivityTimeoutMs).getD 120000) / 1000⟩

def take (request : ControlRequest) : Script (ControlState π) ControlFailure ControlView :=
  if host.isUuid request.token then
    (exclusive caller (takeExclusive provider host caller request)).orElse fun message =>
      look fun s => .error ⟨message, some (s.receipt.any (·.token = request.token))⟩
  else throw ⟨"Invalid uuid", none⟩

/-- The first attempt of a release to end the grant: its route, which is asked for where the receipt has none, is revoked. -/
def attemptRevocation (browser : NativeBrowser) (receipt : Receipt) :
    ControlScript π (Receipt × Except String Unit) := do
  match receipt.routeId.filter (· != "") with
  | some routeId => return (receipt, ← revokeEmbed provider receipt.issuanceKey routeId)
  | none =>
    match ← issueEmbed provider browser receipt.issuanceKey with
    | .error failure => return (receipt, .error failure.message)
    | .ok grant =>
      let receipt := { receipt with routeId := some grant.routeId }
      writeReceipt receipt
      return (receipt, ← revokeEmbed provider receipt.issuanceKey grant.routeId)

/-- A failed revocation is proved by the exact issuance, and only by `consumer_grant_unavailable`. -/
def proveRevocation (browser : NativeBrowser) (receipt : Receipt) : Except String Unit → ControlScript π PUnit
  | .ok _ => pure ⟨⟩
  | .error revokeError => do
    match ← issueEmbed provider browser receipt.issuanceKey with
    | .error .unavailable => pure ⟨⟩
    | _ => throw revokeError

/-- The grant of a receipt is revoked, or it is proved that it is over. -/
def revokeGrant (browser : NativeBrowser) (receipt : Receipt) : ControlScript π Receipt :=
  if receipt.revoked then pure receipt
  else do
    let attempt ← attemptRevocation provider browser receipt
    proveRevocation provider browser attempt.1 attempt.2
    writeReceipt { attempt.1 with revoked := true }
    pure { attempt.1 with revoked := true }

/-- The part of a release that has found its receipt. -/
def releaseClaim (browser : NativeBrowser) (receipt : Receipt) : ControlScript π PUnit := do
  let binding := host.generation browser
  assertControl browser.desktopId receipt.token binding
  let receipt ← revokeGrant provider browser receipt
  releaseControl caller browser.desktopId receipt.token binding
  writeReleased receipt
  removeReceipt

/-- `release`, under the lock. -/
def releaseExclusive (request : ControlRequest) : ControlScript π PUnit := do
  match ← readReceipt with
  | none =>
    if ← wasReleased host request.browserId request.token then pure ⟨⟩
    else
      let _ ← selectBrowser request.ready request.browserId
      throw "Desktop control ownership changed; refusing stale release."
  | some receipt =>
    let browser ← selectBrowser request.ready request.browserId
    if receipt.matches request (host.generation browser) = true then releaseClaim provider host caller browser receipt
    else throw "Desktop control ownership changed; refusing stale release."

def release (request : ControlRequest) : ControlScript π PUnit :=
  exclusive caller (releaseExclusive provider host caller request)

end Scripts

/-! ## Sequences of calls -/

/-- What can happen: calls, of which some crash their process after a number of actions; and what others do to a gate,
to processes and to the machine. -/
inductive ControlLabel
  | take (caller : Caller) (request : ControlRequest) (crash : Option Nat)
  | release (caller : Caller) (request : ControlRequest) (crash : Option Nat)
  | automation (desktopId : String) (directory : LockDirectory)
  | exit (process : Process)
  | reboot

/-- A human is the owner in the directory. -/
def LockDirectory.isHuman : LockDirectory → Bool
  | published owner => owner.role = .human
  | absent | unpublished => false

section System

variable {π α : Type} {ε : Type}

/-- A call runs to its end, or its process crashes after a number of actions. -/
def ControlState.perform (s : ControlState π) (caller : Caller) (script : Script (ControlState π) ε α)
    (crash : Option Nat) : ControlState π :=
  match crash with
  | none => (script.run s).2
  | some n =>
    let stopped := script.after n s
    { stopped with crashed := caller.process :: stopped.crashed }

/-- The process runs, in the present boot. -/
def ControlState.Runs (s : ControlState π) (process : Process) : Prop := process.boot = s.boot ∧ process ∉ s.crashed

instance (s : ControlState π) (process : Process) : Decidable (s.Runs process) := inferInstanceAs (Decidable (_ ∧ _))

/-- The key has not been drawn before. -/
def ControlState.FreshKey (s : ControlState π) (key : String) : Prop :=
  (∀ entry ∈ s.sent, entry.1 ≠ key) ∧ ∀ receipt ∈ s.receipt, receipt.issuanceKey ≠ key

instance (s : ControlState π) (key : String) : Decidable (s.FreshKey key) := inferInstanceAs (Decidable (_ ∧ _))

def ControlState.next (provider : GrantProvider π) (host : ControlHost) (s : ControlState π) :
    ControlLabel → Option (ControlState π)
  | .take caller request crash =>
    if s.Runs caller.process ∧ s.FreshKey request.issuanceKey then
      some (s.perform caller (Desktop.take provider host caller request) crash)
    else none
  | .release caller request crash =>
    if s.Runs caller.process then some (s.perform caller (Desktop.release provider host caller request) crash) else none
  -- automation neither takes a desktop from a human nor gives it to one
  | .automation desktopId directory =>
    if (s.gates desktopId).directory.isHuman = false ∧ directory.isHuman = false then
      some (s.setGate desktopId fun gate => { gate with directory })
    else none
  | .exit process => some { s with crashed := process :: s.crashed }
  | .reboot => some { s with boot := s.boot + 1 }

/-- All sequences of calls, from no files at all. -/
def controlSystem (provider : GrantProvider π) (host : ControlHost) :
    TransitionSystem (ControlState π) ControlLabel :=
  .ofNext (fun s => ∃ p, s = .new p) (ControlState.next provider host)

end System

end AuraCall.Desktop
