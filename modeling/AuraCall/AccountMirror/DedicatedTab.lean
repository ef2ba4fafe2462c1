import AuraCall.TabLease.Retirement

/-!
# A dedicated tab

`acquireDedicatedBrowserTab` of `liveFollowTabCoordinator.ts`. The tab that the process or the workload has already is
adopted if it is on the provider's route. Otherwise a page of the browser is adopted, or a new one is opened
(`obtainTarget`); the target is leased, and the lease records how it was obtained (`provisionTarget`). What fails there
is rolled back.

Every awaited call has its place in the function (`TabCall`). `TabHost` says how it ends there: the registry carries it
out, refuses it, or throws with or without having carried it out, and so does the browser.
-/

namespace AuraCall.AccountMirror

open Script TabLease

/-! ## Inputs -/

structure LiveFollowBrowserEndpoint where
  host : String
  port : Int
  managedBrowserProfile : String

/-- A page of the browser. The browser's identifiers have no blanks around them. -/
structure BrowserTarget where
  targetId : String
  url : String
  trimmed : trim targetId = targetId

structure LiveFollowCrawlerTab where
  unloadedTarget : Bool
  lease : BrowserTabLease
  claim : TabLeaseClaim
  endpoint : LiveFollowBrowserEndpoint

inductive ColdStartTargetPolicy
  | adopt | create
  deriving DecidableEq

structure DedicatedBrowserTabInput where
  scope : TabLeaseScope
  operationId : String
  targetUrl : String
  targetCreationUrl : Option String := none
  idleTtlMs : JsNumber
  absoluteTtlMs : JsNumber
  profileControlTtlMs : Option JsNumber := none
  requireExistingTarget : Bool := false
  allowOwnedUnloadedTarget : Bool := false
  coldStartTargetPolicy : Option ColdStartTargetPolicy := none

/-- An `Error`, or an `AggregateError` with its errors. -/
structure TabError where
  message : String
  errors : List String := []
  cause : Option String := none
  deriving DecidableEq

/-! ## Calls -/

/-- The places of the calls that read or write the registry, or close a target. -/
inductive TabCall
  | absent | absentLost (n : Nat) | absentReleased (n : Nat)
  | foundByProcess | foundByWorkload | missingLost | missingReleased
  | acquired | adopted | staleLost | staleClosed | staleReleased
  | startup | startupReleased | listed | transferred
  | unsettledClosed | reserved | refusedClosed | provisioned | provisioningLost | lostClosed | lostReleased
  | retiredClosed | idled
  deriving DecidableEq

/-- How a call of the registry ends: as the registry decides, with a refusal or an error in the place of that, or with
an error after that. -/
inductive RegistryAnswer
  | decided
  | stopped (stop : Stop TabLeaseConflict)
  | failedAfterwards (message : String)
  deriving DecidableEq

inductive CloseAnswer
  | closed
  | failed (message : String)
  | failedAfterwards (message : String)
  deriving DecidableEq

/-- The target is closed, whether the call says so or not. -/
def CloseAnswer.closes : CloseAnswer → Bool
  | .failed _ => false
  | .closed | .failedAfterwards _ => true

structure ParsedRoute where
  hostname : String
  origin : String
  pathname : String

/-- `ProviderTrafficGovernor`: how `begin` and the settlement end. -/
structure TrafficGovernor where
  «begin» : Except String PUnit
  settleSucceeded : Except String PUnit
  settleFailed : Except String PUnit

/-- What the call finds. `parseUrl` is `new URL`, and `confirmations` is what the inspections see after the startup page
was closed, until the deadline. -/
structure TabHost where
  now : TabCall → IsoTime
  options : TabCall → RegistryOptions
  registryAnswer : TabCall → RegistryAnswer
  closeAnswer : TabCall → CloseAnswer
  parseUrl : String → Option ParsedRoute
  resolveExistingEndpoint : Except String (Option LiveFollowBrowserEndpoint)
  verifyBrowserAbsent : Option (Except String Bool)
  startBrowser : Except String LiveFollowBrowserEndpoint
  inspectExisting : String → Except String (Option String)
  listTargets : Option (Except String (List BrowserTarget))
  governor : Option TrafficGovernor
  openTarget : String → Except String BrowserTarget
  inspectRetirement : String → Except String (Option String)
  confirmations : List (Except String (Option String))

/-- The registry, the target that the call has created or adopted, the targets it has closed since then, and those of
them that its rollback has closed. -/
structure TabWork where
  registry : Registry
  created : Option String := none
  adopted : Option String := none
  closed : List String := []
  rolledBack : List String := []

def TabWork.close (rollback : Bool) (targetId : String) (s : TabWork) : TabWork := { s with
  closed := targetId :: s.closed
  rolledBack := if rollback then targetId :: s.rolledBack else s.rolledBack }

abbrev TabScript := Script TabWork TabError

/-- The page to provision: created by the call, or adopted, and the startup page to retire afterwards. -/
structure TabPlan where
  endpoint : LiveFollowBrowserEndpoint
  target : BrowserTarget
  created : Bool
  retirement : Option BrowserTarget

inductive ObtainedTarget
  | leased (tab : LiveFollowCrawlerTab)
  | planned (plan : TabPlan)

section Calls

variable {α : Type}

def fail (message : String) : TabScript α := throw { message }

/-- What a callback returns, or throws. -/
def answered : Except String α → TabScript α
  | .ok a => return a
  | .error message => fail message

/-- `if (!result.ok) throw new Error(…)`. -/
def accepted (message : String) : Except TabLeaseConflict α → TabScript α
  | .ok a => return a
  | .error conflict => fail (message ++ ": " ++ conflict.kind ++ ".")

/-- `requireNonEmpty` of the coordinator. -/
@[irreducible] def requireText (value name : String) : TabScript String :=
  if trim value = "" then fail (name ++ " must not be empty.") else return trim value

/-- A result of the registry, unless it throws. -/
def registryResult (result : Checked α) : Except TabError (Except TabLeaseConflict α) :=
  (settled result).mapError fun message => { message }

variable (host : TabHost) (place : TabCall)

def callRegistry (operation : RegistryOptions → Registry → Checked α × Registry) :
    TabScript (Except TabLeaseConflict α) := Script.perform fun s =>
  let out := operation (host.options place) s.registry
  match host.registryAnswer place with
  | .decided => (registryResult out.1, { s with registry := out.2 })
  | .stopped stop => (registryResult (.error stop), s)
  | .failedAfterwards message => (.error { message }, { s with registry := out.2 })

/-- The text of what stops a call. -/
def stopMessage : Stop TabLeaseConflict → String
  | .refused conflict => conflict.kind
  | .thrown message => message

/-- A call of the registry that only reads; it refuses nothing. -/
def readRegistry (read : RegistryOptions → Registry → Checked α) : TabScript α := look fun s =>
  match host.registryAnswer place with
  | .decided => (read (host.options place) s.registry).mapError fun stop => { message := stopMessage stop }
  | .stopped stop => .error { message := stopMessage stop }
  | .failedAfterwards message => .error { message }

def rewriteLease (table : CaseTable) (operation : LeaseOperation) :
    TabScript (Except TabLeaseConflict BrowserTabLease) := callRegistry host place fun options registry =>
  (operation.rewrite table options registry, storeLease registry (operation.rewrite table options registry))

/-- `input.closeTarget`. -/
def closeTarget (rollback : Bool) (targetId : String) : TabScript PUnit := Script.perform fun s =>
  match host.closeAnswer place with
  | .closed => (.ok ⟨⟩, s.close rollback targetId)
  | .failed message => (.error { message }, s)
  | .failedAfterwards message => (.error { message }, s.close rollback targetId)

end Calls

/-! ## Routes -/

section Routes

variable (host : TabHost)

def isProviderRoute (actualUrl expectedUrl : String) : Bool :=
  match host.parseUrl actualUrl, host.parseUrl expectedUrl with
  | some actual, some expected => actual.hostname == expected.hostname
  | _, _ => false

/-- `value.replace(/\/+$/, "") || "/"`. -/
def normalizePath (value : String) : String :=
  let stripped := String.ofList ((value.toList.reverse.dropWhile (· == '/')).reverse)
  if stripped = "" then "/" else stripped

def isExactProviderRoute (actualUrl expectedUrl : String) : Bool :=
  match host.parseUrl actualUrl, host.parseUrl expectedUrl with
  | some actual, some expected =>
    actual.origin == expected.origin && normalizePath actual.pathname == normalizePath expected.pathname
  | _, _ => false

end Routes

/-! ## The target -/

section Obtain

variable (table : CaseTable) (host : TabHost) (input : DedicatedBrowserTabInput) (workload : TabLeaseWorkload)

/-- `now().toISOString()` at a call. -/
def timeAt (place : TabCall) : DateString := .at (host.now place).ms

/-- The lease of an absent browser, lost if it is not lost yet. -/
def fenceAbsentLease (n : Nat) (lease : BrowserTabLease) : TabScript (Except TabLeaseConflict BrowserTabLease) :=
  if lease.state == .lost then return .ok lease
  else rewriteLease host (.absentLost n) table
    (.markLost ⟨lease.leaseId, lease.revision, timeAt host .absent, .targetMissing⟩)

/-- The loop of `releaseAbsentBrowserTabLeases`. -/
def releaseAbsentLeases : Nat → List BrowserTabLease → TabScript PUnit
  | _, [] => return ⟨⟩
  | n, lease :: rest =>
    if lease.effectState == .inFlight || lease.effectState == .outcomeUnknown then releaseAbsentLeases (n + 1) rest
    else do
      let lost ← fenceAbsentLease table host n lease
      let lost ← accepted "Absent browser tab fencing failed" lost
      let released ← rewriteLease host (.absentReleased n) table
        (.releaseLost { leaseId := lost.leaseId, expectedRevision := lost.revision, now := timeAt host .absent
                        disposition := .alreadyMissing })
      discard (accepted "Absent browser tab release failed" released)
      releaseAbsentLeases (n + 1) rest

/-- The leases of an absent browser: `list({ scope, states: ["idle", "lost"] })`. -/
def releaseAbsentBrowserTabLeases (absent : Bool) : TabScript PUnit :=
  if absent then do
    let leases ← readRegistry host .absent fun _ registry => .ok (registry.leases.values.filter fun lease =>
      lease.scope.managedBrowserProfile == input.scope.managedBrowserProfile &&
        lease.scope.service == input.scope.service && (lease.state == .idle || lease.state == .lost))
    releaseAbsentLeases table host 0 leases
  else return ⟨⟩

def findByWorkload (registry : Registry) : Checked (Option BrowserTabLease) := do
  let scope ← normalizeScope table input.scope
  let workload ← normalizeWorkload workload
  return registry.leases.values.find? fun lease =>
    fenced lease.state && sameOwnershipScope lease.scope scope && sameWorkload lease.workload workload

def findExisting : TabScript (Option BrowserTabLease) := do
  let ofProcess ← readRegistry host .foundByProcess fun options => findByProcess options table input.scope
  match ofProcess with
  | some lease => return some lease
  | none => readRegistry host .foundByWorkload fun _ => findByWorkload table input workload

def releaseMissingCrawler (lease : BrowserTabLease) : TabScript PUnit := do
  let lost ← rewriteLease host .missingLost table
    (.markLost ⟨lease.leaseId, lease.revision, timeAt host .missingLost, .targetMissing⟩)
  let lost ← accepted "Live-follow missing crawler loss failed" lost
  let released ← rewriteLease host .missingReleased table
    (.releaseLost { leaseId := lost.leaseId, expectedRevision := lost.revision, now := timeAt host .missingLost
                    disposition := .alreadyMissing })
  discard (accepted "Live-follow missing crawler release failed" released)

def assertEndpoint (endpoint : LiveFollowBrowserEndpoint) : TabScript PUnit :=
  if trim endpoint.host = "" ∨ endpoint.port ≤ 0 then fail "Live-follow crawler requires an exact DevTools endpoint."
  else if endpoint.managedBrowserProfile ≠ input.scope.managedBrowserProfile then
    fail "Live-follow crawler endpoint belongs to a different managed browser profile."
  else return ⟨⟩

/-- An unloaded page that the process owns. -/
def ownedUnloadedTarget (existing : BrowserTabLease) (inspected : Option String) : Bool :=
  !input.requireExistingTarget && existing.processBinding.isSome &&
  (match existing.workload with
    | .ephemeral _ => true
    | .liveFollow _ => input.allowOwnedUnloadedTarget
    | _ => false) &&
  existing.targetFingerprint == some "about:blank" && inspected == some "about:blank" &&
  (existing.effectState == .none || existing.effectState == .settled)

/-- The route that an existing tab has to be on. -/
def isExpectedRoute (url : String) : Bool :=
  if input.requireExistingTarget then isExactProviderRoute host url input.targetUrl
  else isProviderRoute host url input.targetUrl

/-- The existing tab is taken, and the adoption recorded. -/
def adoptExisting (endpoint : LiveFollowBrowserEndpoint) (existing : BrowserTabLease) (unloaded : Bool) :
    TabScript LiveFollowCrawlerTab := do
  change fun s => { s with adopted := some existing.targetId, closed := [] }
  let acquired ← rewriteLease host .acquired table (if existing.processBinding.isSome then
      .acquireProcess ⟨existing.leaseId, existing.revision, input.scope, workload, input.operationId,
        timeAt host .acquired, input.idleTtlMs, input.absoluteTtlMs⟩
    else .acquire ⟨input.scope, workload, input.operationId, timeAt host .acquired, true⟩)
  let lease ← accepted "Live-follow crawler lease acquisition failed" acquired
  let recorded ← rewriteLease host .adopted table
    (.recordTargetAction ⟨claimOf lease, .adopted, timeAt host .adopted, input.idleTtlMs⟩)
  let lease ← accepted "Live-follow crawler adoption accounting failed" recorded
  return ⟨unloaded, lease, claimOf lease, endpoint⟩

/-- An existing tab on another route: its lease is lost, and the page closed where an exact one is required. -/
def replaceStale (existing : BrowserTabLease) : TabScript PUnit := do
  if existing.processBinding.isSome && (existing.retention == some .liveFollow || !input.requireExistingTarget) then
    fail "The process tab is on an incompatible provider route; a second tab is forbidden."
  else do
    let lost ← rewriteLease host .staleLost table
      (.markLost ⟨existing.leaseId, existing.revision, timeAt host .staleLost, .identityConflict⟩)
    let lost ← accepted "Live-follow crawler loss failed" lost
    if !input.requireExistingTarget then fail "Live-follow crawler target is live on a different provider route."
    else do
      closeTarget host .staleClosed false existing.targetId
      let released ← rewriteLease host .staleReleased table
        (.releaseLost { leaseId := lost.leaseId, expectedRevision := lost.revision, now := timeAt host .staleReleased
                        disposition := .closed })
      discard (accepted "Live-follow crawler stale-target release failed" released)

/-- The existing tab: adopted, or out of the way. -/
def visitExisting (endpoint : Option LiveFollowBrowserEndpoint) (existing : BrowserTabLease) :
    TabScript (Option LiveFollowCrawlerTab) :=
  if existing.processBinding.isSome && existing.state != .idle then
    fail "The process tab is already owned by running or fenced work."
  else
    match endpoint with
    | none => fail "Live-follow crawler target cannot be verified without its browser endpoint."
    | some endpoint => do
      assertEndpoint input endpoint
      let inspected ← answered (host.inspectExisting existing.targetId)
      match inspected with
      | none => do
        releaseMissingCrawler table host existing
        return none
      | some url =>
        let unloaded := ownedUnloadedTarget input existing inspected
        if unloaded || isExpectedRoute host input url then do
          let tab ← adoptExisting table host input workload endpoint existing unloaded
          return some tab
        else do
          replaceStale table host input existing
          return none

/-- The browser is started under the profile's control. -/
def startEndpoint : TabScript LiveFollowBrowserEndpoint :=
  if input.requireExistingTarget then fail "Dedicated browser work requires an existing compatible target."
  else do
    let control ← callRegistry host .startup fun options => acquireProfileControl table options
      ⟨input.scope.control, .browserStartup, input.operationId, timeAt host .startup,
        input.profileControlTtlMs.getD (.finite 60000)⟩
    let control ← accepted "Live-follow browser startup control denied" control
    match control with
    | .profileControlActive _ => fail "Live-follow browser startup control denied: profile-control-active."
    | .tabLeasesActive _ => fail "Live-follow browser startup control denied: tab-leases-active."
    | .acquired control => do
      let released ← callRegistry host .startupReleased fun _ => releaseProfileControl
        ⟨⟨control.controlId, control.revision, control.ownerOperationId⟩, timeAt host .startupReleased⟩
      let released ← accepted "Live-follow browser startup control release failed" released
      let endpoint ← answered host.startBrowser
      if released then return endpoint else fail "Live-follow browser startup control release failed."

/-- A call of the governor, if there is one. -/
def governed (call : TrafficGovernor → Except String PUnit) : Except String PUnit :=
  (host.governor.map call).getD (.ok ⟨⟩)

/-- The targets that a lease holds; the legacy census leases do not count where an existing page is required. -/
def ownedTargetIds (exact : Bool) (registry : Registry) : List String :=
  (registry.leases.values.filter fun lease => lease.state != .released &&
    !(exact && lease.state == .idle && isUnownedBrowserTabLease lease)).map (·.targetId)

/-- The listed targets that nobody owns. -/
def unownedTargets (owned : List String) (targets : List BrowserTarget) : List BrowserTarget :=
  targets.filter fun target => trim target.targetId ≠ "" && !owned.contains target.targetId

def selectExistingTarget : TabScript BrowserTarget :=
  match host.listTargets with
  | none => fail "Dedicated browser work cannot inspect existing targets."
  | some listing => do
    let leases ← readRegistry host .listed fun _ registry => .ok registry
    let targets ← answered listing
    let compatible := (unownedTargets (ownedTargetIds true leases) targets).filter fun target =>
      isExactProviderRoute host target.url input.targetUrl
    match compatible with
    | [] => fail "Dedicated browser work found no existing compatible target."
    | _ :: _ :: _ => fail "Dedicated browser work found multiple existing compatible targets."
    | [selected] =>
      match leases.leases.values.find? fun lease => lease.targetId == selected.targetId && lease.state == .idle with
      | none => return selected
      | some deadlineLease => do
        let released ← rewriteLease host .transferred table
          (.releasePreserved ⟨deadlineLease.leaseId, deadlineLease.revision, timeAt host .transferred⟩)
        discard (accepted "Existing target deadline transfer failed" released)
        return selected

/-- The page of a browser that was just started: one to adopt, or one to retire. -/
def prepareColdStartTarget : TabScript (Option BrowserTarget × Option BrowserTarget) :=
  if input.coldStartTargetPolicy == some .create then
    if host.governor.isNone then fail "Owned cold-start target creation requires a provider traffic governor."
    else if host.listTargets.isNone then fail "Owned cold startup requires a physical target census."
    else return (none, none)
  else
    match host.listTargets with
    | none => return (none, none)
    | some listing => do
      let leases ← readRegistry host .listed fun _ registry => .ok registry
      let targets ← answered listing
      let unowned := unownedTargets (ownedTargetIds false leases) targets
      let compatible := unowned.filter fun target => isProviderRoute host target.url input.targetUrl
      match compatible, unowned with
      | _ :: _ :: _, _ => fail "Live-follow browser startup returned multiple compatible unowned targets."
      | [target], _ => return (some target, none)
      | [], _ :: _ :: _ => fail "Live-follow browser startup returned multiple incompatible unowned targets."
      | [], unowned => return (none, unowned.head?)

/-- The part of `openPlannedPreLeaseTarget` up to the opening of the target. -/
def openPlannedPreLeaseTarget : TabScript BrowserTarget := do
  answered (governed host (·.begin))
  match host.openTarget (input.targetCreationUrl.getD input.targetUrl) with
  | .ok target => do
    change fun s => { s with created := some target.targetId, closed := [] }
    return target
  | .error message => do
    answered (governed host (·.settleFailed))
    fail message

/-- The page to adopt. -/
def adoptTarget (endpoint : LiveFollowBrowserEndpoint) (target : BrowserTarget) : TabScript ObtainedTarget := do
  change fun s => { s with adopted := some target.targetId, closed := [] }
  return .planned ⟨endpoint, target, false, none⟩

/-- A new page, and the startup page it replaces. -/
def createTarget (endpoint : LiveFollowBrowserEndpoint) (retirement : Option BrowserTarget) :
    TabScript ObtainedTarget := do
  let target ← openPlannedPreLeaseTarget host input
  return .planned ⟨endpoint, target, true, retirement⟩

/-- The endpoint of a browser that was there, or is started. -/
def liveEndpoint : Option LiveFollowBrowserEndpoint → TabScript LiveFollowBrowserEndpoint
  | some endpoint => return endpoint
  | none => startEndpoint table host input

/-- The pages of a browser that is started. -/
def coldStartTarget : Option LiveFollowBrowserEndpoint → TabScript (Option BrowserTarget × Option BrowserTarget)
  | some _ => return (none, none)
  | none => prepareColdStartTarget host input

/-- The page to provision. -/
def planTarget (found : Option LiveFollowBrowserEndpoint) : TabScript ObtainedTarget := do
  let endpoint ← liveEndpoint table host input found
  assertEndpoint input endpoint
  if input.requireExistingTarget then do
    let selected ← selectExistingTarget table host input
    adoptTarget endpoint selected
  else do
    let coldStart ← coldStartTarget host input found
    match coldStart.1 with
    | some page => adoptTarget endpoint page
    | none => createTarget host input endpoint coldStart.2

/-- `!endpoint && (await input.verifyBrowserAbsent?.()) === true`. -/
def browserAbsent (found : Option LiveFollowBrowserEndpoint) : TabScript Bool :=
  match found, host.verifyBrowserAbsent with
  | none, some verified => answered verified
  | _, _ => return false

/-- The tab that is there already, if the browser is: it is adopted or out of the way. -/
def settleExisting (found : Option LiveFollowBrowserEndpoint) (absent : Bool) :
    Option BrowserTabLease → TabScript (Option LiveFollowCrawlerTab)
  | none => return none
  | some lease =>
    if absent then do
      releaseMissingCrawler table host lease
      return none
    else visitExisting table host input workload found lease

def obtainTarget : TabScript ObtainedTarget := do
  let found ← answered host.resolveExistingEndpoint
  let absent ← browserAbsent host found
  releaseAbsentBrowserTabLeases table host input absent
  let existing ← findExisting table host input workload
  let tab ← settleExisting table host input workload found absent existing
  match tab with
  | some tab => return .leased tab
  | none => planTarget table host input found

end Obtain

/-! ## Its provisioning -/

section Provision

variable (table : CaseTable) (host : TabHost) (input : DedicatedBrowserTabInput) (workload : TabLeaseWorkload)

/-- How the settlement of a created target ends. -/
def settlement (plan : TabPlan) : Except String PUnit :=
  if plan.created then governed host (·.settleSucceeded) else .ok ⟨⟩

/-- The rest of `openPlannedPreLeaseTarget`: the opened target is settled, or closed again. -/
def settleTarget (plan : TabPlan) : TabScript PUnit :=
  match settlement host plan with
  | .ok _ => return ⟨⟩
  | .error message => do
    closeTarget host .unsettledClosed true plan.target.targetId
    fail message

/-- The reservation of a target. -/
def reservationOf (plan : TabPlan) : ReserveTabLeaseInput where
  scope := input.scope
  targetId := trim plan.target.targetId
  workload := workload
  operationId := input.operationId
  now := timeAt host .reserved
  idleTtlMs := input.idleTtlMs
  absoluteTtlMs := input.absoluteTtlMs
  targetFingerprint := some (trim plan.target.url)
  processBound := true

def reserveTarget (plan : TabPlan) : TabScript (Except TabLeaseConflict BrowserTabLease) := do
  discard (requireText plan.target.targetId "targetId")
  discard (requireText plan.target.url "targetUrl")
  callRegistry host .reserved fun options => reserve table options (reservationOf host input workload plan)

/-- The rollback of a lease whose provisioning could not be recorded. -/
def rollBackLease (plan : TabPlan) (lease : BrowserTabLease) (accountingError : String) :
    TabScript LiveFollowCrawlerTab := do
  let lost ← rewriteLease host .provisioningLost table
    (.markLost ⟨lease.leaseId, lease.revision, timeAt host .provisioningLost, .provisioningFailed⟩)
  match lost with
  | .error conflict => throw {
      message := "Live-follow crawler accounting and rollback fencing both failed."
      errors := [accountingError, "Crawler rollback fence failed: " ++ conflict.kind ++ "."] }
  | .ok lost => do
    (closeTarget host .lostClosed true plan.target.targetId).orElse fun closeError => throw {
      message := "Live-follow crawler accounting failed and its lost target could not be closed."
      errors := [accountingError, closeError.message] }
    let released ← rewriteLease host .lostReleased table
      (.releaseLost { leaseId := lost.leaseId, expectedRevision := lost.revision, now := timeAt host .lostReleased
                      disposition := .closed })
    match released with
    | .error conflict => throw {
        message := "Live-follow crawler accounting failed and its closed lease could not be released."
        errors := [accountingError, "Crawler rollback release failed: " ++ conflict.kind ++ "."] }
    | .ok _ => fail accountingError

/-- `confirmColdStartTargetRetirement`. -/
def confirmColdStartTargetRetirement (url : String) : List (Except String (Option String)) → TabScript PUnit
  | [] => fail "Live-follow browser startup target remained present after close."
  | inspection :: rest => do
    let current ← answered inspection
    match current with
    | none => return ⟨⟩
    | some seen =>
      if seen ≠ url then fail "Startup target changed during close confirmation."
      else confirmColdStartTargetRetirement url rest

/-- The startup page is closed, if it is still there and the same. -/
def closeStartupTarget (retirement : BrowserTarget) : TabScript PUnit := do
  let current ← answered (host.inspectRetirement retirement.targetId)
  match current with
  | none => return ⟨⟩
  | some url =>
    if url ≠ retirement.url then fail "Cold-start target changed before retirement; preserving it."
    else do
      closeTarget host .retiredClosed false retirement.targetId
      confirmColdStartTargetRetirement retirement.url host.confirmations

/-- When the startup page cannot be retired, the lease of its replacement is retained idle. -/
def retireStartupTarget (plan : TabPlan) (lease : BrowserTabLease) : TabScript PUnit :=
  match plan.retirement with
  | none => return ⟨⟩
  | some retirement => (closeStartupTarget host retirement).orElse fun error => do
    let retained ← rewriteLease host .idled table
      (.idle { claim := claimOf lease, now := timeAt host .idled, effectState := .settled
               notInFlight := settled_notInFlight })
    match retained with
    | .error _ => throw {
        message := "Cold-start retirement failed; replacement custody remains fenced."
        errors := [error.message, "Replacement lease could not be idled."] }
    | .ok _ => throw {
        message := "Cold-start retirement failed; replacement retained under lease " ++ lease.leaseId ++ "."
        cause := some error.message }

/-- The lease records how its target was obtained. -/
def provisionLease (plan : TabPlan) (lease : BrowserTabLease) : TabScript LiveFollowCrawlerTab := do
  let provisioned ← rewriteLease host .provisioned table
    (.recordTargetAction ⟨claimOf lease, if plan.created then .targetCreated else .adopted, timeAt host .provisioned,
      input.idleTtlMs⟩)
  match provisioned with
  | .error conflict =>
    rollBackLease table host plan lease ("Live-follow crawler " ++ (if plan.created then "creation" else "adoption") ++
      " accounting failed: " ++ conflict.kind ++ ".")
  | .ok provisioned => do
    retireStartupTarget table host plan provisioned
    return ⟨plan.target.url == "about:blank", provisioned, claimOf provisioned, plan.endpoint⟩

/-- A target whose reservation was refused is closed again, if the call has created it. -/
def refuseTarget (plan : TabPlan) (conflict : TabLeaseConflict) : TabScript LiveFollowCrawlerTab := do
  if plan.created then closeTarget host .refusedClosed true plan.target.targetId else pure ⟨⟩
  fail ("Live-follow crawler lease reservation failed: " ++ conflict.kind ++ ".")

def provisionTarget (plan : TabPlan) : TabScript LiveFollowCrawlerTab := do
  settleTarget host plan
  let reserved ← reserveTarget table host input workload plan
  match reserved with
  | .error conflict => refuseTarget host plan conflict
  | .ok lease => provisionLease table host input plan lease

def acquireDedicatedBrowserTab : TabScript LiveFollowCrawlerTab := do
  let obtained ← obtainTarget table host input workload
  match obtained with
  | .leased tab => return tab
  | .planned plan => provisionTarget table host input workload plan

end Provision

end AuraCall.AccountMirror
