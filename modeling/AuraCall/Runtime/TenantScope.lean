import AuraCall.Runtime.SchedulerAuthority

/-!
# ChatGPT tenants

The tenant of a step is the service account that the configuration names for its runtime profile, else the runtime
profile, else the browser profile. A tenant has the default limits, unless the global service configuration has its own,
or that of the runtime profile.
-/

namespace AuraCall.Runtime

/-! ## Service accounts -/

/-- `.replace(/\s+/g, ' ')`. -/
def collapseWhiteSpace : List Char → List Char
  | [] => []
  | c :: cs =>
    if isWhiteSpace c && cs.head?.any isWhiteSpace then collapseWhiteSpace cs
    else (if isWhiteSpace c then ' ' else c) :: collapseWhiteSpace cs

def normalizeServiceAccountIdentityKey (table : CaseTable) (value : Option Json) : Option String :=
  match value.bind (·.string?) with
  | none => none
  | some text =>
    let separated := (trim text).toList.map fun c => if c == '|' || c == '=' then ' ' else c
    truthy (some (table.toLowerCase (String.ofList (collapseWhiteSpace separated))))

def readIdentityKey (table : CaseTable) (identity : JsonRecord) (keys : List String) : Option String :=
  keys.findSome? fun key => normalizeServiceAccountIdentityKey table (identity.get key)

def readIdentityQualifiers (table : CaseTable) (identity : JsonRecord) : List (String × String) :=
  [("account-id", "accountId"), ("org", "organizationId"), ("plan", "accountPlanType"),
    ("structure", "accountStructure")].filterMap fun (key, field) =>
      (normalizeServiceAccountIdentityKey table (identity.get field)).map (key, ·)

/-- `` qualifiers.map(([key, value]) => `|${key}=${value}`).join('') ``. -/
def qualifierSuffix (qualifiers : List (String × String)) : String :=
  String.join (qualifiers.map fun (key, value) => "|" ++ key ++ "=" ++ value)

def createConfiguredServiceAccountId (table : CaseTable) (serviceId : ExecutionRunServiceId)
    (serviceConfig : Option Json) : Option String :=
  match (serviceConfig.bind (·.record?)).bind (·.record? "identity") with
  | none => none
  | some identity =>
    let account := "service-account:" ++ serviceId.text ++ ":"
    let qualifiers := readIdentityQualifiers table identity
    match readIdentityKey table identity ["email", "handle", "id", "name"] with
    | some identityKey => some (account ++ identityKey ++ qualifierSuffix qualifiers)
    | none =>
      (normalizeServiceAccountIdentityKey table (identity.get "accountId")).map fun accountId =>
        account ++ "account-id=" ++ accountId ++ qualifierSuffix (qualifiers.filter (·.1 != "account-id"))

def getCurrentRuntimeProfiles (config : JsonRecord) : JsonRecord :=
  let targetProfiles := (config.record? "runtimeProfiles").getD []
  if targetProfiles.isEmpty then (config.record? "profiles").getD [] else targetProfiles

/-- `runtimeProfileId && isRecord(runtimeProfiles[runtimeProfileId]) ? runtimeProfiles[runtimeProfileId] : null`. -/
def configuredRuntimeProfile (config : JsonRecord) (runtimeProfileId : Option String) : Option JsonRecord :=
  (truthy runtimeProfileId).bind (getCurrentRuntimeProfiles config).record?

def resolveConfiguredServiceAccountId (table : CaseTable) (config : JsonRecord)
    (serviceId : Option ExecutionRunServiceId) (runtimeProfileId : Option String) : Option String :=
  match serviceId with
  | none => none
  | some serviceId =>
    let profileServices := (configuredRuntimeProfile config runtimeProfileId).bind (·.record? "services")
    let globalServices := (config.record? "services").getD []
    createConfiguredServiceAccountId table serviceId (profileServices.bind (·.get serviceId.text)) <|>
      createConfiguredServiceAccountId table serviceId (globalServices.get serviceId.text)

/-! ## Limits -/

/-- A missing limit does not limit. -/
structure TenantChatExecutionLimits where
  maxConcurrentChats : Option Int
  maxChatsPerHour : Option Int
  maxChatsPerDay : Option Int
  deriving DecidableEq

def defaultChatgptTenantLimits : TenantChatExecutionLimits := ⟨some 4, some 120, some 240⟩

/-- A field that is no positive integer is set to `null`, and so takes a limit away. -/
def readTenantLimits (value : Option Json) : Option TenantChatExecutionLimits :=
  (value.bind (·.record?)).map fun record =>
    { maxConcurrentChats := record.positiveInteger? "maxConcurrentChats"
      maxChatsPerHour := record.positiveInteger? "maxChatsPerHour"
      maxChatsPerDay := record.positiveInteger? "maxChatsPerDay" }

/-- `mergeTenantLimits`, where no entry leaves a field `undefined`: the last entry there is. -/
def mergeTenantLimits (entries : List (Option TenantChatExecutionLimits)) : TenantChatExecutionLimits :=
  entries.foldl (fun merged entry => entry.getD merged) ⟨none, none, none⟩

def resolveChatgptTenantLimits (config : JsonRecord) (runtimeProfileId : Option String) : TenantChatExecutionLimits :=
  let globalChatgpt := (config.record? "services").bind (·.record? "chatgpt")
  let runtimeServices := (configuredRuntimeProfile config runtimeProfileId).bind (·.record? "services")
  let runtimeChatgpt := runtimeServices.bind (·.record? "chatgpt")
  mergeTenantLimits [some defaultChatgptTenantLimits, readTenantLimits (globalChatgpt.bind (·.get "tenantLimits")),
    readTenantLimits (runtimeChatgpt.bind (·.get "tenantLimits"))]

/-! ## Scopes -/

/-- The `service` of a scope is always `chatgpt`. -/
structure TenantExecutionScope where
  tenantKey : String
  tenantLabel : String
  limits : TenantChatExecutionLimits

def normalizeNonEmptyString (value : Option String) : Option String := truthy (value.map trim)

/-- The key that `resolveChatgptTenantExecutionScope` gives a scope and `stepMatchesTenantScope` compares. -/
def chatgptTenantKey (table : CaseTable) (config : JsonRecord) (runtimeProfileId browserProfileId : Option String) :
    String :=
  (resolveConfiguredServiceAccountId table config (some .chatgpt) runtimeProfileId <|>
    (truthy runtimeProfileId).map ("runtime-profile:chatgpt:" ++ ·) <|>
      (truthy browserProfileId).map ("browser-profile:chatgpt:" ++ ·)).getD "service:chatgpt:unbound"

def resolveChatgptTenantExecutionScope (table : CaseTable) (config : JsonRecord)
    (runtimeProfileId browserProfileId : Option String) : TenantExecutionScope :=
  let tenantKey := chatgptTenantKey table config runtimeProfileId browserProfileId
  { tenantKey, tenantLabel := tenantKey, limits := resolveChatgptTenantLimits config runtimeProfileId }

def selectExecutionScopeStep (bundle : ExecutionRunRecordBundle) : Option ExecutionRunStep :=
  bundle.steps.find? (·.status == .runnable) <|> bundle.steps.find? (·.status == .running) <|>
    bundle.steps.find? (·.service == some .chatgpt)

def resolveTenantExecutionScope (table : CaseTable) (config : JsonRecord) (record : ExecutionRunStoredRecord) :
    Option TenantExecutionScope :=
  match selectExecutionScopeStep record.value with
  | none => none
  | some step =>
    if step.service = some .chatgpt then
      some (resolveChatgptTenantExecutionScope table config (normalizeNonEmptyString step.runtimeProfileId)
        (normalizeNonEmptyString step.browserProfileId))
    else none

/-- Of the scope, the key decides. -/
def stepMatchesTenantScope (table : CaseTable) (config : JsonRecord) (tenantKey : String) (step : ExecutionRunStep) :
    Bool :=
  step.service == some .chatgpt &&
    chatgptTenantKey table config (normalizeNonEmptyString step.runtimeProfileId)
      (normalizeNonEmptyString step.browserProfileId) == tenantKey

def recordMatchesTenantScope (table : CaseTable) (config : JsonRecord) (tenantKey : String)
    (record : ExecutionRunStoredRecord) : Bool :=
  record.value.steps.any (stepMatchesTenantScope table config tenantKey)

/-- Every chat of the tenant is under a concurrency limit of at most `limit`. -/
def ConcurrencyLimit (table : CaseTable) (config : JsonRecord) (tenantKey : String) (limit : Int) : Prop :=
  ∀ runtimeProfileId browserProfileId, chatgptTenantKey table config runtimeProfileId browserProfileId = tenantKey →
    ∃ max ≤ limit, (resolveChatgptTenantLimits config runtimeProfileId).maxConcurrentChats = some max

theorem ConcurrencyLimit.scope {table : CaseTable} {config : JsonRecord} {tenantKey : String} {limit : Int}
    (h : ConcurrencyLimit table config tenantKey limit) {record : ExecutionRunStoredRecord}
    {scope : TenantExecutionScope} (hs : resolveTenantExecutionScope table config record = some scope)
    (hk : scope.tenantKey = tenantKey) : ∃ max ≤ limit, scope.limits.maxConcurrentChats = some max := by
  unfold resolveTenantExecutionScope at hs
  split at hs
  · cases hs
  · split at hs
    · cases hs
      exact h _ _ hk
    · cases hs

end AuraCall.Runtime
