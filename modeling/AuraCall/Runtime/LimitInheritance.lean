import AuraCall.Runtime.TenantScope

/-!
# Inherited tenant limits

The limits of a tenant are set at three levels: the defaults, `tenantLimits` of the service, and `tenantLimits` of the
service in a runtime profile. `mergeTenantLimits` leaves a limit as it is where an entry has it `undefined`, but a level is
read to a record in which a limit that is not set is `null` (`mergeTenantLimits_eq_mergeEntries`). So the most specific
level there is decides every limit: one that it does not set is taken away (`limit_inherited_iff`).
-/

namespace AuraCall.Runtime

/-! ## Merging as it is written -/

/-- `Partial<TenantChatExecutionLimits>`: a field is `undefined`, `null` or a limit. -/
structure PartialTenantLimits where
  maxConcurrentChats : Option (Option Int)
  maxChatsPerHour : Option (Option Int)
  maxChatsPerDay : Option (Option Int)

/-- No field that is read is `undefined`. -/
def TenantChatExecutionLimits.asPartial (limits : TenantChatExecutionLimits) : PartialTenantLimits :=
  ⟨some limits.maxConcurrentChats, some limits.maxChatsPerHour, some limits.maxChatsPerDay⟩

/-- One turn of the loop of `mergeTenantLimits`. -/
def mergeEntry (merged : TenantChatExecutionLimits) (entry : PartialTenantLimits) : TenantChatExecutionLimits where
  maxConcurrentChats := entry.maxConcurrentChats.getD merged.maxConcurrentChats
  maxChatsPerHour := entry.maxChatsPerHour.getD merged.maxChatsPerHour
  maxChatsPerDay := entry.maxChatsPerDay.getD merged.maxChatsPerDay

def mergeEntries (entries : List (Option PartialTenantLimits)) : TenantChatExecutionLimits :=
  entries.foldl (fun merged entry => entry.elim merged (mergeEntry merged)) ⟨none, none, none⟩

/-- Entries without `undefined` fields replace each other. -/
theorem mergeTenantLimits_eq_mergeEntries (entries : List (Option TenantChatExecutionLimits)) :
    mergeTenantLimits entries = mergeEntries (entries.map (·.map TenantChatExecutionLimits.asPartial)) := by
  unfold mergeTenantLimits mergeEntries
  rw [List.foldl_map]
  congr 1
  funext merged entry
  cases entry <;> rfl

/-! ## Levels -/

/-- `config.services.chatgpt.tenantLimits`, if it is a record. -/
def serviceLimits (config : JsonRecord) : Option JsonRecord :=
  (((config.record? "services").bind (·.record? "chatgpt")).bind (·.get "tenantLimits")).bind (·.record?)

/-- `tenantLimits` of the service in the runtime profile, if it is a record. -/
def runtimeProfileLimits (config : JsonRecord) (runtimeProfileId : Option String) : Option JsonRecord :=
  ((((configuredRuntimeProfile config runtimeProfileId).bind (·.record? "services")).bind
    (·.record? "chatgpt")).bind (·.get "tenantLimits")).bind (·.record?)

/-- The most specific level that there is, beside the defaults. -/
def decidingLevel (config : JsonRecord) (runtimeProfileId : Option String) : Option JsonRecord :=
  runtimeProfileLimits config runtimeProfileId <|> serviceLimits config

inductive TenantLimit
  | maxConcurrentChats | maxChatsPerHour | maxChatsPerDay
  deriving DecidableEq

def TenantLimit.name : TenantLimit → String
  | maxConcurrentChats => "maxConcurrentChats"
  | maxChatsPerHour => "maxChatsPerHour"
  | maxChatsPerDay => "maxChatsPerDay"

def TenantLimit.of (limits : TenantChatExecutionLimits) : TenantLimit → Option Int
  | maxConcurrentChats => limits.maxConcurrentChats
  | maxChatsPerHour => limits.maxChatsPerHour
  | maxChatsPerDay => limits.maxChatsPerDay

/-- The limit of the most specific level that sets it to a positive integer. -/
def inheritedLimit (config : JsonRecord) (runtimeProfileId : Option String) (limit : TenantLimit) : Option Int :=
  (runtimeProfileLimits config runtimeProfileId).bind (·.positiveInteger? limit.name) <|>
    (serviceLimits config).bind (·.positiveInteger? limit.name) <|> limit.of defaultChatgptTenantLimits

/-- A level that is read: each limit of its record, `null` where it is not set. -/
theorem readTenantLimits_eq (value : Option Json) :
    readTenantLimits value = (value.bind (·.record?)).map fun record =>
      ⟨record.positiveInteger? TenantLimit.maxConcurrentChats.name,
        record.positiveInteger? TenantLimit.maxChatsPerHour.name,
        record.positiveInteger? TenantLimit.maxChatsPerDay.name⟩ := rfl

/-- The deciding level decides every limit. -/
theorem of_resolveChatgptTenantLimits (config : JsonRecord) (runtimeProfileId : Option String) (limit : TenantLimit) :
    limit.of (resolveChatgptTenantLimits config runtimeProfileId) =
      (decidingLevel config runtimeProfileId).elim (limit.of defaultChatgptTenantLimits)
        (·.positiveInteger? limit.name) := by
  unfold resolveChatgptTenantLimits decidingLevel
  simp only [readTenantLimits_eq]
  show limit.of (mergeTenantLimits [some defaultChatgptTenantLimits, (serviceLimits config).map _,
    (runtimeProfileLimits config runtimeProfileId).map _]) = _
  cases runtimeProfileLimits config runtimeProfileId with
  | some level => cases limit <;> rfl
  | none =>
    cases serviceLimits config with
    | some level => cases limit <;> rfl
    | none => rfl

/-- **A limit is inherited if and only if the most specific level sets it**: the effective limit is that of the most
specific level with a positive integer for it, unless a level that is more specific has limits without this one. -/
theorem limit_inherited_iff (config : JsonRecord) (runtimeProfileId : Option String) (limit : TenantLimit) :
    limit.of (resolveChatgptTenantLimits config runtimeProfileId) = inheritedLimit config runtimeProfileId limit ↔
      ∀ level ∈ decidingLevel config runtimeProfileId, (level.positiveInteger? limit.name).isSome = true := by
  obtain ⟨max, hmax⟩ : ∃ max, limit.of defaultChatgptTenantLimits = some max := by cases limit <;> exact ⟨_, rfl⟩
  rw [of_resolveChatgptTenantLimits]
  unfold inheritedLimit decidingLevel
  rw [hmax]
  cases runtimeProfileLimits config runtimeProfileId with
  | some level =>
    cases hlevel : level.positiveInteger? limit.name with
    | some value => simp [hlevel]
    | none => cases (serviceLimits config).bind (·.positiveInteger? limit.name) <;> simp [hlevel]
  | none =>
    cases serviceLimits config with
    | some level => cases hlevel : level.positiveInteger? limit.name <;> simp [hlevel]
    | none => simp

/-- **An hourly limit takes the concurrency limit away**, which the defaults set. -/
theorem hourly_limit_only : ¬∀ (config : JsonRecord) (runtimeProfileId : Option String) (limit : TenantLimit),
    limit.of (resolveChatgptTenantLimits config runtimeProfileId) = inheritedLimit config runtimeProfileId limit := by
  intro hall
  have hlimit := hall [("services", .object [("chatgpt", .object [("tenantLimits", .object
    [("maxChatsPerHour", .number (.finite 60))])])])] none .maxConcurrentChats
  revert hlimit
  decide +kernel

end AuraCall.Runtime
