import AuraCall.AccountMirror.StoreReaders

/-!
# The work state of a mirrored conversation

`changeFrontierState.ts`: what the mirror has done with a conversation in an index epoch. A state is stored as JSON in the
metadata of its conversation, and normalized when it is read. When a new epoch begins, the state is rolled over: some
fields begin anew, others stay.
-/

namespace AuraCall.AccountMirror.Frontier

/-! ## States and epochs -/

inductive FrontierAction | skip | visitOnce | materializeRetained | defer
  deriving DecidableEq

inductive FrontierOutcome | pending | complete | deferred | terminal
  deriving DecidableEq

inductive AssetAvailability | available | unavailable | unknown
  deriving DecidableEq

def FrontierAction.text : FrontierAction → String
  | skip => "skip"
  | visitOnce => "visit_once"
  | materializeRetained => "materialize_retained"
  | defer => "defer"

def FrontierOutcome.text : FrontierOutcome → String
  | pending => "pending"
  | complete => "complete"
  | deferred => "deferred"
  | terminal => "terminal"

def AssetAvailability.text : AssetAvailability → String
  | available => "available"
  | unavailable => "unavailable"
  | unknown => "unknown"

structure PhysicalActivityCounters where
  targetsCreated : Nat
  navigations : Nat
  reloads : Nat
  snapshotRefreshes : Nat
  artifactResolutions : Nat
  downloads : Nat
  duplicates : Nat
  deriving DecidableEq

def emptyPhysicalActivityCounters : PhysicalActivityCounters := ⟨0, 0, 0, 0, 0, 0, 0⟩

def addPhysicalActivityCounters (left right : PhysicalActivityCounters) : PhysicalActivityCounters where
  targetsCreated := left.targetsCreated + right.targetsCreated
  navigations := left.navigations + right.navigations
  reloads := left.reloads + right.reloads
  snapshotRefreshes := left.snapshotRefreshes + right.snapshotRefreshes
  artifactResolutions := left.artifactResolutions + right.artifactResolutions
  downloads := left.downloads + right.downloads
  duplicates := left.duplicates + right.duplicates

/-- An index epoch. Its id is a text, whether it was collected or made here. -/
structure ProviderIndexEpoch where
  epochId : String
  provider : Provider
  runtimeProfileId : String
  browserProfileId : Option String
  identityScopeHash : String
  observedAt : String
  indexFingerprint : String
  conversations : Nat
  projects : Nat
  isText : IsText epochId

structure ConversationWorkState where
  conversationKey : String
  epochId : String
  indexFingerprint : String
  detailFingerprint : Option String
  action : Option FrontierAction
  outcome : FrontierOutcome
  assetAvailability : AssetAvailability
  retryNotBefore : Option String
  checkpointedAt : Option String
  physicalActivity : PhysicalActivityCounters
  lifetimePhysicalActivity : PhysicalActivityCounters
  deriving DecidableEq

structure Conversation where
  id : String
  title : String
  provider : Provider
  projectId : Option String
  url : Option String
  updatedAt : Option String
  metadata : JsonRecord

/-- The host: digests of JSON texts, dates, lower case, and which of two cached versions of a conversation is the better
one (neither, when they are as good). -/
structure FrontierHost where
  fingerprint : Json → String
  fingerprint_text : ∀ value, IsText (fingerprint value)
  parseDate : String → Option Int
  isoString : Int → String
  parseDate_isoString : ∀ text ms, parseDate text = some ms → parseDate (isoString ms) = some ms
  cases : CaseTable
  preferCandidate : Conversation → Conversation → Option Bool

variable (host : FrontierHost)

/-! ## Reading -/

/-- `normalizeOptionalIsoString`. -/
def normalizeOptionalIsoString (value : Json) : Option String :=
  (value.string?.bind host.parseDate).map host.isoString

def normalizeAction (value : Json) : Option FrontierAction :=
  readOneOf [.skip, .visitOnce, .materializeRetained, .defer] FrontierAction.text value

def normalizeOutcome (value : Json) : FrontierOutcome :=
  (readOneOf [.complete, .deferred, .terminal] FrontierOutcome.text value).getD .pending

def normalizeAvailability (value : Json) : AssetAvailability :=
  (readOneOf [.available, .unavailable] AssetAvailability.text value).getD .unknown

/-- `record[key]`, `undefined` as `null`. -/
def field (record : JsonRecord) (key : String) : Json := (record.get key).getD .null

def readMetadataString (metadata : JsonRecord) (key : String) : Option String := readTrimmed (field metadata key)

def normalizePhysicalActivityCounters (value : Json) : PhysicalActivityCounters :=
  let record := value.record?.getD []
  { targetsCreated := readCount (field record "targetsCreated")
    navigations := readCount (field record "navigations")
    reloads := readCount (field record "reloads")
    snapshotRefreshes := readCount (field record "snapshotRefreshes")
    artifactResolutions := readCount (field record "artifactResolutions")
    downloads := readCount (field record "downloads")
    duplicates := readCount (field record "duplicates") }

/-- `value.object === object && value.version === 1`. -/
def hasObject (record : JsonRecord) (object : String) : Bool :=
  record.string? "object" == some object && (record.get "version").bind (·.number?) == some (.finite 1)

def normalizeAccountMirrorConversationWorkState (value : Json) : Option ConversationWorkState := do
  let record ← value.record?
  guard (hasObject record "account_mirror_conversation_work_state")
  let conversationKey ← readTrimmed (field record "conversationKey")
  let epochId ← readTrimmed (field record "epochId")
  let indexFingerprint ← readTrimmed (field record "indexFingerprint")
  pure {
    conversationKey, epochId, indexFingerprint
    detailFingerprint := readTrimmed (field record "detailFingerprint")
    action := normalizeAction (field record "action")
    outcome := normalizeOutcome (field record "outcome")
    assetAvailability := normalizeAvailability (field record "assetAvailability")
    retryNotBefore := normalizeOptionalIsoString host (field record "retryNotBefore")
    checkpointedAt := normalizeOptionalIsoString host (field record "checkpointedAt")
    physicalActivity := normalizePhysicalActivityCounters (field record "physicalActivity")
    lifetimePhysicalActivity := normalizePhysicalActivityCounters (field record "lifetimePhysicalActivity") }

def normalizeIsoString (value : Json) : String := (normalizeOptionalIsoString host value).getD (host.isoString 0)

def normalizeAccountMirrorProviderIndexEpoch (value : Json) : Option ProviderIndexEpoch := do
  let record ← value.record?
  guard (hasObject record "account_mirror_provider_index_epoch")
  let provider ← readOneOf [.chatgpt, .gemini, .grok] Provider.text (field record "provider")
  match hepoch : readTrimmed (field record "epochId") with
  | none => none
  | some epochId => do
    let runtimeProfileId ← readTrimmed (field record "runtimeProfileId")
    let identityScopeHash ← readTrimmed (field record "identityScopeHash")
    let observedAt ← normalizeOptionalIsoString host (field record "observedAt")
    let indexFingerprint ← readTrimmed (field record "indexFingerprint")
    let coverage := (field record "coverage").record?.getD []
    pure {
      epochId, provider, runtimeProfileId, identityScopeHash, observedAt, indexFingerprint
      browserProfileId := readTrimmed (field record "browserProfileId")
      conversations := readCount (field coverage "conversations")
      projects := readCount (field coverage "projects")
      isText := isText_of_readTrimmed hepoch }

/-! ## Writing -/

def PhysicalActivityCounters.toJson (counters : PhysicalActivityCounters) : Json :=
  .object
    [("targetsCreated", countJson counters.targetsCreated), ("navigations", countJson counters.navigations),
      ("reloads", countJson counters.reloads), ("snapshotRefreshes", countJson counters.snapshotRefreshes),
      ("artifactResolutions", countJson counters.artifactResolutions), ("downloads", countJson counters.downloads),
      ("duplicates", countJson counters.duplicates)]

def ConversationWorkState.toJson (state : ConversationWorkState) : Json :=
  .object
    [("object", .string "account_mirror_conversation_work_state"), ("version", countJson 1),
      ("conversationKey", .string state.conversationKey), ("epochId", .string state.epochId),
      ("indexFingerprint", .string state.indexFingerprint), ("detailFingerprint", .ofOption state.detailFingerprint),
      ("action", .ofOption (state.action.map (·.text))), ("outcome", .string state.outcome.text),
      ("assetAvailability", .string state.assetAvailability.text), ("retryNotBefore", .ofOption state.retryNotBefore),
      ("checkpointedAt", .ofOption state.checkpointedAt), ("physicalActivity", state.physicalActivity.toJson),
      ("lifetimePhysicalActivity", state.lifetimePhysicalActivity.toJson)]

/-- `JSON.stringify` leaves out what is undefined. -/
def Conversation.toJson (conversation : Conversation) : Json :=
  .object ([("id", .string conversation.id), ("title", .string conversation.title),
    ("provider", .string conversation.provider.text)] ++ optional "projectId" textJson conversation.projectId ++
    optional "url" textJson conversation.url ++ optional "updatedAt" textJson conversation.updatedAt ++
    [("metadata", .object conversation.metadata)])

/-! ## Epochs -/

def fingerprintAccountMirrorConversationIndexRow (conversation : Conversation) : String :=
  host.fingerprint (.object
    [("id", .string conversation.id), ("title", .string conversation.title),
      ("provider", .string conversation.provider.text), ("projectId", .ofOption conversation.projectId),
      ("url", .ofOption conversation.url), ("updatedAt", .ofOption conversation.updatedAt),
      ("latestTurnId", .ofOption ((readMetadataString conversation.metadata "latestTurnId").or
        (readMetadataString conversation.metadata "lastMessageId")))])

structure ProviderIndexEpochInput where
  provider : Provider
  runtimeProfileId : String
  browserProfileId : Option String
  boundIdentityKey : String
  observedAt : String
  projectCount : Nat
  conversations : List Conversation

def normalizeIdentityKey (value : String) : String := host.cases.toLowerCase (trim value)

def createAccountMirrorProviderIndexEpoch (input : ProviderIndexEpochInput) : ProviderIndexEpoch :=
  let indexFingerprint := host.fingerprint (.array (input.conversations.zipIdx.map fun (conversation, index) =>
    .object
      [("index", .ofNat index), ("id", .string conversation.id), ("title", .string conversation.title),
        ("projectId", .ofOption conversation.projectId), ("updatedAt", .ofOption conversation.updatedAt),
        ("fingerprint", .ofOption (readMetadataString conversation.metadata "conversationFingerprint"))]))
  let identityScopeHash := host.fingerprint (.string (normalizeIdentityKey host input.boundIdentityKey))
  let observedAt := normalizeIsoString host (.string input.observedAt)
  let epoch : Json := .object
    [("provider", .string input.provider.text), ("runtimeProfileId", .string input.runtimeProfileId),
      ("browserProfileId", .ofOption input.browserProfileId), ("identityScopeHash", .string identityScopeHash),
      ("observedAt", .string observedAt), ("indexFingerprint", .string indexFingerprint)]
  { epochId := host.fingerprint epoch
    provider := input.provider
    runtimeProfileId := if trim input.runtimeProfileId = "" then "default" else trim input.runtimeProfileId
    browserProfileId := readTrimmed (.ofOption input.browserProfileId)
    identityScopeHash, observedAt, indexFingerprint
    conversations := input.conversations.length
    projects := input.projectCount
    isText := host.fingerprint_text epoch }

/-- The state of a conversation of an epoch, from its state before. -/
def rollAccountMirrorConversationWorkState (conversation : Conversation) (epoch : ProviderIndexEpoch) (previous : Json) :
    ConversationWorkState :=
  let previous := normalizeAccountMirrorConversationWorkState host previous
  let same := previous.filter fun state => state.epochId = epoch.epochId
  { conversationKey := host.fingerprint (.string (trim conversation.id))
    epochId := epoch.epochId
    indexFingerprint := (readMetadataString conversation.metadata "conversationFingerprint").getD
      (host.fingerprint conversation.toJson)
    detailFingerprint := previous.bind (·.detailFingerprint)
    action := same.bind (·.action)
    outcome := (same.map (·.outcome)).getD .pending
    assetAvailability := (previous.map (·.assetAvailability)).getD .unknown
    retryNotBefore := previous.bind (·.retryNotBefore)
    checkpointedAt := same.bind (·.checkpointedAt)
    physicalActivity := (same.map (·.physicalActivity)).getD emptyPhysicalActivityCounters
    lifetimePhysicalActivity := (same.map (·.lifetimePhysicalActivity)).getD
      (addPhysicalActivityCounters
        ((previous.map (·.lifetimePhysicalActivity)).getD emptyPhysicalActivityCounters)
        ((previous.map (·.physicalActivity)).getD emptyPhysicalActivityCounters)) }

/-! ## What is read of what was written -/

section RoundTrip

variable {host : FrontierHost}

@[simp] theorem field_cons (k key : String) (value : Json) (rest : JsonRecord) :
    field ((k, value) :: rest) key = if key = k then value else field rest key := by
  rw [field, JsonRecord.get_cons]
  split <;> rfl

theorem normalizePhysicalActivityCounters_toJson (counters : PhysicalActivityCounters) :
    normalizePhysicalActivityCounters counters.toJson = counters := by
  simp [normalizePhysicalActivityCounters, PhysicalActivityCounters.toJson]

theorem normalizeAction_text (action : Option FrontierAction) :
    normalizeAction (.ofOption (action.map (·.text))) = action := by
  cases action with
  | none => rfl
  | some action => cases action <;> rfl

theorem normalizeOutcome_text (outcome : FrontierOutcome) : normalizeOutcome (.string outcome.text) = outcome := by
  cases outcome <;> rfl

theorem normalizeAvailability_text (availability : AssetAvailability) :
    normalizeAvailability (.string availability.text) = availability := by
  cases availability <;> rfl

/-- The texts without which a state is not read. -/
structure ConversationWorkState.Named (state : ConversationWorkState) : Prop where
  conversationKey : IsText state.conversationKey
  epochId : IsText state.epochId
  indexFingerprint : IsText state.indexFingerprint

/-- What reading makes of a state that was written. -/
def ConversationWorkState.reread (host : FrontierHost) (state : ConversationWorkState) : ConversationWorkState :=
  { state with
    detailFingerprint := readTrimmed (.ofOption state.detailFingerprint)
    retryNotBefore := normalizeOptionalIsoString host (.ofOption state.retryNotBefore)
    checkpointedAt := normalizeOptionalIsoString host (.ofOption state.checkpointedAt) }

theorem normalize_toJson {state : ConversationWorkState} (h : state.Named) :
    normalizeAccountMirrorConversationWorkState host state.toJson = some (state.reread host) := by
  have hkey := readTrimmed_text h.conversationKey
  have hepoch := readTrimmed_text h.epochId
  have hindex := readTrimmed_text h.indexFingerprint
  rw [textJson] at hkey hepoch hindex
  simp [normalizeAccountMirrorConversationWorkState, ConversationWorkState.toJson, ConversationWorkState.reread, hasObject,
    JsonRecord.string?, countJson, Json.ofNat, Json.number?, hkey, hepoch, hindex, normalizeAction_text,
    normalizeOutcome_text, normalizeAvailability_text, normalizePhysicalActivityCounters_toJson, guard]

/-- What is read has its texts. -/
theorem named_of_normalize {value : Json} {state : ConversationWorkState}
    (h : normalizeAccountMirrorConversationWorkState host value = some state) : state.Named := by
  simp only [normalizeAccountMirrorConversationWorkState, Option.bind_eq_bind, Option.bind_eq_some_iff,
    Option.pure_def, Option.some.injEq] at h
  obtain ⟨record, -, -, -, key, hkey, epochId, hepoch, index, hindex, rfl⟩ := h
  exact ⟨isText_of_readTrimmed hkey, isText_of_readTrimmed hepoch, isText_of_readTrimmed hindex⟩

theorem named_roll (conversation : Conversation) (epoch : ProviderIndexEpoch) (previous : Json) :
    (rollAccountMirrorConversationWorkState host conversation epoch previous).Named := by
  refine ⟨host.fingerprint_text _, epoch.isText, ?_⟩
  show IsText ((readMetadataString conversation.metadata "conversationFingerprint").getD _)
  exact isText_readTrimmed_getD (host.fingerprint_text _)

end RoundTrip

end AuraCall.AccountMirror.Frontier
