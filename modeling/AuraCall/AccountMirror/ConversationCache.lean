import AuraCall.AccountMirror.FrontierPlan
import AuraCall.Lib.EventTrace
import AuraCall.Lib.Interleaving

/-!
# The cached conversations of an account mirror

`writeSnapshot` and `updateConversationEvidence` of `cachePersistence.ts`, and how `cache/store.ts` reads the
conversations: the document of the mirror, with what the caches of the projects have besides. Both calls read the
conversations, and replace the document later by what they have made of them. A call whose reading or writing fails ends
there.

The trace has every replacement. `epoch` is not stored: it is the epoch of the snapshot that the document comes from.
-/

namespace AuraCall.AccountMirror.Frontier

open Script

variable (host : FrontierHost)

/-! ## Reading conversations -/

def workStateField : String := "changeFrontierState"

/-- The work state in the metadata of a conversation. -/
def Conversation.workState (conversation : Conversation) : Option ConversationWorkState :=
  normalizeAccountMirrorConversationWorkState host (field conversation.metadata workStateField)

/-- `{ ...record, ...update }`: a field that both have keeps its place. -/
def mergeRecords (record update : JsonRecord) : JsonRecord :=
  (record.map fun entry => (entry.1, (update.get entry.1).getD entry.2)) ++
    update.filter fun entry => (record.get entry.1).isNone

/-- The metadata that was observed in the index last: the left one if the times are equal. -/
def newestConversationIndexMetadata (left right : JsonRecord) : JsonRecord :=
  match readMetadataString left "indexObservedAt", readMetadataString right "indexObservedAt" with
  | none, _ => right
  | _, none => left
  | some leftObservedAt, some rightObservedAt =>
    match host.parseDate leftObservedAt, host.parseDate rightObservedAt with
    | some leftTime, some rightTime => if rightTime ≤ leftTime then left else right
    | _, _ => right

def indexFields : List String := ["indexObservedAt", "indexSource", "indexRank", "conversationFingerprint"]

def mergedMetadata (preferred fallback : JsonRecord) : JsonRecord :=
  let newestIndexMetadata := newestConversationIndexMetadata host preferred fallback
  mergeRecords (mergeRecords fallback preferred)
    (indexFields.filterMap fun key => (newestIndexMetadata.get key).map fun value => (key, value))

def withFallback (preferred fallback : Conversation) : Conversation :=
  { preferred with
    projectId := preferred.projectId.or fallback.projectId
    url := preferred.url.or fallback.url
    updatedAt := preferred.updatedAt.or fallback.updatedAt
    metadata := mergedMetadata host preferred.metadata fallback.metadata }

/-- The host says which one is better: by its title, by its time, or by the rules of Grok. -/
def choosePreferredConversation (existing : Option Conversation) (candidate : Conversation) : Conversation :=
  match existing with
  | none => candidate
  | some existing =>
    match host.preferCandidate existing candidate with
    | some true => withFallback host candidate existing
    | some false => withFallback host existing candidate
    | none =>
      { id := candidate.id
        provider := candidate.provider
        title := if existing.title = "" then candidate.title else existing.title
        projectId := existing.projectId.or candidate.projectId
        url := existing.url.or candidate.url
        updatedAt := existing.updatedAt.or candidate.updatedAt
        metadata := mergedMetadata host candidate.metadata existing.metadata }

/-- `merged.set(item.id, …)`: in place where it is, at the end otherwise. -/
def mergeConversation (merged : List Conversation) (item : Conversation) : List Conversation :=
  if item.id = "" then merged
  else if merged.any (·.id = item.id) then
    merged.map fun existing => if existing.id = item.id then choosePreferredConversation host (some existing) item else existing
  else merged ++ [item]

def mergeConversationLists (lists : List (List Conversation)) : List Conversation :=
  lists.flatten.foldl (mergeConversation host) []

/-! ## Snapshots -/

structure VisitBundle where
  conversationId : String
  freshnessEpoch : String
  fingerprint : Option String
  complete : Bool
  targetsCreated : Nat
  navigations : Nat
  reloads : Nat

structure MetadataEvidence where
  providerIndexEpoch : Json
  changeFrontierPlan : Option ChangeFrontierPlan

structure PersistenceRecord where
  provider : Provider
  runtimeProfileId : String
  browserProfileId : Option String
  boundIdentityKey : String
  completedAt : String
  metadataEvidence : Option MetadataEvidence
  projectCount : Nat
  conversations : List Conversation
  visitBundles : List VisitBundle

def createProviderIndexEpoch (record : PersistenceRecord) : ProviderIndexEpoch :=
  (normalizeAccountMirrorProviderIndexEpoch host ((record.metadataEvidence.map (·.providerIndexEpoch)).getD .null)).getD
    (createAccountMirrorProviderIndexEpoch host
      { provider := record.provider
        runtimeProfileId := record.runtimeProfileId
        browserProfileId := record.browserProfileId
        boundIdentityKey := record.boundIdentityKey
        observedAt := record.completedAt
        projectCount := record.projectCount
        conversations := record.conversations })

/-- What a visit makes of a state. -/
def ConversationWorkState.visited (state : ConversationWorkState) (bundle : VisitBundle) (observedAt : String) :
    ConversationWorkState :=
  { state with
    detailFingerprint := bundle.fingerprint
    action := some .visitOnce
    outcome := if bundle.complete then .complete else .deferred
    checkpointedAt := some observedAt
    physicalActivity := { state.physicalActivity with
      targetsCreated := state.physicalActivity.targetsCreated + bundle.targetsCreated
      navigations := state.physicalActivity.navigations + bundle.navigations
      reloads := state.physicalActivity.reloads + bundle.reloads
      snapshotRefreshes := state.physicalActivity.snapshotRefreshes + 1 } }

/-- The outcome that a decision without a visit leaves. -/
def FrontierDecision.outcome (decision : FrontierDecision) : FrontierOutcome :=
  match decision.action with
  | .defer | .visitOnce => .deferred
  | .materializeRetained => .pending
  | .skip =>
    if decision.reason = .sameEpochTerminal ∨ decision.reason = .providerUnavailable then .terminal else .complete

def ConversationWorkState.decided (state : ConversationWorkState) (decision : FrontierDecision) (observedAt : String) :
    ConversationWorkState :=
  { state with action := some decision.action, outcome := decision.outcome, checkpointedAt := some observedAt }

/-- The last entry of a key. -/
def lastWith {α κ : Type} [DecidableEq κ] (key : α → κ) (items : List α) (k : κ) : Option α :=
  items.reverse.find? fun item => key item = k

/-- The state of a conversation, rolled over to the epoch of a snapshot. -/
def rolledState (epoch : ProviderIndexEpoch) (existingConversations : List Conversation) (conversation : Conversation) :
    ConversationWorkState :=
  let conversationFingerprint := fingerprintAccountMirrorConversationIndexRow host conversation
  let previous := (lastWith Conversation.id existingConversations conversation.id).map (field ·.metadata workStateField)
  rollAccountMirrorConversationWorkState host
    { conversation with
      metadata := mergeRecords conversation.metadata [("conversationFingerprint", .string conversationFingerprint)] }
    epoch (previous.getD .null)

/-- The state of a conversation in a snapshot. -/
def snapshotState (record : PersistenceRecord) (epoch : ProviderIndexEpoch) (existingConversations : List Conversation)
    (conversation : Conversation) : ConversationWorkState :=
  let state := rolledState host epoch existingConversations conversation
  let visitBundles := record.visitBundles.filter (·.freshnessEpoch = epoch.epochId)
  let frontierPlan := (record.metadataEvidence.bind (·.changeFrontierPlan)).filter (·.epochId = epoch.epochId)
  let decisions := (frontierPlan.map (·.decisions)).getD []
  match lastWith VisitBundle.conversationId visitBundles conversation.id with
  | some visitBundle => state.visited visitBundle epoch.observedAt
  | none =>
    match lastWith FrontierDecision.conversationKey decisions state.conversationKey with
    | some frontierDecision => state.decided frontierDecision epoch.observedAt
    | none => state

def annotateSnapshotConversations (record : PersistenceRecord) (epoch : ProviderIndexEpoch)
    (existingConversations : List Conversation) : List Conversation :=
  record.conversations.zipIdx.map fun (conversation, index) =>
    { conversation with
      metadata := mergeRecords conversation.metadata
        [("indexObservedAt", .string record.completedAt),
          ("indexSource", .string (if conversation.projectId.any (· != "") then "project-conversations" else "left-rail")),
          ("indexRank", .ofNat index),
          ("conversationFingerprint", .string (fingerprintAccountMirrorConversationIndexRow host conversation)),
          (workStateField, (snapshotState host record epoch existingConversations conversation).toJson)] }

/-! ## Evidence -/

/-- What work on a conversation has come to. -/
structure FrontierStateEvidence where
  outcome : FrontierOutcome
  assetAvailability : AssetAvailability
  retryNotBefore : Option String
  checkpointedAt : String
  artifactResolutions : Int
  downloads : Int
  duplicates : Int
  settled : outcome ≠ .pending

/-- The fields of evidence that are given, under their names; the work state is not one of them. -/
structure SurfaceEvidence where
  fields : JsonRecord
  surface : ∀ entry ∈ fields, entry.1 ≠ workStateField

structure ConversationEvidence where
  surface : SurfaceEvidence
  frontierState : Option FrontierStateEvidence

def ConversationWorkState.materialized (state : ConversationWorkState) (evidence : FrontierStateEvidence) :
    ConversationWorkState :=
  { state with
    action := some .materializeRetained
    outcome := evidence.outcome
    assetAvailability := evidence.assetAvailability
    retryNotBefore := evidence.retryNotBefore
    checkpointedAt := some evidence.checkpointedAt
    physicalActivity := { state.physicalActivity with
      artifactResolutions := state.physicalActivity.artifactResolutions + evidence.artifactResolutions.toNat
      downloads := state.physicalActivity.downloads + evidence.downloads.toNat
      duplicates := state.physicalActivity.duplicates + evidence.duplicates.toNat } }

def mergeConversationEvidence (conversation : Conversation) (evidence : ConversationEvidence) : Conversation :=
  let metadata := mergeRecords conversation.metadata evidence.surface.fields
  match evidence.frontierState, conversation.workState host with
  | some frontierState, some existingWorkState =>
    { conversation with
      metadata := mergeRecords metadata [(workStateField, (existingWorkState.materialized frontierState).toJson)] }
  | _, _ => { conversation with metadata }

structure Upsert where
  title : Option String
  projectId : Option String
  url : Option String

/-- `value?.trim() || undefined`. -/
def trimmed (value : Option String) : Option String := (value.map trim).filter (· != "")

/-- An evidence update. `plannedEpoch` is the epoch that its work was planned in, which the call is not told. -/
structure EvidenceUpdate where
  provider : Provider
  conversationId : String
  evidence : ConversationEvidence
  upsert : Option Upsert
  plannedEpoch : String

def EvidenceUpdate.id (update : EvidenceUpdate) : String := trim update.conversationId

/-- The conversation that an update adds. -/
def EvidenceUpdate.added (update : EvidenceUpdate) (upsert : Upsert) : Conversation where
  id := update.id
  title := (trimmed upsert.title).getD update.id
  provider := update.provider
  projectId := trimmed upsert.projectId
  url := trimmed upsert.url
  updatedAt := none
  metadata := []

/-- What an update makes of the conversations; `none` when it does not find its own. -/
def EvidenceUpdate.apply (update : EvidenceUpdate) (items : List Conversation) : Option (List Conversation) :=
  if items.any (·.id = update.id) then
    some (items.map fun conversation =>
      if conversation.id = update.id then mergeConversationEvidence host conversation update.evidence else conversation)
  else update.upsert.map fun upsert => items ++ [mergeConversationEvidence host (update.added upsert) update.evidence]

/-- The work states that an update sets. -/
def EvidenceUpdate.marked (update : EvidenceUpdate) (items : List Conversation) : List ConversationWorkState :=
  if update.evidence.frontierState.isSome then (items.filter (·.id = update.id)).filterMap (·.workState host) else []

/-! ## The cache -/

/-- A replacement of the document. An update stands there with the availability that it reports, the epochs of the work
states that it sets, and the epoch of the document it has read. -/
inductive CacheEvent
  | snapshot (epochId : String)
  | evidence (conversationId plannedEpoch : String) (availability : Option AssetAvailability) (marked : List String)
      (read : Option String)
  deriving DecidableEq

/-- How an update stands in the trace. -/
def EvidenceUpdate.event (update : EvidenceUpdate) (items : List Conversation) (read : Option String) : CacheEvent :=
  .evidence update.id update.plannedEpoch (update.evidence.frontierState.map (·.assetAvailability))
    ((update.marked host items).map (·.epochId)) read

structure CacheState where
  conversations : List Conversation
  epoch : Option String
  trace : List CacheEvent

abbrev CacheScript := Script CacheState Unit

/-- What the caches of the projects have at a reading: no work states, which only the mirror writes. -/
structure Supplement where
  lists : List (List Conversation)
  plain : ∀ list ∈ lists, ∀ conversation ∈ list, field conversation.metadata workStateField = .null

/-- `readConversations`, with the epoch of the document. -/
def readConversations (supplement : Supplement) : CacheScript (List Conversation × Option String) :=
  look fun s => .ok (mergeConversationLists host (s.conversations :: supplement.lists), s.epoch)

/-- Another document of the cache is written. -/
def writeOther : CacheScript PUnit := change id

def writeSnapshot (record : PersistenceRecord) (supplement : Supplement) : CacheScript PUnit := do
  let epoch := createProviderIndexEpoch host record
  let (existingConversations, _) ← readConversations host supplement
  writeOther
  writeOther
  change fun s => ⟨annotateSnapshotConversations host record epoch existingConversations, some epoch.epochId,
    s.trace ++ [.snapshot epoch.epochId]⟩
  writeOther
  writeOther
  writeOther

def updateConversationEvidence (update : EvidenceUpdate) (supplement : Supplement) : CacheScript Bool :=
  if update.id = "" then pure false
  else do
    let (items, epoch) ← readConversations host supplement
    match update.apply host items with
    | none => pure false
    | some next => do
      change fun s => ⟨next, epoch, s.trace ++ [update.event host items epoch]⟩
      pure true

inductive CacheCall
  | snapshot (record : PersistenceRecord) (supplement : Supplement)
  | evidence (update : EvidenceUpdate) (supplement : Supplement)

def cacheCall : CacheCall → CacheScript PUnit
  | .snapshot record supplement => writeSnapshot host record supplement
  | .evidence update supplement => do
    let _ ← updateConversationEvidence host update supplement

/-- A new cache. -/
def CacheState.Fresh (s : CacheState) : Prop := s.conversations = [] ∧ s.epoch = none ∧ s.trace = []

/-- All interleavings of any number of calls on one cache. -/
def cacheSystem : TransitionSystem (Threads CacheState Unit PUnit) (Threads.Event CacheCall Empty) :=
  Threads.system CacheState.Fresh (fun _ => cacheCall host) fun _ event => event.elim

end AuraCall.AccountMirror.Frontier
