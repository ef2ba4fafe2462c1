import AuraCall.AccountMirror.StoreReaders
import AuraCall.Js.JsonText
import AuraCall.Materialization.Jobs

/-!
# History materialization requests

A request as `normalizeCreateRequest` of `historyMaterializationService.ts` returns it, the sources that it is classified as,
and what is made of a conversation of a provider.

The URL parser belongs to the host. A missing field and `null` are one.
-/

namespace AuraCall.Materialization

open AccountMirror (Provider)

/-! ## Words and numbers -/

inductive HistoryAssetKind | artifacts | files | media
  deriving DecidableEq

def HistoryAssetKind.text : HistoryAssetKind → String
  | artifacts => "artifacts"
  | files => "files"
  | media => "media"

inductive CatalogKind | all | projects | conversations | artifacts | files | media
  deriving DecidableEq

/-- The value that the text stands for. -/
def readWord {α : Type} (values : List α) (word : α → String) (text : Option String) : Option α :=
  text.bind fun text => values.find? (word · == text)

def normalizeProviderId : Option String → Option Provider := readWord [.chatgpt, .gemini, .grok] Provider.text

/-- `Array.from(new Set(values))`. -/
def distinct {α : Type} [BEq α] (values : List α) : List α := values.eraseDups

def readAssetKind (text : String) : Option HistoryAssetKind :=
  readWord [.artifacts, .files, .media] HistoryAssetKind.text (some text)

def normalizeAssetKinds (values : List String) : List HistoryAssetKind :=
  if values.isEmpty then [.artifacts, .files]
  else if values.contains "all" then [.artifacts, .files, .media]
  else distinct (values.filterMap readAssetKind)

def normalizeOptionalString (value : Option String) : Option String := (value.map trim).filter (· ≠ "")

/-- The four numbers of an interaction policy. -/
structure InteractionPolicy (ν : Type) where
  maxInteractionsPerMinute : ν
  conversationReadCooldownMs : ν
  pageRefreshCooldownMs : ν
  renavigationCooldownMs : ν
  deriving DecidableEq

/-! ## Requests -/

/-- A request as `normalizeCreateRequest` returns it. -/
structure NormalizedRequest where
  acknowledgeTargetDefaultReset : Bool
  provider : Option Provider
  runtimeProfile : Option String
  browserProfile : Option String
  boundIdentityKey : Option String
  conversationId : Option String
  conversationIds : List String
  providerConversationUrl : Option String
  projectId : Option String
  catalogItemId : Option String
  catalogKind : Option CatalogKind
  archiveItemId : Option String
  reconcile : Bool
  /-- the asset source is the account library -/
  accountLibrary : Bool
  refreshSnapshot : Bool
  reuseSnapshotAfter : Option String
  reuseSnapshotConversationIds : List String
  providerWorkNotBefore : Option String
  interactionPolicy : Option (InteractionPolicy Nat)
  assetKinds : Option (List HistoryAssetKind)
  maxItems : Option Nat
  providerWorkTimeoutMs : Option Nat
  force : Bool
  deriving DecidableEq

/-! ## Gemini conversations -/

structure ParsedUrl where
  hostname : String
  pathname : String
  search : String
  hash : String

/-- What the host decides: the URL parser, and the texts of numbers. -/
structure HistoryHost where
  parseUrl : String → Option ParsedUrl
  numbers : NumberTexts

/-- What follows a word, in either case. -/
def stripWord (word : String) (text : List Char) : Option (List Char) :=
  if (text.take word.length).map Char.toLower = word.toList then some (text.drop word.length) else none

/-- `/^[A-Za-z0-9_-]+$/.test(value)`. -/
def isGeminiConversationId (value : String) : Bool :=
  !value.isEmpty && value.toList.all fun c => c.isAlphanum || c = '_' || c = '-'

def isIgnoredGeminiConversationId (conversationId : String) : Bool := lowerAscii conversationId = "download"

/-- One of `/?#&`. -/
def endsSegment (c : Char) : Bool := c = '/' || c = '?' || c = '#' || c = '&'

/-- The canonical id, if it is one and not ignored. -/
def acceptGeminiConversationId (conversationId : String) : Option String :=
  if isIgnoredGeminiConversationId conversationId || !isGeminiConversationId conversationId then none
  else some conversationId

def normalizeGeminiConversationIdFromPathname (pathname : String) : Option String :=
  match stripWord "/app/" pathname.toList with
  | some segment =>
    if segment.any endsSegment then none
    else (normalizeOptionalString (some (String.ofList segment))).bind acceptGeminiConversationId
  | none => none

section Gemini

variable (host : HistoryHost)

/-- `/^https?:\/\//i.test(value)`. -/
def isWebUrl (value : String) : Bool :=
  (stripWord "http://" value.toList).isSome || (stripWord "https://" value.toList).isSome

def extractGeminiConversationIdFromProviderConversationUrl (value : Option String) : Option String :=
  (normalizeOptionalString value).bind fun raw =>
    if isWebUrl raw then
      (host.parseUrl raw).bind fun parsed =>
        if parsed.hostname = "gemini.google.com" ∧ parsed.search = "" ∧ parsed.hash = "" then
          normalizeGeminiConversationIdFromPathname parsed.pathname
        else none
    else none

/-- `raw.match(/^\/?app\/([^/?#&]+)/i)?.[1]`. -/
def appPathSegment (raw : String) : Option String :=
  let text := raw.toList
  let rest := stripWord "app/" (if text.head? = some '/' then text.tail else text)
  (rest.map fun rest => rest.takeWhile fun c => !endsSegment c).bind fun segment =>
    if segment.isEmpty then none else some (String.ofList segment)

def normalizeGeminiConversationId (value : Option String) : Option String :=
  (normalizeOptionalString value).bind fun raw =>
    match extractGeminiConversationIdFromProviderConversationUrl host (some raw) with
    | some fromUrl => some fromUrl
    | none =>
      if raw.toList.any fun c => c = '?' || c = '#' || c = '&' then none
      else (normalizeOptionalString (some ((appPathSegment raw).getD raw))).bind acceptGeminiConversationId

/-- A character that `encodeURIComponent` leaves alone. -/
def isUnreserved (c : Char) : Bool := c.isAlphanum || "-_.!~*'()".toList.contains c

def percentEncode (byte : UInt8) : List Char :=
  ['%', (Nat.digitChar (byte.toNat / 16)).toUpper, (Nat.digitChar (byte.toNat % 16)).toUpper]

def encodeURIComponent (text : String) : String :=
  String.ofList (text.toList.flatMap fun c =>
    if isUnreserved c then [c] else (String.utf8EncodeChar c).flatMap percentEncode)

def resolveProviderConversationUrl (provider : Provider) (conversationId : String) : Option String :=
  if conversationId = "" then none
  else match provider with
    | .gemini => some ("https://gemini.google.com/app/" ++ encodeURIComponent conversationId)
    | .chatgpt => some ("https://chatgpt.com/c/" ++ encodeURIComponent conversationId)
    | .grok => some ("https://grok.com/chat/" ++ encodeURIComponent conversationId)

/-- `normalizeProviderConversationTargetFields`. -/
def normalizeProviderConversationTargetFields (provider : Provider) (conversationId providerConversationUrl : Option String) :
    Option (String × Option String) :=
  let rawConversationId := normalizeOptionalString conversationId
  let rawProviderConversationUrl := normalizeOptionalString providerConversationUrl
  if provider ≠ .gemini then
    rawConversationId.map fun id => (id, rawProviderConversationUrl <|> resolveProviderConversationUrl provider id)
  else
    (normalizeGeminiConversationId host rawConversationId <|>
      extractGeminiConversationIdFromProviderConversationUrl host rawProviderConversationUrl).map fun id =>
        (id, resolveProviderConversationUrl provider id)

end Gemini

/-! ## Normalization -/

/-- `normalizeAssetKinds(request.assetKinds)` of a normalized request. -/
def NormalizedRequest.selectedKinds (request : NormalizedRequest) : List HistoryAssetKind :=
  normalizeAssetKinds ((request.assetKinds.getD []).map HistoryAssetKind.text)

/-! ## Sources and keys -/

/-- `HistoryMaterializationJob["source"]`. -/
inductive HistorySource
  | archiveItem (archiveItemId : String)
  | catalogItem (catalogItemId : String) (catalogKind : Option CatalogKind)
  | reconciliation (provider : Option Provider)
  | projectSources (provider : Provider) (projectId : String)
  | accountLibraryReconciliation (provider : Option Provider)
  | conversation (provider : Provider) (conversationId : String)
  deriving DecidableEq

/-- `source.type`. -/
inductive HistorySourceType
  | archiveItem | catalogItem | reconciliation | projectSources | accountLibraryReconciliation | conversation
  deriving DecidableEq

def HistorySource.type : HistorySource → HistorySourceType
  | archiveItem _ => .archiveItem
  | catalogItem _ _ => .catalogItem
  | reconciliation _ => .reconciliation
  | projectSources _ _ => .projectSources
  | accountLibraryReconciliation _ => .accountLibraryReconciliation
  | conversation _ _ => .conversation

/-- `value ?? null` of a word. -/
def wordOrNull {α : Type} (word : α → String) (value : Option α) : Json := .ofOption (value.map word)

/-- What `createJob` makes of a request before it looks for an active job. -/
structure AcceptedRequest where
  request : NormalizedRequest
  source : HistorySource
  sourceKey : String

end AuraCall.Materialization
