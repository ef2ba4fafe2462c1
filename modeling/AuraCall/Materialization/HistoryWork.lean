import AuraCall.Materialization.ArchiveIndex
import AuraCall.Materialization.HistoryRequests

/-!
# The work for a history request

What `materializeHistoryRequest` reads of an archive item, and the target it finds there.
-/

namespace AuraCall.Materialization

open AccountMirror (Provider)

/-! ## Items and targets -/

structure HistoryMaterializationTarget where
  provider : Provider
  runtimeProfile : Option String
  browserProfile : Option String
  boundIdentityKey : Option String
  conversationId : String
  providerConversationUrl : Option String
  projectId : Option String
  deriving DecidableEq

section Items

variable (numbers : NumberTexts)

/-- `readRecordString`. -/
def readRecordString (value : Json) (keys : List String) : Option String :=
  keys.findSome? fun key =>
    match (value.record?.getD []).get key with
    | some (.string text) => if trim text = "" then none else some (trim text)
    | some (.number (.finite q)) => some (String.ofList (numbers.text q))
    | _ => none

/-- `isRecord(item.metadata) ? item.metadata : {}`. -/
def itemMetadata (item : Json) : Json := ((item.record?.getD []).get "metadata").getD .null

/-- A field of the item, or of its metadata. -/
def readItemString (item : Json) (keys metadataKeys : List String) : Option String :=
  readRecordString numbers item keys <|> readRecordString numbers (itemMetadata item) metadataKeys

end Items

end AuraCall.Materialization
