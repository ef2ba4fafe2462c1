import AuraCall.Js.Json

/-!
# The analysis decision of a handoff

`validateHandoffAnalysisDecision` (`handoff/service.ts`): a decision, which may be anything, is checked against the manifest
it selects from, the omissions and the budgets. It is accepted when no check adds an error (`schemaValid_iff`).

The decision states how many bytes it selects, and only this number is compared with the budget. What the manifest
records for the selected items is not added up, and neither their number nor repeated ids are looked at: so an accepted
decision keeps within the budgets exactly when it happens to (`selection_sound_iff`).
-/

namespace AuraCall.Handoff

/-! ## Manifests -/

structure HandoffManifestItem where
  id : String
  localPath : Option String
  sizeBytes : Option Nat

structure HandoffOmission where
  id : String
  sourceRef : Option String

structure AnalysisBudgets where
  maxPromptTokens : ℚ
  maxSelectedFileBytes : ℚ
  maxSelectedFiles : ℚ

structure AnalysisDecisionInput where
  decision : Json
  manifestItems : List HandoffManifestItem
  omissions : List HandoffOmission
  budgets : AnalysisBudgets

structure BudgetFit where
  fits : Bool
  estimatedPromptTokens : Nat
  selectedFileBytes : Nat

structure AnalysisValidationReport where
  schemaValid : Bool
  errors : List String
  warnings : List String
  selectedManifestItemIds : List String
  budgetFit : BudgetFit

/-! ## Reading a decision -/

/-- The value of a field, or `null`. -/
def decisionField (record : JsonRecord) (key : String) : Json := (record.get key).getD .null

def normalizeOptionalString (value : Json) : Option String := (value.string?.map trim).filter (· ≠ "")

def normalizeNumber (value : Json) : Option Nat :=
  match value.number? with
  | some (.finite q) => some ⌊q⌋.toNat
  | _ => none

def normalizeBudgetFit (value : Json) : BudgetFit :=
  let record := value.record?.getD []
  { fits := (decisionField record "fits").bool? != some false
    estimatedPromptTokens := (normalizeNumber (decisionField record "estimatedPromptTokens")).getD 0
    selectedFileBytes := (normalizeNumber (decisionField record "selectedFileBytes")).getD 0 }

def isAllowedApprovalRecommendation (value : Option String) : Bool :=
  value = some "preview_only" || value = some "request_upload_approval" || value = some "request_submit_approval"

namespace AnalysisDecisionInput

variable (input : AnalysisDecisionInput)

/-- `decision[key]`. -/
def get (key : String) : Json := decisionField (input.decision.record?.getD []) key

/-- `selectedManifestItemIds`, trimmed and without empty ones. -/
def selectedIds : List String :=
  ((input.get "selectedManifestItemIds").array?.getD []).filterMap normalizeOptionalString

def omissionWarnings : List String := ((input.get "omissionWarnings").array?.getD []).filterMap normalizeOptionalString

def budgetFit : BudgetFit := normalizeBudgetFit (input.get "budgetFit")

/-- `manifestById.get(id)`: the last item of an id. -/
def itemById (id : String) : Option HandoffManifestItem := input.manifestItems.reverse.find? (·.id = id)

end AnalysisDecisionInput

def HandoffManifestItem.hasLocalPath (item : HandoffManifestItem) : Bool := item.localPath.any (· ≠ "")

/-! ## The checks -/

def missingLocalFile : String := "selected_item_missing_local_file:"

def hasOmissionForSelectedItem (id : String) (omissions : List HandoffOmission) (warnings : Json) : Bool :=
  omissions.any (fun omission => omission.id = id || omission.sourceRef = some id)
    || (warnings.array?.getD []).any fun warning => warning.string? = some (missingLocalFile ++ id)

def isValidOmissionWarning (warning : String) (omissions : List HandoffOmission) (selectedIds : List String)
    (manifestById : String → Option HandoffManifestItem) : Bool :=
  if warning = "source_omissions_present" then !omissions.isEmpty
  else if warning = "source_context_not_provided" then true
  else if warning = "selected_file_budget_exceeded" ∨ warning = "prompt_budget_exceeded" then true
  else if missingLocalFile.toList.isPrefixOf warning.toList then
    let id := String.ofList (warning.toList.drop missingLocalFile.toList.length)
    selectedIds.contains id && (manifestById id).any (!·.hasLocalPath)
  else false

/-- `if (failed) errors.push(message)`. -/
def errorIf (failed : Bool) (message : String) : List String := if failed then [message] else []

namespace AnalysisDecisionInput

variable (input : AnalysisDecisionInput)

/-- A selected item must be in the manifest, and must have a local file or be known to be missing one. -/
def selectedItemErrors (id : String) : List String :=
  match input.itemById id with
  | none => ["selected manifest item does not exist: " ++ id]
  | some item =>
    errorIf (!item.hasLocalPath && !hasOmissionForSelectedItem id input.omissions (input.get "omissionWarnings"))
      ("selected manifest item lacks local file and omission warning: " ++ id)

def omissionWarningErrors (warning : String) : List String :=
  errorIf (!isValidOmissionWarning warning input.omissions input.selectedIds input.itemById)
    ("omission warning has no matching omission or policy limit: " ++ warning)

def errors : List String :=
  errorIf ((input.get "object").string? != some "auracall.handoff-analysis-decision.v2")
      "decision.object must be auracall.handoff-analysis-decision.v2"
    ++ errorIf (input.get "selectedManifestItemIds").array?.isNone "selectedManifestItemIds must be an array"
    ++ input.selectedIds.flatMap input.selectedItemErrors
    ++ errorIf (normalizeOptionalString (input.get "targetPrimer")).isNone "targetPrimer must be a non-empty string"
    ++ errorIf (input.get "compactContext").record?.isNone "compactContext must be an object"
    ++ errorIf (!isAllowedApprovalRecommendation (normalizeOptionalString (input.get "approvalRecommendation")))
      "approvalRecommendation is not allowed"
    ++ errorIf (input.get "omissionWarnings").array?.isNone "omissionWarnings must be an array"
    ++ input.omissionWarnings.flatMap input.omissionWarningErrors
    ++ errorIf (input.budgets.maxSelectedFileBytes < input.budgetFit.selectedFileBytes)
      "selected file bytes exceed analysis budget"
    ++ errorIf (input.budgets.maxPromptTokens < input.budgetFit.estimatedPromptTokens)
      "estimated prompt tokens exceed analysis budget"

end AnalysisDecisionInput

def validateHandoffAnalysisDecision (input : AnalysisDecisionInput) : AnalysisValidationReport where
  schemaValid := input.errors.isEmpty
  errors := input.errors
  warnings := if input.budgetFit.fits then [] else ["budget_fit_false"]
  selectedManifestItemIds := input.selectedIds
  budgetFit := input.budgetFit

/-! ## What is accepted -/

section Accepted

variable {input : AnalysisDecisionInput}

@[simp] theorem errorIf_eq_nil {failed : Bool} {message : String} : errorIf failed message = [] ↔ failed = false := by
  cases failed <;> simp [errorIf]

/-- What a decision must say to be accepted. -/
structure AnalysisDecisionInput.Admissible (input : AnalysisDecisionInput) : Prop where
  schema : (input.get "object").string? = some "auracall.handoff-analysis-decision.v2"
  idList : (input.get "selectedManifestItemIds").array? ≠ none
  selected : ∀ id ∈ input.selectedIds, ∃ item, input.itemById id = some item ∧
    (item.hasLocalPath = true ∨ hasOmissionForSelectedItem id input.omissions (input.get "omissionWarnings") = true)
  primer : normalizeOptionalString (input.get "targetPrimer") ≠ none
  context : (input.get "compactContext").record? ≠ none
  recommendation : isAllowedApprovalRecommendation (normalizeOptionalString (input.get "approvalRecommendation")) = true
  warningList : (input.get "omissionWarnings").array? ≠ none
  warnings : ∀ warning ∈ input.omissionWarnings,
    isValidOmissionWarning warning input.omissions input.selectedIds input.itemById = true
  claimedBytes : (input.budgetFit.selectedFileBytes : ℚ) ≤ input.budgets.maxSelectedFileBytes
  claimedTokens : (input.budgetFit.estimatedPromptTokens : ℚ) ≤ input.budgets.maxPromptTokens

theorem selectedItemErrors_eq_nil {id : String} : input.selectedItemErrors id = [] ↔
    ∃ item, input.itemById id = some item ∧ (item.hasLocalPath = true ∨
      hasOmissionForSelectedItem id input.omissions (input.get "omissionWarnings") = true) := by
  unfold AnalysisDecisionInput.selectedItemErrors
  cases hitem : input.itemById id with
  | none => simp
  | some item =>
    simp only [errorIf_eq_nil, Option.some.injEq, exists_eq_left']
    cases item.hasLocalPath <;> simp

/-- **Acceptance.** -/
theorem schemaValid_iff : (validateHandoffAnalysisDecision input).schemaValid = true ↔ input.Admissible := by
  have hempty : (validateHandoffAnalysisDecision input).schemaValid = true ↔ input.errors = [] := List.isEmpty_iff
  rw [hempty, AnalysisDecisionInput.errors]
  simp only [List.append_eq_nil_iff, List.flatMap_eq_nil_iff, errorIf_eq_nil, selectedItemErrors_eq_nil,
    AnalysisDecisionInput.omissionWarningErrors, bne_eq_false_iff_eq, Option.isNone_eq_false_iff,
    Option.isSome_iff_ne_none, Bool.not_eq_false', decide_eq_false_iff_not, not_lt]
  constructor
  · rintro ⟨⟨⟨⟨⟨⟨⟨⟨⟨schema, idList⟩, selected⟩, primer⟩, context⟩, recommendation⟩, warningList⟩, warnings⟩, bytes⟩, tokens⟩
    exact ⟨schema, idList, selected, primer, context, recommendation, warningList, warnings, bytes, tokens⟩
  · intro h
    exact ⟨⟨⟨⟨⟨⟨⟨⟨⟨h.schema, h.idList⟩, h.selected⟩, h.primer⟩, h.context⟩, h.recommendation⟩, h.warningList⟩,
      h.warnings⟩, h.claimedBytes⟩, h.claimedTokens⟩

end Accepted

/-! ## What an accepted decision selects -/

/-- The items of the ids, added up as they are recorded. -/
def AnalysisDecisionInput.recordedBytes (input : AnalysisDecisionInput) (ids : List String) : Nat :=
  (ids.filterMap input.itemById).foldl (fun total item => total + item.sizeBytes.getD 0) 0

/-- The reported selection keeps within the budgets. -/
structure SelectionSound (input : AnalysisDecisionInput) (ids : List String) : Prop where
  distinct : ids.Nodup
  few : (ids.length : ℚ) ≤ input.budgets.maxSelectedFiles
  found : ∀ id ∈ ids, input.itemById id ≠ none
  small : (input.recordedBytes ids : ℚ) ≤ input.budgets.maxSelectedFileBytes

theorem AnalysisDecisionInput.Admissible.found {input : AnalysisDecisionInput} (h : input.Admissible) (id : String)
    (hid : id ∈ input.selectedIds) : input.itemById id ≠ none := by
  obtain ⟨item, hitem, -⟩ := h.selected id hid
  rw [hitem]
  exact Option.some_ne_none item

/-- **When accepting says enough.** -/
theorem selection_sound_iff (input : AnalysisDecisionInput) :
    ((validateHandoffAnalysisDecision input).schemaValid = true →
      SelectionSound input (validateHandoffAnalysisDecision input).selectedManifestItemIds) ↔
    (input.Admissible → input.selectedIds.Nodup ∧ (input.selectedIds.length : ℚ) ≤ input.budgets.maxSelectedFiles ∧
      (input.recordedBytes input.selectedIds : ℚ) ≤ input.budgets.maxSelectedFileBytes) := by
  rw [schemaValid_iff]
  constructor
  · intro hsound hadmissible
    have h := hsound hadmissible
    exact ⟨h.distinct, h.few, h.small⟩
  · intro hcondition hadmissible
    obtain ⟨hdistinct, hfew, hsmall⟩ := hcondition hadmissible
    exact ⟨hdistinct, hfew, hadmissible.found, hsmall⟩

/-! ## A decision that understates -/

/-- One item twice, said to have no bytes. -/
def understatedDecision : AnalysisDecisionInput where
  decision := .object [
    ("object", .string "auracall.handoff-analysis-decision.v2"),
    ("selectedManifestItemIds", .array [.string "file", .string "file"]),
    ("targetPrimer", .string "Read the file."),
    ("compactContext", .object []),
    ("omissionWarnings", .array []),
    ("budgetFit", .object [("selectedFileBytes", .ofNat 0)]),
    ("approvalRecommendation", .string "preview_only")]
  manifestItems := [⟨"file", some "/tmp/file", some 200⟩]
  omissions := []
  budgets := ⟨100, 100, 1⟩

/-- **It is accepted.** -/
theorem understated_decision_accepted : ¬ ∀ input : AnalysisDecisionInput,
    (validateHandoffAnalysisDecision input).schemaValid = true →
    SelectionSound input (validateHandoffAnalysisDecision input).selectedManifestItemIds := by
  intro hall
  have hsound := hall understatedDecision (by decide +kernel)
  have hbytes : understatedDecision.recordedBytes understatedDecision.selectedIds = 400 := by decide +kernel
  have hsmall := hsound.small
  rw [show (validateHandoffAnalysisDecision understatedDecision).selectedManifestItemIds =
    understatedDecision.selectedIds from rfl, hbytes] at hsmall
  revert hsmall
  decide +kernel

end AuraCall.Handoff
