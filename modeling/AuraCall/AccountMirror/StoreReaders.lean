import AuraCall.AccountMirror.Completion

/-!
# What the store's readers answer

The completion store writes an operation as JSON and rebuilds it field by field when it reads it. A missing field and a
`null` one are read alike everywhere, so a missing field is read as `null`.
-/

namespace AuraCall

/-! ## Fields of records -/

namespace JsonRecord

@[simp] theorem get_cons (k key : String) (value : Json) (rest : JsonRecord) :
    get ((k, value) :: rest) key = if key = k then some value else get rest key := by
  unfold get
  rw [List.lookup_cons]
  by_cases h : key = k
  · simp [h]
  · rw [if_neg h, beq_false_of_ne h]

@[simp] theorem get_append (record record' : JsonRecord) (key : String) :
    get (record ++ record') key = (get record key).or (get record' key) := List.lookup_append

end JsonRecord

@[simp] theorem record?_object (fields : JsonRecord) : (Json.object fields).record? = some fields := rfl

@[simp] theorem string?_string (s : String) : (Json.string s).string? = some s := rfl

namespace AccountMirror

/-! ## Texts of words -/

def Provider.text : Provider → String
  | chatgpt => "chatgpt"
  | gemini => "gemini"
  | grok => "grok"

def MaterializationPolicy.text : MaterializationPolicy → String
  | metadataOnly => "metadata_only"
  | recentMissingAssets => "recent_missing_assets"
  | fullMissingAssets => "full_missing_assets"

/-! ## Writing: the JSON of an operation -/

def nullable {α : Type} (toJson : α → Json) (value : Option α) : Json := value.elim .null toJson

/-- A field that is left out where the value is `undefined`. -/
def optional {α : Type} (key : String) (toJson : α → Json) (value : Option α) : JsonRecord :=
  value.toList.map fun x => (key, toJson x)

def textJson (s : String) : Json := .string s
def countJson (n : Nat) : Json := .ofNat n
def boolJson (b : Bool) : Json := .bool b

/-! ## Reading values -/

def readNumber : Json → Option ℚ
  | .number (.finite q) => some q
  | _ => none

/-- `Math.max(0, Math.floor(readNumber(value) ?? 0))`. -/
def readCount (value : Json) : Nat := (max 0 ⌊(readNumber value).getD 0⌋).toNat

/-- `typeof value === 'string' && value.trim() ? value.trim() : …`: the trimmed text, if there is one. -/
def readTrimmed (value : Json) : Option String := (value.string?.map trim).filter (· != "")

/-- The one of `values` whose text the value is. -/
def readOneOf {α : Type} (values : List α) (text : α → String) (value : Json) : Option α :=
  value.string?.bind fun s => values.find? (text · == s)

/-! ## Texts -/

/-- A text that is not blank, without space around it. -/
def IsText (s : String) : Prop := trim s = s ∧ s ≠ ""

theorem isText_of_readTrimmed {value : Json} {s : String} (h : readTrimmed value = some s) : IsText s := by
  unfold readTrimmed at h
  obtain ⟨hs, hne⟩ := Option.filter_eq_some_iff.1 h
  obtain ⟨raw, -, rfl⟩ := Option.map_eq_some_iff.1 hs
  exact ⟨trim_trim raw, by simpa using hne⟩

theorem readTrimmed_text {s : String} (h : IsText s) : readTrimmed (textJson s) = some s := by
  simp [readTrimmed, textJson, h.1, h.2]

theorem isText_readTrimmed_getD {value : Json} {s : String} (h : IsText s) : IsText ((readTrimmed value).getD s) := by
  cases hread : readTrimmed value with
  | none => exact h
  | some t => exact isText_of_readTrimmed hread

/-! ## Numbers -/

@[simp] theorem readNumber_count (n : Nat) : readNumber (countJson n) = some (n : ℚ) := rfl

@[simp] theorem readCount_count (n : Nat) : readCount (countJson n) = n := by simp [readCount]

end AccountMirror

end AuraCall
