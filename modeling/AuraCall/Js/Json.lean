import AuraCall.Js.Builtins

/-!
# JSON values

Values of type `unknown` and records of type `Record<string, unknown>`, as JSON texts hold them.
-/

namespace AuraCall

inductive Json
  | null
  | bool (value : Bool)
  | number (value : JsNumber)
  | string (value : String)
  | array (items : List Json)
  | object (fields : List (String × Json))

/-- A `Record<string, unknown>`. -/
abbrev JsonRecord := List (String × Json)

namespace Json

/-- `isRecord(value)`, with the record. -/
def record? : Json → Option JsonRecord
  | object fields => some fields
  | _ => none

/-- `typeof value === 'string'`, with the string. -/
def string? : Json → Option String
  | string value => some value
  | _ => none

/-- `typeof value === 'boolean'`, with the truth value. -/
def bool? : Json → Option Bool
  | bool value => some value
  | _ => none

/-- `typeof value === 'number'`, with the number. -/
def number? : Json → Option JsNumber
  | number value => some value
  | _ => none

/-- `Array.isArray(value)`, with the array. -/
def array? : Json → Option (List Json)
  | array items => some items
  | _ => none

def ofOption (value : Option String) : Json := value.elim null string

def ofStrings (values : List String) : Json := array (values.map string)

def ofNat (n : Nat) : Json := number (.finite n)

end Json

/-- `record[key]`, where `key` is a field of its own. -/
def JsonRecord.get (record : JsonRecord) (key : String) : Option Json := record.lookup key

/-- `record[key]`, with `null` for a missing field. -/
def JsonRecord.field (record : JsonRecord) (key : String) : Json := (record.get key).getD .null

/-- `{ ...record, [key]: value }`. -/
def JsonRecord.set (record : JsonRecord) (key : String) (value : Json) : JsonRecord :=
  if record.any (·.1 == key) then record.map fun field => if field.1 == key then (key, value) else field
  else record ++ [(key, value)]

/-- `isRecord(record[key]) ? record[key] : null`. -/
def JsonRecord.record? (record : JsonRecord) (key : String) : Option JsonRecord := (record.get key).bind (·.record?)

/-- `typeof record[key] === 'string' ? record[key] : null`. -/
def JsonRecord.string? (record : JsonRecord) (key : String) : Option String := (record.get key).bind (·.string?)

/-- `Number.isInteger(record[key]) && record[key] > 0 ? record[key] : null`. -/
def JsonRecord.positiveInteger? (record : JsonRecord) (key : String) : Option Int :=
  match (record.get key).bind (·.number?) with
  | some (.finite q) => if q.den = 1 ∧ 0 < q.num then some q.num else none
  | _ => none

end AuraCall
