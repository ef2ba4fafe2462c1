import Mathlib.Algebra.Order.Floor.Ring
import Mathlib.Data.List.DropRight
import Mathlib.Data.List.Lex
import Mathlib.Data.Rat.Floor

/-!
# The JavaScript built-ins the modelled code uses

- strings: `trim`, and the host's `toLowerCase` as a table with the laws the code relies on (`CaseTable`);
- numbers: `JsNumber`, a finite rational, `NaN` or an infinity; `normalizeTtl` and its siblings floor the
  finite ones;
- dates: `DateString`, a date string up to what `Date.parse` reads from it, and `toISOString`;
- calls: a call returns, refuses with a conflict, or throws (`Stop`).
-/

namespace AuraCall

/-! ## Calls -/

/-- Why a call did not return a value: it refused, or it threw. -/
inductive Stop (γ : Type)
  | refused (conflict : γ)
  | thrown (message : String)
  deriving DecidableEq

section Calls

variable {γ α β : Type}

/-- `if (condition) return { ok: false, conflict }`. -/
def refuseIf (condition : Bool) (conflict : γ) : Except (Stop γ) Unit :=
  if condition then .error (.refused conflict) else .ok ()

/-- `const found = …find(…); if (found) return { ok: false, conflict: … }`. -/
def refuseFound (found : Option α) (conflict : α → γ) : Except (Stop γ) Unit :=
  match found with
  | some x => .error (.refused (conflict x))
  | none => .ok ()

/-- `if (condition) throw new Error(message)`. -/
def throwIf (condition : Bool) (message : String) : Except (Stop γ) Unit :=
  if condition then .error (.thrown message) else .ok ()

/-- `if (!existing) return { ok: false, conflict }`. -/
def orRefuse (existing : Option α) (conflict : γ) : Except (Stop γ) α :=
  match existing with
  | some x => .ok x
  | none => .error (.refused conflict)

theorem bind_eq_ok {ε : Type} {x : Except ε α} {f : α → Except ε β} {b : β} :
    (x >>= f) = .ok b ↔ ∃ a, x = .ok a ∧ f a = .ok b := by
  cases x <;> simp [bind, Except.bind]

@[simp] theorem pure_eq_ok {a b : α} : (pure a : Except (Stop γ) α) = .ok b ↔ a = b := by simp [pure, Except.pure]

@[simp] theorem refuseIf_eq_ok {c : Bool} {k : γ} {u : Unit} : refuseIf c k = .ok u ↔ c = false := by
  cases c <;> simp [refuseIf]

@[simp] theorem refuseFound_eq_ok {x : Option α} {k : α → γ} {u : Unit} : refuseFound x k = .ok u ↔ x = none := by
  cases x <;> simp [refuseFound]

@[simp] theorem throwIf_eq_ok {c : Bool} {m : String} {u : Unit} :
    (throwIf c m : Except (Stop γ) Unit) = .ok u ↔ c = false := by
  cases c <;> simp [throwIf]

@[simp] theorem orRefuse_eq_ok {x : Option α} {k : γ} {a : α} : orRefuse x k = .ok a ↔ x = some a := by
  cases x <;> simp [orRefuse]

end Calls

/-! ## Strings -/

/-- ECMAScript white space and line terminators. -/
def isWhiteSpace (c : Char) : Bool :=
  (9 ≤ c.toNat && c.toNat ≤ 13) || c.toNat == 0x20 || c.toNat == 0xA0 || c.toNat == 0x1680 ||
  (0x2000 ≤ c.toNat && c.toNat ≤ 0x200A) || c.toNat == 0x2028 || c.toNat == 0x2029 || c.toNat == 0x202F ||
  c.toNat == 0x205F || c.toNat == 0x3000 || c.toNat == 0xFEFF

/-- `String.prototype.trim`. -/
def trim (s : String) : String :=
  String.ofList ((s.toList.dropWhile isWhiteSpace).reverse.dropWhile isWhiteSpace).reverse

/-- What is left after dropping at both ends starts with no dropped element. -/
theorem dropWhile_rdropWhile {α : Type} (p : α → Bool) (l : List α) :
    ((l.dropWhile p).rdropWhile p).dropWhile p = (l.dropWhile p).rdropWhile p := by
  rw [List.dropWhile_eq_self_iff]
  intro hl
  have hp := List.rdropWhile_prefix p (l.dropWhile p)
  have hl' : 0 < (l.dropWhile p).length := Nat.lt_of_lt_of_le hl hp.length_le
  have hne := List.dropWhile_get_zero_not p l hl'
  rwa [List.get_eq_getElem, ← hp.getElem hl] at hne

theorem trim_trim (s : String) : trim (trim s) = trim s := by
  have he : ∀ t : String, trim t = String.ofList ((t.toList.dropWhile isWhiteSpace).rdropWhile isWhiteSpace) :=
    fun _ => rfl
  rw [he (trim s), he s, String.toList_ofList, dropWhile_rdropWhile, List.rdropWhile_idempotent]

/-- Trimming leaves a text without white space as it is. -/
theorem trim_eq_self {text : String} (h : ∀ c ∈ text.toList, isWhiteSpace c = false) : trim text = text := by
  have hkeep : ∀ l : List Char, (∀ c ∈ l, isWhiteSpace c = false) → l.dropWhile isWhiteSpace = l := by
    intro l hl
    cases l with
    | nil => rfl
    | cons c rest => rw [List.dropWhile_cons, hl c List.mem_cons_self, if_neg Bool.false_ne_true]
  unfold trim
  rw [hkeep _ h, hkeep _ fun c hc => h c (List.mem_reverse.1 hc), List.reverse_reverse, String.ofList_toList]

/-- The UTF-16 code units of a string, which JavaScript compares and counts. -/
def codeUnits (s : String) : List Nat :=
  s.toList.flatMap fun c =>
    if c.toNat ≤ 0xFFFF then [c.toNat]
    else [0xD800 + (c.toNat - 0x10000) / 0x400, 0xDC00 + (c.toNat - 0x10000) % 0x400]

/-- `Array.prototype.sort` on strings. -/
def sortStrings (l : List String) : List String := l.mergeSort fun a b => decide (codeUnits a ≤ codeUnits b)

/-- The host's Unicode lower-casing. White space has no case, and lower-cased text is a fixed point. -/
structure CaseTable where
  toLowerCase : String → String
  toLowerCase_idem : ∀ s, toLowerCase (toLowerCase s) = toLowerCase s
  trim_toLowerCase : ∀ s, trim (toLowerCase s) = toLowerCase (trim s)
  toLowerCase_eq_empty : ∀ s, toLowerCase s = "" ↔ s = ""

/-- Text that is lower-cased already. -/
def CaseTable.lowered : CaseTable := ⟨id, fun _ => rfl, fun _ => rfl, fun _ => Iff.rfl⟩

variable {γ : Type}

/-- `requireNonEmpty`: the trimmed string, which must not be empty. -/
def requireNonEmpty (value name : String) : Except (Stop γ) String :=
  if trim value = "" then .error (.thrown (name ++ " must not be empty")) else .ok (trim value)

@[simp] theorem requireNonEmpty_eq_ok {value name s : String} :
    (requireNonEmpty value name : Except (Stop γ) String) = .ok s ↔ trim value ≠ "" ∧ trim value = s := by
  unfold requireNonEmpty; split <;> simp_all

/-- `/^[a-f0-9]{64}$/.test(value)`. -/
def isHexDigest (value : String) : Bool :=
  value.toList.length == 64 && value.toList.all fun c => c.isDigit || ('a' ≤ c && c ≤ 'f')

/-- `/[\x00-\x1f\x7f]/.test(value)`. -/
def hasControlCharacter (value : String) : Bool := value.toList.any fun c => c.toNat ≤ 0x1f || c.toNat == 0x7f

/-! ## Numbers -/

/-- A number: finite, `NaN`, or an infinity. -/
inductive JsNumber
  | finite (value : ℚ)
  | nan
  | infinite (negative : Bool)
  deriving DecidableEq

/-- `Math.floor`. -/
def JsNumber.floor : JsNumber → JsNumber
  | finite q => finite ⌊q⌋
  | x => x

/-- `Math.max(bound, x)`. -/
def JsNumber.atLeast (bound : ℚ) : JsNumber → JsNumber
  | finite q => finite (max bound q)
  | infinite true => finite bound
  | x => x

/-- `Math.min(bound, x)`. -/
def JsNumber.atMost (bound : ℚ) : JsNumber → JsNumber
  | finite q => finite (min bound q)
  | infinite false => finite bound
  | x => x

/-- `a + b`. -/
def JsNumber.add : JsNumber → JsNumber → JsNumber
  | finite a, finite b => finite (a + b)
  | nan, _ => nan
  | _, nan => nan
  | infinite a, infinite b => if a = b then infinite a else nan
  | infinite a, finite _ => infinite a
  | finite _, infinite b => infinite b

/-- `a < b`: false when one of them is `NaN`. -/
def JsNumber.lt : JsNumber → JsNumber → Bool
  | finite a, finite b => decide (a < b)
  | infinite true, finite _ => true
  | infinite true, infinite false => true
  | finite _, infinite false => true
  | _, _ => false

/-- A count, as a number. -/
def JsNumber.ofNat (n : Nat) : JsNumber := finite n

@[simp] theorem JsNumber.ofNat_add (m n : Nat) : (ofNat m).add (ofNat n) = ofNat (m + n) := by
  simp [ofNat, add]

@[simp] theorem JsNumber.ofNat_lt (m n : Nat) : (ofNat m).lt (ofNat n) = decide (m < n) := by
  simp [ofNat, lt]

@[simp] theorem JsNumber.ofNat_zero_add (x : JsNumber) : (ofNat 0).add x = x := by
  cases x <;> simp [ofNat, add]

/-- What is below a count is below every larger count. -/
theorem JsNumber.lt_ofNat_mono {x : JsNumber} {m n : Nat} (h : x.lt (ofNat m) = true) (hle : m ≤ n) :
    x.lt (ofNat n) = true := by
  cases x with
  | finite q =>
    simp only [ofNat, lt, decide_eq_true_eq] at h ⊢
    exact lt_of_lt_of_le h (Nat.cast_le.2 hle)
  | nan => cases h
  | infinite negative =>
    cases negative with
    | true => rfl
    | false => cases h

/-- `normalizeTtl`, `normalizePositiveInteger`: a positive finite number, floored. -/
def normalizePositiveInteger (value : JsNumber) (name : String) : Except (Stop γ) Int :=
  match value with
  | .finite q => if q ≤ 0 then .error (.thrown (name ++ " must be a positive finite number")) else .ok ⌊q⌋
  | _ => .error (.thrown (name ++ " must be a positive finite number"))

theorem normalizePositiveInteger_nonneg {value : JsNumber} {name : String} {n : Int}
    (h : (normalizePositiveInteger value name : Except (Stop γ) Int) = .ok n) : 0 ≤ n := by
  unfold normalizePositiveInteger at h
  split at h
  · split at h
    · cases h
    · rename_i q hq
      cases h
      exact Int.floor_nonneg.2 (le_of_lt (not_le.1 hq))
  · cases h

/-! ## Dates -/

/-- The largest time value of a `Date`, in milliseconds. -/
def maxTime : Int := 8640000000000000

/-- A date string: what `Date.parse` reads from it. -/
inductive DateString
  | at (ms : Int)
  | invalid
  deriving DecidableEq

/-- `Date.parse`: the time value, `none` for `NaN`. -/
def DateString.parse : DateString → Option Int
  | .at ms => if -maxTime ≤ ms ∧ ms ≤ maxTime then some ms else none
  | .invalid => none

/-- `new Date(ms).toISOString()`: a `RangeError` outside the range of time values. -/
def toISOString (ms : Int) : Except (Stop γ) DateString :=
  if -maxTime ≤ ms ∧ ms ≤ maxTime then .ok (.at ms) else .error (.thrown "Invalid time value")

/-- `parseTimestamp`. -/
def parseTimestamp (value : DateString) (name : String) : Except (Stop γ) Int :=
  match value.parse with
  | some ms => .ok ms
  | none => .error (.thrown (name ++ " must be an ISO timestamp"))

/-- `nowMs >= Date.parse(expiry)`: false when the expiry is no date. -/
def reached (nowMs : Int) (expiry : DateString) : Bool := expiry.parse.any (· ≤ nowMs)

/-- A time that `toISOString` has formatted: a time value in range. -/
structure IsoTime where
  ms : Int
  valid : -maxTime ≤ ms ∧ ms ≤ maxTime
  deriving DecidableEq

theorem IsoTime.epoch_valid : -maxTime ≤ 0 ∧ 0 ≤ maxTime := by decide

/-- `new Date(ms).toISOString()` of a time that is stored. -/
def isoTime (ms : Int) : Except (Stop γ) IsoTime :=
  if h : -maxTime ≤ ms ∧ ms ≤ maxTime then .ok ⟨ms, h⟩ else .error (.thrown "Invalid time value")

theorem DateString.parse_range {value : DateString} {ms : Int} (h : value.parse = some ms) :
    -maxTime ≤ ms ∧ ms ≤ maxTime := by
  unfold DateString.parse at h
  split at h
  · split at h
    · cases h; assumption
    · cases h
  · cases h

/-- `parseTimestamp`, where the time is formatted again: `new Date(parseTimestamp(value, name)).toISOString()`. -/
def parseTime (value : DateString) (name : String) : Except (Stop γ) IsoTime :=
  match h : value.parse with
  | some ms => .ok ⟨ms, DateString.parse_range h⟩
  | none => .error (.thrown (name ++ " must be an ISO timestamp"))

theorem parseTime_eq_ok {value : DateString} {name : String} {time : IsoTime}
    (h : (parseTime value name : Except (Stop γ) IsoTime) = .ok time) : value.parse = some time.ms := by
  unfold parseTime at h
  split at h
  · cases h; assumption
  · cases h

theorem parseTime_of_parse {value : DateString} {ms : Int} (h : value.parse = some ms) (name : String) :
    ∃ time : IsoTime, (parseTime value name : Except (Stop γ) IsoTime) = .ok time ∧ time.ms = ms := by
  unfold parseTime
  split
  · rename_i parsed hp
    exact ⟨⟨parsed, DateString.parse_range hp⟩, rfl, Option.some.inj (hp.symm.trans h)⟩
  · rename_i hn
    rw [hn] at h
    cases h

end AuraCall
