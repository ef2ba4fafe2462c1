import AuraCall.Ledger.System

/-!
# The text of a ledger

`serializeForPersistence` encodes the events that were appended since the last time and joins them to the text it has
kept; `loadLedger` parses a snapshot and restores a ledger from it. A text is a list of fragments, punctuation and the
JSON of values, so that the joining and the form of the document are visible.

`JSON.stringify` turns a number that is not finite into `null`. Without such numbers a ledger comes back from its text
(`parse_textOf`), and the incremental encoding is the encoding of all events (`LedgerObject.Encoded.encode`).
-/

namespace AuraCall.Persistence

open Ledger

/-! ## Texts -/

/-- A piece of a JSON text: punctuation, or the JSON of values. -/
inductive Fragment
  | text (s : String)
  | records (records : List ProviderInteractionRecord)
  | warnings (warnings : List ProviderWarningRecord)
  | event (event : ProviderInteractionEvent)
  deriving DecidableEq

/-- `events.map(event => JSON.stringify(event)).join(',')`. -/
def joined : List ProviderInteractionEvent → List Fragment
  | [] => []
  | event :: events => .event event :: events.flatMap fun event => [.text ",", .event event]

def prologue : String := "\x7b\"schemaVersion\":1,\"records\":"
def warningsKey : String := ",\"warnings\":"
def eventsKey : String := ",\"events\":["
def epilogue : String := "]\x7d\n"

/-- The text of a snapshot, around the text of its events. -/
def document (records : List ProviderInteractionRecord) (warnings : List ProviderWarningRecord)
    (events : List Fragment) : List Fragment :=
  .text prologue :: .records records :: .text warningsKey :: .warnings warnings :: .text eventsKey ::
    (events ++ [.text epilogue])

/-- The number that `JSON.parse` reads where `JSON.stringify` has written one; `null` is no number. -/
def throughJsonNumber : JsNumber → Option JsNumber
  | .finite q => some (.finite q)
  | .nan | .infinite _ => none

def finitePhase (phase : TrafficAdmissionPhase) : Bool :=
  (throughJsonNumber phase.admitted).isSome && (throughJsonNumber phase.limit).isSome &&
    (throughJsonNumber phase.remaining).isSome

def finiteTraffic (report : TrafficAdmission) : Bool :=
  report.phases.all finitePhase && report.budgets.all fun budget => finitePhase budget.toTrafficAdmissionPhase

/-- The warning that `JSON.parse` reads where `JSON.stringify` has written one: a target count that is not finite is
`null`. Traffic counts that are not finite are `null` too, and then the value is no warning record any more. -/
def throughJson (warning : ProviderWarningRecord) : Option ProviderWarningRecord :=
  match warning.evidence with
  | none => some warning
  | some evidence =>
    if evidence.trafficAdmission.all finiteTraffic then
      some { warning with
        evidence := some { evidence with openTargetCount := evidence.openTargetCount.bind throughJsonNumber } }
    else none

/-- The events after the first one. -/
def parseMore : List Fragment → Option (List ProviderInteractionEvent)
  | [.text close] => if close = epilogue then some [] else none
  | .text comma :: .event event :: rest => if comma = "," then (parseMore rest).map (event :: ·) else none
  | _ => none

def parseEvents : List Fragment → Option (List ProviderInteractionEvent)
  | [.text close] => if close = epilogue then some [] else none
  | .event event :: rest => (parseMore rest).map (event :: ·)
  | _ => none

/-- `JSON.parse` of a snapshot, with the shape checks; `none` when they throw. The ledger is restored from the lists. -/
def parse : List Fragment → Option InteractionLedger
  | .text opening :: .records records :: .text second :: .warnings warnings :: .text third :: rest =>
    if opening = prologue ∧ second = warningsKey ∧ third = eventsKey then do
      let warnings ← warnings.mapM throughJson
      let events ← parseEvents rest
      return ⟨.ofList _ records, .ofList _ warnings, events⟩
    else none
  | _ => none

/-- The ledger a text stands for; a file that is missing is an empty ledger. -/
def readLedger : Option (List Fragment) → Option InteractionLedger
  | none => some .empty
  | some text => parse text

/-! ## The ledger in memory -/

/-- An `InMemoryProviderInteractionLedger` with the text of the events it has encoded already. -/
structure LedgerObject where
  ledger : InteractionLedger
  encodedEvents : List Fragment
  encodedEventCount : Nat

def restore (ledger : InteractionLedger) : LedgerObject := ⟨ledger, [], 0⟩

/-- The part of `serializeForPersistence` that encodes the events appended since the last time. -/
def LedgerObject.encode (object : LedgerObject) : LedgerObject :=
  if object.encodedEventCount ≠ object.ledger.events.length then
    let addition := joined (object.ledger.events.drop object.encodedEventCount)
    { object with
      encodedEvents := if object.encodedEventCount ≠ 0 then object.encodedEvents ++ .text "," :: addition else addition
      encodedEventCount := object.ledger.events.length }
  else object

/-- `serializeForPersistence`, of an object that has encoded its events. -/
def LedgerObject.serialized (object : LedgerObject) : List Fragment :=
  document object.ledger.records.values object.ledger.warnings.values object.encodedEvents

/-! ## Encoding -/

/-- The text of two lists of events, one after the other. -/
theorem joined_append {events added : List ProviderInteractionEvent} (h : events ≠ []) (h' : added ≠ []) :
    joined (events ++ added) = joined events ++ .text "," :: joined added := by
  obtain ⟨event, rest, rfl⟩ := List.exists_cons_of_ne_nil h
  obtain ⟨next, more, rfl⟩ := List.exists_cons_of_ne_nil h'
  simp [joined]

theorem parseMore_joined (events : List ProviderInteractionEvent) :
    parseMore ((events.flatMap fun event => [.text ",", .event event]) ++ [.text epilogue]) = some events := by
  induction events with
  | nil => simp [parseMore]
  | cons event events ih => simp [parseMore, ih]

theorem parseEvents_joined (events : List ProviderInteractionEvent) :
    parseEvents (joined events ++ [.text epilogue]) = some events := by
  cases events with
  | nil => simp [joined, parseEvents]
  | cons event events => simp [joined, parseEvents, parseMore_joined]

/-- The text of the events that have been encoded. -/
def LedgerObject.Encoded (object : LedgerObject) : Prop :=
  object.encodedEventCount ≤ object.ledger.events.length ∧
    object.encodedEvents = joined (object.ledger.events.take object.encodedEventCount)

theorem restore_encoded (ledger : InteractionLedger) : (restore ledger).Encoded := by
  constructor
  · exact Nat.zero_le _
  · rfl

/-- Appended events leave what has been encoded. -/
theorem LedgerObject.Encoded.append {object : LedgerObject} (h : object.Encoded) {ledger : InteractionLedger}
    {added : List ProviderInteractionEvent} (he : ledger.events = object.ledger.events ++ added) :
    ({ object with ledger } : LedgerObject).Encoded := by
  obtain ⟨hcount, htext⟩ := h
  constructor
  · simp only [he, List.length_append]
    omega
  · simp only [he, List.take_append_of_le_length hcount, htext]

/-- **The incremental encoding is the encoding of all events.** -/
theorem LedgerObject.Encoded.encode {object : LedgerObject} (h : object.Encoded) :
    object.encode.ledger = object.ledger ∧ object.encode.Encoded ∧
      object.encode.encodedEvents = joined object.ledger.events := by
  obtain ⟨hcount, htext⟩ := h
  unfold LedgerObject.encode
  split
  · rename_i hne
    have hevents : (if object.encodedEventCount ≠ 0 then
          object.encodedEvents ++ .text "," :: joined (object.ledger.events.drop object.encodedEventCount)
        else joined (object.ledger.events.drop object.encodedEventCount)) = joined object.ledger.events := by
      split
      · rename_i hpos
        have htake : object.ledger.events.take object.encodedEventCount ≠ [] := by
          intro hnil
          have := congrArg List.length hnil
          simp only [List.length_take, List.length_nil] at this
          omega
        have hdrop : object.ledger.events.drop object.encodedEventCount ≠ [] := by
          intro hnil
          have := congrArg List.length hnil
          simp only [List.length_drop, List.length_nil] at this
          omega
        rw [htext, ← joined_append htake hdrop, List.take_append_drop]
      · rename_i hzero
        have hzero' : object.encodedEventCount = 0 := by omega
        rw [hzero', List.drop_zero]
    refine ⟨rfl, ⟨Nat.le_refl _, ?_⟩, hevents⟩
    simp only [List.take_length]
    exact hevents
  · rename_i heq
    have hall : object.encodedEventCount = object.ledger.events.length := by omega
    refine ⟨rfl, ⟨hcount, htext⟩, ?_⟩
    rw [htext, hall, List.take_length]

/-! ## Round trips -/

/-- The warning comes back from the file as it is. -/
def Storable (warning : ProviderWarningRecord) : Prop := throughJson warning = some warning

def AllStorable (ledger : InteractionLedger) : Prop := ∀ warning ∈ ledger.warnings, Storable warning

/-- Only the evidence of a warning matters. -/
theorem storable_iff {warning : ProviderWarningRecord} : Storable warning ↔
    ∀ evidence, warning.evidence = some evidence → evidence.trafficAdmission.all finiteTraffic = true ∧
      evidence.openTargetCount.bind throughJsonNumber = evidence.openTargetCount := by
  obtain ⟨_, _, _, _, _, _, evidence⟩ := warning
  cases evidence with
  | none =>
    refine ⟨fun _ _ he => ?_, fun _ => rfl⟩
    cases he
  | some evidence =>
    simp only [Storable, throughJson]
    constructor
    · intro h found hf
      cases hf
      split at h
      · rename_i htraffic
        simp only [Option.some.injEq, ProviderWarningRecord.mk.injEq, true_and] at h
        exact ⟨htraffic, congrArg (·.openTargetCount) h⟩
      · cases h
    · intro h
      obtain ⟨htraffic, hcount⟩ := h evidence rfl
      rw [if_pos htraffic, hcount]

/-- What has come back once comes back. -/
theorem throughJson_storable {warning warning' : ProviderWarningRecord} (h : throughJson warning = some warning') :
    Storable warning' := by
  unfold throughJson at h
  split at h
  · rename_i hnone
    cases h
    refine storable_iff.2 fun evidence he => ?_
    rw [hnone] at he
    cases he
  · split at h
    · rename_i evidence _ htraffic
      cases h
      refine storable_iff.2 fun found hf => ?_
      cases hf
      refine ⟨htraffic, ?_⟩
      cases evidence.openTargetCount with
      | none => rfl
      | some count => cases count <;> rfl
    · cases h

theorem mapM_storable {warnings : List ProviderWarningRecord} (h : ∀ warning ∈ warnings, Storable warning) :
    warnings.mapM throughJson = some warnings := by
  induction warnings with
  | nil => rfl
  | cons warning warnings ih =>
    have hhead : throughJson warning = some warning := h warning List.mem_cons_self
    have htail := ih fun w hw => h w (List.mem_cons_of_mem _ hw)
    rw [List.mapM_cons, hhead, htail]
    rfl

theorem storable_of_mapM {warnings warnings' : List ProviderWarningRecord}
    (h : warnings.mapM throughJson = some warnings') : ∀ warning ∈ warnings', Storable warning := by
  induction warnings generalizing warnings' with
  | nil =>
    cases h
    intro warning hm
    cases hm
  | cons first warnings ih =>
    rw [List.mapM_cons] at h
    simp only [Option.bind_eq_bind, Option.bind_eq_some_iff, Option.pure_def, Option.some.injEq] at h
    obtain ⟨first', hfirst, rest', hrest, rfl⟩ := h
    intro warning hm
    rcases List.mem_cons.1 hm with rfl | hm
    · exact throughJson_storable hfirst
    · exact ih hrest warning hm

/-- The text of a ledger. -/
def textOf (ledger : InteractionLedger) : List Fragment :=
  document ledger.records.values ledger.warnings.values (joined ledger.events)

/-- **A ledger whose warnings come back comes back from its text.** -/
theorem parse_textOf {ledger : InteractionLedger} (h : AllStorable ledger) : parse (textOf ledger) = some ledger := by
  have hwarnings : ledger.warnings.values.mapM throughJson = some ledger.warnings.values := mapM_storable h
  simp only [textOf, document, parse, and_self, if_true, hwarnings, parseEvents_joined, KeyedMap.ofList_values,
    Option.bind_eq_bind, Option.bind_some, Option.pure_def]

theorem parse_storable {text : List Fragment} {ledger : InteractionLedger} (h : parse text = some ledger) :
    AllStorable ledger := by
  unfold parse at h
  split at h
  · split at h
    · simp only [Option.bind_eq_bind, Option.bind_eq_some_iff, Option.pure_def, Option.some.injEq] at h
      obtain ⟨warnings', hwarnings, _, _, rfl⟩ := h
      intro warning hm
      exact storable_of_mapM hwarnings warning (KeyedMap.mem_of_mem_ofList hm)
    · cases h
  · cases h

theorem readLedger_storable {content : Option (List Fragment)} {ledger : InteractionLedger}
    (h : readLedger content = some ledger) : AllStorable ledger := by
  cases content with
  | none =>
    cases h
    intro warning hm
    exact absurd hm (KeyedMap.not_mem_empty warning)
  | some text => exact parse_storable h

/-! ## Finite evidence -/

/-- The number is finite once it is floored and clamped to be not negative. -/
def clampsToFinite : JsNumber → Bool
  | .finite _ | .infinite true => true
  | .nan | .infinite false => false

def clampedPhase (phase : TrafficAdmissionPhase) : Bool :=
  clampsToFinite phase.admitted && clampsToFinite phase.limit && clampsToFinite phase.remaining

/-- The counts of the evidence are finite once they are clamped. -/
def finiteEvidence (evidence : ProviderWarningEvidenceInput) : Bool :=
  evidence.openTargetCount.all clampsToFinite && evidence.trafficAdmission.all fun report =>
    report.phases.all clampedPhase && report.budgets.all fun budget => clampedPhase budget.toTrafficAdmissionPhase

theorem clamped_finite {x : JsNumber} (h : clampsToFinite x = true) :
    throughJsonNumber (x.floor.atLeast 0) = some (x.floor.atLeast 0) := by
  cases x with
  | finite q => rfl
  | nan => cases h
  | infinite negative =>
    cases negative with
    | true => rfl
    | false => cases h

theorem mem_of_mapM_ok {α β : Type} {f : α → Checked β} {l : List α} {l' : List β} (h : l.mapM f = .ok l') :
    ∀ b ∈ l', ∃ a ∈ l, f a = .ok b := by
  induction l generalizing l' with
  | nil =>
    cases h
    intro b hb
    cases hb
  | cons a l ih =>
    rw [List.mapM_cons] at h
    simp only [bind_eq_ok, pure_eq_ok] at h
    obtain ⟨b, hb, rest, hrest, rfl⟩ := h
    intro b' hb'
    rcases List.mem_cons.1 hb' with rfl | hb'
    · exact ⟨a, List.mem_cons_self, hb⟩
    · obtain ⟨a', ha', hf⟩ := ih hrest b' hb'
      exact ⟨a', List.mem_cons_of_mem _ ha', hf⟩

theorem sanitizeTrafficAdmissionEntry_finite {table : CaseTable} {entry sanitized : TrafficAdmissionPhase}
    (hc : clampedPhase entry = true) (h : sanitizeTrafficAdmissionEntry table entry = .ok sanitized) :
    finitePhase sanitized = true := by
  simp only [sanitizeTrafficAdmissionEntry, bind_eq_ok, pure_eq_ok] at h
  obtain ⟨_, _, rfl⟩ := h
  simp only [clampedPhase, Bool.and_eq_true] at hc
  obtain ⟨⟨hadmitted, hlimit⟩, hremaining⟩ := hc
  simp only [finitePhase, clamped_finite hadmitted, clamped_finite hlimit, clamped_finite hremaining]
  rfl

theorem sanitizeTrafficAdmission_finite {table : CaseTable} {report sanitized : TrafficAdmission}
    (hphases : report.phases.all clampedPhase = true)
    (hbudgets : (report.budgets.all fun budget => clampedPhase budget.toTrafficAdmissionPhase) = true)
    (h : sanitizeTrafficAdmission table report = .ok sanitized) : finiteTraffic sanitized = true := by
  simp only [sanitizeTrafficAdmission, bind_eq_ok, pure_eq_ok] at h
  obtain ⟨phases, hp, budgets, hb, _, _, rfl⟩ := h
  simp only [finiteTraffic, Bool.and_eq_true, List.all_eq_true]
  constructor
  · intro phase hm
    obtain ⟨entry, hentry, hsanitized⟩ := mem_of_mapM_ok hp phase hm
    exact sanitizeTrafficAdmissionEntry_finite (List.all_eq_true.1 hphases entry hentry) hsanitized
  · intro budget hm
    obtain ⟨entry, hentry, hsanitized⟩ := mem_of_mapM_ok hb budget hm
    simp only [sanitizeBudget, bind_eq_ok, pure_eq_ok] at hsanitized
    obtain ⟨sanitized, hs, rfl⟩ := hsanitized
    exact sanitizeTrafficAdmissionEntry_finite (List.all_eq_true.1 hbudgets entry hentry) hs

theorem builtEvidence_storable {table : CaseTable} {given : ProviderWarningEvidenceInput} {observedAt : IsoTime}
    {events : List ProviderInteractionEvent} {built : ProviderWarningEvidence} {warning : ProviderWarningRecord}
    (hcount : given.openTargetCount.all clampsToFinite = true)
    (htraffic : (given.trafficAdmission.all fun report => report.phases.all clampedPhase &&
      report.budgets.all fun budget => clampedPhase budget.toTrafficAdmissionPhase) = true)
    (h : buildProviderWarningEvidence table given observedAt events = .ok built)
    (hw : warning.evidence = some built) : Storable warning := by
  simp only [buildProviderWarningEvidence, bind_eq_ok, pure_eq_ok] at h
  obtain ⟨_, _, _, _, _, _, trafficAdmission, ht, rfl⟩ := h
  have hfinite : trafficAdmission.all finiteTraffic = true := by
    cases hg : given.trafficAdmission with
    | none =>
      rw [hg] at ht
      cases ht
      rfl
    | some report =>
      rw [hg, Option.mapM_some] at ht
      rw [hg] at htraffic
      simp only [Option.all_some, Bool.and_eq_true] at htraffic
      cases hs : sanitizeTrafficAdmission table report with
      | error stop =>
        rw [hs] at ht
        cases ht
      | ok sanitized =>
        rw [hs] at ht
        cases ht
        exact sanitizeTrafficAdmission_finite htraffic.1 htraffic.2 hs
  have hopen : (given.openTargetCount.map fun count => count.floor.atLeast 0).bind throughJsonNumber =
      given.openTargetCount.map fun count => count.floor.atLeast 0 := by
    cases hg : given.openTargetCount with
    | none => rfl
    | some count =>
      rw [hg] at hcount
      exact clamped_finite hcount
  refine storable_iff.2 fun found hf => ?_
  rw [hw] at hf
  cases hf
  exact ⟨hfinite, hopen⟩

theorem buildWarning_storable {table : CaseTable} {input : RecordProviderWarningInput} {ledger : InteractionLedger}
    {scope : ProviderInteractionScope} {warning : ProviderWarningRecord}
    (hf : ∀ evidence, input.evidence = some evidence → finiteEvidence evidence = true)
    (h : buildWarning table input ledger = .ok (scope, warning)) : Storable warning := by
  simp only [buildWarning, bind_eq_ok, pure_eq_ok, Prod.mk.injEq] at h
  obtain ⟨_, _, _, _, _, _, _, _, evidence, hevidence, _, rfl⟩ := h
  cases hi : input.evidence with
  | none =>
    rw [hi] at hevidence
    cases hevidence
    rfl
  | some given =>
    have hfinite := hf given hi
    simp only [finiteEvidence, Bool.and_eq_true] at hfinite
    obtain ⟨hcount, htraffic⟩ := hfinite
    rw [hi, Option.mapM_some] at hevidence
    cases hb : buildProviderWarningEvidence table given _ _ with
    | error stop =>
      rw [hb] at hevidence
      cases hevidence
    | ok built =>
      rw [hb] at hevidence
      cases hevidence
      exact builtEvidence_storable hcount htraffic hb rfl

end AuraCall.Persistence
