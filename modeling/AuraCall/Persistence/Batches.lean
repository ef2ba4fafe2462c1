import AuraCall.Ledger.EventReplay
import AuraCall.Ledger.WarningFence
import AuraCall.Persistence.SnapshotText

/-!
# The batches of the file-backed ledger

`FileBackedProviderInteractionLedger` runs the operations that are queued as one batch, under its lock: it takes the
ledger it has cached, or loads the file when its identity has changed, runs the operations on it, and writes the file
once. Results are delivered only after the lock has been released. `flush` is one round of `flushOperations`, with the
places where it can fail; `oneAtATime` runs each request on what the file holds and commits it.

`recordProviderWarning` lets numbers that are not finite into the evidence of a warning, which JSON has not: then the
cached ledger and the file differ (`nonFinite_differs`). Otherwise the cache is the file, and batches refine the
requests one at a time (`batches_refine`).
-/

namespace AuraCall.Persistence

open Ledger

/-! ## Requests -/

/-- The host: its lower-casing, and its `localeCompare` on the provider and then the time of warnings. -/
structure Host where
  table : CaseTable
  collation : ProviderWarningRecord → ProviderWarningRecord → Bool

/-- What is queued: a call that is persisted, or a read that is not. -/
inductive Request
  | call (call : Call)
  | listActiveProviderWarnings (now : DateString)
  | list (provider tenantKey : Option String)
  | listEvents (provider tenantKey : Option String)

def Request.persist : Request → Bool
  | call _ => true
  | listActiveProviderWarnings _ | list _ _ | listEvents _ _ => false

/-- What a request resolves to. -/
inductive Value
  | refused (refusal : Refusal)
  | reply (reply : Reply)
  | warnings (warnings : List ProviderWarningRecord)
  | records (records : List ProviderInteractionRecord)
  | events (events : List ProviderInteractionEvent)

/-- A refusal is a value; a thrown error is none. -/
def deliver {α : Type} (value : α → Value) : Checked α → Option Value
  | .ok a => some (value a)
  | .error (.refused refusal) => some (.refused refusal)
  | .error (.thrown _) => none

def listActiveProviderWarnings (host : Host) (now : DateString) (ledger : InteractionLedger) :
    Checked (List ProviderWarningRecord) := do
  let now ← parseTime now "now"
  return (ledger.warnings.values.filter (isWarningActive · now.ms)).mergeSort host.collation

def listEvents (table : CaseTable) (provider tenantKey : Option String) (ledger : InteractionLedger) :
    Checked (List ProviderInteractionEvent) := do
  let provider ← provider.mapM fun value => normalizeKey table value "provider"
  let tenantKey ← tenantKey.mapM fun value => normalizeKey table value "tenantKey"
  return ledger.events.filter fun event =>
    provider.all (event.scope.provider == ·) && tenantKey.all (event.scope.tenantKey == ·)

/-- Run a request on a ledger in memory: its value, unless it throws, and the ledger it leaves. -/
def Request.run (host : Host) (ledger : InteractionLedger) : Request → Option Value × InteractionLedger
  | .call submitted =>
    (deliver .reply (perform host.table submitted ledger).1, (perform host.table submitted ledger).2)
  | .listActiveProviderWarnings now =>
    (deliver .warnings (Persistence.listActiveProviderWarnings host now ledger), ledger)
  | .list provider tenantKey => (deliver .records (Ledger.list host.table provider tenantKey ledger), ledger)
  | .listEvents provider tenantKey =>
    (deliver .events (Persistence.listEvents host.table provider tenantKey ledger), ledger)

theorem Request.run_read (host : Host) {request : Request} (h : request.persist = false) (ledger : InteractionLedger) :
    (request.run host ledger).2 = ledger := by
  cases request with
  | call call => cases h
  | _ => rfl

/-! ## The file and the batches -/

/-- The snapshot file with its identity, the identities used so far, and the cache of the ledger object: the ledger it
has loaded or written last, with the identity of the file at that time. -/
structure Store where
  file : Option (List Fragment × Nat)
  versions : Nat
  cache : Option (LedgerObject × Option Nat)

/-- What the file holds. -/
def Store.content (s : Store) : Option (List Fragment) := s.file.map (·.1)

def Store.identity (s : Store) : Option Nat := s.file.map (·.2)

def loadLedger (s : Store) : Option LedgerObject :=
  match s.cache with
  | some (object, identity) => if identity = s.identity then some object else (readLedger s.content).map restore
  | none => (readLedger s.content).map restore

/-- Where a round of `flushOperations` fails: before the operations, in `persist` before the rename has happened, in the
`stat` after it, or in removing the lock file. -/
structure Faults where
  load : Bool := false
  commit : Bool := false
  restat : Bool := false
  unlock : Bool := false

/-- `for (const request of batch) values.push(await request.operation(ledger))`; `none` when one throws. -/
def runBatch (host : Host) : List Request → InteractionLedger → Option (List Value × InteractionLedger)
  | [], ledger => some ([], ledger)
  | request :: batch, ledger => do
    let (value, next) := request.run host ledger
    let value ← value
    let (values, final) ← runBatch host batch next
    return (value :: values, final)

def Store.invalidate (s : Store) : Store := { s with cache := none }

/-- The part of the batch after its operations, with the ledger they leave: the store, unless the commit fails. -/
def commitBatch (faults : Faults) (batch : List Request) (object : LedgerObject) (s : Store) : Option Store :=
  if batch.any (·.persist) then
    if faults.commit then none
    else
      let encoded := object.encode
      some {
        file := some (encoded.serialized, s.versions), versions := s.versions + 1
        cache := if faults.restat then none else some (encoded, some s.versions) }
  else some { s with cache := some (object, s.identity) }

/-- One round of `flushOperations`: the values delivered, `none` when the batch is rejected. -/
def flush (host : Host) (faults : Faults) (batch : List Request) (s : Store) : Option (List Value) × Store :=
  match if faults.load then none else loadLedger s with
  | none => (none, s.invalidate)
  | some object =>
    match runBatch host batch object.ledger with
    | none => (none, s.invalidate)
    | some (values, final) =>
      match commitBatch faults batch { object with ledger := final } s with
      | none => (none, s.invalidate)
      | some committed => if faults.unlock then (none, committed.invalidate) else (some values, committed)

/-- Run each request on what the file holds, and commit what it leaves unless it throws or is a read. -/
def oneAtATime (host : Host) : List Request → Option (List Fragment) → List (Option Value) × Option (List Fragment)
  | [], content => ([], content)
  | request :: requests, content =>
    match readLedger content with
    | none => (none :: (oneAtATime host requests content).1, (oneAtATime host requests content).2)
    | some ledger =>
      let out := request.run host ledger
      let next := if request.persist && out.1.isSome then
          some (document out.2.records.values out.2.warnings.values (joined out.2.events))
        else content
      (out.1 :: (oneAtATime host requests next).1, (oneAtATime host requests next).2)

/-! ## Requests with finite evidence -/

/-- The request records no warning with a count that is not finite. -/
def Request.FiniteEvidence (request : Request) : Prop :=
  ∀ id input evidence, request = .call ⟨id, .recordProviderWarning input⟩ → input.evidence = some evidence →
    finiteEvidence evidence = true

/-- A request with finite evidence keeps the warnings storable. -/
theorem run_storable (host : Host) {ledger : InteractionLedger} {request : Request} (h : AllStorable ledger)
    (hf : request.FiniteEvidence) : AllStorable (request.run host ledger).2 := by
  cases request with
  | call call =>
    intro warning hm
    simp only [Request.run] at hm
    cases perform_warningEffect host.table call ledger with
    | kept hkept => exact h warning (by rwa [hkept] at hm)
    | recorded input scope stored hop hb heq =>
      rw [heq] at hm
      rcases KeyedMap.mem_set.1 hm with rfl | ⟨hin, _⟩
      · obtain ⟨id, operation⟩ := call
        obtain rfl : operation = .recordProviderWarning input := hop
        exact buildWarning_storable (fun evidence he => hf id input evidence rfl he) hb
      · exact h warning hin
    | cooled input scope clearedAt cooldownUntil previous _ _ hp _ _ hwarnings =>
      rw [hwarnings] at hm
      rcases KeyedMap.mem_set.1 hm with rfl | ⟨hin, _⟩
      · have hprevious : Storable previous := h previous (KeyedMap.get?_eq_some.1 hp).1
        exact storable_iff.2 fun evidence he => storable_iff.1 hprevious evidence he
      · exact h warning hin
    | lifted account _ hwarnings =>
      rw [hwarnings] at hm
      exact h warning (KeyedMap.mem_delete.1 hm).1
  | _ => exact h

theorem perform_events (table : CaseTable) (call : Call) (ledger : InteractionLedger) :
    ∃ added, (perform table call ledger).2.events = ledger.events ++ added := by
  by_cases h : StartsInTime ledger call
  · cases perform_logged table h "" with
    | unmoved added he _ _ => exact ⟨added, he⟩
    | moved added _ _ he _ _ _ => exact ⟨added, he⟩
  · simp only [StartsInTime, not_forall, not_not] at h
    obtain ⟨input, hop, hlate⟩ := h
    obtain ⟨_, abandoned, _, _, hstart⟩ := late_start hlate
    refine ⟨[], ?_⟩
    simp only [perform, hop, hstart, List.append_nil]

theorem run_events (host : Host) (ledger : InteractionLedger) (request : Request) :
    ∃ added, (request.run host ledger).2.events = ledger.events ++ added := by
  cases request with
  | call call => exact perform_events host.table call ledger
  | _ => exact ⟨[], (List.append_nil _).symm⟩

/-! ## Batches -/

/-- A batch that runs through leaves what its requests leave one at a time. -/
theorem runBatch_oneAtATime {host : Host} {batch : List Request} (hf : ∀ request ∈ batch, request.FiniteEvidence) :
    ∀ {content : Option (List Fragment)} {ledger final : InteractionLedger} {values : List Value},
      readLedger content = some ledger → runBatch host batch ledger = some (values, final) →
      oneAtATime host batch content =
        (values.map some, if batch.any (·.persist) then some (textOf final) else content) ∧
      (batch.any (·.persist) = false → final = ledger) ∧ AllStorable final ∧
      ∃ added, final.events = ledger.events ++ added := by
  induction batch with
  | nil =>
    intro content ledger final values hread hrun
    cases hrun
    exact ⟨rfl, fun _ => rfl, readLedger_storable hread, [], (List.append_nil _).symm⟩
  | cons request batch ih =>
    intro content ledger final values hread hrun
    simp only [runBatch, Option.bind_eq_bind, Option.bind_eq_some_iff, Option.pure_def, Option.some.injEq,
      Prod.mk.injEq] at hrun
    obtain ⟨value, hvalue, ⟨rest, last⟩, hrest, rfl, rfl⟩ := hrun
    have hstorable := run_storable host (readLedger_storable hread) (hf request List.mem_cons_self)
    obtain ⟨added, hadded⟩ := run_events host ledger request
    have hbatch : ∀ r ∈ batch, r.FiniteEvidence := fun r hm => hf r (List.mem_cons_of_mem _ hm)
    cases hp : request.persist with
    | true =>
      have hnext : readLedger (some (textOf (request.run host ledger).2)) = some (request.run host ledger).2 :=
        parse_textOf hstorable
      obtain ⟨hone, hsame, hfinal, more, hmore⟩ := ih hbatch hnext hrest
      refine ⟨?_, ?_, hfinal, added ++ more, by rw [hmore, hadded, List.append_assoc]⟩
      · simp only [oneAtATime, hread, hvalue, hp, Option.isSome_some, Bool.and_self, if_true, List.map_cons,
          List.any_cons, Bool.true_or]
        change (_ :: (oneAtATime host batch (some (textOf _))).1, (oneAtATime host batch (some (textOf _))).2) = _
        rw [hone]
        cases hany : batch.any (·.persist) with
        | true => rfl
        | false =>
          rw [hsame hany]
          rfl
      · simp [hp]
    | false =>
      have hkeep := Request.run_read host hp ledger
      rw [hkeep] at hrest
      obtain ⟨hone, hsame, hfinal, more, hmore⟩ := ih hbatch hread hrest
      refine ⟨?_, ?_, hfinal, more, hmore⟩
      · simp only [oneAtATime, hread, hvalue, hp, Bool.false_and, Bool.false_eq_true, if_false, List.map_cons,
          List.any_cons, Bool.false_or, hone]
      · simpa [hp] using hsame

/-- A batch that throws has a request that throws when it is run one at a time. -/
theorem runBatch_throws {host : Host} {batch : List Request} (hf : ∀ request ∈ batch, request.FiniteEvidence) :
    ∀ {content : Option (List Fragment)} {ledger : InteractionLedger}, readLedger content = some ledger →
      runBatch host batch ledger = none → none ∈ (oneAtATime host batch content).1 := by
  induction batch with
  | nil =>
    intro content ledger hread hrun
    cases hrun
  | cons request batch ih =>
    intro content ledger hread hrun
    have hbatch : ∀ r ∈ batch, r.FiniteEvidence := fun r hm => hf r (List.mem_cons_of_mem _ hm)
    cases hvalue : (request.run host ledger).1 with
    | none => simp [oneAtATime, hread, hvalue]
    | some value =>
      have hrest : runBatch host batch (request.run host ledger).2 = none := by
        cases hr : runBatch host batch (request.run host ledger).2 with
        | none => rfl
        | some result => simp [runBatch, hvalue, hr] at hrun
      have hstorable := run_storable host (readLedger_storable hread) (hf request List.mem_cons_self)
      simp only [oneAtATime, hread, hvalue, Option.isSome_some, Bool.and_true]
      refine List.mem_cons_of_mem _ ?_
      cases hp : request.persist with
      | true => exact ih hbatch (parse_textOf hstorable) hrest
      | false =>
        rw [Request.run_read host hp ledger] at hrest
        exact ih hbatch hread hrest

/-- A file that does not parse makes every request throw. -/
theorem oneAtATime_unreadable {host : Host} {content : Option (List Fragment)} (h : readLedger content = none)
    {batch : List Request} (hne : batch ≠ []) : none ∈ (oneAtATime host batch content).1 := by
  obtain ⟨request, rest, rfl⟩ := List.exists_cons_of_ne_nil hne
  simp [oneAtATime, h]

theorem oneAtATime_append (host : Host) (batch rest : List Request) (content : Option (List Fragment)) :
    oneAtATime host (batch ++ rest) content =
      ((oneAtATime host batch content).1 ++ (oneAtATime host rest (oneAtATime host batch content).2).1,
        (oneAtATime host rest (oneAtATime host batch content).2).2) := by
  induction batch generalizing content with
  | nil => rfl
  | cons request batch ih =>
    simp only [List.cons_append, oneAtATime]
    split <;> simp [ih]

/-! ## The cache -/

/-- The cached ledger is what the file holds as long as the file keeps the identity it was cached under; identities are
not used again. -/
structure CacheCurrent (s : Store) : Prop where
  file : ∀ identity, s.identity = some identity → identity < s.versions
  encoded : ∀ object identity, s.cache = some (object, identity) → object.Encoded
  missing : ∀ object, s.cache = some (object, none) → object.ledger = .empty
  current : ∀ object identity, s.cache = some (object, some identity) → identity < s.versions ∧
    (s.identity = some identity → readLedger s.content = some object.ledger)

/-- **What a batch starts from is what the file holds.** -/
theorem CacheCurrent.load {s : Store} (h : CacheCurrent s) :
    (loadLedger s).map (·.ledger) = readLedger s.content ∧ ∀ object, loadLedger s = some object → object.Encoded := by
  have hreload : ((readLedger s.content).map restore).map (·.ledger) = readLedger s.content ∧
      ∀ object, (readLedger s.content).map restore = some object → object.Encoded := by
    constructor
    · rw [Option.map_map]
      exact Option.map_id'
    · intro object ho
      obtain ⟨ledger, _, rfl⟩ := Option.map_eq_some_iff.1 ho
      exact restore_encoded ledger
  unfold loadLedger
  split
  · rename_i object identity hcache
    split
    · rename_i hsame
      refine ⟨?_, fun found hf => ?_⟩
      · cases identity with
        | some identity => exact ((h.current object identity hcache).2 hsame.symm).symm
        | none =>
          have hcontent : s.content = none := by
            simp only [Store.content, Option.map_eq_none_iff]
            exact Option.map_eq_none_iff.1 hsame.symm
          rw [hcontent, Option.map_some, h.missing object hcache]
          rfl
      · cases hf
        exact h.encoded object identity hcache
    · exact hreload
  · exact hreload

theorem CacheCurrent.invalidate {s : Store} (h : ∀ identity, s.identity = some identity → identity < s.versions) :
    CacheCurrent s.invalidate := by
  refine ⟨h, ?_, ?_, ?_⟩
  all_goals
    intros
    rename_i hcache
    cases hcache

/-- A commit caches what it has written, a batch of reads what it has read. -/
theorem commitBatch_current {s s' : Store} {faults : Faults} {batch : List Request} {object : LedgerObject}
    (h : CacheCurrent s) (he : object.Encoded) (hs : AllStorable object.ledger)
    (hread : batch.any (·.persist) = false → readLedger s.content = some object.ledger)
    (hc : commitBatch faults batch object s = some s') :
    CacheCurrent s' ∧ s'.content =
      if batch.any (·.persist) then some (textOf object.ledger) else s.content := by
  unfold commitBatch at hc
  cases hany : batch.any (·.persist) with
  | true =>
    simp only [hany, if_true] at hc ⊢
    split at hc
    · cases hc
    · cases hc
      obtain ⟨hledger, hencoded, hevents⟩ := he.encode
      have htext : object.encode.serialized = textOf object.ledger := by
        rw [LedgerObject.serialized, hledger, hevents]
        rfl
      refine ⟨⟨?_, ?_, ?_, ?_⟩, congrArg some htext⟩
      · intro identity hi
        cases hi
        exact Nat.lt_succ_self _
      · intro found identity hcache
        dsimp only at hcache
        split at hcache
        · cases hcache
        · cases hcache
          exact hencoded
      · intro found hcache
        dsimp only at hcache
        split at hcache <;> cases hcache
      · intro found identity hcache
        dsimp only at hcache
        split at hcache
        · cases hcache
        · cases hcache
          refine ⟨Nat.lt_succ_self _, fun _ => ?_⟩
          rw [hledger]
          change parse object.encode.serialized = _
          rw [htext]
          exact parse_textOf hs
  | false =>
    simp only [hany, Bool.false_eq_true, if_false] at hc ⊢
    cases hc
    refine ⟨⟨h.file, ?_, ?_, ?_⟩, rfl⟩
    · intro found identity hcache
      cases hcache
      exact he
    · intro found hcache
      simp only [Option.some.injEq, Prod.mk.injEq] at hcache
      obtain ⟨rfl, hidentity⟩ := hcache
      have hcontent : s.content = none := by
        simp only [Store.content, Option.map_eq_none_iff]
        exact Option.map_eq_none_iff.1 hidentity
      have hempty := hread hany
      rw [hcontent] at hempty
      exact (Option.some.inj hempty).symm
    · intro found identity hcache
      simp only [Option.some.injEq, Prod.mk.injEq] at hcache
      obtain ⟨rfl, hidentity⟩ := hcache
      exact ⟨h.file identity hidentity, fun _ => hread hany⟩

/-- The batch is rejected: it fails before its commit is durable, or one of its requests throws. -/
def Rejects (host : Host) (faults : Faults) (batch : List Request) (s : Store) : Prop :=
  faults.load = true ∨ (batch.any (·.persist) = true ∧ faults.commit = true) ∨
    none ∈ (oneAtATime host batch s.content).1

/-- A batch that is rejected delivers no value and leaves the file; any other one delivers the values of its requests
one at a time, and leaves the file they leave. -/
inductive Refines (host : Host) (faults : Faults) (batch : List Request) (s : Store) :
    Option (List Value) × Store → Prop
  | rejected {s' : Store} : Rejects host faults batch s → s'.content = s.content →
      Refines host faults batch s (none, s')
  | delivered {s' : Store} (values : List Value) : ¬Rejects host faults batch s →
      oneAtATime host batch s.content = (values.map some, s'.content) → Refines host faults batch s (some values, s')

theorem not_mem_map_some (values : List Value) : (none : Option Value) ∉ values.map some := by
  intro h
  obtain ⟨_, _, he⟩ := List.mem_map.1 h
  cases he

/-- **One batch.** -/
theorem flush_refines {host : Host} {s : Store} (h : CacheCurrent s) {faults : Faults} {batch : List Request}
    (hunlock : faults.unlock = false) (hne : batch ≠ []) (hf : ∀ request ∈ batch, request.FiniteEvidence) :
    CacheCurrent (flush host faults batch s).2 ∧ Refines host faults batch s (flush host faults batch s) := by
  have hinvalid := CacheCurrent.invalidate h.file
  obtain ⟨hload, hencoded⟩ := h.load
  unfold flush
  cases hl : faults.load with
  | true => exact ⟨hinvalid, .rejected (.inl hl) rfl⟩
  | false =>
    simp only [Bool.false_eq_true, if_false]
    cases ho : loadLedger s with
    | none =>
      rw [ho] at hload
      exact ⟨hinvalid, .rejected (.inr (.inr (oneAtATime_unreadable hload.symm hne))) rfl⟩
    | some object =>
      rw [ho, Option.map_some] at hload
      have hread : readLedger s.content = some object.ledger := hload.symm
      dsimp only
      cases hr : runBatch host batch object.ledger with
      | none => exact ⟨hinvalid, .rejected (.inr (.inr (runBatch_throws hf hread hr))) rfl⟩
      | some result =>
        obtain ⟨values, final⟩ := result
        obtain ⟨hone, hsame, hstorable, added, hadded⟩ := runBatch_oneAtATime hf hread hr
        dsimp only
        have hobject : ({ object with ledger := final } : LedgerObject).Encoded := (hencoded object ho).append hadded
        cases hc : commitBatch faults batch { object with ledger := final } s with
        | none =>
          refine ⟨hinvalid, .rejected (.inr (.inl ?_)) rfl⟩
          unfold commitBatch at hc
          split at hc
          · rename_i hany
            split at hc
            · rename_i hcommit
              exact ⟨hany, hcommit⟩
            · cases hc
          · cases hc
        | some committed =>
          obtain ⟨hcurrent, hcontent⟩ := commitBatch_current h hobject hstorable
            (fun hany => by rw [hsame hany]; exact hread) hc
          simp only [hunlock, Bool.false_eq_true, if_false]
          refine ⟨hcurrent, .delivered values ?_ ?_⟩
          · rintro (hload | ⟨hany, hcommit⟩ | hthrows)
            · rw [hl] at hload
              cases hload
            · simp [commitBatch, hany, hcommit] at hc
            · rw [hone] at hthrows
              exact not_mem_map_some values hthrows
          · rw [hone, hcontent]

/-! ## Runs -/

/-- A round of `flushOperations`, which is entered with at least one request. -/
structure Round where
  faults : Faults := {}
  first : Request
  rest : List Request := []

def Round.batch (round : Round) : List Request := round.first :: round.rest

/-- The lock file is removed, and no warning is recorded with a count that is not finite. -/
def Round.Sound (round : Round) : Prop :=
  round.faults.unlock = false ∧ ∀ request ∈ round.batch, request.FiniteEvidence

theorem Round.refines {host : Host} {round : Round} (hround : round.Sound) {s : Store} (h : CacheCurrent s) :
    CacheCurrent (flush host round.faults round.batch s).2 ∧
      Refines host round.faults round.batch s (flush host round.faults round.batch s) :=
  flush_refines h hround.1 (List.cons_ne_nil _ _) hround.2

/-- What happens to the store: a round of the object, or another process puts a file there or removes it. -/
inductive Activity
  | flush (round : Round)
  | peer (content : Option (List Fragment))

def Activity.Sound (_ : Store) : Activity → Prop
  | flush round => round.Sound
  | peer _ => True

def advanceStore (host : Host) (s : Store) : Activity → Store
  | .flush round => (Persistence.flush host round.faults round.batch s).2
  | .peer content => { s with file := content.map fun text => (text, s.versions), versions := s.versions + 1 }

/-- All runs of a ledger object, which has nothing cached when it is created. -/
def batchedLedger (host : Host) : TransitionSystem Store Activity :=
  .ofNext (fun s => s.cache = none ∧ ∀ identity, s.identity = some identity → identity < s.versions)
    fun s activity => some (advanceStore host s activity)

theorem CacheCurrent.peer {s : Store} (h : CacheCurrent s) (host : Host) (content : Option (List Fragment)) :
    CacheCurrent (advanceStore host s (.peer content)) := by
  have hnew : ∀ identity, (advanceStore host s (.peer content)).identity = some identity → identity = s.versions := by
    intro identity hi
    simp only [advanceStore, Store.identity, Option.map_map] at hi
    obtain ⟨_, _, rfl⟩ := Option.map_eq_some_iff.1 hi
    rfl
  refine ⟨fun identity hi => ?_, h.encoded, h.missing, fun object identity hcache => ?_⟩
  · rw [hnew identity hi]
    exact Nat.lt_succ_self _
  · have hold := (h.current object identity hcache).1
    refine ⟨Nat.lt_succ_of_lt hold, fun hi => ?_⟩
    have := hnew identity hi
    omega

theorem reachable_current {host : Host} {s : Store}
    (h : ((batchedLedger host).restrict Activity.Sound).Reachable s) : CacheCurrent s := by
  refine h.invariant ?_ ?_
  · rintro s ⟨hcache, hfile⟩
    refine ⟨hfile, ?_, ?_, ?_⟩
    all_goals
      intros
      rename_i hsome
      rw [hcache] at hsome
      cases hsome
  · rintro s activity s' _ hcurrent ⟨hsound, hstep⟩
    cases hstep
    cases activity with
    | flush round => exact (Round.refines hsound hcurrent).1
    | peer content => exact hcurrent.peer host content

/-- Rounds, one after the other: what each delivers, and the store they leave. -/
def flushAll (host : Host) : List Round → Store → List (Option (List Value)) × Store
  | [], s => ([], s)
  | round :: rounds, s =>
    let out := flush host round.faults round.batch s
    (out.1 :: (flushAll host rounds out.2).1, (flushAll host rounds out.2).2)

/-- The values of the rounds that have delivered. -/
def delivered (outcomes : List (Option (List Value))) : List (List Value) := outcomes.filterMap id

/-- The requests of the rounds that have delivered. -/
def deliveredRequests : List Round → List (Option (List Value)) → List Request
  | round :: rounds, some _ :: outcomes => round.batch ++ deliveredRequests rounds outcomes
  | _ :: rounds, none :: outcomes => deliveredRequests rounds outcomes
  | _, _ => []

/-- Rounds deliver what the requests of the delivered batches give one at a time, and leave the file these leave. -/
theorem flushAll_refines {host : Host} (rounds : List Round) : ∀ {s : Store}, CacheCurrent s →
    (∀ round ∈ rounds, round.Sound) →
    oneAtATime host (deliveredRequests rounds (flushAll host rounds s).1) s.content =
      ((delivered (flushAll host rounds s).1).flatten.map some, (flushAll host rounds s).2.content) := by
  induction rounds with
  | nil => exact fun _ _ => rfl
  | cons round rounds ih =>
    intro s h hs
    have hround := hs round List.mem_cons_self
    obtain ⟨hcurrent, hrefines⟩ := Round.refines hround h
    have hrest := ih hcurrent fun r hm => hs r (List.mem_cons_of_mem _ hm)
    simp only [flushAll]
    generalize flush host round.faults round.batch s = out at hrefines hrest ⊢
    cases hrefines with
    | rejected _ hcontent =>
      rw [hcontent] at hrest
      exact hrest
    | @delivered s' values _ hone =>
      simp only [deliveredRequests]
      rw [oneAtATime_append, hone, hrest]
      simp [delivered]

/-- Rounds that do not fail, of requests that do not throw, all deliver. -/
theorem flushAll_delivers {host : Host} (rounds : List Round) : ∀ {s : Store}, CacheCurrent s →
    (∀ round ∈ rounds, round.Sound ∧ round.faults.load = false ∧ round.faults.commit = false) →
    none ∉ (oneAtATime host (rounds.flatMap Round.batch) s.content).1 →
    (delivered (flushAll host rounds s).1).length = rounds.length ∧
      deliveredRequests rounds (flushAll host rounds s).1 = rounds.flatMap Round.batch := by
  induction rounds with
  | nil => exact fun _ _ _ => ⟨rfl, rfl⟩
  | cons round rounds ih =>
    intro s h hs hnone
    obtain ⟨hround, hload, hcommit⟩ := hs round List.mem_cons_self
    obtain ⟨hcurrent, hrefines⟩ := Round.refines hround h
    rw [List.flatMap_cons, oneAtATime_append, List.mem_append, not_or] at hnone
    have hrest := ih hcurrent fun r hm => hs r (List.mem_cons_of_mem _ hm)
    simp only [flushAll]
    generalize flush host round.faults round.batch s = out at hrefines hrest ⊢
    cases hrefines with
    | rejected hrejects _ =>
      rcases hrejects with hl | ⟨_, hc⟩ | hthrows
      · rw [hload] at hl
        cases hl
      · rw [hcommit] at hc
        cases hc
      · exact absurd hthrows hnone.1
    | @delivered s' values _ hone =>
      rw [hone] at hnone
      obtain ⟨hlength, hdelivered⟩ := hrest hnone.2
      refine ⟨?_, ?_⟩
      · simpa [delivered] using hlength
      · rw [deliveredRequests, hdelivered, List.flatMap_cons]

/-- **As long as the lock file is removed and no warning is recorded with a count that is not finite: what a batch
starts from is what the file holds; a batch that fails or throws delivers nothing and leaves the file; and whatever the
partition, the delivered batches deliver and commit what their requests do one at a time. Without failures and throws
all of them are delivered.** -/
theorem batches_refine (host : Host) {s : Store} (h : ((batchedLedger host).restrict Activity.Sound).Reachable s) :
    (loadLedger s).map (·.ledger) = readLedger s.content ∧
    (∀ round : Round, round.Sound →
      Refines host round.faults round.batch s (flush host round.faults round.batch s)) ∧
    (∀ rounds : List Round, (∀ round ∈ rounds, round.Sound) →
      oneAtATime host (deliveredRequests rounds (flushAll host rounds s).1) s.content =
        ((delivered (flushAll host rounds s).1).flatten.map some, (flushAll host rounds s).2.content)) ∧
    (∀ rounds : List Round,
      (∀ round ∈ rounds, round.Sound ∧ round.faults.load = false ∧ round.faults.commit = false) →
      none ∉ (oneAtATime host (rounds.flatMap Round.batch) s.content).1 →
      (delivered (flushAll host rounds s).1).length = rounds.length ∧
        oneAtATime host (rounds.flatMap Round.batch) s.content =
          ((delivered (flushAll host rounds s).1).flatten.map some, (flushAll host rounds s).2.content)) := by
  have hcurrent := reachable_current h
  refine ⟨hcurrent.load.1, fun round hround => ?_, fun rounds hrounds => flushAll_refines rounds hcurrent hrounds,
    fun rounds hrounds hnone => ?_⟩
  · exact (Round.refines hround hcurrent).2
  · obtain ⟨hlength, hdelivered⟩ := flushAll_delivers rounds hcurrent hrounds hnone
    refine ⟨hlength, ?_⟩
    rw [← hdelivered]
    exact flushAll_refines rounds hcurrent fun round hm => (hrounds round hm).1

/-! ## A sample ledger -/

def sampleHost : Host := ⟨.lowered, fun _ _ => true⟩

/-- There is no file yet. -/
def missing : Store := ⟨none, 0, none⟩

theorem missing_reachable : ((batchedLedger sampleHost).restrict Activity.Sound).Reachable missing := by
  refine .init ⟨rfl, fun identity h => ?_⟩
  cases h

/-- A reservation and its start in one batch, and then a read. -/
def sampleRounds : List Round :=
  [{ first := .call (sampleReserve hourlyPolicy "reservation-1" "workload-1" 0)
     rest := [.call (sampleStart "reservation-1" 1000)] },
    { first := .list none none }]

theorem sampleRounds_sound : ∀ round ∈ sampleRounds,
    round.Sound ∧ round.faults.load = false ∧ round.faults.commit = false := by
  have hfinite : ∀ round ∈ sampleRounds, ∀ request ∈ round.batch, request.FiniteEvidence := by
    intro round hr request hm id input evidence he
    simp only [sampleRounds, List.mem_cons, List.not_mem_nil, or_false] at hr
    rcases hr with rfl | rfl
    · simp only [Round.batch, List.mem_cons, List.not_mem_nil, or_false] at hm
      rcases hm with rfl | rfl <;> cases he
    · simp only [Round.batch, List.mem_cons, List.not_mem_nil, or_false] at hm
      rw [hm] at he
      cases he
  intro round hr
  refine ⟨⟨?_, hfinite round hr⟩, ?_⟩
  all_goals
    simp only [sampleRounds, List.mem_cons, List.not_mem_nil, or_false] at hr
    rcases hr with rfl | rfl
  all_goals first | rfl | exact ⟨rfl, rfl⟩

theorem none_not_mem {values : List (Option Value)} (h : values.all Option.isSome = true) : none ∉ values := by
  intro hm
  have := List.all_eq_true.1 h none hm
  cases this

theorem sampleRounds_refine : (delivered (flushAll sampleHost sampleRounds missing).1).length = 2 ∧
    (oneAtATime sampleHost (sampleRounds.flatMap Round.batch) none).2 =
      (flushAll sampleHost sampleRounds missing).2.content := by
  obtain ⟨hlength, hone⟩ := (batches_refine sampleHost missing_reachable).2.2.2 sampleRounds sampleRounds_sound
    (none_not_mem (by decide +kernel))
  exact ⟨hlength, congrArg Prod.snd hone⟩

/-- A warning is recorded with a target count that is no number, and then the active warnings are read. -/
def nonFiniteRounds : List Round :=
  [{ first := .call ⟨"", .recordProviderWarning {
      scope := sampleScope, classification := .rateLimit, reason := "visible warning", observedAt := .at 0
      evidence := some {
        classifierVersion := "v1", visibleSummary := "Too many requests", sourceTargetClass := "leased-page"
        openTargetCount := some .nan, resourcePathClasses := none, precedingInteractionLimit := none
        trafficAdmission := none } }⟩ },
    { first := .listActiveProviderWarnings (.at 1000) }]

/-- The target counts in a list of warnings. -/
def targetCounts : Option Value → List (Option JsNumber)
  | some (.warnings warnings) => warnings.map fun warning => warning.evidence.bind (·.openTargetCount)
  | _ => []

/-- The batches deliver the number of the cached ledger, and the file holds none. -/
theorem nonFinite_differs : ¬∀ s, (batchedLedger sampleHost).Reachable s → ∀ rounds : List Round,
    (∀ round ∈ rounds, round.faults.load = false ∧ round.faults.commit = false ∧ round.faults.unlock = false) →
    none ∉ (oneAtATime sampleHost (rounds.flatMap Round.batch) s.content).1 →
    oneAtATime sampleHost (rounds.flatMap Round.batch) s.content =
      ((delivered (flushAll sampleHost rounds s).1).flatten.map some, (flushAll sampleHost rounds s).2.content) := by
  intro h
  have hrounds : ∀ round ∈ nonFiniteRounds,
      round.faults.load = false ∧ round.faults.commit = false ∧ round.faults.unlock = false := by
    decide
  have hone := h missing missing_reachable.of_restrict nonFiniteRounds hrounds (none_not_mem (by decide +kernel))
  have hcounts := congrArg (fun out => out.1.map targetCounts) hone
  have hfile : (oneAtATime sampleHost (nonFiniteRounds.flatMap Round.batch) missing.content).1.map targetCounts =
      [[], [none]] := by decide +kernel
  have hcache : ((delivered (flushAll sampleHost nonFiniteRounds missing).1).flatten.map some).map targetCounts =
      [[], [some .nan]] := by decide +kernel
  simp only [hfile, hcache] at hcounts
  simp at hcounts

end AuraCall.Persistence
