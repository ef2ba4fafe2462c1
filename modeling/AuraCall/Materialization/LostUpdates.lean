import AuraCall.Materialization.ArchiveIndex

/-!
# Lost updates

In a run whose replacements are all in their windows, a completed upsert of one of the stores stays visible until its
item is upserted again or removed on request, and what a read writes back replaces only what it has read
(`upserts_stay_visible`). Each store reads a whole document and renames a new one over it, so that two upserts of
different ids can overlap, and a read can write back an item that was upserted since (`overlapping_upserts_lost`).
-/

namespace AuraCall.Materialization

open Script SharedDocument

/-! ## Scripts -/

section Scripts

variable {φ : Type} (host : ArchiveHost φ) {call : Nat} {s : ArchiveState φ}

/-- A script on the index, among others. -/
abbrev UpdatesIndex {α : Type} (Q : Except Thrown α → ArchiveState φ → Prop) (p : ArchiveScript φ α)
    (s : ArchiveState φ) : Prop := Updates IndexedItem.id Q p s

/-- What follows an end: the rest of the script, or its failure. -/
def FollowedBy {α β : Type} (Q : Except Thrown β → ArchiveState φ → Prop) (f : α → ArchiveScript φ β) :
    Except Thrown α → ArchiveState φ → Prop
  | .ok a, s => UpdatesIndex Q (f a) s
  | .error e, s => Q (.error e) s

theorem updates_bind {α β : Type} {Q : Except Thrown β → ArchiveState φ → Prop} {p : ArchiveScript φ α}
    {f : α → ArchiveScript φ β} (h : UpdatesIndex (FollowedBy Q f) p s) : UpdatesIndex Q (p >>= f) s :=
  safe_bind.2 (h.imp fun r s' hr => by cases r <;> exact hr)

/-- What is asked for changes nothing. -/
theorem updates_ask {α β : Type} {Q : Except Thrown β → ArchiveState φ → Prop} {P : ArchiveState φ → Prop}
    {read : ArchiveSurroundings φ → Except Thrown α} {f : α → ArchiveScript φ β}
    (hP : ∀ {s s' : ArchiveState φ}, Moves IndexedItem.id s s' → P s → P s') (h : P s)
    (hf : ∀ a s', P s' → UpdatesIndex Q (f a) s') (herror : ∀ e s', Q (.error e) s') :
    UpdatesIndex Q (askArchive read >>= f) s := by
  have hask : UpdatesIndex (FollowedBy Q f) (askArchive read) s := safe_look .refl fun s' _ hs => by
    cases read s'.rest with
    | ok a => exact hf a s' (hP hs h)
    | error e => exact herror e s'
  exact updates_bind hask

/-- The call has put items into the index, as it was asked. -/
def ArchiveWrote (call : Nat) : ArchiveCall φ → ArchiveState φ → Prop
  | .readIndexedItems _, _ => True
  | .upsertItems items removed, s => Wrote call (items.map .normalize) (fun indexed => removed indexed.item) s
  | input, s => ∃ items, Wrote call (items.map .normalize) (fun indexed => removeExisting items input indexed.item) s

/-- What the end of a call says. -/
def ArchiveDone {α : Type} (call : Nat) (input : ArchiveCall φ) : Except Thrown α → ArchiveState φ → Prop
  | .ok _, s => ArchiveWrote call input s
  | .error _, _ => True

theorem comes_none : Comes IndexedItem.id none s := fun _ h => by cases h

theorem updates_upsertItems {basis : Option (Basis (IndexedItem φ))} {items : List (RunArchiveItem φ)}
    {removed : RunArchiveItem φ → Bool} (hbasis : Comes IndexedItem.id basis s) :
    UpdatesIndex (fun r s' => ∀ b, r = .ok b → Wrote call (items.map .normalize) (fun indexed => removed indexed.item) s')
      (upsertItems host call basis items removed) s := by
  have hupsert : UpdatesIndex (fun r s' => True ∧ ∀ b, r = .ok b →
      Wrote call (items.map .normalize) (fun indexed => removed indexed.item) s')
      (upsertItems host call basis items removed) s :=
    updates_upsertDocument (fun _ _ => trivial) archiveFault (indexOrder host) trivial hbasis
  exact hupsert.imp fun _ _ h => h.2

/-- What a reading of the index tells. -/
def ReadIndex : Except Thrown (Option (List (IndexedItem φ)) × Nat) → ArchiveState φ → Prop
  | .ok (index, position), s => ReadAt IndexedItem.id position index s
  | .error _, _ => True

theorem updates_readIndex : UpdatesIndex ReadIndex (readIndex (φ := φ)) s := by
  have hread : UpdatesIndex (Knows IndexedItem.id fun _ => True) (readIndex (φ := φ)) s :=
    updates_readDocument (fun _ _ => trivial) archiveFault trivial
  refine hread.imp fun r s' hr => ?_
  cases r with
  | ok answer => exact hr.2
  | error e => trivial

theorem updates_backfillIndexItems {seen : Nat} (hread : ReadAt IndexedItem.id seen none s) :
    UpdatesIndex (fun _ _ => True) (backfillIndexItems host call seen) s := by
  refine updates_ask (fun hm h => hm.read _ _ h) hread (fun items s₁ hread => ?_) fun _ _ => trivial
  have hreplace : UpdatesIndex (fun r s' => True ∧ ∀ b, r = .ok b → Wrote call (items.map .normalize) (fun _ => false) s')
      (replaceDocument IndexedItem.id (indexOrder host) archiveFault call none seen none (items.map .normalize)
        fun _ => false) s₁ :=
    updates_replaceDocument (fun _ _ => trivial) archiveFault (indexOrder host) trivial hread comes_none
  exact hreplace.imp fun _ _ _ => trivial

theorem updates_refreshIndexedFileMetadata {index : Basis (IndexedItem φ)} {items : List (IndexedItem φ)}
    (hindex : Comes IndexedItem.id (some index) s) :
    UpdatesIndex (fun _ _ => True) (refreshIndexedFileMetadata host call index items) s := by
  refine updates_ask (fun hm h => h.moves hm) hindex (fun file s₁ hindex => ?_) fun _ _ => trivial
  dsimp only
  split
  · trivial
  · refine updates_bind ((updates_upsertItems host hindex).imp fun r s₂ _ => ?_)
    cases r <;> trivial

theorem updates_readIndexedItems (scope : RunArchiveItem φ → Bool) :
    UpdatesIndex (fun _ _ => True) (readIndexedItems host call scope) s := by
  refine updates_bind (updates_readIndex.imp fun r s₁ hr => ?_)
  rcases r with - | ⟨- | items, position⟩
  · trivial
  · refine updates_bind ((updates_backfillIndexItems host hr).imp fun r s₂ _ => ?_)
    cases r <;> trivial
  · refine updates_refreshIndexedFileMetadata host fun b hb => ?_
    cases hb
    exact ⟨some items, rfl, hr⟩

theorem updates_ensureArchiveIndex : UpdatesIndex (fun _ _ => True) (ensureArchiveIndex host call) s := by
  refine updates_bind (updates_readIndex.imp fun r s₁ hr => ?_)
  rcases r with - | ⟨- | items, position⟩
  · trivial
  · refine updates_bind ((updates_backfillIndexItems host hr).imp fun r s₂ _ => ?_)
    cases r <;> trivial
  · trivial

theorem updates_upsertArchiveItems (input : ArchiveCall φ) :
    UpdatesIndex (fun r s' => ∀ a, r = .ok a → ∃ items, Wrote call (items.map .normalize)
      (fun indexed => removeExisting items input indexed.item) s') (upsertArchiveItems host call input) s := by
  refine updates_ask (fun _ _ => trivial) trivial (fun items s₁ _ => ?_) fun _ _ _ h => by cases h
  refine updates_bind ((updates_ensureArchiveIndex host).imp fun r s₂ _ => ?_)
  cases r with
  | error => exact fun a h => by cases h
  | ok =>
    refine updates_bind ((updates_upsertItems host comes_none).imp fun r s₃ hr => ?_)
    cases r with
    | error => exact fun a h => by cases h
    | ok index => exact fun a _ => ⟨items, hr index rfl⟩

/-- **Every call of the archive service keeps the index.** -/
theorem updates_archiveServiceCall (input : ArchiveCall φ) (s : ArchiveState φ) :
    UpdatesIndex (ArchiveDone call input) (archiveServiceCall host call input) s := by
  have hservice : (∀ items removed, input ≠ .upsertItems items removed) → (∀ scope, input ≠ .readIndexedItems scope) →
      UpdatesIndex (ArchiveDone call input) (upsertArchiveItems host call input) s := by
    intro hne hne'
    refine (updates_upsertArchiveItems host input).imp fun r s' hr => ?_
    cases r with
    | error => trivial
    | ok a =>
      have hwrote := hr a rfl
      cases input with
      | readIndexedItems scope => exact absurd rfl (hne' scope)
      | upsertItems items removed => exact absurd rfl (hne items removed)
      | upsertResponseItems | upsertBatchItems | upsertMediaGenerationItems | upsertHistoryMaterializationItems |
        attachEvidence => exact hwrote
  cases input with
  | readIndexedItems scope =>
    refine (updates_readIndexedItems host scope).imp fun r s' _ => ?_
    cases r <;> trivial
  | upsertItems items removed =>
    refine updates_bind ((updates_upsertItems host comes_none).imp fun r s' hr => ?_)
    cases r with
    | error => trivial
    | ok index => exact hr index rfl
  | upsertResponseItems | upsertBatchItems | upsertMediaGenerationItems | upsertHistoryMaterializationItems |
    attachEvidence => exact hservice (fun _ _ h => by cases h) fun _ h => by cases h

end Scripts

/-! ## Stores of one document -/

section Stores

variable {ι φ π ρ γ : Type}

/-- What the end of a call of a store says. -/
def StoreDone {α β η : Type} (items : β → List ι) (call : Nat) :
    StoreCall β → Except Thrown α → Shared ι η → Prop
  | .upsert input, .ok _, s => Wrote call (items input) (fun _ => false) s
  | _, _, _ => True

theorem updates_jobStoreCall (call : Nat) (input : StoreCall (MaterializationJob π ρ γ))
    (s : JobState π ρ γ (Option Thrown)) :
    Updates MaterializationJob.id (StoreDone (fun job => [job]) call input) (jobStoreCall call input) s := by
  cases input with
  | upsert job =>
    have hupsert : Updates MaterializationJob.id (fun r s' => True ∧ ∀ b, r = .ok b → Wrote call [job] (fun _ => false) s')
        (upsertJob (fun fault => fault) call none job) s :=
      updates_upsertDocument (fun _ _ => trivial) (fun fault => fault) byUpdatedAt trivial fun _ h => by cases h
    refine safe_bind.2 (hupsert.imp fun r s' hr => ?_)
    cases r with
    | error => trivial
    | ok jobs => exact hr.2 jobs rfl
  | list =>
    have hread : Updates MaterializationJob.id (Knows MaterializationJob.id fun _ => True)
        (readDocument (fun fault => fault)) s := updates_readDocument (fun _ _ => trivial) (fun fault => fault) trivial
    refine safe_bind.2 (safe_bind.2 (hread.imp fun r s' _ => ?_))
    cases r <;> trivial

theorem updates_historyItemCall (host : ArchiveHost φ) (call : Nat) (input : StoreCall (List (RunArchiveItem φ)))
    (s : Shared (RunArchiveItem φ) (Option Thrown)) :
    Updates RunArchiveItem.id (StoreDone (fun items => items) call input) (historyItemCall host call input) s := by
  cases input with
  | upsert items =>
    have hupsert : Updates RunArchiveItem.id (fun r s' => True ∧ ∀ b, r = .ok b → Wrote call items (fun _ => false) s')
        (upsertDocument RunArchiveItem.id (historyItemOrder host) (fun fault => fault) call none items fun _ => false) s :=
      updates_upsertDocument (fun _ _ => trivial) (fun fault => fault) (historyItemOrder host) trivial
        fun _ h => by cases h
    refine safe_bind.2 (hupsert.imp fun r s' hr => ?_)
    cases r with
    | error => trivial
    | ok stored => exact hr.2 stored rfl
  | list =>
    have hread : Updates RunArchiveItem.id (Knows RunArchiveItem.id fun _ => True) (readDocument (fun fault => fault)) s :=
      updates_readDocument (fun _ _ => trivial) (fun fault => fault) trivial
    refine safe_bind.2 (hread.imp fun r s' _ => ?_)
    cases r <;> trivial

theorem outside_disturbStore {η : Type} : Outside (disturbStore (ι := ι) (η := η)) := fun s event s' h => by
  cases h
  exact ⟨rfl, rfl⟩

/-- Every completed upsert of a store is visible. -/
def StoreKept {α β η : Type} (key : ι → String) (items : β → List ι) (events : List (Threads.Event (StoreCall β) η))
    (c : Threads (Shared ι η) Thrown α) : Prop :=
  ∀ (i : Nat) input answer, (Threads.inputs events)[i]? = some (.upsert input) →
    c.scripts[i]? = some (.done (.ok answer)) → VisibleFrom key i (items input) c.state

/-- Every completed upsert of the index is visible, and a write-back replaces only what it has read. -/
structure ArchiveKept (events : List (Threads.Event (ArchiveCall φ) (ArchiveSurroundings φ)))
    (c : Threads (ArchiveState φ) Thrown (List (IndexedItem φ))) : Prop where
  upserted : ∀ (i : Nat) (items : List (RunArchiveItem φ)) removed answer,
    (Threads.inputs events)[i]? = some (.upsertItems items removed) → c.scripts[i]? = some (.done (.ok answer)) → VisibleFrom IndexedItem.id i (items.map .normalize) c.state
  serviced : ∀ (i : Nat) input answer, (Threads.inputs events)[i]? = some input →
    c.scripts[i]? = some (.done (.ok answer)) → (∀ scope, input ≠ .readIndexedItems scope) →
      ∃ items : List (RunArchiveItem φ), VisibleFrom IndexedItem.id i (items.map .normalize) c.state
  current : ∀ write ∈ c.state.writes, ∀ index, write.basis = some index → ∀ old ∈ write.found,
    old.id ∈ write.items.map IndexedItem.id → old ∈ index.items

theorem storeKept_of_run {α β η : Type} {key : ι → String} {items : β → List ι}
    {call : Nat → StoreCall β → Script (Shared ι η) Thrown α}
    (hcall : ∀ i input s, Updates key (StoreDone items i input) (call i input) s)
    {c₀ c : Threads (Shared ι η) Thrown α} {events : List (Threads.Event (StoreCall β) η)}
    (hinit : (Threads.system SharedDocument.Unwritten call disturbStore).Init c₀)
    (hrun : (Threads.system SharedDocument.Unwritten call disturbStore).Run c₀ events c) (ho : Orderly key c.state) :
    StoreKept key items events c := by
  intro i input answer hinput hdone
  have hcompatible := updates_compatible outside_disturbStore hcall
  have hinv := (Threads.safe_of_reachable hcompatible (hrun.reachable (.init hinit))).inv
  obtain ⟨started, s, hstarted, hmoves, hend⟩ := Threads.end_of_run hcompatible hinit.1 hinit.2 hrun hdone
  rw [hinput] at hstarted
  cases hstarted
  have hwrote : Wrote i (items input) (fun _ => false) s := hend
  exact hinv.visible ho (hwrote.moves hmoves)

/-- **Upserts stay visible**: when every replacement is in its window, each completed upsert of a job store, of the store
of history items and of the run archive index is in every later state until its item is upserted again or removed on
request, and no read writes back an older version of an item. -/
theorem upserts_stay_visible (host : ArchiveHost φ) :
    (∀ c₀ c events, (jobStoreSystem π ρ γ).Init c₀ → (jobStoreSystem π ρ γ).Run c₀ events c →
      Orderly MaterializationJob.id c.state → StoreKept MaterializationJob.id (fun job => [job]) events c) ∧
    (∀ c₀ c events, (historyItemSystem host).Init c₀ → (historyItemSystem host).Run c₀ events c →
      Orderly RunArchiveItem.id c.state → StoreKept RunArchiveItem.id (fun items => items) events c) ∧
    ∀ c₀ c events, (archiveIndexSystem host).Init c₀ → (archiveIndexSystem host).Run c₀ events c →
      Orderly IndexedItem.id c.state → ArchiveKept events c := by
  refine ⟨fun c₀ c events hinit hrun ho => storeKept_of_run updates_jobStoreCall hinit hrun ho,
    fun c₀ c events hinit hrun ho => storeKept_of_run (updates_historyItemCall host) hinit hrun ho,
    fun c₀ c events hinit hrun ho => ?_⟩
  have hcompatible : Threads.Compatible SharedDocument.Unwritten (archiveServiceCall host) disturbStore (NoLostUpdate IndexedItem.id)
      (fun _ => Moves IndexedItem.id) (fun _ => Moves IndexedItem.id) fun i input => ArchiveDone i input :=
    updates_compatible outside_disturbStore fun i input s => updates_archiveServiceCall host input s
  have hinv := (Threads.safe_of_reachable hcompatible (hrun.reachable (.init hinit))).inv
  have hwrote : ∀ (i : Nat) input answer, (Threads.inputs events)[i]? = some input →
      c.scripts[i]? = some (.done (.ok answer)) → ∃ s, Moves IndexedItem.id s c.state ∧ ArchiveWrote i input s := by
    intro i input answer hinput hdone
    obtain ⟨started, s, hstarted, hmoves, hend⟩ := Threads.end_of_run hcompatible hinit.1 hinit.2 hrun hdone
    rw [hinput] at hstarted
    cases hstarted
    exact ⟨s, hmoves, hend⟩
  refine ⟨fun i items removed answer hinput hdone => ?_, fun i input answer hinput hdone hread => ?_, hinv.current ho⟩
  · obtain ⟨s, hmoves, hwrote⟩ := hwrote i _ answer hinput hdone
    have hwrote : Wrote i (items.map .normalize) (fun indexed : IndexedItem φ => removed indexed.item) s := hwrote
    exact hinv.visible ho (hwrote.moves hmoves)
  · obtain ⟨s, hmoves, hwrote⟩ := hwrote i input answer hinput hdone
    cases input with
    | readIndexedItems scope => exact absurd rfl (hread scope)
    | upsertItems items removed =>
      have hwrote : Wrote i (items.map .normalize) (fun indexed : IndexedItem φ => removed indexed.item) s := hwrote
      exact ⟨items, hinv.visible ho (hwrote.moves hmoves)⟩
    | upsertResponseItems | upsertBatchItems | upsertMediaGenerationItems | upsertHistoryMaterializationItems |
      attachEvidence =>
      obtain ⟨items, hwrote⟩ := hwrote
      exact ⟨items, hinv.visible ho (hwrote.moves hmoves)⟩

end Stores

/-! ## Two upserts, and a read -/

section Sample

def sampleHost : ArchiveHost Nat := ⟨fun left right => compare left right, fun previous next => previous != next⟩

def sampleItem (id : String) (file : Nat) : RunArchiveItem Nat :=
  { id, kind := .upload, source := .accountMirror, createdAt := "2026-01-01T00:00:00.000Z", provider := none
    runtimeProfile := none, projectId := none, boundIdentityKey := none, responseId := none, batchId := none
    mediaGenerationId := none, providerConversationId := none, file }

/-- The file of every item has the metadata 1. -/
def sampleArchive : ArchiveSurroundings Nat :=
  { storeFault := none, enrichFileMetadata := .ok fun _ => 1, collectArchiveItems := .ok []
    buildItems := fun _ => .ok [] }

/-- The index has one item, whose file was not looked at. -/
def indexedState : ArchiveState Nat := ⟨some [.normalize (sampleItem "a" 0)], [], sampleArchive⟩

def archiveIndexRun : Threads (ArchiveState Nat) Thrown (List (IndexedItem Nat)) →
    List (Threads.Event (ArchiveCall Nat) (ArchiveSurroundings Nat)) →
      Option (Threads (ArchiveState Nat) Thrown (List (IndexedItem Nat))) :=
  TransitionSystem.execute (Threads.next (archiveServiceCall sampleHost) disturbStore)

/-- A read that is overtaken by an upsert of the item it refreshes. -/
def overtakenRead : List (Threads.Event (ArchiveCall Nat) (ArchiveSurroundings Nat)) :=
  [.start (.readIndexedItems fun _ => true), .act 0, .start (.upsertItems [sampleItem "a" 2] fun _ => false), .act 1,
    .act 1, .act 0, .act 0, .act 0]

/-- The same read, when the upsert has ended before it. -/
def refreshingRead : List (Threads.Event (ArchiveCall Nat) (ArchiveSurroundings Nat)) :=
  [.start (.upsertItems [sampleItem "a" 2] fun _ => false), .act 0, .act 0, .start (.readIndexedItems fun _ => true),
    .act 1, .act 1, .act 1, .act 1]

def sampleJob (id : String) : MaterializationJob String String Unit :=
  { id, request := id, sourceKey := id, status := .queued, createdAt := ⟨0, IsoTime.epoch_valid⟩, updatedAt := ⟨0, IsoTime.epoch_valid⟩
    startedAt := none, completedAt := none, attemptCount := 0, result := none, progress := (), error := none
    message := "queued" }

/-- The stores are there, and have no document. -/
def emptyStore {ι : Type} : Shared ι (Option Thrown) := ⟨none, [], none⟩

/-- Calls of a job store. -/
abbrev JobStoreThreads (π ρ γ : Type) :=
  Threads (JobState π ρ γ (Option Thrown)) Thrown (List (MaterializationJob π ρ γ))

def jobStoreRun : JobStoreThreads String String Unit →
    List (Threads.Event (StoreCall (MaterializationJob String String Unit)) (Option Thrown)) →
      Option (JobStoreThreads String String Unit) :=
  TransitionSystem.execute (Threads.next jobStoreCall disturbStore)

def historyItemRun : Threads (Shared (RunArchiveItem Nat) (Option Thrown)) Thrown (List (RunArchiveItem Nat)) →
    List (Threads.Event (StoreCall (List (RunArchiveItem Nat))) (Option Thrown)) →
      Option (Threads (Shared (RunArchiveItem Nat) (Option Thrown)) Thrown (List (RunArchiveItem Nat))) :=
  TransitionSystem.execute (Threads.next (historyItemCall sampleHost) disturbStore)

/-- Two upserts, one after the other. -/
def upsertsInTurn {β η : Type} (first second : β) : List (Threads.Event (StoreCall β) η) :=
  [.start (.upsert first), .act 0, .act 0, .start (.upsert second), .act 1, .act 1]

/-- Two upserts that both read before either writes. -/
def upsertsAtOnce {β η : Type} (first second : β) : List (Threads.Event (StoreCall β) η) :=
  [.start (.upsert first), .start (.upsert second), .act 0, .act 1, .act 0, .act 1]

/-- The upserts and the read take turns, and keep what they have written. -/
theorem upsertsInTurn_visible :
    (∃ c, jobStoreRun ⟨emptyStore, []⟩ (upsertsInTurn (sampleJob "a") (sampleJob "b")) = some c ∧
      StoreKept MaterializationJob.id (fun job => [job]) (upsertsInTurn (sampleJob "a") (sampleJob "b")) c) ∧
    (∃ c, historyItemRun ⟨emptyStore, []⟩ (upsertsInTurn [sampleItem "a" 0] [sampleItem "b" 0]) = some c ∧
      StoreKept RunArchiveItem.id (fun items => items) (upsertsInTurn [sampleItem "a" 0] [sampleItem "b" 0]) c) ∧
    ∃ c, archiveIndexRun ⟨indexedState, []⟩ refreshingRead = some c ∧ c.state.items.map (·.item.file) = [1] ∧
      ArchiveKept refreshingRead c := by
  refine ⟨?_, ?_, ?_⟩
  · have hobserved : ((jobStoreRun ⟨emptyStore, []⟩ (upsertsInTurn (sampleJob "a") (sampleJob "b"))).map fun c =>
        decide (Orderly MaterializationJob.id c.state)) = some true := by decide +kernel
    obtain ⟨c, hc, horderly⟩ := Option.map_eq_some_iff.1 hobserved
    exact ⟨c, hc, (upserts_stay_visible sampleHost).1 ⟨emptyStore, []⟩ c _ ⟨rfl, rfl⟩ (TransitionSystem.run_execute hc)
      (of_decide_eq_true horderly)⟩
  · have hobserved : ((historyItemRun ⟨emptyStore, []⟩ (upsertsInTurn [sampleItem "a" 0] [sampleItem "b" 0])).map
        fun c => decide (Orderly RunArchiveItem.id c.state)) = some true := by decide +kernel
    obtain ⟨c, hc, horderly⟩ := Option.map_eq_some_iff.1 hobserved
    exact ⟨c, hc, (upserts_stay_visible (π := Unit) (ρ := Unit) (γ := Unit) sampleHost).2.1 ⟨emptyStore, []⟩ c _
      ⟨rfl, rfl⟩ (TransitionSystem.run_execute hc) (of_decide_eq_true horderly)⟩
  · have hobserved : ((archiveIndexRun ⟨indexedState, []⟩ refreshingRead).map fun c =>
        (decide (Orderly IndexedItem.id c.state), c.state.items.map (·.item.file))) = some (true, [1]) := by
      decide +kernel
    obtain ⟨c, hc, hobserved⟩ := Option.map_eq_some_iff.1 hobserved
    obtain ⟨horderly, hfiles⟩ := Prod.mk.inj hobserved
    exact ⟨c, hc, hfiles, (upserts_stay_visible (π := Unit) (ρ := Unit) (γ := Unit) sampleHost).2.2 ⟨indexedState, []⟩ c
      _ ⟨rfl, rfl⟩ (TransitionSystem.run_execute hc) (of_decide_eq_true horderly)⟩

section Lost

variable {ι η α : Type} {key : ι → String}

/-- What was written first is gone when it is not there, and what was written second is of another item. -/
theorem not_visible {s : Shared ι η} {first second : Write ι} {call : Nat} {item : ι}
    (hwrites : s.writes = [first, second]) (hcall : second.call ≠ call) (hother : ¬second.Supersedes key item) (habsent : item ∉ s.items) :
    ¬VisibleFrom key call [item] s := by
  rintro ⟨before, write, after, heq, rfl, -, hvisible⟩
  have hafter : ∀ later ∈ after, later = second := by
    rw [hwrites] at heq
    rcases before with - | ⟨_, - | ⟨_, before⟩⟩
    · cases heq
      exact fun later hl => List.mem_singleton.1 hl
    · cases heq
      exact absurd rfl hcall
    · simp at heq
  rcases hvisible item List.mem_cons_self with hm | ⟨later, hl, hlater⟩
  · exact habsent hm
  · exact hother (hafter later hl ▸ hlater)

/-- There are two writes; the second is of another item than the one of the first call, and that one is gone. -/
def lostUpdate (key : ι → String) (item : ι) (s : Shared ι η) : Bool :=
  match s.writes with
  | [_, second] => second.call == 1 && !(second.items.map key).contains (key item) && !second.removed item &&
    !(s.items.map key).contains (key item)
  | _ => false

theorem not_visible_of_lostUpdate {s : Shared ι η} {item : ι} (h : lostUpdate key item s = true) :
    ¬VisibleFrom key 0 [item] s := by
  unfold lostUpdate at h
  split at h
  · rename_i first second hwrites
    simp only [Bool.and_eq_true, beq_iff_eq, Bool.not_eq_true', List.contains_eq_mem, decide_eq_false_iff_not] at h
    obtain ⟨⟨⟨hcall, hkey⟩, hremoved⟩, habsent⟩ := h
    refine not_visible hwrites (by omega) (fun hs => ?_) fun hm => habsent (List.mem_map_of_mem hm)
    rcases hs with hs | hs
    · exact hkey hs
    · rw [hremoved] at hs
      cases hs
  · cases h

/-- What a call has returned. -/
def answerOf (c : Threads (Shared ι η) Thrown α) (call : Nat) : Option α :=
  match c.scripts[call]? with
  | some (.done (.ok answer)) => some answer
  | _ => none

theorem done_of_answerOf {c : Threads (Shared ι η) Thrown α} {call : Nat} {answer : α}
    (h : answerOf c call = some answer) :
    c.scripts[call]? = some (.done (.ok answer)) := by
  unfold answerOf at h
  split at h
  · rename_i hdone
    cases h
    exact hdone
  · cases h

end Lost

/-- Whether a write-back has replaced an item that it has not read. -/
def replacesUnread (s : ArchiveState Nat) : Bool :=
  s.writes.any fun write => write.basis.any fun index => write.found.any fun old =>
    (write.items.map IndexedItem.id).contains old.id && !index.items.any (·.item == old.item)

theorem not_current_of_replacesUnread {s : ArchiveState Nat} (h : replacesUnread s = true) :
    ¬∀ write ∈ s.writes, ∀ index, write.basis = some index → ∀ old ∈ write.found,
      old.id ∈ write.items.map IndexedItem.id → old ∈ index.items := by
  intro hcurrent
  obtain ⟨write, hwrite, hbasis⟩ := List.any_eq_true.1 h
  obtain ⟨index, hindex, hfound⟩ := (Option.any_eq_true _ _).1 hbasis
  obtain ⟨old, hold, hunread⟩ := List.any_eq_true.1 hfound
  simp only [Bool.and_eq_true, List.contains_eq_mem, decide_eq_true_eq, Bool.not_eq_true', List.any_eq_false,
    beq_iff_eq] at hunread
  exact hunread.2 old (hcurrent write hwrite index hindex old hold hunread.1) rfl

/-- Two upserts that overlap lose the first one, and a read that is overtaken by an upsert writes the older version of
its item over it. -/
theorem overlapping_upserts_lost :
    (¬∀ c₀ c events, (jobStoreSystem String String Unit).Init c₀ → (jobStoreSystem String String Unit).Run c₀ events c →
      StoreKept MaterializationJob.id (fun job => [job]) events c) ∧
    (¬∀ c₀ c events, (historyItemSystem sampleHost).Init c₀ → (historyItemSystem sampleHost).Run c₀ events c →
      StoreKept RunArchiveItem.id (fun items => items) events c) ∧
    ¬∀ c₀ c events, (archiveIndexSystem sampleHost).Init c₀ → (archiveIndexSystem sampleHost).Run c₀ events c →
      ArchiveKept events c := by
  refine ⟨fun hclaim => ?_, fun hclaim => ?_, fun hclaim => ?_⟩
  · have hobserved : ((jobStoreRun ⟨emptyStore, []⟩ (upsertsAtOnce (sampleJob "a") (sampleJob "b"))).bind fun c =>
        if lostUpdate MaterializationJob.id (sampleJob "a") c.state then (answerOf c 0).map (·.length) else none) =
          some 1 := by decide +kernel
    obtain ⟨c, hc, hobserved⟩ := Option.bind_eq_some_iff.1 hobserved
    split at hobserved
    next hlost =>
      obtain ⟨answer, hanswer, -⟩ := Option.map_eq_some_iff.1 hobserved
      exact not_visible_of_lostUpdate hlost (hclaim ⟨emptyStore, []⟩ c _ ⟨rfl, rfl⟩ (TransitionSystem.run_execute hc)
        0 (sampleJob "a") answer rfl (done_of_answerOf hanswer))
    next => cases hobserved
  · have hobserved : ((historyItemRun ⟨emptyStore, []⟩ (upsertsAtOnce [sampleItem "a" 0] [sampleItem "b" 0])).bind
        fun c => if lostUpdate RunArchiveItem.id (sampleItem "a" 0) c.state then (answerOf c 0).map (·.length)
          else none) = some 1 := by decide +kernel
    obtain ⟨c, hc, hobserved⟩ := Option.bind_eq_some_iff.1 hobserved
    split at hobserved
    next hlost =>
      obtain ⟨answer, hanswer, -⟩ := Option.map_eq_some_iff.1 hobserved
      exact not_visible_of_lostUpdate hlost (hclaim ⟨emptyStore, []⟩ c _ ⟨rfl, rfl⟩ (TransitionSystem.run_execute hc)
        0 [sampleItem "a" 0] answer rfl (done_of_answerOf hanswer))
    next => cases hobserved
  · have hobserved : ((archiveIndexRun ⟨indexedState, []⟩ overtakenRead).map fun c => replacesUnread c.state) =
        some true := by decide +kernel
    obtain ⟨c, hc, hunread⟩ := Option.map_eq_some_iff.1 hobserved
    exact not_current_of_replacesUnread hunread
      (hclaim ⟨indexedState, []⟩ c _ ⟨rfl, rfl⟩ (TransitionSystem.run_execute hc)).current

end Sample

end AuraCall.Materialization
