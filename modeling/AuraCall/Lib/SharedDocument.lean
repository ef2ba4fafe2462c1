import AuraCall.Lib.EventTrace
import AuraCall.Lib.Interleaving

/-!
# A document that is read and replaced

Several scripts share one document, a list of items. A writer reads the document, makes a new one from what it has read,
and puts it in the place of whatever is there by then. Every replacement is in the trace (`Write`), with what its writer
had seen.

A replacement is `InWindow` when no other was made since its writer has read the document, and none that writes one of
its items since the reading that the items come from. As long as all replacements are in their windows, no update is
lost (`Kept`) and no item is replaced by one that comes from an older version of it (`Current`). `ReadAt` says what a
reader knows about the document from then on, and `Moves` that it stays so.
-/

namespace SharedDocument

open Script EventTrace

variable {ι κ η ε : Type}

/-! ## Documents and replacements -/

/-- A reading: how many replacements there were, and the items. -/
structure Basis (ι : Type) where
  position : Nat
  items : List ι

/-- A replacement of the document. -/
structure Write (ι : Type) where
  call : Nat
  /-- how many replacements there were when its writer has read the document -/
  seen : Nat
  /-- the reading that its items come from -/
  basis : Option (Basis ι)
  items : List ι
  removed : ι → Bool
  /-- the items that were there -/
  found : List ι

/-- The item is replaced, or removed on request. -/
def Write.Supersedes (key : ι → κ) (write : Write ι) (item : ι) : Prop :=
  key item ∈ write.items.map key ∨ write.removed item = true

/-- No replacement since the writer's reading, and none of its items since the reading they come from. -/
def InWindow (key : ι → κ) (before : List (Write ι)) (write : Write ι) : Prop :=
  write.seen = before.length ∧ ∀ basis, write.basis = some basis → ∀ other ∈ before.drop basis.position,
    ∀ item ∈ write.items, key item ∉ other.items.map key

instance [DecidableEq κ] (key : ι → κ) (before : List (Write ι)) (write : Write ι) :
    Decidable (InWindow key before write) :=
  decidable_of_iff (write.seen = before.length ∧ ∀ basis ∈ write.basis, ∀ other ∈ before.drop basis.position,
    ∀ item ∈ write.items, key item ∉ other.items.map key) .rfl

/-- The document, its trace, and the rest of the state. -/
structure Shared (ι η : Type) where
  document : Option (List ι)
  writes : List (Write ι)
  rest : η

/-- The items of the document; one that is missing has none. -/
def Shared.items (s : Shared ι η) : List ι := s.document.getD []

/-- How the items of a new document are put in order. -/
structure Arrangement (ι : Type) where
  place : List ι → List ι → List ι
  perm : ∀ retained incoming, (place retained incoming).Perm (retained ++ incoming)

section Scripts

variable [DecidableEq κ] (key : ι → κ) (arrangement : Arrangement ι) (fault : η → Option ε)

/-- What a replacement retains of the items that were read. -/
def retain (incoming : List ι) (removed : ι → Bool) (current : List ι) : List ι :=
  current.filter fun item => !(incoming.map key).contains (key item) && !removed item

/-- The document is read, or its reading fails. -/
def readDocument : Script (Shared ι η) ε (Option (List ι) × Nat) :=
  look fun s => match fault s.rest with
    | some failure => .error failure
    | none => .ok (s.document, s.writes.length)

/-- The document is replaced by one made from what was read, or its writing fails; the answer is what is there now. -/
def replaceDocument (call : Nat) (current : Option (List ι)) (seen : Nat) (basis : Option (Basis ι))
    (incoming : List ι) (removed : ι → Bool) : Script (Shared ι η) ε (Basis ι) :=
  perform fun s => match fault s.rest with
    | some failure => (.error failure, s)
    | none =>
      let items := arrangement.place (retain key incoming removed (current.getD [])) incoming
      (.ok ⟨s.writes.length + 1, items⟩, { s with
        document := some items, writes := s.writes ++ [⟨call, seen, basis, incoming, removed, s.items⟩] })

/-- Items are put into the document. -/
def upsertDocument (call : Nat) (basis : Option (Basis ι)) (incoming : List ι) (removed : ι → Bool) :
    Script (Shared ι η) ε (Basis ι) := do
  let (current, seen) ← readDocument fault
  replaceDocument key arrangement fault call current seen basis incoming removed

end Scripts

/-! ## What a reader knows -/

section Readers

variable {key : ι → κ} {s s' s'' : Shared ι η} {write : Write ι} {document : Option (List ι)} {position : Nat}

/-- All replacements are in their windows. -/
abbrev Orderly (key : ι → κ) (s : Shared ι η) : Prop := Lawful (InWindow key) s.writes

/-- The document was read when there had been so many replacements: in an orderly trace, what was not written since is
still there, and what is there and was not written since was there. -/
structure ReadAt (key : ι → κ) (position : Nat) (document : Option (List ι)) (s : Shared ι η) : Prop where
  le : position ≤ s.writes.length
  same : position = s.writes.length → s.document = document
  kept : Orderly key s → ∀ item ∈ document.getD [],
    (∀ write ∈ s.writes.drop position, ¬write.Supersedes key item) → item ∈ s.items
  unseen : Orderly key s → ∀ item ∈ s.items,
    (∀ write ∈ s.writes.drop position, key item ∉ write.items.map key) → item ∈ document.getD []

theorem readAt_here : ReadAt key s.writes.length s.document s :=
  ⟨Nat.le_refl _, fun _ => rfl, fun _ _ hm _ => hm, fun _ _ hm _ => hm⟩

/-- The trace goes on, and what readers know stays so. -/
structure Moves (key : ι → κ) (s s' : Shared ι η) : Prop where
  history : s.writes <+: s'.writes
  read : ∀ position document, ReadAt key position document s → ReadAt key position document s'

theorem Moves.refl (s : Shared ι η) : Moves key s s := ⟨List.prefix_refl _, fun _ _ h => h⟩

theorem Moves.trans (h : Moves key s s') (h' : Moves key s' s'') : Moves key s s'' :=
  ⟨h.history.trans h'.history, fun position document hr => h'.read position document (h.read position document hr)⟩

/-- A step that leaves the document alone. -/
theorem moves_of_same (hdocument : s'.document = s.document) (hwrites : s'.writes = s.writes) : Moves key s s' := by
  refine ⟨hwrites ▸ List.prefix_refl _, fun position document h => ?_⟩
  have hitems : s'.items = s.items := congrArg (·.getD []) hdocument
  have horderly : Orderly key s' → Orderly key s := fun h => by rwa [Orderly, hwrites] at h
  refine ⟨by rw [hwrites]; exact h.le, fun he => ?_, fun ho item hm hw => ?_, fun ho item hm hw => ?_⟩
  · rw [hwrites] at he
    rw [hdocument, h.same he]
  · rw [hwrites] at hw
    rw [hitems]
    exact h.kept (horderly ho) item hm hw
  · rw [hwrites] at hw
    rw [hitems] at hm
    exact h.unseen (horderly ho) item hm hw

theorem Moves.orderly (h : Moves key s s') (ho : Orderly key s') : Orderly key s := by
  obtain ⟨new, hnew⟩ := h.history
  intro before event after heq
  exact ho before event (after ++ new) (by rw [← hnew, heq, List.append_assoc, List.cons_append])

theorem drop_push {writes : List (Write ι)} (hle : position ≤ writes.length) :
    (writes ++ [write]).drop position = writes.drop position ++ [write] := by
  rw [List.drop_append_of_le_length hle]

/-! ## No lost update -/

/-- Every item that was written is there, until it is replaced or removed. -/
def Kept (key : ι → κ) (s : Shared ι η) : Prop :=
  Orderly key s → ∀ before write after, s.writes = before ++ write :: after → ∀ item ∈ write.items,
    (∀ later ∈ after, ¬later.Supersedes key item) → item ∈ s.items

/-- What is replaced by an item is among what was read when the item was made. -/
def Current (key : ι → κ) (s : Shared ι η) : Prop :=
  Orderly key s → ∀ write ∈ s.writes, ∀ basis, write.basis = some basis → ∀ old ∈ write.found,
    key old ∈ write.items.map key → old ∈ basis.items

/-- The items of a replacement come from a reading of the document. -/
def Comes (key : ι → κ) (basis : Option (Basis ι)) (s : Shared ι η) : Prop :=
  ∀ b, basis = some b → ∃ document, document.getD [] = b.items ∧ ReadAt key b.position document s

theorem Comes.moves {basis : Option (Basis ι)} (h : Comes key basis s) (hm : Moves key s s') : Comes key basis s' := by
  intro b hb
  obtain ⟨document, hitems, hread⟩ := h b hb
  exact ⟨document, hitems, hm.read _ _ hread⟩

theorem Kept.same (h : Kept key s) (hdocument : s'.document = s.document) (hwrites : s'.writes = s.writes) :
    Kept key s' := by
  have hitems : s'.items = s.items := congrArg (·.getD []) hdocument
  unfold Kept Orderly
  rw [hwrites, hitems]
  exact h

theorem Current.same (h : Current key s) (hwrites : s'.writes = s.writes) : Current key s' := by
  unfold Current Orderly
  rw [hwrites]
  exact h

end Readers

/-! ## Replacements -/

section Replacements

variable {key : ι → κ} {arrangement : Arrangement ι} {s s' : Shared ι η} {write : Write ι}
  {document current : Option (List ι)} {position : Nat}

theorem mem_retain [DecidableEq κ] {incoming current : List ι} {removed : ι → Bool} {item : ι} :
    item ∈ retain key incoming removed current ↔
      item ∈ current ∧ key item ∉ incoming.map key ∧ removed item = false := by
  rw [retain, List.mem_filter, Bool.and_eq_true, Bool.not_eq_true', Bool.not_eq_true', List.contains_eq_mem,
    decide_eq_false_iff_not]

/-- What a replacement leads to: the new document has its items, and those that were read and that it retains. -/
structure Replaces [DecidableEq κ] (key : ι → κ) (current : Option (List ι)) (write : Write ι) (s s' : Shared ι η) :
    Prop where
  writes : s'.writes = s.writes ++ [write]
  found : write.found = s.items
  perm : s'.items.Perm (retain key write.items write.removed (current.getD []) ++ write.items)

variable [DecidableEq κ]

theorem Replaces.mem (h : Replaces key current write s s') (item : ι) :
    item ∈ s'.items ↔ item ∈ write.items ∨ (item ∈ current.getD [] ∧ ¬write.Supersedes key item) := by
  rw [h.perm.mem_iff, List.mem_append, mem_retain, or_comm, Write.Supersedes, not_or, Bool.not_eq_true]

/-- A document in which every key stands once stays so. -/
theorem Replaces.nodup (h : Replaces key current write s s') (hcurrent : ((current.getD []).map key).Nodup)
    (hitems : (write.items.map key).Nodup) : (s'.items.map key).Nodup := by
  rw [(h.perm.map key).nodup_iff, List.map_append]
  refine List.Nodup.append ((List.filter_sublist.map key).nodup hcurrent) hitems fun k hk hk' => ?_
  obtain ⟨item, hm, rfl⟩ := List.mem_map.1 hk
  exact (mem_retain.1 hm).2.1 hk'

theorem replaces_of_place {call seen : Nat} {basis : Option (Basis ι)} {incoming : List ι} {removed : ι → Bool} :
    Replaces key current ⟨call, seen, basis, incoming, removed, s.items⟩ s
      { s with
        document := some (arrangement.place (retain key incoming removed (current.getD [])) incoming)
        writes := s.writes ++ [⟨call, seen, basis, incoming, removed, s.items⟩] } :=
  ⟨rfl, rfl, arrangement.perm _ incoming⟩

/-- In an orderly trace the writer has read what it replaces. -/
theorem Replaces.read (h : Replaces key current write s s') (hread : ReadAt key write.seen current s)
    (ho : Orderly key s') : Orderly key s ∧ InWindow key s.writes write ∧ current = s.document := by
  have hwindow : InWindow key s.writes write := ho s.writes write [] h.writes
  refine ⟨fun before event after heq => ?_, hwindow, (hread.same hwindow.1).symm⟩
  exact ho before event (after ++ [write]) (by rw [h.writes, heq, List.append_assoc, List.cons_append])

/-- **A replacement keeps what readers know.** -/
theorem Replaces.moves (h : Replaces key current write s s') (hread : ReadAt key write.seen current s) :
    Moves key s s' := by
  refine ⟨⟨[write], h.writes.symm⟩, fun position document hr => ?_⟩
  have hdrop : s'.writes.drop position = s.writes.drop position ++ [write] := by rw [h.writes, drop_push hr.le]
  refine ⟨?_, fun he => ?_, fun ho item hm hw => ?_, fun ho item hm hw => ?_⟩
  · rw [h.writes, List.length_append]
    exact Nat.le_add_right_of_le hr.le
  · have hle := hr.le
    rw [h.writes, List.length_append, List.length_singleton] at he
    omega
  · obtain ⟨ho', -, hcurrent⟩ := h.read hread ho
    rw [hdrop] at hw
    have hold := hr.kept ho' item hm fun write hwrite => hw write (List.mem_append_left _ hwrite)
    refine (h.mem item).2 (.inr ⟨hcurrent ▸ hold, hw write (List.mem_append_right _ List.mem_cons_self)⟩)
  · obtain ⟨ho', -, hcurrent⟩ := h.read hread ho
    rw [hdrop] at hw
    rcases (h.mem item).1 hm with hm | ⟨hm, -⟩
    · exact absurd (List.mem_map_of_mem hm) (hw write (List.mem_append_right _ List.mem_cons_self))
    · have hold : item ∈ s.items := by
        rw [hcurrent] at hm
        exact hm
      exact hr.unseen ho' item hold fun write hwrite => hw write (List.mem_append_left _ hwrite)

theorem Kept.replace (h : Kept key s) (hr : Replaces key current write s s')
    (hread : ReadAt key write.seen current s) : Kept key s' := by
  intro ho before event after heq item hm hlater
  obtain ⟨ho', -, hcurrent⟩ := hr.read hread ho
  rw [hr.mem]
  rw [hr.writes] at heq
  rcases List.eq_nil_or_concat after with rfl | ⟨after, last, rfl⟩
  · obtain ⟨-, hlast⟩ := List.append_inj' heq rfl
    cases hlast
    exact .inl hm
  · rw [List.concat_eq_append, ← List.cons_append, ← List.append_assoc] at heq
    obtain ⟨hbefore, hlast⟩ := List.append_inj' heq rfl
    cases hlast
    rw [List.concat_eq_append] at hlater
    have hold := h ho' before event after hbefore item hm fun later hl => hlater later (List.mem_append_left _ hl)
    exact .inr ⟨hcurrent ▸ hold, hlater write (List.mem_append_right _ List.mem_cons_self)⟩

theorem Current.replace (h : Current key s) (hr : Replaces key current write s s')
    (hread : ReadAt key write.seen current s) (hbasis : Comes key write.basis s) : Current key s' := by
  intro ho event hevent basis hb old hold hkey
  obtain ⟨ho', hwindow, -⟩ := hr.read hread ho
  rw [hr.writes, List.mem_append, List.mem_singleton] at hevent
  rcases hevent with hevent | rfl
  · exact h ho' event hevent basis hb old hold hkey
  · obtain ⟨document, hitems, hat⟩ := hbasis basis hb
    rw [hr.found] at hold
    rw [← hitems]
    refine hat.unseen ho' old hold fun other hother hmem => ?_
    obtain ⟨item, hitem, heq⟩ := List.mem_map.1 hkey
    exact hwindow.2 basis hb other hother item hitem (heq ▸ hmem)

end Replacements

/-! ## Scripts among others -/

/-- No update is lost, and none is undone by one that comes from an older version. -/
structure NoLostUpdate (key : ι → κ) (s : Shared ι η) : Prop where
  kept : Kept key s
  current : Current key s

/-- The call has put the items into the document. -/
def Wrote (call : Nat) (incoming : List ι) (removed : ι → Bool) (s : Shared ι η) : Prop :=
  ∃ write ∈ s.writes, write.call = call ∧ write.items = incoming ∧ write.removed = removed

section Among

variable {key : ι → κ} {s s' : Shared ι η} {α : Type}

theorem Wrote.moves {call : Nat} {incoming : List ι} {removed : ι → Bool} (h : Wrote call incoming removed s)
    (hm : Moves key s s') : Wrote call incoming removed s' := by
  obtain ⟨write, hw, hwrote⟩ := h
  exact ⟨write, hm.history.subset hw, hwrote⟩

/-- What a call has put into the document is there, until it is replaced or removed. -/
def VisibleFrom (key : ι → κ) (call : Nat) (incoming : List ι) (s : Shared ι η) : Prop :=
  ∃ before write after, s.writes = before ++ write :: after ∧ write.call = call ∧ write.items = incoming ∧
    ∀ item ∈ incoming, item ∈ s.items ∨ ∃ later ∈ after, later.Supersedes key item

/-- **A completed update is visible.** -/
theorem NoLostUpdate.visible {call : Nat} {incoming : List ι} {removed : ι → Bool} (h : NoLostUpdate key s)
    (ho : Orderly key s) (hw : Wrote call incoming removed s) : VisibleFrom key call incoming s := by
  obtain ⟨write, hmem, hcall, hitems, -⟩ := hw
  obtain ⟨before, after, heq⟩ := List.append_of_mem hmem
  refine ⟨before, write, after, heq, hcall, hitems, fun item hitem => ?_⟩
  by_cases hlater : ∃ later ∈ after, later.Supersedes key item
  · exact .inr hlater
  · exact .inl (h.kept ho before write after heq item (hitems ▸ hitem) fun later hl hs => hlater ⟨later, hl, hs⟩)

theorem NoLostUpdate.same (h : NoLostUpdate key s) (hdocument : s'.document = s.document)
    (hwrites : s'.writes = s.writes) : NoLostUpdate key s' :=
  ⟨h.kept.same hdocument hwrites, h.current.same hwrites⟩

/-- A script on the document, among others. -/
abbrev Updates (key : ι → κ) (Q : Except ε α → Shared ι η → Prop) (p : Script (Shared ι η) ε α) (s : Shared ι η) : Prop :=
  p.Safe (NoLostUpdate key) (Moves key) (Moves key) Q s

/-- What the reader knows. -/
def Knows (key : ι → κ) (P : Shared ι η → Prop) : Except ε (Option (List ι) × Nat) → Shared ι η → Prop
  | .ok (document, position), s => P s ∧ ReadAt key position document s
  | .error _, s => P s

variable {P : Shared ι η → Prop} (hP : ∀ {s s' : Shared ι η}, Moves key s s' → P s → P s') (fault : η → Option ε)

include hP

/-- **Reading.** -/
theorem updates_readDocument (h : P s) : Updates key (Knows key P) (readDocument fault) s := by
  refine safe_look .refl fun s' _ hs => ?_
  cases fault s'.rest with
  | some failure => exact hP hs h
  | none => exact ⟨hP hs h, readAt_here⟩

variable [DecidableEq κ] (arrangement : Arrangement ι)

/-- **Replacing** what was read. -/
theorem updates_replaceDocument {call seen : Nat} {current : Option (List ι)} {basis : Option (Basis ι)}
    {incoming : List ι} {removed : ι → Bool} (h : P s) (hread : ReadAt key seen current s) (hbasis : Comes key basis s) :
    Updates key (fun r s' => P s' ∧ ∀ b, r = .ok b → Wrote call incoming removed s')
      (replaceDocument key arrangement fault call current seen basis incoming removed) s := by
  intro s' hinv hs
  have hp := hP hs h
  dsimp only
  cases hfault : fault s'.rest with
  | some failure => exact ⟨hinv, .refl s', hp, fun b hb => by cases hb⟩
  | none =>
    have hreplaces : Replaces key current ⟨call, seen, basis, incoming, removed, s'.items⟩ s' { s' with
        document := some (arrangement.place (retain key incoming removed (current.getD [])) incoming)
        writes := s'.writes ++ [⟨call, seen, basis, incoming, removed, s'.items⟩] } := replaces_of_place
    have hat := hs.read _ _ hread
    have hmoves := hreplaces.moves hat
    refine ⟨⟨hinv.kept.replace hreplaces hat, hinv.current.replace hreplaces hat (hbasis.moves hs)⟩, hmoves,
      hP hmoves hp, fun _ _ => ?_⟩
    exact ⟨_, List.mem_append_right _ List.mem_cons_self, rfl, rfl, rfl⟩

/-- **Putting items into the document.** -/
theorem updates_upsertDocument {call : Nat} {basis : Option (Basis ι)} {incoming : List ι} {removed : ι → Bool}
    (h : P s) (hbasis : Comes key basis s) :
    Updates key (fun r s' => P s' ∧ ∀ b, r = .ok b → Wrote call incoming removed s')
      (upsertDocument key arrangement fault call basis incoming removed) s := by
  have hcomes : ∀ {s s' : Shared ι η}, Moves key s s' → P s ∧ Comes key basis s → P s' ∧ Comes key basis s' :=
    fun hm h => ⟨hP hm h.1, h.2.moves hm⟩
  refine safe_bind.2 ((updates_readDocument hcomes fault ⟨h, hbasis⟩).imp fun r s₁ hr => ?_)
  cases r with
  | error failure => exact ⟨hr.1, fun b hb => by cases hb⟩
  | ok answer => exact updates_replaceDocument hP fault arrangement hr.1.1 hr.2 hr.1.2

end Among

/-! ## Calls that read and replace -/

section Systems

variable {key : ι → κ} {β α : Type} {σ : Type}

/-- A document that nothing was written to yet. -/
def Unwritten (s : Shared ι η) : Prop := s.writes = []

theorem noLostUpdate_init {s : Shared ι η} (h : Unwritten s) : NoLostUpdate key s := by
  have hnone : ∀ before write after, s.writes ≠ before ++ write :: after := fun before write after heq => by
    rw [h] at heq
    simp at heq
  refine ⟨fun _ before write after heq => absurd heq (hnone before write after), fun _ write hw => ?_⟩
  rw [h] at hw
  cases hw

/-- What happens besides leaves the document alone. -/
def Outside (outside : Shared ι η → σ → Option (Shared ι η)) : Prop :=
  ∀ s event s', outside s event = some s' → s'.document = s.document ∧ s'.writes = s.writes

/-- **Calls that each keep the document** can run side by side. -/
theorem updates_compatible {call : Nat → β → Script (Shared ι η) ε α} {outside : Shared ι η → σ → Option (Shared ι η)}
    {Q : Nat → β → Except ε α → Shared ι η → Prop} (houtside : Outside outside)
    (hcall : ∀ i input s, Updates key (Q i input) (call i input) s) :
    Threads.Compatible Unwritten call outside (NoLostUpdate key) (fun _ => Moves key) (fun _ => Moves key) Q where
  refl _ s := .refl s
  trans h h' := h.trans h'
  init _ hs := noLostUpdate_init hs
  outside hinv hs :=
    have hsame := houtside _ _ _ hs
    ⟨hinv.same hsame.1 hsame.2, fun _ => moves_of_same hsame.1 hsame.2⟩
  others _ _ h := h
  call i input _ s _ _ _ := hcall i input s

end Systems

end SharedDocument
