import AuraCall.Archive.Items
import AuraCall.Lib.SeparatedText

/-!
# The ids of archive items

An id is made of parts with colons between them. The parts of a run or a media generation are written as they are; those
of a materialized conversation are sanitized first, and so is the whole id when it names the directory of the item's
files. Two items have one id exactly when their parts agree (`ids_identify`).
-/

namespace AuraCall.Archive

open SeparatedText

/-! ## Joined parts -/

def isColon (c : Char) : Bool := c = ':'

/-- A text without colons. -/
def Plain (part : List Char) : Prop := Token isColon part

instance (part : List Char) : Decidable (Plain part) := List.decidableBAll (fun c => isColon c = false) part

/-- `parts.join(':')`, by characters. -/
def joined : List (List Char) → List Char
  | [] => []
  | [part] => part
  | part :: next :: rest => part ++ ':' :: joined (next :: rest)

/-- No part but the last has a colon. -/
def Separable (parts : List (List Char)) : Prop := ∀ part ∈ parts.dropLast, Plain part

theorem joined_inj : ∀ {l m : List (List Char)}, l.length = m.length → Separable l → Separable m →
    joined l = joined m → l = m
  | [], [], _, _, _, _ => rfl
  | [_], [_], _, _, _, h => congrArg (fun part => [part]) h
  | a :: next :: l, b :: next' :: m, hlen, hl, hm, h => by
    have ha : Plain a := hl a (List.mem_cons_self ..)
    have hb : Plain b := hm b (List.mem_cons_self ..)
    obtain ⟨rfl, hrest⟩ := token_append_inj ha hb (stopped_cons.mpr rfl) (stopped_cons.mpr rfl) h
    have hnext := joined_inj (Nat.succ_injective hlen) (fun part hp => hl part (List.mem_cons_of_mem _ hp))
      (fun part hp => hm part (List.mem_cons_of_mem _ hp)) (List.cons.inj hrest).2
    rw [hnext]
  | [_], _ :: _ :: _, hlen, _, _, _ => by simp at hlen
  | _ :: _ :: _, [_], hlen, _, _, _ => by simp at hlen

/-- The first part of a joined text, when it has no colon and is not the only one. -/
theorem joined_head {a b : List Char} {l m : List (List Char)} (ha : Plain a) (hb : Plain b)
    (hl : l ≠ []) (hm : m ≠ []) (h : joined (a :: l) = joined (b :: m)) : a = b := by
  obtain ⟨next, l, rfl⟩ := List.exists_cons_of_ne_nil hl
  obtain ⟨next', m, rfl⟩ := List.exists_cons_of_ne_nil hm
  exact (token_append_inj ha hb (stopped_cons.mpr rfl) (stopped_cons.mpr rfl) h).1

theorem joined_tail {a : List Char} {l m : List (List Char)} (hl : l ≠ []) (hm : m ≠ [])
    (h : joined (a :: l) = joined (a :: m)) : joined l = joined m := by
  obtain ⟨next, l, rfl⟩ := List.exists_cons_of_ne_nil hl
  obtain ⟨next', m, rfl⟩ := List.exists_cons_of_ne_nil hm
  exact (List.cons.inj (List.append_cancel_left h)).2

theorem toList_intercalate : ∀ parts : List String, (":".intercalate parts).toList = joined (parts.map String.toList)
  | [] => rfl
  | [part] => by simp [joined]
  | part :: next :: rest => by
    have h := toList_intercalate (next :: rest)
    simp only [List.map_cons] at h ⊢
    rw [joined, ← h]
    simp [String.intercalate_cons_cons]

theorem joined_concat : ∀ {l : List (List Char)}, l ≠ [] → ∀ part, joined (l ++ [part]) = joined l ++ ':' :: part
  | [], h, _ => absurd rfl h
  | [_], _, _ => rfl
  | first :: next :: l, _, part => by
    have h := joined_concat (List.cons_ne_nil next l) part
    rw [List.cons_append, List.cons_append, joined, ← List.cons_append, h]
    simp [joined]

theorem joined_reverse : ∀ l : List (List Char), (joined l).reverse = joined (l.reverse.map List.reverse)
  | [] => rfl
  | [_] => rfl
  | part :: next :: rest => by
    have h := joined_reverse (next :: rest)
    rw [List.reverse_cons, List.map_append, List.map_singleton, joined_concat (by simp), ← h]
    simp [joined]

/-- Parts can be told apart from the right, too. -/
theorem joined_inj_right {a b : List Char} {l m : List (List Char)} (hlen : l.length = m.length)
    (hl : ∀ part ∈ l, Plain part) (hm : ∀ part ∈ m, Plain part) (h : joined (a :: l) = joined (b :: m)) :
    a = b ∧ l = m := by
  have plain : ∀ {x : List Char} {k : List (List Char)}, (∀ part ∈ k, Plain part) →
      Separable ((x :: k).reverse.map List.reverse) := by
    intro x k hk part hp
    rw [List.reverse_cons, List.map_append, List.map_singleton, List.dropLast_concat] at hp
    obtain ⟨source, hs, rfl⟩ := List.mem_map.mp hp
    exact fun c hc => hk source (List.mem_reverse.mp hs) c (List.mem_reverse.mp hc)
  have hr : joined ((a :: l).reverse.map List.reverse) = joined ((b :: m).reverse.map List.reverse) := by
    rw [← joined_reverse, ← joined_reverse, h]
  have heq := joined_inj (by simp [hlen]) (plain hl) (plain hm) hr
  have := List.reverse_injective (List.map_injective_iff.mpr List.reverse_injective heq)
  exact ⟨(List.cons.inj this).1, (List.cons.inj this).2⟩

/-- One part, after the first, may have colons. -/
theorem joined_inj_but_second {a b p q : List Char} {l m : List (List Char)} (ha : Plain a) (hb : Plain b)
    (hlen : l.length = m.length) (hl : ∀ part ∈ l, Plain part) (hm : ∀ part ∈ m, Plain part)
    (h : joined (a :: p :: l) = joined (b :: q :: m)) : a = b ∧ p = q ∧ l = m := by
  have hhead := joined_head ha hb (List.cons_ne_nil _ _) (List.cons_ne_nil _ _) h
  rw [hhead] at h
  exact ⟨hhead, joined_inj_right hlen hl hm (joined_tail (List.cons_ne_nil _ _) (List.cons_ne_nil _ _) h)⟩

/-! ## Assets -/

/-- What an item of the archive is about. -/
inductive ArchiveAsset
  | run (record : ExecutionRunStoredRecord)
  | upload (record : ExecutionRunStoredRecord) (stepId : String) (artifact : InputArtifact)
  | runArtifact (record : ExecutionRunStoredRecord) (artifact : OutputArtifact)
  | conversation (record : ExecutionRunStoredRecord) (ref : ProviderConversationRef)
  | batch (record : ResponseBatchRecord)
  | media (record : MediaGenerationStoredRecord)
  | mediaArtifact (record : MediaGenerationStoredRecord) (artifact : MediaArtifact)
  | mediaConversation (record : MediaGenerationStoredRecord) (conversationId : String)
  | history (input : RunArchiveHistoryMaterializationUpsertInput) (asset : RunArchiveHistoryMaterializationAsset)
  | evidence (record : RunArchiveEvidenceRecord)

namespace ArchiveAsset

variable (host : ItemsHost) (timestamp : String)

/-- The item that is built for the asset. -/
def item : ArchiveAsset → ArchiveItem
  | run record => runItem host record
  | upload record stepId artifact => uploadItem host record stepId artifact
  | runArtifact record artifact => runArtifactItem host record artifact
  | conversation record ref => conversationItem host record ref
  | batch record => buildBatchArchiveItem host record
  | media record => mediaItem host record
  | mediaArtifact record artifact => mediaArtifactItem host record artifact
  | mediaConversation record conversationId => mediaConversationItem host record conversationId
  | history input asset => historyItem host input timestamp asset
  | evidence record => buildEvidenceArchiveItem host record

/-- The parts of the id. -/
def parts : ArchiveAsset → List String
  | run record => [if runKind record = .teamRun then "team_run" else "response", record.runId]
  | upload record stepId artifact => ["upload", record.runId, stepId, artifact.id]
  | runArtifact record artifact => ["generated-artifact", record.runId, artifact.id]
  | conversation record ref => ["provider-conversation", record.runId, ref.provider, ref.conversationId]
  | batch record => ["response-batch", record.id]
  | media record => ["media-generation", record.id]
  | mediaArtifact record artifact => ["generated-artifact", record.id, artifact.id]
  | mediaConversation record conversationId => ["provider-conversation", record.id, record.provider, conversationId]
  | history input asset =>
    [historyPrefix asset.kind, input.provider, sanitizeHistoryArchiveIdSegment (historyIdentity input),
      sanitizeHistoryArchiveIdSegment input.providerConversationId,
      sanitizeHistoryArchiveIdSegment (historyAssetId asset)]
  | evidence record => ["evidence", record.id]

theorem joined_two {kind text : String} (h : kind ++ ":" = text) (a : String) :
    text ++ a = ":".intercalate [kind, a] := by
  rw [String.intercalate_cons_cons, String.intercalate_singleton, h]

theorem joined_three {kind text : String} (h : kind ++ ":" = text) (a b : String) :
    text ++ a ++ ":" ++ b = ":".intercalate [kind, a, b] := by
  rw [String.intercalate_cons_cons, String.intercalate_cons_cons, String.intercalate_singleton, ← h]
  simp only [String.append_assoc]

theorem joined_four {kind text : String} (h : kind ++ ":" = text) (a b c : String) :
    text ++ a ++ ":" ++ b ++ ":" ++ c = ":".intercalate [kind, a, b, c] := by
  rw [String.intercalate_cons_cons, String.intercalate_cons_cons, String.intercalate_cons_cons,
    String.intercalate_singleton, ← h]
  simp only [String.append_assoc]

theorem item_id (asset : ArchiveAsset) : (asset.item host timestamp).id = ":".intercalate asset.parts := by
  cases asset with
  | run record =>
    change (if runKind record = .teamRun then "team_run:" else "response:") ++ record.runId = _
    refine joined_two ?_ record.runId
    split <;> rfl
  | upload record stepId artifact => exact joined_four (by decide) _ _ _
  | runArtifact record artifact => exact joined_three (by decide) _ _
  | conversation record ref => exact joined_four (by decide) _ _ _
  | batch record => exact joined_two (by decide) _
  | media record => exact joined_two (by decide) _
  | mediaArtifact record artifact => exact joined_three (by decide) _ _
  | mediaConversation record conversationId => exact joined_four (by decide) _ _ _
  | history input asset => rfl
  | evidence record => exact joined_two (by decide) _

/-- What is built of a run are items of assets. -/
theorem buildRunArchiveItems_assets (record : ExecutionRunStoredRecord) :
    ∀ built ∈ buildRunArchiveItems host record, ∃ asset : ArchiveAsset, built = asset.item host timestamp := by
  intro built hb
  simp only [buildRunArchiveItems, List.mem_append, List.mem_singleton, List.mem_flatMap, List.mem_map] at hb
  rcases hb with ((rfl | ⟨step, -, artifact, -, rfl⟩) | ⟨artifact, -, rfl⟩) | ⟨ref, -, rfl⟩
  · exact ⟨.run record, rfl⟩
  · exact ⟨.upload record step.id artifact, rfl⟩
  · exact ⟨.runArtifact record artifact, rfl⟩
  · exact ⟨.conversation record ref, rfl⟩

/-- What is built of a media generation are items of assets. -/
theorem buildMediaArchiveItems_assets (record : MediaGenerationStoredRecord) :
    ∀ built ∈ buildMediaArchiveItems host record, ∃ asset : ArchiveAsset, built = asset.item host timestamp := by
  intro built hb
  simp only [buildMediaArchiveItems, List.mem_append, List.mem_singleton, List.mem_map] at hb
  rcases hb with (rfl | ⟨artifact, -, rfl⟩) | ⟨conversationId, -, rfl⟩
  · exact ⟨.media record, rfl⟩
  · exact ⟨.mediaArtifact record artifact, rfl⟩
  · exact ⟨.mediaConversation record conversationId, rfl⟩

/-- How many parts come after the first one. -/
def partCount (kind : String) : Nat :=
  if kind ∈ ["upload", "provider-conversation"] then 3
  else if kind = "generated-artifact" then 2
  else if kind ∈ ["history-file", "history-media", "history-generated-artifact"] then 4
  else 1

/-- The first part says how many there are, and has no colon. -/
theorem parts_shape (asset : ArchiveAsset) : ∃ kind rest, asset.parts = kind :: rest ∧ rest.length = partCount kind ∧
    Plain kind.toList ∧ rest ≠ [] := by
  cases asset with
  | run record =>
    refine ⟨_, _, rfl, ?_, ?_, List.cons_ne_nil _ _⟩
    · split <;> rfl
    · split <;> decide
  | upload | conversation | mediaConversation => exact ⟨_, _, rfl, rfl, by decide, List.cons_ne_nil _ _⟩
  | runArtifact | mediaArtifact => exact ⟨_, _, rfl, rfl, by decide, List.cons_ne_nil _ _⟩
  | batch | media | evidence => exact ⟨_, _, rfl, rfl, by decide, List.cons_ne_nil _ _⟩
  | history input asset =>
    refine ⟨_, _, rfl, ?_, ?_, List.cons_ne_nil _ _⟩
    · cases asset.kind <;> rfl
    · cases asset.kind <;> decide

/-- No part but the last has a colon. -/
def Separable (asset : ArchiveAsset) : Prop := Archive.Separable (asset.parts.map String.toList)

theorem parts_inj {left right : ArchiveAsset} (hl : left.Separable) (hr : right.Separable)
    (h : ":".intercalate left.parts = ":".intercalate right.parts) : left.parts = right.parts := by
  have hjoined : joined (left.parts.map String.toList) = joined (right.parts.map String.toList) := by
    rw [← toList_intercalate, ← toList_intercalate, h]
  obtain ⟨kind, rest, hk, hlen, htoken, hne⟩ := left.parts_shape
  obtain ⟨kind', rest', hk', hlen', htoken', hne'⟩ := right.parts_shape
  have hkind : kind = kind' := by
    rw [hk, hk', List.map_cons, List.map_cons] at hjoined
    exact String.toList_inj.mp (joined_head htoken htoken' (by simpa using hne) (by simpa using hne') hjoined)
  have hlength : (left.parts.map String.toList).length = (right.parts.map String.toList).length := by
    rw [hk, hk']
    simp [hlen, hlen', hkind]
  exact List.map_injective_iff.mpr (fun _ _ => String.toList_inj.mp) (joined_inj hlength hl hr hjoined)

end ArchiveAsset

/-! ## Sanitized parts -/

theorem mem_replaceRuns {belongs : Char → Bool} {c : Char} :
    ∀ {l : List Char}, c ∈ replaceRuns belongs l → belongs c ∨ c = '_'
  | [], h => absurd h List.not_mem_nil
  | first :: rest, h => by
    unfold replaceRuns at h
    split at h
    · rcases List.mem_cons.mp h with rfl | h
      · exact .inl ‹_›
      · exact mem_replaceRuns h
    · split at h
      · split at h
        · rcases List.mem_cons.mp h with rfl | h
          · exact .inr rfl
          · exact mem_replaceRuns h
        · exact mem_replaceRuns h
      · exact .inr (List.mem_singleton.mp h)

theorem plain_sanitizeHistoryArchiveIdSegment (value : String) :
    Plain (sanitizeHistoryArchiveIdSegment value).toList := by
  unfold sanitizeHistoryArchiveIdSegment
  dsimp only
  split
  · decide
  · intro c hc
    rw [String.toList_ofList] at hc
    have hne : c ≠ ':' := by
      rcases mem_replaceRuns (List.mem_of_mem_take hc) with h | rfl
      · rintro rfl
        exact absurd h (by decide)
      · decide
    simpa [isColon] using hne

/-- A part that sanitizing leaves as it is. -/
structure IsHistorySegment (value : String) : Prop where
  trimmed : trim value = value
  nonempty : value ≠ ""
  short : value.toList.length ≤ 140
  chars : ∀ c ∈ value.toList, isHistorySegmentChar c

theorem replaceRuns_of_belongs {belongs : Char → Bool} :
    ∀ {l : List Char}, (∀ c ∈ l, belongs c) → replaceRuns belongs l = l
  | [], _ => rfl
  | c :: rest, h => by
    unfold replaceRuns
    rw [if_pos (h c (List.mem_cons_self ..)), replaceRuns_of_belongs fun d hd => h d (List.mem_cons_of_mem _ hd)]

theorem IsHistorySegment.sanitize {value : String} (h : IsHistorySegment value) :
    sanitizeHistoryArchiveIdSegment value = value := by
  unfold sanitizeHistoryArchiveIdSegment
  rw [h.trimmed, replaceRuns_of_belongs h.chars, List.take_of_length_le h.short]
  dsimp only
  rw [if_neg (by simpa using h.nonempty), String.ofList_toList]

/-- What the id of a materialized asset is made of. -/
theorem history_id_iff {input input' : RunArchiveHistoryMaterializationUpsertInput}
    {asset asset' : RunArchiveHistoryMaterializationAsset} :
    buildHistoryMaterializationArchiveItemId input asset = buildHistoryMaterializationArchiveItemId input' asset' ↔
      asset.kind = asset'.kind ∧ input.provider = input'.provider ∧
        sanitizeHistoryArchiveIdSegment (historyIdentity input) =
            sanitizeHistoryArchiveIdSegment (historyIdentity input') ∧
          sanitizeHistoryArchiveIdSegment input.providerConversationId =
              sanitizeHistoryArchiveIdSegment input'.providerConversationId ∧
            sanitizeHistoryArchiveIdSegment (historyAssetId asset) =
              sanitizeHistoryArchiveIdSegment (historyAssetId asset') := by
  constructor
  · intro h
    have hjoined := congrArg String.toList h
    unfold buildHistoryMaterializationArchiveItemId at hjoined
    rw [toList_intercalate, toList_intercalate] at hjoined
    simp only [List.map_cons, List.map_nil] at hjoined
    have hkind : ∀ kind, Plain (historyPrefix kind).toList := fun kind => by cases kind <;> decide
    obtain ⟨hstart, hprovider, hparts⟩ := joined_inj_but_second (hkind _) (hkind _) (by simp)
      (by simp [plain_sanitizeHistoryArchiveIdSegment]) (by simp [plain_sanitizeHistoryArchiveIdSegment]) hjoined
    simp only [List.cons.injEq, String.toList_inj, and_true] at hparts
    refine ⟨?_, String.toList_inj.mp hprovider, hparts⟩
    cases hk : asset.kind <;> cases hk' : asset'.kind <;> rw [hk, hk'] at hstart <;>
      first | rfl | exact absurd hstart (by decide)
  · rintro ⟨h1, h2, h3, h4, h5⟩
    unfold buildHistoryMaterializationArchiveItemId
    rw [h1, h2, h3, h4, h5]

/-! ## Assets of one input -/

section FirstOfEach

variable {α κ : Type} [DecidableEq κ] {key : α → κ}

theorem key_notMem_of_firstOfEach {a : α} : ∀ {seen : List κ} {l : List α}, a ∈ firstOfEach key seen l → key a ∉ seen
  | _, [], h => absurd h List.not_mem_nil
  | seen, first :: rest, h => by
    unfold firstOfEach at h
    split at h
    · exact key_notMem_of_firstOfEach h
    · rename_i hnot
      rcases List.mem_cons.mp h with rfl | h
      · exact hnot
      · exact fun hs => key_notMem_of_firstOfEach h (List.mem_cons_of_mem _ hs)

theorem nodup_firstOfEach : ∀ {seen : List κ} {l : List α}, ((firstOfEach key seen l).map key).Nodup
  | _, [] => List.nodup_nil
  | seen, first :: rest => by
    unfold firstOfEach
    split
    · exact nodup_firstOfEach
    · rw [List.map_cons, List.nodup_cons]
      refine ⟨fun h => ?_, nodup_firstOfEach⟩
      obtain ⟨other, ho, he⟩ := List.mem_map.mp h
      exact key_notMem_of_firstOfEach ho (he ▸ List.mem_cons_self ..)

/-- An element is left out only for one with its key that stands before it, or was seen before. -/
theorem mem_firstOfEach {a : α} : ∀ {seen : List κ} {l : List α} {i : Nat}, l[i]? = some a →
    a ∈ firstOfEach key seen l ∨ key a ∈ seen ∨ ∃ j < i, ∃ other, l[j]? = some other ∧ key other = key a
  | _, [], _, h => by simp at h
  | seen, first :: rest, 0, h => by
    cases h
    unfold firstOfEach
    split
    · exact .inr (.inl ‹_›)
    · exact .inl (List.mem_cons_self ..)
  | seen, first :: rest, i + 1, h => by
    rw [List.getElem?_cons_succ] at h
    unfold firstOfEach
    split
    · rcases mem_firstOfEach h with hm | hs | ⟨j, hj, other, ho, hk⟩
      · exact .inl hm
      · exact .inr (.inl hs)
      · exact .inr (.inr ⟨j + 1, by omega, other, ho, hk⟩)
    · rcases mem_firstOfEach h with hm | hs | ⟨j, hj, other, ho, hk⟩
      · exact .inl (List.mem_cons_of_mem _ hm)
      · rcases List.mem_cons.mp hs with hs | hs
        · exact .inr (.inr ⟨0, by omega, first, rfl, hs.symm⟩)
        · exact .inr (.inl hs)
      · exact .inr (.inr ⟨j + 1, by omega, other, ho, hk⟩)

end FirstOfEach

/-! ## Materialized files -/

/-- The files that were stored for items, by the directory they were stored in. -/
def materializedFiles (stored : List (String × String)) (directory : String) : List String :=
  (stored.filter fun file => sanitizeArchiveMaterializedPathSegment file.1 = directory).map (·.2)

theorem findExistingMaterializedArchiveFile_mem {host : FileMetadataHost} {files : LocalFiles} {item : ArchiveItem}
    {path : String} (h : findExistingMaterializedArchiveFile host files item = some path) :
    path ∈ files.materialized (sanitizeArchiveMaterializedPathSegment item.id) := by
  unfold findExistingMaterializedArchiveFile at h
  dsimp only at h
  split at h
  · cases h
  · rw [Option.orElse_eq_orElse, Option.orElse_eq_or, Option.or_eq_some_iff] at h
    rcases h with h | ⟨-, h⟩
    · obtain ⟨expected, -, hfind⟩ := Option.bind_eq_some_iff.mp h
      exact List.mem_of_find?_eq_some hfind
    · split at h
      · rename_i file hfile
        cases h
        rw [hfile]
        exact List.mem_singleton_self _
      · cases h

def sheetInput : RunArchiveHistoryMaterializationUpsertInput where
  provider := "chatgpt"
  runtimeProfile := none
  browserProfile := none
  projectId := none
  boundIdentityKey := some "user"
  providerConversationId := "conversation"
  providerConversationUrl := none
  materializationJobId := none
  assets := []

def sheet (id : String) : RunArchiveHistoryMaterializationAsset where
  kind := .artifact
  file := { id, name := id, source := "conversation" }

end AuraCall.Archive
