import AuraCall.AccountMirror.CacheHistory

/-!
# Plans that are resumed

A plan can be resumed after a key: the rows up to the first one of the key are left out. What has been seen before is
not known any more, so the rest of the plan comes out the same exactly when no row after the checkpoint has the key of a
row up to it (`resumes_iff`). Otherwise the conversation of that row is decided again.
-/

namespace AuraCall.AccountMirror.Frontier

variable {host : FrontierHost} {epochId now : String}

abbrev PlannerRow.key (row : PlannerRow) : String := row.workState.conversationKey

/-- The first row of a key. -/
def checkpointIndex (rows : List PlannerRow) (key : String) : Nat := rows.findIdx (·.workState.conversationKey = key)

/-- No conversation has a row up to the checkpoint and a row after it. -/
def SplitAt (rows : List PlannerRow) (key : String) : Prop :=
  ∀ row ∈ rows.drop (checkpointIndex rows key + 1), row.key ∉ (rows.take (checkpointIndex rows key + 1)).map (·.key)

/-- The decision of a conversation: not the one that its row is a duplicate. -/
def FrontierDecision.Own (key : String) (decision : FrontierDecision) : Bool :=
  decision.conversationKey = key && decision.reason ≠ .duplicateConversationKey

/-- A resumed plan is the rest of the plan from the start, and both parts together decide each conversation once. -/
structure Resumes (host : FrontierHost) (epochId now : String) (rows : List PlannerRow) (key : String) : Prop where
  suffix : (planAccountMirrorChangeFrontier host epochId now rows (some key)).decisions =
    (planAccountMirrorChangeFrontier host epochId now rows none).decisions.drop (checkpointIndex rows key + 1)
  once : ∀ row ∈ rows, ((planAccountMirrorChangeFrontier host epochId now rows none).decisions.take
    (checkpointIndex rows key + 1) ++
      (planAccountMirrorChangeFrontier host epochId now rows (some key)).decisions).countP (·.Own row.key) = 1

/-! ## Rows that have been seen -/

section Rows

variable {rows before after : List PlannerRow} {seen seen' keys : List String}

theorem decideRow_reason (row : PlannerRow) : (decideRow host epochId now row).reason ≠ .duplicateConversationKey := by
  unfold decideRow
  dsimp only
  repeat' refine iteInduction (motive := fun found : FrontierDecision => found.reason ≠ _) (fun _ => ?_) fun _ => ?_
  all_goals simp [decision]

theorem length_decideRows : (decideRows host epochId now seen rows).length = rows.length := by
  induction rows generalizing seen with
  | nil => rfl
  | cons row rest ih =>
    rw [decideRows]
    split
    · rw [List.length_cons, ih, List.length_cons]
    · rw [List.length_cons, ih, List.length_cons]

/-- Only which keys have been seen matters. -/
theorem decideRows_congr (h : ∀ key, key ∈ seen ↔ key ∈ seen') :
    decideRows host epochId now seen rows = decideRows host epochId now seen' rows := by
  induction rows generalizing seen seen' with
  | nil => rfl
  | cons row rest ih =>
    rw [decideRows, decideRows]
    by_cases hseen : row.key ∈ seen
    · rw [if_pos hseen, if_pos ((h _).1 hseen), ih h]
    · have hrest : ∀ key, key ∈ row.key :: seen ↔ key ∈ row.key :: seen' := by
        intro key
        rw [List.mem_cons, List.mem_cons, h]
      rw [if_neg hseen, if_neg fun hseen' => hseen ((h _).2 hseen'), ih hrest]

/-- The rows after others: those have been seen. -/
theorem decideRows_append : decideRows host epochId now seen (before ++ after) =
    decideRows host epochId now seen before ++ decideRows host epochId now (before.map (·.key) ++ seen) after := by
  induction before generalizing seen with
  | nil => rfl
  | cons row rest ih =>
    rw [List.cons_append, decideRows, decideRows]
    by_cases hseen : row.key ∈ seen
    · have hsame : ∀ key, key ∈ rest.map (·.key) ++ seen ↔ key ∈ (row :: rest).map (·.key) ++ seen := by
        intro key
        simp only [List.mem_append, List.map_cons, List.mem_cons]
        constructor
        · rintro (h | h)
          · exact .inl (.inr h)
          · exact .inr h
        · rintro ((rfl | h) | h)
          · exact .inr hseen
          · exact .inl h
          · exact .inr h
      rw [if_pos hseen, if_pos hseen, ih, decideRows_congr hsame, List.cons_append]
    · have hsame : ∀ key, key ∈ rest.map (·.key) ++ row.key :: seen ↔ key ∈ (row :: rest).map (·.key) ++ seen := by
        intro key
        simp only [List.mem_append, List.map_cons, List.mem_cons]
        tauto
      rw [if_neg hseen, if_neg hseen, ih, decideRows_congr hsame, List.cons_append]

/-- **What has been seen matters** exactly for the rows that it has. -/
theorem decideRows_seen_iff : decideRows host epochId now seen rows = decideRows host epochId now (keys ++ seen) rows ↔
    ∀ row ∈ rows, row.key ∈ keys → row.key ∈ seen := by
  induction rows generalizing seen with
  | nil => simp [decideRows]
  | cons row rest ih =>
    rw [decideRows, decideRows, List.forall_mem_cons]
    by_cases hseen : row.key ∈ seen
    · rw [if_pos hseen, if_pos (List.mem_append_right _ hseen), List.cons_inj_right, ih]
      exact ⟨fun h => ⟨fun _ => hseen, h⟩, fun h => h.2⟩
    · rw [if_neg hseen]
      by_cases hkeys : row.key ∈ keys
      · -- the one row is decided, the other one is a duplicate
        rw [if_pos (List.mem_append_left _ hkeys)]
        constructor
        · intro h
          have hhead := congrArg (·.reason) (List.head_eq_of_cons_eq h)
          exact absurd hhead (decideRow_reason row)
        · exact fun h => absurd (h.1 hkeys) hseen
      · have hsame : ∀ key, key ∈ row.key :: (keys ++ seen) ↔ key ∈ keys ++ row.key :: seen := by
          intro key
          simp only [List.mem_append, List.mem_cons]
          tauto
        rw [if_neg fun h => (List.mem_append.1 h).elim hkeys hseen, List.cons_inj_right, decideRows_congr hsame, ih]
        constructor
        · refine fun h => ⟨fun h' => absurd h' hkeys, fun other hother hmem => ?_⟩
          rcases List.mem_cons.1 (h other hother hmem) with heq | hseen'
          · exact absurd (by rwa [heq] at hmem) hkeys
          · exact hseen'
        · exact fun h other hother hmem => List.mem_cons_of_mem _ (h.2 other hother hmem)

/-- A conversation is decided once, unless it has been seen. -/
theorem countP_own (key : String) : (decideRows host epochId now seen rows).countP (·.Own key) =
    if key ∉ seen ∧ key ∈ rows.map (·.key) then 1 else 0 := by
  induction rows generalizing seen with
  | nil => simp [decideRows]
  | cons row rest ih =>
    rw [decideRows]
    by_cases hseen : row.key ∈ seen
    · have hown : (decision row.key .skip .duplicateConversationKey).Own key = false := by
        simp [FrontierDecision.Own, decision]
      rw [if_pos hseen, List.countP_cons_of_neg (by simp [hown]), ih]
      refine if_congr (and_congr_right fun hkey => ?_) rfl rfl
      rw [List.map_cons, List.mem_cons, or_iff_right fun heq : key = row.key => hkey (heq ▸ hseen)]
    · rw [if_neg hseen]
      by_cases hkey : key = row.key
      · have hown : (decideRow host epochId now row).Own key = true := by
          simp [FrontierDecision.Own, hkey, decideRow_reason]
        rw [List.countP_cons_of_pos hown, ih]
        simp [hkey, hseen]
      · have hown : (decideRow host epochId now row).Own key = false := by
          simp [FrontierDecision.Own, Ne.symm hkey]
        rw [List.countP_cons_of_neg (by simp [hown]), ih]
        simp [hkey]

end Rows

/-! ## Resumed plans -/

section Plans

variable {rows : List PlannerRow} {key : String} {n : Nat}

theorem plan_start : (planAccountMirrorChangeFrontier host epochId now rows none).decisions =
    decideRows host epochId now [] rows := rfl

theorem drop_decideRows (h : n ≤ rows.length) : (decideRows host epochId now [] rows).drop n =
    decideRows host epochId now ((rows.take n).map (·.key) ++ []) (rows.drop n) := by
  have hlength : (decideRows host epochId now [] (rows.take n)).length = n :=
    length_decideRows.trans (List.length_take_of_le h)
  conv_lhs => rw [← List.take_append_drop n rows, decideRows_append]
  exact List.drop_left' hlength

theorem checkpoint_lt (h : ∃ row ∈ rows, row.key = key) : checkpointIndex rows key < rows.length := by
  obtain ⟨row, hrow, hkey⟩ := h
  exact List.findIdx_lt_length_of_exists ⟨row, hrow, decide_eq_true hkey⟩

theorem findIdx?_checkpoint (h : ∃ row ∈ rows, row.key = key) :
    rows.findIdx? (·.workState.conversationKey = key) = some (checkpointIndex rows key) :=
  List.findIdx?_eq_some_iff_findIdx_eq.2 ⟨checkpoint_lt h, rfl⟩

/-- **A plan that finds its checkpoint** starts after it. -/
theorem plan_resumed (h : ∃ row ∈ rows, row.key = key) (hkey : IsText key) :
    (planAccountMirrorChangeFrontier host epochId now rows (some key)).decisions =
      decideRows host epochId now [] (rows.drop (checkpointIndex rows key + 1)) := by
  have hread : readTrimmed (.ofOption (some key)) = some key := readTrimmed_text hkey
  unfold planAccountMirrorChangeFrontier
  dsimp only
  rw [hread, Option.bind_some, findIdx?_checkpoint h]
  rfl

/-- A plan for a key with space around it does not find its rows. -/
theorem plan_lost (h : ∃ row ∈ rows, row.key = key) (hkey : ¬IsText key) : ∃ start, start ≤ rows.length ∧
    start ≠ checkpointIndex rows key + 1 ∧
    (planAccountMirrorChangeFrontier host epochId now rows (some key)).decisions =
      decideRows host epochId now [] (rows.drop start) := by
  have hlt := checkpoint_lt h
  unfold planAccountMirrorChangeFrontier
  dsimp only
  cases hread : readTrimmed (.ofOption (some key)) with
  | none => exact ⟨0, Nat.zero_le _, by omega, rfl⟩
  | some read =>
    rw [Option.bind_some]
    cases hfind : rows.findIdx? (·.workState.conversationKey = read) with
    | none => exact ⟨0, Nat.zero_le _, by omega, rfl⟩
    | some index =>
      obtain ⟨hindex, hrow, -⟩ := List.findIdx?_eq_some_iff_getElem.1 hfind
      refine ⟨index + 1, hindex, fun heq => hkey ?_, rfl⟩
      -- the row of the checkpoint would have both keys
      have hsame : index = checkpointIndex rows key := Nat.succ_injective heq
      subst hsame
      have hcheckpoint : rows[checkpointIndex rows key].key = key := of_decide_eq_true (List.findIdx_getElem (w := hlt))
      have hreadKey : read = key := (of_decide_eq_true hrow).symm.trans hcheckpoint
      exact hreadKey ▸ isText_of_readTrimmed hread

/-- **Plans resume** exactly after keys without space around them, when no row after the checkpoint has the key of one
up to it. -/
theorem resumes_iff (h : ∃ row ∈ rows, row.key = key) :
    Resumes host epochId now rows key ↔ IsText key ∧ SplitAt rows key := by
  have hlt : checkpointIndex rows key + 1 ≤ rows.length := checkpoint_lt h
  constructor
  · rintro ⟨hsuffix, -⟩
    rw [plan_start, drop_decideRows hlt] at hsuffix
    by_cases hkey : IsText key
    · rw [plan_resumed h hkey, decideRows_seen_iff] at hsuffix
      exact ⟨hkey, fun row hrow hmem => List.not_mem_nil (hsuffix row hrow hmem)⟩
    · obtain ⟨start, hstart, hne, hplan⟩ := plan_lost h hkey
      have hlength := congrArg List.length (hplan.symm.trans hsuffix)
      rw [length_decideRows, length_decideRows, List.length_drop, List.length_drop] at hlength
      omega
  · rintro ⟨hkey, hsplit⟩
    have hsuffix : (planAccountMirrorChangeFrontier host epochId now rows (some key)).decisions =
        (planAccountMirrorChangeFrontier host epochId now rows none).decisions.drop (checkpointIndex rows key + 1) := by
      rw [plan_start, drop_decideRows hlt, plan_resumed h hkey, decideRows_seen_iff]
      exact fun row hrow hmem => absurd hmem (hsplit row hrow)
    refine ⟨hsuffix, fun row hrow => ?_⟩
    rw [hsuffix, List.take_append_drop, plan_start, countP_own]
    exact if_pos ⟨List.not_mem_nil, List.mem_map_of_mem hrow⟩

end Plans

/-! ## A conversation on both sides -/

/-- A row of a conversation that has changed. -/
def changedRow (key : String) : PlannerRow where
  workState := ⟨key, "epoch", "index", none, none, .pending, .unknown, none, none, emptyPhysicalActivityCounters,
    emptyPhysicalActivityCounters⟩
  freshness := ⟨.stale, none, .routeable, "other index", .unknown, 0⟩

theorem separate_rows_resume : Resumes sampleFrontierHost "epoch" "2026-01-01T00:00:00.000Z"
    [changedRow "a", changedRow "b", changedRow "c"] "b" := by
  refine (resumes_iff ⟨changedRow "b", by simp, rfl⟩).2 ⟨⟨by decide, by decide⟩, ?_⟩
  intro row hrow
  have hrow' : row ∈ [changedRow "c"] := hrow
  rw [List.mem_singleton.1 hrow']
  decide

/-- **The conversation of the first row is visited again** after the checkpoint. -/
theorem resumed_plan_visits_again : ¬ ∀ (host : FrontierHost) (epochId now : String) (rows : List PlannerRow)
    (key : String), (∃ row ∈ rows, row.key = key) → Resumes host epochId now rows key := by
  intro h
  have hresumes := h sampleFrontierHost "epoch" "2026-01-01T00:00:00.000Z"
    [changedRow "a", changedRow "b", changedRow "a"] "b" ⟨changedRow "b", by simp, rfl⟩
  have honce := hresumes.once (changedRow "a") List.mem_cons_self
  exact absurd honce (by decide +kernel)

end AuraCall.AccountMirror.Frontier
