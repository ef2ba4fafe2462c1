import AuraCall.Js.Builtins
import AuraCall.Lib.WeightedWindow
import Mathlib.Data.List.Sort

/-!
# The guard of ChatGPT

The record that `chatgptRateLimitGuard.ts` keeps of the mutations and the rate limits of a profile.

A detected rate limit writes a cooldown whose length depends on the detections of the last day. It does not look at the
cooldown that is there, so it may end an active cooldown early (`cooldown_kept_iff`). The wait for the mutation budget is the
shortest one after which the mutations of the window are within the budget (`budget_wait_spec`).

Times are milliseconds, and numbers are exact.
-/

namespace AuraCall.Browser

open WeightedWindow

/-! ## The state -/

structure ChatgptMutationRecord where
  atMs : ℚ
  action : Option String
  weight : Option ℚ
  quietMs : Option ℚ

structure ChatgptRateLimitGuardState where
  profile : String
  updatedAt : ℚ
  lastMutationAt : Option ℚ := none
  recentMutationAts : Option (List ℚ) := none
  recentMutations : Option (List ChatgptMutationRecord) := none
  recentRateLimitDetectionAts : Option (List ℚ) := none
  cooldownUntil : Option ℚ := none
  cooldownDetectedAt : Option ℚ := none
  cooldownReason : Option String := none
  cooldownAction : Option String := none

/-- What is read of the state in the file of a profile. -/
def readChatgptRateLimitGuardState (profile : String) (stored : Option ChatgptRateLimitGuardState) :
    Option ChatgptRateLimitGuardState :=
  stored.map fun parsed => { parsed with
    profile
    recentMutations := parsed.recentMutations.map fun mutations => mutations.filter fun value => decide (0 < value.atMs) }

/-! ## Mutations -/

def chatgptMutationWindowMs : ℚ := 2 * 60000
def chatgptPostCommitBaseQuietMs : ℚ := 12000

def getChatgptMutationWeight (action : Option String) : ℚ :=
  let name := trim (action.getD "")
  if name = "browserRun" then 5 / 2
  else if ["createProject", "clickCreateProjectConfirm", "cloneProject", "uploadProjectFiles",
      "uploadAccountFiles"].contains name then 2
  else if ["deleteConversation", "pushProjectRemoveConfirmation", "deleteProjectFile",
      "deleteAccountFile"].contains name then 3 / 2
  else 1

def getChatgptMutationQuietMs (action : Option String) : ℚ :=
  let name := trim (action.getD "")
  if name = "browserRun" then 18000
  else if ["createProject", "clickCreateProjectConfirm", "cloneProject", "uploadProjectFiles", "uploadAccountFiles",
      "deleteConversation", "pushProjectRemoveConfirmation"].contains name then 15000
  else chatgptPostCommitBaseQuietMs

/-- A record with its weight and its quiet time. -/
def normalizeRecord (value : ChatgptMutationRecord) : ChatgptMutationRecord :=
  { value with
    weight := some (value.weight.getD (getChatgptMutationWeight value.action))
    quietMs := some (value.quietMs.getD (getChatgptMutationQuietMs value.action)) }

/-- The record of a mutation of which only the time is known. -/
def timeRecord (atMs : ℚ) : ChatgptMutationRecord := ⟨atMs, none, some 1, some chatgptPostCommitBaseQuietMs⟩

def normalizeChatgptMutationRecords (state : Option ChatgptRateLimitGuardState) : List ChatgptMutationRecord :=
  let recentMutations := (state.bind (·.recentMutations)).getD []
  if recentMutations.isEmpty then ((state.bind (·.recentMutationAts)).getD []).map timeRecord
  else (recentMutations.map normalizeRecord).filter fun value => decide (0 < value.atMs)

/-- Records, or times alone. -/
inductive MutationHistory
  | records (records : List ChatgptMutationRecord)
  | times (times : List ℚ)

def MutationHistory.normalized : MutationHistory → List ChatgptMutationRecord
  | records l => l.map normalizeRecord
  | times l => l.map timeRecord

def pruneChatgptMutationRecords (history : Option MutationHistory) (now windowMs : ℚ) : List ChatgptMutationRecord :=
  let cutoff := now - max 0 windowMs
  ((history.elim [] (·.normalized)).filter fun value => decide (cutoff < value.atMs)).insertionSort
    fun left right => left.atMs ≤ right.atMs

def appendChatgptMutationRecord (history : Option MutationHistory) (action : String) (now windowMs : ℚ) :
    List ChatgptMutationRecord :=
  let normalizedHistory := pruneChatgptMutationRecords history now windowMs
  pruneChatgptMutationRecords (some (.records (normalizedHistory ++
    [⟨now, some action, some (getChatgptMutationWeight (some action)), some (getChatgptMutationQuietMs (some action))⟩])))
    now windowMs

/-! ## Detections -/

def chatgptRateLimitCooldownMs : ℚ := 5 * 60000
def chatgptRepeatedRateLimitCooldownMs : ℚ := 15 * 60000
def chatgptRepeatedRateLimitWindowMs : ℚ := 30 * 60000
def chatgptRateLimitEscalationWindowMs : ℚ := 24 * 60 * 60000
def chatgptRateLimitMaxCooldownMs : ℚ := 6 * 60 * 60000

def pruneChatgptRateLimitDetectionHistory (history : Option (List ℚ)) (now windowMs : ℚ) : List ℚ :=
  ((history.getD []).filter fun value => decide (now - windowMs < value ∧ value ≤ now)).insertionSort (· ≤ ·)

def appendChatgptRateLimitDetection (history : Option (List ℚ)) (now windowMs : ℚ) : List ℚ :=
  pruneChatgptRateLimitDetectionHistory history now windowMs ++ [now]

structure CooldownOptions where
  retryAfterMs : Option ℚ := none
  baseCooldownMs : ℚ := chatgptRateLimitCooldownMs
  repeatedCooldownMs : ℚ := chatgptRepeatedRateLimitCooldownMs
  repeatedWindowMs : ℚ := chatgptRepeatedRateLimitWindowMs
  escalationWindowMs : ℚ := chatgptRateLimitEscalationWindowMs
  maxCooldownMs : ℚ := chatgptRateLimitMaxCooldownMs

def resolveChatgptRateLimitCooldownMs (state : Option ChatgptRateLimitGuardState) (now : ℚ) (options : CooldownOptions) : ℚ :=
  let retryAfterMs := (options.retryAfterMs.filter fun ms => decide (0 < ms)).getD 0
  let cooldownMs := max options.baseCooldownMs retryAfterMs
  let recentDetections := pruneChatgptRateLimitDetectionHistory (state.bind (·.recentRateLimitDetectionAts)) now
    options.escalationWindowMs
  if recentDetections.length > 0 then
    max cooldownMs (min options.maxCooldownMs (options.baseCooldownMs * 3 ^ recentDetections.length))
  else
    let detectedAt := (state.bind (·.cooldownDetectedAt)).or
      ((state.bind (·.cooldownUntil)).map (· - options.baseCooldownMs))
    if detectedAt.any fun detectedAt => decide (now - options.repeatedWindowMs < detectedAt) then
      max cooldownMs options.repeatedCooldownMs
    else cooldownMs

/-- The state that is written over the stored one. -/
def recordChatgptRateLimitDetection (profile action : String) (reason : Option String) (now : ℚ)
    (stored : Option ChatgptRateLimitGuardState) : ChatgptRateLimitGuardState :=
  let current := readChatgptRateLimitGuardState profile stored
  let cooldownUntil := now + resolveChatgptRateLimitCooldownMs current now {}
  let recentMutations := appendChatgptMutationRecord
    (((current.bind (·.recentMutations)).map .records).or ((current.bind (·.recentMutationAts)).map .times))
    action now chatgptMutationWindowMs
  { profile
    updatedAt := now
    lastMutationAt := some now
    recentMutations := some recentMutations
    recentMutationAts := some (recentMutations.map (·.atMs))
    recentRateLimitDetectionAts := some (appendChatgptRateLimitDetection (current.bind (·.recentRateLimitDetectionAts)) now
      chatgptRateLimitEscalationWindowMs)
    cooldownDetectedAt := some now
    cooldownUntil := some cooldownUntil
    cooldownReason := (reason.map trim).filter (! ·.isEmpty)
    cooldownAction := some action }

/-! ## Cooldowns that are kept -/

/-- The detections on record of the last day. -/
def detectionsOfLastDay (state : ChatgptRateLimitGuardState) (now : ℚ) : Nat :=
  (state.recentRateLimitDetectionAts.getD []).countP fun value =>
    decide (now - chatgptRateLimitEscalationWindowMs < value ∧ value ≤ now)

/-- A cooldown until then is no longer than the next one: it ends in five minutes, or in the time that the detections of the
last day escalate to, or in a quarter of an hour when there is none of them and the cooldown is recent. -/
def Covered (state : ChatgptRateLimitGuardState) (now cooldownUntil : ℚ) : Prop :=
  cooldownUntil ≤ now + chatgptRateLimitCooldownMs ∨
  (0 < detectionsOfLastDay state now ∧ cooldownUntil ≤ now + chatgptRateLimitMaxCooldownMs ∧
    cooldownUntil ≤ now + chatgptRateLimitCooldownMs * 3 ^ detectionsOfLastDay state now) ∨
  (detectionsOfLastDay state now = 0 ∧ cooldownUntil ≤ now + chatgptRepeatedRateLimitCooldownMs ∧
    ∀ detectedAt ∈ state.cooldownDetectedAt, now - chatgptRepeatedRateLimitWindowMs < detectedAt)

theorem length_pruneDetectionHistory (state : ChatgptRateLimitGuardState) (now : ℚ) :
    (pruneChatgptRateLimitDetectionHistory state.recentRateLimitDetectionAts now
      chatgptRateLimitEscalationWindowMs).length = detectionsOfLastDay state now := by
  rw [pruneChatgptRateLimitDetectionHistory, List.length_insertionSort, detectionsOfLastDay, List.countP_eq_length_filter]

/-- **What the new cooldown covers**, of a cooldown that is active. -/
theorem covered_iff {state : ChatgptRateLimitGuardState} {now cooldownUntil : ℚ}
    (huntil : state.cooldownUntil = some cooldownUntil) (hactive : now < cooldownUntil) :
    cooldownUntil ≤ now + resolveChatgptRateLimitCooldownMs (some state) now {} ↔ Covered state now cooldownUntil := by
  unfold resolveChatgptRateLimitCooldownMs Covered
  simp only [Option.bind_some, length_pruneDetectionHistory, Option.filter_none, Option.getD_none, huntil, Option.map_some]
  rw [max_eq_left (show (0 : ℚ) ≤ chatgptRateLimitCooldownMs by decide +kernel)]
  by_cases hn : 0 < detectionsOfLastDay state now
  · rw [if_pos hn, ← max_add_add_left, ← min_add_add_left, le_max_iff, le_min_iff]
    exact ⟨fun h => h.imp_right fun h => .inl ⟨hn, h⟩,
      fun h => h.imp_right fun h => h.elim (·.2) fun h => absurd h.1 hn.ne'⟩
  · have hzero : detectionsOfLastDay state now = 0 := Nat.eq_zero_of_not_pos hn
    have hrecent : (state.cooldownDetectedAt.or (some (cooldownUntil - chatgptRateLimitCooldownMs))).any (fun detectedAt =>
        decide (now - chatgptRepeatedRateLimitWindowMs < detectedAt)) = true ↔
          ∀ detectedAt ∈ state.cooldownDetectedAt, now - chatgptRepeatedRateLimitWindowMs < detectedAt := by
      cases state.cooldownDetectedAt with
      | none =>
        refine iff_of_true (decide_eq_true ?_) (fun _ h => by cases h)
        have : chatgptRateLimitCooldownMs < chatgptRepeatedRateLimitWindowMs := by decide +kernel
        linarith
      | some detectedAt => simp
    rw [if_neg hn]
    by_cases hr : ∀ detectedAt ∈ state.cooldownDetectedAt, now - chatgptRepeatedRateLimitWindowMs < detectedAt
    · rw [if_pos (hrecent.2 hr), ← max_add_add_left, le_max_iff]
      exact ⟨fun h => h.imp_right fun h => .inr ⟨hzero, h, hr⟩,
        fun h => h.imp_right fun h => h.elim (fun h => absurd h.1 hn) (·.2.1)⟩
    · rw [if_neg fun h => hr (hrecent.1 h)]
      exact ⟨.inl, fun h => h.elim id fun h => h.elim (fun h => absurd h.1 hn) fun h => absurd h.2.2 hr⟩

/-- **When a detection keeps an active cooldown**: exactly when the cooldown it writes covers the active one. -/
theorem cooldown_kept_iff (profile action : String) (reason : Option String) (now : ℚ)
    (stored : Option ChatgptRateLimitGuardState) :
    (∀ state ∈ stored, ∀ active ∈ state.cooldownUntil, now < active →
      ∃ cooldownUntil ∈ (recordChatgptRateLimitDetection profile action reason now stored).cooldownUntil,
        active ≤ cooldownUntil) ↔
      ∀ state ∈ stored, ∀ active ∈ state.cooldownUntil, now < active → Covered state now active := by
  refine forall₂_congr fun state hstate => forall₂_congr fun active hactive => forall_congr' fun hlt => ?_
  obtain rfl := Option.mem_def.1 hstate
  have huntil : (recordChatgptRateLimitDetection profile action reason now (some state)).cooldownUntil =
      some (now + resolveChatgptRateLimitCooldownMs (readChatgptRateLimitGuardState profile (some state)) now {}) := rfl
  let read : ChatgptRateLimitGuardState := { state with
    profile
    recentMutations := state.recentMutations.map fun mutations => mutations.filter fun value => decide (0 < value.atMs) }
  have hread : read.cooldownUntil = some active := hactive
  have hcovered := covered_iff hread hlt
  rw [huntil]
  constructor
  · rintro ⟨_, ⟨⟩, hle⟩
    exact hcovered.1 hle
  · exact fun h => ⟨_, rfl, hcovered.2 h⟩

/-- The state after rate limits detected at the given minutes. -/
def detectedAtMinutes (minutes : List ℚ) : Option ChatgptRateLimitGuardState :=
  minutes.foldl (fun stored minute => some (recordChatgptRateLimitDetection "default" "browserRun" none
    (1767225600000 + 60000 * minute) stored)) none

/-- **A detection ends an active cooldown early.** After four detections within three minutes and a fifth one a day later, the
cooldown is six hours; a sixth detection half an hour after that leaves a quarter of an hour. -/
theorem cooldown_shortened :
    ((detectedAtMinutes [0, 1, 2, 3, 1439]).bind (·.cooldownUntil)) = some (1767225600000 + 60000 * (1439 + 360)) ∧
      ((detectedAtMinutes [0, 1, 2, 3, 1439, 1469]).bind (·.cooldownUntil)) =
        some (1767225600000 + 60000 * (1469 + 15)) := by
  constructor <;> decide +kernel

/-! ## The mutation budget -/

def recordWeight (record : ChatgptMutationRecord) : ℚ := record.weight.getD 1

def getChatgptMutationBudgetWaitMs (state : Option ChatgptRateLimitGuardState) (now windowMs maxWeight : ℚ) : ℚ :=
  if maxWeight ≤ 0 then 0
  else
    let history := pruneChatgptMutationRecords (some (.records (normalizeChatgptMutationRecords state))) now windowMs
    let totalWeight := (history.map recordWeight).sum
    if history.isEmpty then 0
    else if totalWeight ≤ maxWeight then 0
    else ((release recordWeight maxWeight totalWeight history).or history.getLast?).elim 0 fun record =>
      max 0 (record.atMs + windowMs - now)

/-- The weight of the mutations that are in the window at an instant. -/
def weightInWindow (state : Option ChatgptRateLimitGuardState) (now windowMs : ℚ) : ℚ :=
  ((pruneChatgptMutationRecords (some (.records (normalizeChatgptMutationRecords state))) now windowMs).map recordWeight).sum

/-- The records that a prune looks at. -/
def prunedRecords (state : Option ChatgptRateLimitGuardState) : List ChatgptMutationRecord :=
  (normalizeChatgptMutationRecords state).map normalizeRecord

section Budget

variable {state : Option ChatgptRateLimitGuardState} {now windowMs maxWeight : ℚ}

theorem prune_perm (state : Option ChatgptRateLimitGuardState) (now windowMs : ℚ) :
    (pruneChatgptMutationRecords (some (.records (normalizeChatgptMutationRecords state))) now windowMs).Perm
      ((prunedRecords state).filter fun value => decide (now - max 0 windowMs < value.atMs)) :=
  List.perm_insertionSort _ _

theorem prune_sorted (history : Option MutationHistory) (now windowMs : ℚ) :
    (pruneChatgptMutationRecords history now windowMs).Pairwise fun a b => a.atMs ≤ b.atMs := by
  have : Std.Total fun a b : ChatgptMutationRecord => a.atMs ≤ b.atMs := ⟨fun a b => le_total a.atMs b.atMs⟩
  have : IsTrans ChatgptMutationRecord fun a b => a.atMs ≤ b.atMs := ⟨fun _ _ _ => le_trans⟩
  exact List.pairwise_insertionSort _ _

theorem weightInWindow_eq (state : Option ChatgptRateLimitGuardState) (now windowMs : ℚ) : weightInWindow state now windowMs =
    weightAfter ChatgptMutationRecord.atMs recordWeight (now - max 0 windowMs) (prunedRecords state) :=
  ((prune_perm state now windowMs).map recordWeight).sum_eq

theorem getChatgptMutationWeight_nonneg (action : Option String) : 0 ≤ getChatgptMutationWeight action := by
  unfold getChatgptMutationWeight
  dsimp only
  split
  · decide +kernel
  · split
    · decide +kernel
    · split <;> decide +kernel

theorem recordWeight_nonneg
    (hw : ∀ record ∈ (state.bind (·.recentMutations)).getD [], ∀ weight ∈ record.weight, 0 ≤ weight) :
    ∀ record ∈ prunedRecords state, 0 ≤ recordWeight record := by
  have hnormalize : ∀ value : ChatgptMutationRecord, (∀ weight ∈ value.weight, 0 ≤ weight) →
      ∀ weight ∈ (normalizeRecord value).weight, 0 ≤ weight := by
    rintro value h weight ⟨⟩
    cases hweight : value.weight with
    | none => exact getChatgptMutationWeight_nonneg value.action
    | some given => exact h given hweight
  have hall : ∀ value ∈ normalizeChatgptMutationRecords state, ∀ weight ∈ value.weight, 0 ≤ weight := by
    unfold normalizeChatgptMutationRecords
    dsimp only
    split
    · intro value hm weight hweight
      obtain ⟨atMs, -, rfl⟩ := List.mem_map.1 hm
      obtain rfl := Option.some.inj hweight
      exact zero_le_one
    · intro value hm
      obtain ⟨given, hgiven, rfl⟩ := List.mem_map.1 (List.mem_of_mem_filter hm)
      exact hnormalize given (hw given hgiven)
  intro record hm
  obtain ⟨value, hvalue, rfl⟩ := List.mem_map.1 hm
  exact hnormalize value (hall value hvalue) _ rfl

/-- **The wait for the mutation budget is sound and minimal.** -/
theorem budget_wait_spec (hwindow : 0 ≤ windowMs) (hbudget : 0 < maxWeight)
    (hw : ∀ record ∈ (state.bind (·.recentMutations)).getD [], ∀ weight ∈ record.weight, 0 ≤ weight) :
    weightInWindow state (now + getChatgptMutationBudgetWaitMs state now windowMs maxWeight) windowMs ≤ maxWeight ∧
      (0 < getChatgptMutationBudgetWaitMs state now windowMs maxWeight →
        ∀ wait < getChatgptMutationBudgetWaitMs state now windowMs maxWeight,
          maxWeight < weightInWindow state (now + wait) windowMs) := by
  have hweights := recordWeight_nonneg hw
  have hperm := prune_perm state now windowMs
  have hsorted := prune_sorted (some (.records (normalizeChatgptMutationRecords state))) now windowMs
  have hnow : weightInWindow state now windowMs = ((pruneChatgptMutationRecords
    (some (.records (normalizeChatgptMutationRecords state))) now windowMs).map recordWeight).sum := rfl
  unfold getChatgptMutationBudgetWaitMs
  rw [if_neg (not_le.2 hbudget)]
  generalize pruneChatgptMutationRecords (some (.records (normalizeChatgptMutationRecords state))) now windowMs = history at *
  dsimp only
  by_cases hempty : history.isEmpty = true
  · obtain rfl := List.isEmpty_iff.1 hempty
    rw [if_pos hempty, add_zero, hnow]
    exact ⟨hbudget.le, fun h => absurd h (lt_irrefl 0)⟩
  rw [if_neg hempty]
  by_cases hwithin : (history.map recordWeight).sum ≤ maxWeight
  · rw [if_pos hwithin, add_zero, hnow]
    exact ⟨hwithin, fun h => absurd h (lt_irrefl 0)⟩
  rw [if_neg hwithin]
  have hhistory : ∀ record ∈ history, record ∈ prunedRecords state ∧ now - max 0 windowMs < record.atMs := fun record hm => by
    simpa using hperm.subset hm
  obtain ⟨record, hrecord⟩ : ∃ record,
      release recordWeight maxWeight (history.map recordWeight).sum history = some record :=
    release_isSome hbudget.le rfl fun h => hempty (List.isEmpty_iff.2 h)
  obtain ⟨hm, hsound, hminimal⟩ : record ∈ history ∧
      weightAfter ChatgptMutationRecord.atMs recordWeight record.atMs history ≤ maxWeight ∧
      ∀ cutoff < record.atMs, maxWeight < weightAfter ChatgptMutationRecord.atMs recordWeight cutoff history :=
    release_spec hsorted (fun r hr => hweights r (hhistory r hr).1) rfl (not_le.1 hwithin) hrecord
  have hafter := (hhistory record hm).2
  rw [max_eq_right hwindow] at hafter hperm
  rw [hrecord, Option.some_or, Option.elim_some, max_eq_right (by linarith)]
  refine ⟨?_, fun _ wait hwait => ?_⟩
  · -- the cutoff is then the time of the record
    rw [weightInWindow_eq, max_eq_right hwindow, show now + (record.atMs + windowMs - now) - windowMs = record.atMs by ring,
      ← weightAfter_filter hafter.le, ← weightAfter_perm hperm]
    exact hsound
  · rw [weightInWindow_eq, max_eq_right hwindow]
    refine (hminimal (now + wait - windowMs) (by linarith)).trans_le ?_
    rw [weightAfter_perm hperm]
    exact weightAfter_filter_le _ hweights

end Budget

/-- A state with mutations of weight one at the given times. -/
def mutatedAt (times : List ℚ) : Option ChatgptRateLimitGuardState :=
  some { profile := "default", updatedAt := 0, recentMutationAts := some times }

theorem wait_for_first_of_four : weightInWindow (mutatedAt [1000, 2000, 3000, 4000])
    (4000 + getChatgptMutationBudgetWaitMs (mutatedAt [1000, 2000, 3000, 4000]) 4000 chatgptMutationWindowMs 3)
      chatgptMutationWindowMs ≤ 3 :=
  (budget_wait_spec (by decide +kernel) (by decide +kernel) (fun _ hm => by cases hm)).1

/-- **The wait leaves no room for another mutation**, and there is none for a budget of zero. -/
theorem no_room_left :
    3 < weightInWindow (mutatedAt [1000, 2000, 3000])
      (4000 + getChatgptMutationBudgetWaitMs (mutatedAt [1000, 2000, 3000]) 4000 chatgptMutationWindowMs 3)
      chatgptMutationWindowMs + 1 ∧
    0 < weightInWindow (mutatedAt [1000])
      (4000 + getChatgptMutationBudgetWaitMs (mutatedAt [1000]) 4000 chatgptMutationWindowMs 0)
      chatgptMutationWindowMs + 0 := by
  constructor <;> decide +kernel

end AuraCall.Browser
