import AuraCall.Lib.Transition
import Mathlib.Order.Bounds.Basic

/-!
# The guard of a simple provider

The record that `llmService.ts` keeps of the writes and the rate limits of Gemini and Grok: `enforceProviderGuard` makes
an action wait for it, `noteProviderGuardSuccess` and `handleProviderGuardFailure` write it anew. An action is let
through no earlier than its fence (`isLeast_fence`). A success keeps the fences; a rate limit keeps them when its
cooldown is no shorter than the one that is active and there is no earlier write to forget (`fences_kept_iff`).

What the patterns find in the message of an error is given with the error. Times are milliseconds.
-/

namespace AuraCall.Browser

/-! ## Settings -/

inductive SimpleProviderGuardProvider
  | gemini | grok
  deriving DecidableEq

structure SimpleProviderGuardState where
  provider : SimpleProviderGuardProvider
  profile : String
  updatedAt : Nat
  lastMutationAt : Option Nat := none
  cooldownUntil : Option Nat := none
  cooldownDetectedAt : Option Nat := none
  cooldownReason : Option String := none
  cooldownAction : Option String := none
  deriving DecidableEq

structure ProviderGuardSettings where
  cooldownMs : Nat
  autoWaitMaxMs : Nat
  postCommitAutoWaitMaxMs : Nat
  simplePostCommitQuietMs : Nat
  simpleMutationMinIntervalMs : Nat

def getProviderGuardSettings : SimpleProviderGuardProvider → ProviderGuardSettings
  | .gemini =>
    { cooldownMs := 10 * 60000, autoWaitMaxMs := 45000, postCommitAutoWaitMaxMs := 45000
      simplePostCommitQuietMs := 12000, simpleMutationMinIntervalMs := 25000 }
  | .grok =>
    { cooldownMs := 5 * 60000, autoWaitMaxMs := 30000, postCommitAutoWaitMaxMs := 30000
      simplePostCommitQuietMs := 8000, simpleMutationMinIntervalMs := 12000 }

def isMutatingProviderAction (action : String) : Bool :=
  ["renameProject", "cloneProject", "pushProjectRemoveConfirmation", "clickCreateProjectConfirm", "uploadProjectFiles",
    "uploadAccountFiles", "deleteProjectFile", "deleteAccountFile", "createProject", "updateProjectInstructions",
    "renameConversation", "deleteConversation", "runPrompt"].contains action

/-! ## Errors -/

inductive RetryUnit
  | second | minute | hour

def RetryUnit.ms : RetryUnit → Nat
  | second => 1000
  | minute => 60000
  | hour => 60 * 60000

/-- What the patterns find in the message of an error. -/
structure ProviderError where
  isRateLimited : Bool
  tryAgainIn : Option (Nat × RetryUnit)
  summary : Option String

def extractProviderRetryAfterMs (provider : SimpleProviderGuardProvider) (error : ProviderError) : Option Nat :=
  match provider, error.tryAgainIn with
  | .grok, some (amount, unit) => if amount = 0 then none else some (amount * unit.ms)
  | _, _ => none

/-- How long the cooldown of a rate limit lasts. -/
def rateLimitCooldownMs (provider : SimpleProviderGuardProvider) (error : ProviderError) : Nat :=
  (extractProviderRetryAfterMs provider error).getD (getProviderGuardSettings provider).cooldownMs

/-! ## Enforcing -/

/-- The error of a guard that is not waited for. -/
structure GuardRefusal where
  label : String
  activeUntil : Nat
  remainingMs : Nat
  detail : Option String

section Enforce

variable (provider : SimpleProviderGuardProvider)

/-- `state.cooldownUntil`, where there is one. -/
def cooldownEnd (state : SimpleProviderGuardState) : Nat := state.cooldownUntil.getD 0

def cooldownLabel : SimpleProviderGuardProvider → String
  | .gemini => "Gemini anti-bot"
  | .grok => "Grok rate limit"

def cooldownWaitMs (state : SimpleProviderGuardState) (now : Nat) : Except GuardRefusal Nat :=
  let remainingMs := cooldownEnd state - now
  if remainingMs ≤ (getProviderGuardSettings provider).autoWaitMaxMs then .ok remainingMs
  else .error ⟨cooldownLabel provider ++ " cooldown", cooldownEnd state, remainingMs, state.cooldownReason⟩

def quietMs (action : String) : Nat :=
  if isMutatingProviderAction action then (getProviderGuardSettings provider).simpleMutationMinIntervalMs
  else (getProviderGuardSettings provider).simplePostCommitQuietMs

def quietLabel (action : String) : String :=
  if isMutatingProviderAction action then
    match provider with
    | .gemini => "Gemini write spacing"
    | .grok => "Grok write spacing"
  else
    match provider with
    | .gemini => "Gemini post-write quiet period"
    | .grok => "Grok post-write quiet period"

def quietAutoWaitMaxMs (action : String) : Nat :=
  let settings := getProviderGuardSettings provider
  if isMutatingProviderAction action then max settings.autoWaitMaxMs settings.postCommitAutoWaitMaxMs
  else settings.postCommitAutoWaitMaxMs

/-- When the quiet period after the last write ends. A write at time zero is none. -/
def quietEnd (state : SimpleProviderGuardState) (action : String) : Nat :=
  match state.lastMutationAt with
  | none => 0
  | some lastMutationAt => if lastMutationAt = 0 then 0 else lastMutationAt + quietMs provider action

def quietWaitMs (state : SimpleProviderGuardState) (action : String) (now : Nat) : Except GuardRefusal Nat :=
  let remainingMs := quietEnd provider state action - now
  if remainingMs ≤ quietAutoWaitMaxMs provider action then .ok remainingMs
  else .error ⟨quietLabel provider action, now + remainingMs, remainingMs, none⟩

/-- When the guard lets the action through, that is called now. Both waits are counted from the call. -/
def enforceProviderGuard (record : Option SimpleProviderGuardState) (action : String) (now : Nat) :
    Except GuardRefusal Nat :=
  match record with
  | none => .ok now
  | some state => do
    let cooldownMs ← cooldownWaitMs provider state now
    let quietMs ← quietWaitMs provider state action now
    return now + cooldownMs + quietMs

/-- The guard lets the action through at the time, when it is called now or later. -/
def LetsThroughAt (record : Option SimpleProviderGuardState) (action : String) (now time : Nat) : Prop :=
  ∃ call, now ≤ call ∧ enforceProviderGuard provider record action call = .ok time

def fence (record : Option SimpleProviderGuardState) (action : String) (now : Nat) : Nat :=
  match record with
  | none => now
  | some state => max now (max (cooldownEnd state) (quietEnd provider state action))

variable {provider} {record : Option SimpleProviderGuardState} {action : String} {now : Nat}

theorem cooldownWaitMs_eq_ok {state : SimpleProviderGuardState} {waitMs : Nat}
    (h : cooldownWaitMs provider state now = .ok waitMs) : waitMs = cooldownEnd state - now := by
  unfold cooldownWaitMs at h
  dsimp only at h
  split at h
  · cases h
    rfl
  · cases h

theorem quietWaitMs_eq_ok {state : SimpleProviderGuardState} {waitMs : Nat}
    (h : quietWaitMs provider state action now = .ok waitMs) : waitMs = quietEnd provider state action - now := by
  unfold quietWaitMs at h
  dsimp only at h
  split at h
  · cases h
    rfl
  · cases h

theorem fence_le_of_enforceProviderGuard {call time : Nat} (hcall : now ≤ call)
    (h : enforceProviderGuard provider record action call = .ok time) : fence provider record action now ≤ time := by
  cases record with
  | none =>
    cases h
    exact hcall
  | some state =>
    unfold enforceProviderGuard at h
    dsimp only at h
    cases hcooldown : cooldownWaitMs provider state call with
    | error refusal =>
      rw [hcooldown] at h
      cases h
    | ok cooldownMs =>
      cases hquiet : quietWaitMs provider state action call with
      | error refusal =>
        rw [hcooldown, hquiet] at h
        cases h
      | ok quietMs =>
        rw [hcooldown, hquiet] at h
        cases h
        have hcooldownMs := cooldownWaitMs_eq_ok hcooldown
        have hquietMs := quietWaitMs_eq_ok hquiet
        unfold fence
        dsimp only
        omega

variable (provider record action now) in
theorem enforceProviderGuard_fence :
    enforceProviderGuard provider record action (fence provider record action now) =
      .ok (fence provider record action now) := by
  cases record with
  | none => rfl
  | some state =>
    have hcooldown : cooldownEnd state - fence provider (some state) action now = 0 := by
      unfold fence
      dsimp only
      omega
    have hquiet : quietEnd provider state action - fence provider (some state) action now = 0 := by
      unfold fence
      dsimp only
      omega
    unfold enforceProviderGuard cooldownWaitMs quietWaitMs
    dsimp only
    rw [hcooldown, hquiet, if_pos (Nat.zero_le _), if_pos (Nat.zero_le _)]
    rfl

/-- **The fence** is the earliest time at which the action is let through. -/
theorem isLeast_fence :
    IsLeast {time | LetsThroughAt provider record action now time} (fence provider record action now) := by
  refine ⟨⟨_, ?_, enforceProviderGuard_fence ..⟩, fun time ⟨call, hcall, h⟩ => fence_le_of_enforceProviderGuard hcall h⟩
  unfold fence
  split
  · exact Nat.le_refl _
  · exact Nat.le_max_left _ _

end Enforce

/-! ## Recording -/

section Record

variable (provider : SimpleProviderGuardProvider) (profile : String)

def noteProviderGuardSuccess (current : Option SimpleProviderGuardState) (action : String) (now : Nat) :
    SimpleProviderGuardState :=
  let next : SimpleProviderGuardState :=
    { provider, profile, updatedAt := now
      lastMutationAt := if isMutatingProviderAction action then some now else current.bind (·.lastMutationAt) }
  match current with
  | none => next
  | some current =>
    if now < cooldownEnd current then
      { next with
        cooldownUntil := current.cooldownUntil
        cooldownDetectedAt := current.cooldownDetectedAt
        cooldownReason := current.cooldownReason
        cooldownAction := current.cooldownAction }
    else next

/-- The record that is written. The current one is read, and not used. -/
def handleProviderGuardFailure (current : Option SimpleProviderGuardState) (action : String) (error : ProviderError)
    (now : Nat) : Option SimpleProviderGuardState :=
  if error.isRateLimited then
    some
      { provider, profile, updatedAt := now
        cooldownDetectedAt := some now
        cooldownUntil := some (now + rateLimitCooldownMs provider error)
        cooldownReason := error.summary
        cooldownAction := some action
        lastMutationAt := if isMutatingProviderAction action then some now else none }
  else current

inductive ActionOutcome
  | succeeded
  | failed (error : ProviderError)

/-- An action that has ended. -/
structure GuardedAction where
  action : String
  outcome : ActionOutcome
  endedAt : Nat

def recordOutcome (current : Option SimpleProviderGuardState) (ended : GuardedAction) :
    Option SimpleProviderGuardState :=
  match ended.outcome with
  | .succeeded => some (noteProviderGuardSuccess provider profile current ended.action ended.endedAt)
  | .failed error => handleProviderGuardFailure provider profile current ended.action error ended.endedAt

structure GuardHistory where
  clock : Nat
  record : Option SimpleProviderGuardState

/-- Actions end one after the other. -/
def endAction (s : GuardHistory) (ended : GuardedAction) : Option GuardHistory :=
  if s.clock ≤ ended.endedAt then some ⟨ended.endedAt, recordOutcome provider profile s.record ended⟩ else none

/-- `state.lastMutationAt`. -/
def lastWrite (record : Option SimpleProviderGuardState) : Option Nat := record.bind (·.lastMutationAt)

/-- `state.cooldownUntil`. -/
def lastCooldown (record : Option SimpleProviderGuardState) : Option Nat := record.bind (·.cooldownUntil)

/-- The last write on record is past. -/
def WritesArePast (s : GuardHistory) : Prop := ∀ write, lastWrite s.record = some write → write ≤ s.clock

def guardSystem : TransitionSystem GuardHistory GuardedAction :=
  .ofNext WritesArePast (endAction provider profile)

end Record

/-! ## What recording does to the fences -/

section Fences

variable {provider : SimpleProviderGuardProvider} {profile : String}

/-- No action is let through earlier than before, a cooldown that is active is not shortened, and a write is not
forgotten. -/
structure KeepsFences (provider : SimpleProviderGuardProvider) (before after : Option SimpleProviderGuardState)
    (now : Nat) : Prop where
  fence : ∀ action time later, IsLeast {time | LetsThroughAt provider before action now time} time →
    IsLeast {time | LetsThroughAt provider after action now time} later → time ≤ later
  cooldown : ∀ time, lastCooldown before = some time → now < time → ∃ later, lastCooldown after = some later ∧ time ≤ later
  write : ∀ time, lastWrite before = some time → ∃ later, lastWrite after = some later ∧ time ≤ later

/-- A rate limit whose cooldown ends no earlier than the one that is active, of a write, or where no write is on
record. -/
def KeepsRecord (provider : SimpleProviderGuardProvider) (before : Option SimpleProviderGuardState)
    (ended : GuardedAction) : Prop :=
  ∀ error, ended.outcome = .failed error → error.isRateLimited = true →
    (∀ time, lastCooldown before = some time → ended.endedAt < time →
      time ≤ ended.endedAt + rateLimitCooldownMs provider error) ∧
    (isMutatingProviderAction ended.action = true ∨ lastWrite before = none)

theorem KeepsFences.of_fence {before after : Option SimpleProviderGuardState} {now : Nat}
    (hfence : ∀ action, Browser.fence provider before action now ≤ Browser.fence provider after action now)
    (hcooldown : ∀ time, lastCooldown before = some time → now < time →
      ∃ later, lastCooldown after = some later ∧ time ≤ later)
    (hwrite : ∀ time, lastWrite before = some time → ∃ later, lastWrite after = some later ∧ time ≤ later) :
    KeepsFences provider before after now := by
  refine ⟨fun action time later htime hlater => ?_, hcooldown, hwrite⟩
  rw [htime.unique isLeast_fence, hlater.unique isLeast_fence]
  exact hfence action

theorem KeepsFences.fence_le {before after : Option SimpleProviderGuardState} {now : Nat}
    (h : KeepsFences provider before after now) (action : String) :
    Browser.fence provider before action now ≤ Browser.fence provider after action now :=
  h.fence action _ _ isLeast_fence isLeast_fence

/-- The fence is made of the time, the cooldown, and the quiet period after the last write. -/
theorem fence_le_of_kept {before after : Option SimpleProviderGuardState} {now : Nat} {action : String}
    (hcooldown : ∀ time, lastCooldown before = some time → now < time →
      ∃ later, lastCooldown after = some later ∧ time ≤ later)
    (hwrite : ∀ time, lastWrite before = some time → ∃ later, lastWrite after = some later ∧ time ≤ later) :
    fence provider before action now ≤ fence provider after action now := by
  have hnow : now ≤ fence provider after action now := by
    unfold fence
    split
    · exact Nat.le_refl _
    · exact Nat.le_max_left _ _
  cases before with
  | none => exact hnow
  | some state =>
    have hcooldownEnd : cooldownEnd state ≤ fence provider after action now := by
      cases htime : state.cooldownUntil with
      | none =>
        rw [cooldownEnd, htime]
        exact Nat.zero_le _
      | some time =>
        rw [cooldownEnd, htime]
        by_cases hactive : now < time
        · obtain ⟨later, hlater, hle⟩ := hcooldown time htime hactive
          cases after with
          | none => cases hlater
          | some next =>
            have hend : cooldownEnd next = later := by rw [cooldownEnd, show next.cooldownUntil = some later from hlater]; rfl
            show time ≤ max now (max (cooldownEnd next) _)
            omega
        · exact Nat.le_trans (Nat.le_of_not_lt hactive) hnow
    have hquietEnd : quietEnd provider state action ≤ fence provider after action now := by
      cases htime : state.lastMutationAt with
      | none =>
        rw [quietEnd, htime]
        exact Nat.zero_le _
      | some time =>
        obtain ⟨later, hlater, hle⟩ := hwrite time htime
        cases after with
        | none => cases hlater
        | some next =>
          have hend : quietEnd provider next action = if later = 0 then 0 else later + quietMs provider action := by
            rw [quietEnd, show next.lastMutationAt = some later from hlater]
          rw [quietEnd, htime]
          dsimp only
          show _ ≤ max now (max (cooldownEnd next) (quietEnd provider next action))
          rw [hend]
          split_ifs <;> omega
    show max now (max _ _) ≤ _
    omega

variable {s s' : GuardHistory} {ended : GuardedAction}

theorem endAction_eq_some (h : endAction provider profile s ended = some s') : s.clock ≤ ended.endedAt ∧
    s' = ⟨ended.endedAt, recordOutcome provider profile s.record ended⟩ := by
  unfold endAction at h
  split at h
  · rename_i hclock
    exact ⟨hclock, (Option.some.inj h).symm⟩
  · cases h

@[simp] theorem lastWrite_noteProviderGuardSuccess (current : Option SimpleProviderGuardState) (action : String)
    (now : Nat) : lastWrite (some (noteProviderGuardSuccess provider profile current action now)) =
      if isMutatingProviderAction action then some now else lastWrite current := by
  unfold noteProviderGuardSuccess
  dsimp only
  split
  · rfl
  · split <;> rfl

theorem lastCooldown_noteProviderGuardSuccess {current : Option SimpleProviderGuardState} {action : String}
    {now time : Nat} (htime : lastCooldown current = some time) (hactive : now < time) :
    lastCooldown (some (noteProviderGuardSuccess provider profile current action now)) = some time := by
  cases current with
  | none => cases htime
  | some state =>
    have hcooldown : state.cooldownUntil = some time := htime
    have hend : cooldownEnd state = time := by
      rw [cooldownEnd, hcooldown]
      rfl
    unfold noteProviderGuardSuccess
    dsimp only
    rw [hend, if_pos hactive]
    exact hcooldown

theorem writesArePast (h : (guardSystem provider profile).Reachable s) : WritesArePast s := by
  refine h.invariant (fun _ h => h) fun s ended s' _ hpast hstep write hwrite => ?_
  obtain ⟨hclock, rfl⟩ := endAction_eq_some hstep
  show write ≤ ended.endedAt
  replace hwrite : lastWrite (recordOutcome provider profile s.record ended) = some write := hwrite
  unfold recordOutcome at hwrite
  split at hwrite
  · rw [lastWrite_noteProviderGuardSuccess] at hwrite
    split at hwrite
    · cases hwrite
      exact Nat.le_refl _
    · exact Nat.le_trans (hpast write hwrite) hclock
  · unfold handleProviderGuardFailure at hwrite
    split at hwrite
    · replace hwrite : (if isMutatingProviderAction ended.action then some ended.endedAt else none) = some write := hwrite
      split at hwrite
      · cases hwrite
        exact Nat.le_refl _
      · cases hwrite
    · exact Nat.le_trans (hpast write hwrite) hclock

/-- **One step**: the fences are kept exactly by the steps that keep the record. -/
theorem keepsFences_iff (hs : (guardSystem provider profile).Reachable s)
    (hstep : (guardSystem provider profile).Step s ended s') :
    KeepsFences provider s.record s'.record ended.endedAt ↔ KeepsRecord provider s.record ended := by
  obtain ⟨hclock, rfl⟩ := endAction_eq_some hstep
  have hpast : ∀ write, lastWrite s.record = some write → write ≤ ended.endedAt :=
    fun write hwrite => Nat.le_trans (writesArePast hs write hwrite) hclock
  cases houtcome : ended.outcome with
  | succeeded =>
    have hrecord : recordOutcome provider profile s.record ended =
        some (noteProviderGuardSuccess provider profile s.record ended.action ended.endedAt) := by
      rw [recordOutcome, houtcome]
    refine ⟨fun _ error herror => ?_, fun _ => ?_⟩
    · rw [houtcome] at herror
      cases herror
    · have hcooldown : ∀ time, lastCooldown s.record = some time → ended.endedAt < time →
          ∃ later, lastCooldown (recordOutcome provider profile s.record ended) = some later ∧ time ≤ later :=
        fun time htime hactive => ⟨time, hrecord ▸ lastCooldown_noteProviderGuardSuccess htime hactive, Nat.le_refl _⟩
      have hwrite : ∀ time, lastWrite s.record = some time →
          ∃ later, lastWrite (recordOutcome provider profile s.record ended) = some later ∧ time ≤ later := by
        intro time htime
        rw [hrecord, lastWrite_noteProviderGuardSuccess]
        split
        · exact ⟨_, rfl, hpast time htime⟩
        · exact ⟨time, htime, Nat.le_refl _⟩
      exact .of_fence (fun _ => fence_le_of_kept hcooldown hwrite) hcooldown hwrite
  | failed error =>
    have hrecord : recordOutcome provider profile s.record ended =
        handleProviderGuardFailure provider profile s.record ended.action error ended.endedAt := by
      rw [recordOutcome, houtcome]
    cases hlimited : error.isRateLimited with
    | false =>
      have hsame : recordOutcome provider profile s.record ended = s.record := by
        rw [hrecord, handleProviderGuardFailure, hlimited]
        rfl
      refine ⟨fun _ other hother hlimited' => ?_, fun _ => ?_⟩
      · rw [houtcome] at hother
        cases hother
        exact absurd (hlimited.symm.trans hlimited') Bool.false_ne_true
      · show KeepsFences provider s.record (recordOutcome provider profile s.record ended) ended.endedAt
        rw [hsame]
        exact .of_fence (fun _ => Nat.le_refl _) (fun time htime _ => ⟨time, htime, Nat.le_refl _⟩)
          fun time htime => ⟨time, htime, Nat.le_refl _⟩
    | true =>
      have hcooldownAfter : lastCooldown (recordOutcome provider profile s.record ended) =
          some (ended.endedAt + rateLimitCooldownMs provider error) := by
        rw [hrecord, handleProviderGuardFailure, hlimited]
        rfl
      have hwriteAfter : lastWrite (recordOutcome provider profile s.record ended) =
          if isMutatingProviderAction ended.action then some ended.endedAt else none := by
        rw [hrecord, handleProviderGuardFailure, hlimited]
        rfl
      constructor
      · intro hkeeps other hother _
        rw [houtcome] at hother
        cases hother
        refine ⟨fun time htime hactive => ?_, ?_⟩
        · obtain ⟨later, hlater, hle⟩ := hkeeps.cooldown time htime hactive
          rw [hcooldownAfter] at hlater
          cases hlater
          exact hle
        · by_contra hneither
          obtain ⟨hread, hwritten⟩ := not_or.1 hneither
          obtain ⟨time, htime⟩ := Option.ne_none_iff_exists'.1 hwritten
          obtain ⟨later, hlater, -⟩ := hkeeps.write time htime
          rw [hwriteAfter, if_neg hread] at hlater
          cases hlater
      · intro hkeeps
        obtain ⟨hlonger, hwritten⟩ := hkeeps error houtcome hlimited
        have hcooldown : ∀ time, lastCooldown s.record = some time → ended.endedAt < time →
            ∃ later, lastCooldown (recordOutcome provider profile s.record ended) = some later ∧ time ≤ later :=
          fun time htime hactive => ⟨_, hcooldownAfter, hlonger time htime hactive⟩
        have hwrite : ∀ time, lastWrite s.record = some time →
            ∃ later, lastWrite (recordOutcome provider profile s.record ended) = some later ∧ time ≤ later := by
          intro time htime
          rcases hwritten with hmutating | hnone
          · exact ⟨ended.endedAt, by rw [hwriteAfter, if_pos hmutating], hpast time htime⟩
          · rw [hnone] at htime
            cases htime
        exact .of_fence (fun _ => fence_le_of_kept hcooldown hwrite) hcooldown hwrite

theorem KeepsFences.refl (record : Option SimpleProviderGuardState) (now : Nat) :
    KeepsFences provider record record now :=
  .of_fence (fun _ => Nat.le_refl _) (fun time htime _ => ⟨time, htime, Nat.le_refl _⟩)
    fun time htime => ⟨time, htime, Nat.le_refl _⟩

theorem KeepsFences.trans {before middle after : Option SimpleProviderGuardState} {now later : Nat}
    (h : KeepsFences provider before middle now) (h' : KeepsFences provider middle after later) (hle : now ≤ later) :
    KeepsFences provider before after later := by
  have hcooldown : ∀ time, lastCooldown before = some time → later < time →
      ∃ last, lastCooldown after = some last ∧ time ≤ last := by
    intro time htime hactive
    obtain ⟨next, hnext, hlonger⟩ := h.cooldown time htime (by omega)
    obtain ⟨last, hlast, hlonger'⟩ := h'.cooldown next hnext (by omega)
    exact ⟨last, hlast, by omega⟩
  have hwrite : ∀ time, lastWrite before = some time → ∃ last, lastWrite after = some last ∧ time ≤ last := by
    intro time htime
    obtain ⟨next, hnext, hlonger⟩ := h.write time htime
    obtain ⟨last, hlast, hlonger'⟩ := h'.write next hnext
    exact ⟨last, hlast, by omega⟩
  exact .of_fence (fun _ => fence_le_of_kept hcooldown hwrite) hcooldown hwrite

/-- The steps that keep the record. -/
def keepingSystem (provider : SimpleProviderGuardProvider) (profile : String) :
    TransitionSystem GuardHistory GuardedAction :=
  (guardSystem provider profile).restrict fun s ended => KeepsRecord provider s.record ended

/-- **A run**: what each step keeps, the run keeps. -/
theorem keepsFences_of_run {ended : List GuardedAction} (h : (keepingSystem provider profile).Run s ended s')
    (hs : (guardSystem provider profile).Reachable s) :
    s.clock ≤ s'.clock ∧ KeepsFences provider s.record s'.record s'.clock := by
  induction h with
  | nil s => exact ⟨Nat.le_refl _, .refl _ _⟩
  | @cons s middle s' action _ hstep _ ih =>
    obtain ⟨hclock, hmiddle⟩ := endAction_eq_some hstep.2
    obtain ⟨hlater, hkeeps⟩ := ih (hs.step hstep.2)
    have hfirst := (keepsFences_iff hs hstep.2).2 hstep.1
    have htime : middle.clock = action.endedAt := by rw [hmiddle]
    exact ⟨by omega, hfirst.trans hkeeps (by omega)⟩

end Fences

/-- **Fences are kept exactly where the record is kept**, by each step from a reachable state, and then by each run. -/
theorem fences_kept_iff (provider : SimpleProviderGuardProvider) (profile : String) :
    (∀ s ended s', (guardSystem provider profile).Reachable s → (guardSystem provider profile).Step s ended s' →
      (KeepsFences provider s.record s'.record ended.endedAt ↔ KeepsRecord provider s.record ended)) ∧
    ∀ s ended s', (guardSystem provider profile).Reachable s → (keepingSystem provider profile).Run s ended s' →
      KeepsFences provider s.record s'.record s'.clock :=
  ⟨fun _ _ _ hs hstep => keepsFences_iff hs hstep, fun _ _ _ hs hrun => (keepsFences_of_run hrun hs).2⟩

/-- Grok: a read that is rate limited for a second after a write. The write is forgotten, and the next write is let
through three seconds earlier than before. -/
theorem limited_read_forgets_write : ∃ s ended s', (guardSystem .grok "default").Reachable s ∧
    (guardSystem .grok "default").Step s ended s' ∧
    enforceProviderGuard .grok s.record ended.action ended.endedAt = .ok ended.endedAt ∧
    IsLeast {time | LetsThroughAt .grok s.record "runPrompt" ended.endedAt time} 13000 ∧
    IsLeast {time | LetsThroughAt .grok s'.record "runPrompt" ended.endedAt time} 10000 ∧
    ¬KeepsFences .grok s.record s'.record ended.endedAt := by
  let written : GuardedAction := ⟨"runPrompt", .succeeded, 1000⟩
  let limited : GuardedAction :=
    ⟨"listConversations", .failed ⟨true, some (1, .second), some "rate limit, try again in 1 second"⟩, 9000⟩
  have hinit : (guardSystem .grok "default").Reachable ⟨0, none⟩ := .init fun _ h => by cases h
  have hreach : (guardSystem .grok "default").Reachable
      ⟨1000, recordOutcome .grok "default" none written⟩ :=
    hinit.step (show endAction .grok "default" ⟨0, none⟩ written = some _ from rfl)
  have hstep : endAction .grok "default" ⟨1000, recordOutcome .grok "default" none written⟩ limited =
      some ⟨9000, recordOutcome .grok "default" (recordOutcome .grok "default" none written) limited⟩ := rfl
  have hbefore : fence .grok (recordOutcome .grok "default" none written) "runPrompt" 9000 = 13000 := by decide +kernel
  have hafter : fence .grok (recordOutcome .grok "default" (recordOutcome .grok "default" none written) limited)
      "runPrompt" 9000 = 10000 := by decide +kernel
  have hlets : enforceProviderGuard .grok (recordOutcome .grok "default" none written) "listConversations" 9000 =
      .ok 9000 := by
    have hfence : fence .grok (recordOutcome .grok "default" none written) "listConversations" 9000 = 9000 := by
      decide +kernel
    have h := enforceProviderGuard_fence .grok (recordOutcome .grok "default" none written) "listConversations" 9000
    rwa [hfence] at h
  refine ⟨_, limited, _, hreach, hstep, hlets, hbefore ▸ isLeast_fence, hafter ▸ isLeast_fence, fun hkeeps => ?_⟩
  have hearlier := hkeeps.fence_le "runPrompt"
  rw [show fence .grok _ "runPrompt" _ = 13000 from hbefore, show fence .grok _ "runPrompt" _ = 10000 from hafter]
    at hearlier
  exact absurd hearlier (by decide)

end AuraCall.Browser
