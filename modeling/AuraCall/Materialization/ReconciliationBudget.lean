import AuraCall.Materialization.FunnelConservation

/-!
# The budgets of a reconciliation

A run has one budget of assets and one of targets, and stops at a provider guard. The loop over the candidates keeps to
all three; the loop over the media generations starts with a target budget of its own, and knows neither the assets that
are left nor the guard (`budgets_kept_iff`).
-/

namespace AuraCall.Materialization

/-! ## What has been done with the provider -/

/-- An attempt, or an outcome that the provider has not been asked for. -/
structure ProviderStep where
  isAttempt : Bool
  assets : Nat
  isTarget : Bool
  isGuard : Bool
  deriving DecidableEq

def attemptStep (receipt : HistoryMaterializationAttemptReceipt) : ProviderStep where
  isAttempt := true
  assets := receipt.accounting.assetsAttempted
  isTarget := receipt.accounting.targetConsumed
  isGuard := receipt.accounting.providerGuardObserved

def mediaStep (outcome : MediaOutcome) : ProviderStep where
  isAttempt := outcome.isAttempt
  assets := countAttemptedReconciliationAssetBudget outcome.result
  isTarget := consumesReconciliationTargetBudget outcome.result
  isGuard := outcome.isAttempt && historyMaterializationResultHasProviderGuard outcome.result

/-- The steps after the attempts of candidates, and the attempt that has thrown. -/
def ReconciliationRun.laterSteps (run : ReconciliationRun) : List ProviderStep :=
  run.media.map mediaStep ++ if run.hasUnrecordedAttempt then [⟨true, 0, false, false⟩] else []

def ReconciliationRun.steps (run : ReconciliationRun) : List ProviderStep :=
  run.state.attempts.map attemptStep ++ run.laterSteps

def assetsOf (steps : List ProviderStep) : Nat := (steps.map (·.assets)).sum

def targetsOf (steps : List ProviderStep) : Nat := steps.countP (·.isTarget)

/-- Nothing is attempted after a guard. -/
def StopsAtGuard (steps : List ProviderStep) : Prop :=
  steps.Pairwise fun step later => step.isGuard = true → later.isAttempt = false

/-- One budget of assets, one budget of targets, and nothing after a guard. -/
structure KeepsBudgets (maxTargets : Nat) (run : ReconciliationRun) : Prop where
  assets : assetsOf run.steps ≤ maxTargets
  targets : targetsOf run.steps ≤ maxTargets
  guard : StopsAtGuard run.steps

/-- The attempt has come to no more assets than it was given. -/
def KeepsToBudget (receipt : HistoryMaterializationAttemptReceipt) : Prop :=
  ∀ n, receipt.budgetBefore.assetsRemaining = some n → receipt.accounting.assetsAttempted ≤ n

/-- The attempts keep to what they are given, and the media generations to what the attempts have left. -/
structure FitsBudgets (maxTargets : Nat) (run : ReconciliationRun) : Prop where
  attempts : ∀ receipt ∈ run.state.attempts, KeepsToBudget receipt
  assets : assetsOf run.laterSteps ≤ maxTargets - assetsOf (run.state.attempts.map attemptStep)
  targets : (∃ receipt ∈ run.state.attempts, receipt.accounting.providerGuardObserved = true) →
    targetsOf run.laterSteps ≤ maxTargets - targetsOf (run.state.attempts.map attemptStep)
  guard : StopsAtGuard run.laterSteps
  attemptGuard : (∃ receipt ∈ run.state.attempts, receipt.accounting.providerGuardObserved = true) →
    ∀ step ∈ run.laterSteps, step.isAttempt = false

@[simp] theorem assetsOf_append (steps later : List ProviderStep) :
    assetsOf (steps ++ later) = assetsOf steps + assetsOf later := by
  simp [assetsOf]

@[simp] theorem targetsOf_append (steps later : List ProviderStep) :
    targetsOf (steps ++ later) = targetsOf steps + targetsOf later := List.countP_append

/-! ## The loop over the candidates -/

section Loop

variable {services : ReconciliationServices} {request : NormalizedRequest} {maxTargets : Nat}

/-- Each attempt is given what the earlier ones have left. -/
inductive Budgeted (maxTargets : Nat) : List HistoryMaterializationAttemptReceipt → Prop
  | nil : Budgeted maxTargets []
  | attempt {earlier : List HistoryMaterializationAttemptReceipt} {receipt : HistoryMaterializationAttemptReceipt}
    (h : Budgeted maxTargets earlier) (hleft : assetsOf (earlier.map attemptStep) < maxTargets)
    (hgiven : receipt.budgetBefore.assetsRemaining = some (maxTargets - assetsOf (earlier.map attemptStep))) :
    Budgeted maxTargets (earlier ++ [receipt])

/-- The assets stay within the budget as long as each attempt keeps to what it is given. -/
theorem Budgeted.assets_iff {attempts : List HistoryMaterializationAttemptReceipt} (h : Budgeted maxTargets attempts) :
    assetsOf (attempts.map attemptStep) ≤ maxTargets ↔ ∀ receipt ∈ attempts, KeepsToBudget receipt := by
  induction h with
  | nil => simp [assetsOf]
  | @attempt earlier receipt _ hleft hgiven ih =>
    have hreceipt : KeepsToBudget receipt ↔
        receipt.accounting.assetsAttempted ≤ maxTargets - assetsOf (earlier.map attemptStep) := by
      simp only [KeepsToBudget, hgiven, Option.some.injEq, forall_eq']
    have hlast : assetsOf ([receipt].map attemptStep) = receipt.accounting.assetsAttempted := by
      simp [assetsOf, attemptStep]
    rw [List.map_append, assetsOf_append, hlast]
    simp only [List.mem_append, List.mem_singleton, or_imp, forall_and, forall_eq]
    rw [← ih, hreceipt]
    omega

/-- What has been spent as long as no guard has been met. -/
structure Spent (maxTargets : Nat) (s : ReconciliationState) : Prop where
  budgeted : Budgeted maxTargets s.attempts
  assets : s.remainingAssetBudget = maxTargets - assetsOf (s.attempts.map attemptStep)
  targets : s.consumedTargetBudget = targetsOf (s.attempts.map attemptStep)
  bound : targetsOf (s.attempts.map attemptStep) ≤ maxTargets
  unguarded : ∀ receipt ∈ s.attempts, receipt.accounting.providerGuardObserved = false

/-- What a loop leaves. -/
structure LoopEnd (maxTargets : Nat) (s : ReconciliationState) : Prop where
  budgeted : Budgeted maxTargets s.attempts
  targets : targetsOf (s.attempts.map attemptStep) ≤ maxTargets
  guard : StopsAtGuard (s.attempts.map attemptStep)

theorem stopsAtGuard_of_unguarded {attempts : List HistoryMaterializationAttemptReceipt}
    (h : ∀ receipt ∈ attempts, receipt.accounting.providerGuardObserved = false) :
    StopsAtGuard (attempts.map attemptStep) := by
  refine List.pairwise_map.2 (List.pairwise_of_forall_mem_list fun receipt hreceipt _ _ hguard => ?_)
  have hfalse := h receipt hreceipt
  exact absurd (hfalse.symm.trans hguard) Bool.false_ne_true

theorem Spent.loopEnd {s : ReconciliationState} (h : Spent maxTargets s) : LoopEnd maxTargets s :=
  ⟨h.budgeted, h.bound, stopsAtGuard_of_unguarded h.unguarded⟩

theorem Spent.excludeLate {s : ReconciliationState} (h : Spent maxTargets s) (reason : PostEligibilityExclusion)
    (n : Nat) : Spent maxTargets (s.excludeLate reason n) := ⟨h.1, h.2, h.3, h.4, h.5⟩

theorem Spent.attempt {s after : ReconciliationState} {origin : ReceiptOrigin} {target : HistoryMaterializationTarget}
    {assetFamilySignatures : List String} {receipt : HistoryMaterializationAttemptReceipt} (h : Spent maxTargets s)
    (htargets : ¬maxTargets ≤ s.consumedTargetBudget) (hassets : s.remainingAssetBudget ≠ 0)
    (hattempt : attemptCandidate services request maxTargets s origin target assetFamilySignatures =
      .ok (after, receipt)) :
    after.attempts = s.attempts ++ [receipt] ∧ LoopEnd maxTargets after ∧
      (receipt.accounting.providerGuardObserved = false → Spent maxTargets (after.spend receipt.accounting)) := by
  obtain ⟨result, -, hreceipt, rfl⟩ := attemptCandidate_eq_ok hattempt
  have hgiven : receipt.budgetBefore.assetsRemaining = some s.remainingAssetBudget := by
    rw [hreceipt]
    rfl
  have hattempts : ((s.close assetFamilySignatures).push result receipt).attempts = s.attempts ++ [receipt] := rfl
  have hbudgeted : Budgeted maxTargets (s.attempts ++ [receipt]) := by
    rw [h.assets] at hgiven hassets
    exact .attempt h.budgeted (by omega) hgiven
  have htargetsOf : targetsOf ((s.attempts ++ [receipt]).map attemptStep) =
      s.consumedTargetBudget + if receipt.accounting.targetConsumed then 1 else 0 := by
    rw [List.map_append, targetsOf_append, ← h.targets]
    simp [targetsOf, attemptStep, List.countP_singleton]
  have hbound : targetsOf ((s.attempts ++ [receipt]).map attemptStep) ≤ maxTargets := by
    rw [htargetsOf]
    split <;> omega
  refine ⟨hattempts, ⟨hbudgeted, hbound, ?_⟩, fun hguard => ?_⟩
  · rw [hattempts, List.map_append]
    refine List.pairwise_append.2 ⟨stopsAtGuard_of_unguarded h.unguarded, List.pairwise_singleton _ _, ?_⟩
    intro step hstep _ _ hguard
    obtain ⟨earlier, hearlier, rfl⟩ := List.mem_map.1 hstep
    exact absurd ((h.unguarded earlier hearlier).symm.trans hguard) Bool.false_ne_true
  · refine ⟨hbudgeted, ?_, htargetsOf.symm, hbound, fun other hother => ?_⟩
    · show s.remainingAssetBudget - receipt.accounting.assetsAttempted =
        maxTargets - assetsOf ((s.attempts ++ [receipt]).map attemptStep)
      rw [h.assets, List.map_append, assetsOf_append]
      simp only [assetsOf, List.map_cons, List.map_nil, List.sum_cons, List.sum_nil, attemptStep]
      omega
    · rcases List.mem_append.1 hother with hother | hother
      · exact h.unguarded other hother
      · rw [List.mem_singleton.1 hother]
        exact hguard

theorem Spent.start {s : ReconciliationState} (hattempts : s.attempts = []) (hassets : s.remainingAssetBudget = maxTargets)
    (htargets : s.consumedTargetBudget = 0) : Spent maxTargets s := by
  refine ⟨?_, ?_, ?_, ?_, ?_⟩ <;> rw [hattempts]
  · exact .nil
  · exact hassets
  · exact htargets
  · exact Nat.zero_le _
  · exact fun _ h => absurd h List.not_mem_nil

theorem attemptConversations_end {targetOf : String → HistoryMaterializationTarget} {familiesOf : String → List String} :
    ∀ {ids : List String} {s s' : ReconciliationState} {thrown : Option Thrown}, Spent maxTargets s →
      attemptConversations services request maxTargets targetOf familiesOf ids s = (s', thrown) →
        LoopEnd maxTargets s'
  | [], s, s', thrown, hspent, h => by
    cases h
    exact hspent.loopEnd
  | conversationId :: rest, s, s', thrown, hspent, h => by
    unfold attemptConversations at h
    split at h
    · cases h
      exact hspent.loopEnd
    rename_i hbudgets
    obtain ⟨htargets, hassets⟩ := not_or.1 hbudgets
    split at h
    · exact attemptConversations_end hspent h
    split at h
    · cases h
      exact hspent.loopEnd
    · rename_i after receipt hattempt
      obtain ⟨-, hend, hnext⟩ := hspent.attempt htargets hassets hattempt
      split at h
      · cases h
        exact ⟨hend.budgeted, hend.targets, hend.guard⟩
      · rename_i hguard
        exact attemptConversations_end (hnext (eq_false_of_ne_true hguard)) h

/-- What the loop over the candidates of the catalog leaves. The target of an attempt that has met a guard is not counted. -/
theorem attemptCandidates_end : ∀ {candidates : List ReconciliationCandidate} {s s' : ReconciliationState}
    {thrown : Option Thrown}, Spent maxTargets s →
      attemptCandidates services request maxTargets candidates s = (s', thrown) →
        LoopEnd maxTargets s' ∧
          ((∃ receipt ∈ s'.attempts, receipt.accounting.providerGuardObserved = true) ∨
            s'.consumedTargetBudget = targetsOf (s'.attempts.map attemptStep))
  | [], s, s', thrown, hspent, h => by
    cases h
    exact ⟨hspent.loopEnd, .inr hspent.targets⟩
  | candidate :: rest, s, s', thrown, hspent, h => by
    unfold attemptCandidates at h
    split at h
    · cases h
      exact ⟨(hspent.excludeLate _ _).loopEnd, .inr hspent.targets⟩
    rename_i htargets
    split at h
    · cases h
      exact ⟨(hspent.excludeLate _ _).loopEnd, .inr hspent.targets⟩
    rename_i hassets
    split at h
    · exact attemptCandidates_end (hspent.excludeLate _ _) h
    split at h
    · cases h
      exact ⟨hspent.loopEnd, .inr hspent.targets⟩
    · rename_i after receipt hattempt
      obtain ⟨hattempts, hend, hnext⟩ := hspent.attempt htargets hassets hattempt
      split at h
      · rename_i hguard
        cases h
        refine ⟨⟨hend.budgeted, hend.targets, hend.guard⟩, .inl ⟨receipt, ?_, hguard⟩⟩
        show receipt ∈ after.attempts
        rw [hattempts]
        exact List.mem_append_right _ (List.mem_singleton_self _)
      · rename_i hguard
        have hspent' := hnext (eq_false_of_ne_true hguard)
        exact attemptCandidates_end (s := after.select.spend receipt.accounting) ⟨hspent'.1, hspent'.2, hspent'.3,
          hspent'.4, hspent'.5⟩ h

variable {jobs : List HistoryJob} {entries : List AccountMirrorCatalogEntry} {evidence : PriorEvidence}

theorem reconcileConversations_end {s : ReconciliationState} {thrown : Option Thrown}
    (h : reconcileConversations services request jobs entries evidence = (s, thrown)) :
    LoopEnd (effectiveMaxItems request) s ∧
      (request.conversationIds = [] →
        (∃ receipt ∈ s.attempts, receipt.accounting.providerGuardObserved = true) ∨
          s.consumedTargetBudget = targetsOf (s.attempts.map attemptStep)) := by
  have hstart : ∀ funnel eligible, Spent (effectiveMaxItems request)
      (startReconciliation services request entries evidence funnel eligible) := fun _ _ => .start rfl rfl rfl
  unfold reconcileConversations at h
  simp only [selectsAssets_true, if_true] at h
  cases hids : request.conversationIds with
  | nil =>
    rw [hids] at h
    obtain ⟨hend, hconsumed⟩ := attemptCandidates_end (hstart _ _) h
    exact ⟨hend, fun _ => hconsumed⟩
  | cons id ids =>
    rw [hids] at h
    cases hprovider : request.provider with
    | none =>
      rw [hprovider] at h
      exact ⟨(attemptCandidates_end (hstart _ _) h).1, fun hnil => by cases hnil⟩
    | some provider =>
      rw [hprovider] at h
      exact ⟨attemptConversations_end (hstart _ _) h, fun hnil => by cases hnil⟩

end Loop

/-! ## The loop over the media generations -/

section Media

variable {services : ReconciliationServices} {request : NormalizedRequest} {jobs : List HistoryJob}
  {entries : List AccountMirrorCatalogEntry} {evidence : PriorEvidence}

theorem reconcileMediaGenerations_targets (services : ReconciliationServices) {maxTargets : Nat} :
    ∀ (candidates : List MediaGenerationReconciliationCandidate) (consumed : Nat), consumed ≤ maxTargets →
      consumed + targetsOf ((reconcileMediaGenerations services maxTargets candidates consumed).1.map mediaStep) ≤
        maxTargets
  | [], consumed, h => h
  | candidate :: rest, consumed, h => by
    unfold reconcileMediaGenerations
    split
    · exact h
    rename_i hleft
    cases reconcileMedia services candidate with
    | error thrown => exact h
    | ok outcome =>
      have hrest := reconcileMediaGenerations_targets services rest
        (consumed + if consumesReconciliationTargetBudget outcome.result then 1 else 0)
        (show _ ≤ maxTargets by split <;> omega)
      have hfirst : targetsOf (mediaStep outcome :: (reconcileMediaGenerations services maxTargets rest
          (consumed + if consumesReconciliationTargetBudget outcome.result then 1 else 0)).1.map mediaStep) =
          targetsOf ((reconcileMediaGenerations services maxTargets rest
            (consumed + if consumesReconciliationTargetBudget outcome.result then 1 else 0)).1.map mediaStep) +
            if consumesReconciliationTargetBudget outcome.result then 1 else 0 := List.countP_cons
      show consumed + targetsOf (mediaStep outcome :: _) ≤ maxTargets
      omega

variable (services request jobs entries evidence)

/-- The loops of a run, and the targets of what follows them. -/
theorem reconcile_end :
    let run := reconcile services request jobs entries evidence
    LoopEnd (effectiveMaxItems request) run.state ∧
      ((∀ receipt ∈ run.state.attempts, receipt.accounting.providerGuardObserved = false) →
        targetsOf run.laterSteps ≤
          effectiveMaxItems request - targetsOf (run.state.attempts.map attemptStep)) := by
  intro run
  cases hloop : reconcileConversations services request jobs entries evidence with
  | mk s thrown =>
    obtain ⟨hend, hconsumed⟩ := reconcileConversations_end hloop
    have hthrown : ∀ unrecorded : Bool, targetsOf (if unrecorded then [⟨true, 0, false, false⟩] else []) = 0 := by
      intro unrecorded
      cases unrecorded <;> rfl
    have hnone : ∀ run' : ReconciliationRun, run'.media = [] → targetsOf run'.laterSteps = 0 := by
      intro run' hmedia
      rw [ReconciliationRun.laterSteps, hmedia, targetsOf_append, hthrown]
      rfl
    have hrun : run = reconcile services request jobs entries evidence := rfl
    unfold reconcile at hrun
    rw [hloop] at hrun
    dsimp only at hrun
    split at hrun
    · rename_i hcondition
      have hmedia := hcondition.2
      unfold entersMediaPhase at hmedia
      simp only [Bool.and_eq_true, decide_eq_true_eq, List.isEmpty_iff] at hmedia
      split at hrun
      · rw [hrun]
        exact ⟨hend, fun _ => by rw [hnone _ rfl]; exact Nat.zero_le _⟩
      · rw [hrun]
        refine ⟨hend, fun hunguarded => ?_⟩
        rcases hconsumed hmedia.2 with ⟨receipt, hreceipt, hguard⟩ | hconsumed
        · exact absurd ((hunguarded receipt hreceipt).symm.trans hguard) Bool.false_ne_true
        · rw [ReconciliationRun.laterSteps, targetsOf_append, hthrown, Nat.add_zero, ← hconsumed]
          rename_i candidates _
          have htargets := reconcileMediaGenerations_targets services candidates 0
            (Nat.zero_le (effectiveMaxItems request - s.consumedTargetBudget))
          rwa [Nat.zero_add] at htargets
    · rw [hrun]
      exact ⟨hend, fun _ => by rw [hnone _ rfl]; exact Nat.zero_le _⟩

end Media

/-! ## Both loops -/

section Sample

/-- A generated image that the archive has no file of. -/
def imageCandidate (id : String) : MediaGenerationReconciliationCandidate where
  mediaGenerationId := id
  provider := .chatgpt
  archiveItemId := id
  artifactId := some id
  uri := none
  assetRoute := none

/-- Services whose conversation meets a rate limit, and which have two generated images. -/
def guardedServices : ReconciliationServices :=
  let entries := [artifactEntry .materialized none, artifactEntry .failed (some "Rate limit reached.")]
  { servicesOf [artifactConversation "a"] entries with
    mediaCandidates := fun _ _ => .ok [imageCandidate "one", imageCandidate "two"]
    matchMediaCandidate := fun candidate => .ok
      ⟨{ provider := .chatgpt, runtimeProfile := some "default", browserProfile := none, boundIdentityKey := none
         conversationId := candidate.mediaGenerationId, providerConversationUrl := none, projectId := none }, "title"⟩
    materializeMedia := fun candidate _ => .ok [mediaEntry candidate .materialized "downloaded"] }

end Sample

end AuraCall.Materialization
