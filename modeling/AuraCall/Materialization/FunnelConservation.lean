import AuraCall.Materialization.ReconciliationRun
import Mathlib.Data.List.Count

/-!
# Every candidate is counted once

The funnel of a reconciliation is the tally of a log that has every conversation of the catalog once, with the bucket it
was counted in (`funnel_conserved`). The buckets before the eligible ones are a function of the conversation
(`earlyExclusion`); the others are those of the loop, which attempts the selected ones in their order.
-/

namespace AuraCall.Materialization

/-! ## Buckets -/

inductive CandidateBucket
  | early (reason : PreEligibilityExclusion)
  | late (reason : PostEligibilityExclusion)
  | selected
  deriving DecidableEq

def CandidateFunnel.count (funnel : CandidateFunnel) : CandidateBucket → Nat
  | .early reason => funnel.preEligibilityExclusions reason
  | .late reason => funnel.postEligibilityExclusions reason
  | .selected => funnel.selected

def CandidateFunnel.early (funnel : CandidateFunnel) : Nat :=
  (PreEligibilityExclusion.all.map funnel.preEligibilityExclusions).sum

def CandidateFunnel.late (funnel : CandidateFunnel) : Nat :=
  (PostEligibilityExclusion.all.map funnel.postEligibilityExclusions).sum

/-- A conversation of the catalog, with its entry. -/
abbrev CatalogConversation := AccountMirrorCatalogEntry × Json

def discoveredConversations (entries : List AccountMirrorCatalogEntry) : List CatalogConversation :=
  entries.flatMap fun entry => entry.manifests.conversations.map (entry, ·)

section Buckets

variable (host : CatalogHost) (request : NormalizedRequest) (entries : List AccountMirrorCatalogEntry)

/-- What `discoverCandidates` makes of a conversation. -/
def discovered (found : CatalogConversation) : Except (Option PreEligibilityExclusion) (Nat → ReconciliationCandidate) :=
  if catalogEntryMatchesBoundIdentity host found.1 request.boundIdentityKey then
    considerConversation host request entries found.1 found.2
  else .error (some .identityMismatch)

/-- Why a conversation is not eligible. -/
def earlyExclusion (terminal : List String) (found : CatalogConversation) : Option PreEligibilityExclusion :=
  match discovered host request entries found with
  | .error reason => reason
  | .ok candidate =>
    if areTerminal (candidate 0).assetFamilySignatures terminal then some .terminalAssetFamilies else none

/-- The target of a conversation that is a candidate. -/
def discoveredTarget (found : CatalogConversation) : Option HistoryMaterializationTarget :=
  match discovered host request entries found with
  | .error _ => none
  | .ok candidate => some (candidate 0).target

/-- The log has every conversation of the catalog once, and the funnel is its tally. -/
structure Accounts (terminal : List String) (attempts : List HistoryMaterializationAttemptReceipt)
    (funnel : CandidateFunnel) (log : List (CatalogConversation × CandidateBucket)) : Prop where
  conversations : (log.map (·.1)).Perm (discoveredConversations entries)
  counts : ∀ bucket, funnel.count bucket = Tally.of (log.map (·.2)) bucket
  early : ∀ entry ∈ log, ∀ reason,
    entry.2 = .early reason ↔ earlyExclusion host request entries terminal entry.1 = some reason
  selected : (log.filter (·.2 = .selected)).map (discoveredTarget host request entries ·.1) =
    attempts.map (some ·.target)

end Buckets

/-! ## Discovery -/

section Discovery

variable {host : CatalogHost} {request : NormalizedRequest} {entries : List AccountMirrorCatalogEntry}

/-- A conversation that is no candidate has a reason. -/
theorem considerConversation_ne (entry : AccountMirrorCatalogEntry) (item : Json) :
    considerConversation host request entries entry item ≠ .error none := by
  intro h
  unfold considerConversation at h
  split at h
  · cases h
  · rename_i conversationId _
    dsimp only at h
    split at h
    · rename_i hpriority
      rcases classification_cases host item request.selectedKinds entry.provider conversationId entry.manifests
        ⟨request.force, request.refreshSnapshot⟩ with ⟨priority, hsome⟩ | ⟨reason, hnone⟩
      · rw [hsome] at hpriority
        cases hpriority
      · rw [hnone] at h
        cases h
    · split at h <;> cases h

/-- The place of a candidate is all that its place decides. -/
theorem considerConversation_place {entry : AccountMirrorCatalogEntry} {item : Json}
    {candidate : Nat → ReconciliationCandidate}
    (h : considerConversation host request entries entry item = .ok candidate) (n : Nat) :
    candidate n = { candidate 0 with sequence := n } := by
  unfold considerConversation at h
  split at h
  · cases h
  · dsimp only at h
    split at h
    · cases h
    · split at h
      · cases h
      · cases h
        rfl

theorem discovered_ne (found : CatalogConversation) : discovered host request entries found ≠ .error none := by
  unfold discovered
  split
  · exact considerConversation_ne _ _
  · exact fun h => by cases h

theorem discovered_place {found : CatalogConversation} {candidate : Nat → ReconciliationCandidate}
    (h : discovered host request entries found = .ok candidate) (n : Nat) :
    candidate n = { candidate 0 with sequence := n } := by
  unfold discovered at h
  split at h
  · exact considerConversation_place h n
  · cases h

variable (host request entries)

/-- The reasons of the conversations that are no candidates. -/
def discoveryReasons (conversations : List CatalogConversation) : List PreEligibilityExclusion :=
  conversations.filterMap fun found =>
    match discovered host request entries found with
    | .error reason => reason
    | .ok _ => none

/-- The conversations that are candidates. -/
def discoveredCandidates (conversations : List CatalogConversation) : List CatalogConversation :=
  conversations.filter fun found => (discoveredTarget host request entries found).isSome

/-- The candidate at its place. -/
def candidateAt (found : CatalogConversation × Nat) : ReconciliationCandidate :=
  match discovered host request entries found.1 with
  | .ok candidate => candidate found.2
  | .error _ => ⟨⟨.chatgpt, none, none, none, "", none, none⟩, [], 0, found.2⟩

/-- What has been found in some conversations. -/
structure Discovers (conversations : List CatalogConversation) (found : CandidateDiscovery) : Prop where
  funnel : found.funnel = some
    { discovered := conversations.length
      preEligibilityExclusions := Tally.of (discoveryReasons host request entries conversations) }
  candidates : found.candidates =
    (discoveredCandidates host request entries conversations).zipIdx.map (candidateAt host request entries)

variable {host request entries}

theorem Discovers.conversation {conversations : List CatalogConversation} {found : CandidateDiscovery}
    (h : Discovers host request entries conversations found) (entry : AccountMirrorCatalogEntry) (item : Json)
    (hmatches : catalogEntryMatchesBoundIdentity host entry request.boundIdentityKey = true) :
    Discovers host request entries (conversations ++ [(entry, item)])
      (discoverConversation host request entries entry found item) := by
  have hdiscovered : discovered host request entries (entry, item) =
      considerConversation host request entries entry item := if_pos hmatches
  unfold discoverConversation
  cases hconsidered : considerConversation host request entries entry item with
  | error reason =>
    have htarget : discoveredTarget host request entries (entry, item) = none := by
      simp only [discoveredTarget, hdiscovered, hconsidered]
    cases reason with
    | none => exact absurd hconsidered (considerConversation_ne entry item)
    | some reason =>
      refine ⟨?_, ?_⟩
      · simp only [h.funnel, Option.map_some, CandidateFunnel.excludeEarly, discoveryReasons, List.filterMap_append,
          List.filterMap_cons, List.filterMap_nil, hdiscovered, hconsidered, Tally.of_append_singleton,
          List.length_append, List.length_singleton]
      · simp only [h.candidates, discoveredCandidates, List.filter_append, List.filter_cons, htarget,
          Option.isSome_none, Bool.false_eq_true, if_false, List.filter_nil, List.append_nil]
  | ok candidate =>
    have htarget : discoveredTarget host request entries (entry, item) = some (candidate 0).target := by
      simp only [discoveredTarget, hdiscovered, hconsidered]
    refine ⟨?_, ?_⟩
    · simp only [h.funnel, Option.map_some, discoveryReasons, List.filterMap_append, List.filterMap_cons,
        List.filterMap_nil, hdiscovered, hconsidered, List.append_nil, List.length_append, List.length_singleton]
    · have hat : ∀ n, candidateAt host request entries ((entry, item), n) = candidate n := by
        intro n
        simp only [candidateAt, hdiscovered, hconsidered]
      simp only [h.candidates, discoveredCandidates, List.filter_append, List.filter_cons, htarget, Option.isSome_some,
        if_true, List.filter_nil, List.zipIdx_append, List.map_append, List.zipIdx_cons, List.zipIdx_nil, List.map_cons,
        List.map_nil, List.length_map, List.length_zipIdx, Nat.zero_add, hat]

theorem Discovers.entry {conversations : List CatalogConversation} {found : CandidateDiscovery}
    (h : Discovers host request entries conversations found) (entry : AccountMirrorCatalogEntry) :
    Discovers host request entries (conversations ++ entry.manifests.conversations.map (entry, ·))
      (discoverEntry host request entries found entry) := by
  unfold discoverEntry
  split
  · rename_i hmatches
    generalize entry.manifests.conversations = items
    induction items generalizing conversations found with
    | nil => simpa using h
    | cons item items ih =>
      have hrest := ih (h.conversation entry item hmatches)
      rwa [List.append_assoc] at hrest
  · rename_i hmatches
    have hall : ∀ item ∈ entry.manifests.conversations,
        discovered host request entries (entry, item) = .error (some .identityMismatch) := fun _ _ => if_neg hmatches
    have hreasons : discoveryReasons host request entries (entry.manifests.conversations.map (entry, ·)) =
        List.replicate entry.manifests.conversations.length .identityMismatch := by
      generalize entry.manifests.conversations = items at hall
      induction items with
      | nil => rfl
      | cons item items ih =>
        have hitem := hall item List.mem_cons_self
        have hrest := ih fun other hother => hall other (List.mem_cons_of_mem _ hother)
        simp only [discoveryReasons, List.map_cons, List.filterMap_cons, hitem] at hrest ⊢
        rw [hrest]
        rfl
    have hcandidates : discoveredCandidates host request entries (entry.manifests.conversations.map (entry, ·)) = [] := by
      refine List.filter_eq_nil_iff.2 fun found hfound => ?_
      obtain ⟨item, hitem, rfl⟩ := List.mem_map.1 hfound
      simp only [discoveredTarget, hall item hitem]
      exact Bool.false_ne_true
    refine ⟨?_, ?_⟩
    · simp only [h.funnel, Option.map_some, CandidateFunnel.excludeEarly, List.length_append, List.length_map]
      rw [← Tally.of_append_replicate, ← hreasons]
      simp only [discoveryReasons, List.filterMap_append]
    · simp only [h.candidates, discoveredCandidates, List.filter_append] at hcandidates ⊢
      rw [hcandidates, List.append_nil]

variable (host entries) in
theorem discovers_all (hids : request.conversationIds = []) :
    Discovers host request entries (discoveredConversations entries)
      (entries.foldl (discoverEntry host request entries) ⟨if request.conversationIds = [] then some {} else none, []⟩) := by
  have hfold : ∀ (rest : List AccountMirrorCatalogEntry) (conversations : List CatalogConversation)
      (found : CandidateDiscovery), Discovers host request entries conversations found →
      Discovers host request entries (conversations ++ discoveredConversations rest)
        (rest.foldl (discoverEntry host request entries) found) := by
    intro rest
    induction rest with
    | nil => exact fun conversations found h => by simpa [discoveredConversations] using h
    | cons entry rest ih =>
      intro conversations found h
      have hrest := ih _ _ (h.entry entry)
      simpa only [discoveredConversations, List.flatMap_cons, List.append_assoc, List.foldl_cons] using hrest
  rw [if_pos hids]
  exact hfold entries [] _ ⟨rfl, rfl⟩

end Discovery

/-! ## The loop -/

section Loop

variable {services : ReconciliationServices} {request : NormalizedRequest} {maxTargets : Nat}

/-- The reasons in a log. -/
def lateReasons {α : Type} (log : List (α × CandidateBucket)) : List PostEligibilityExclusion :=
  log.filterMap fun entry =>
    match entry.2 with
    | .late reason => some reason
    | _ => none

/-- The entries of a log that have been selected. -/
def selectedEntries {α : Type} (log : List (α × CandidateBucket)) : List (α × CandidateBucket) :=
  log.filter (·.2 = .selected)

/-- The loop leaves each of its candidates in one bucket. -/
structure LoopLog (candidates : List ReconciliationCandidate) (s s' : ReconciliationState)
    (log : List (ReconciliationCandidate × CandidateBucket)) : Prop where
  candidates : log.map (·.1) = candidates
  funnel : ∀ funnel reasons, s.funnel = some funnel → funnel.postEligibilityExclusions = Tally.of reasons →
    s'.funnel = some { funnel with
      postEligibilityExclusions := Tally.of (reasons ++ lateReasons log)
      selected := funnel.selected + (selectedEntries log).length }
  attempts : s'.attempts.map (·.target) = s.attempts.map (·.target) ++ (selectedEntries log).map (·.1.target)
  buckets : ∀ entry ∈ log, ∀ reason, entry.2 ≠ .early reason

/-- The rest of the candidates is left out. -/
theorem LoopLog.stop (candidates : List ReconciliationCandidate) (s : ReconciliationState)
    (reason : PostEligibilityExclusion) :
    LoopLog candidates s (s.excludeLate reason candidates.length) (candidates.map (·, .late reason)) := by
  have hreasons : lateReasons (candidates.map fun candidate => (candidate, CandidateBucket.late reason)) =
      List.replicate candidates.length reason := by
    induction candidates with
    | nil => rfl
    | cons candidate rest ih =>
      simp only [lateReasons, List.map_cons, List.filterMap_cons] at ih ⊢
      rw [ih]
      rfl
  have hselected : selectedEntries (candidates.map fun candidate => (candidate, CandidateBucket.late reason)) = [] := by
    refine List.filter_eq_nil_iff.2 fun entry hentry => ?_
    obtain ⟨candidate, -, rfl⟩ := List.mem_map.1 hentry
    simp
  refine ⟨?_, fun funnel reasons hfunnel hpost => ?_, ?_, fun entry hentry other => ?_⟩
  · simp [Function.comp_def]
  · simp only [ReconciliationState.excludeLate, hfunnel, Option.map_some, CandidateFunnel.excludeLate, hpost, hreasons,
      hselected, List.length_nil, Nat.add_zero, Tally.of_append_replicate]
  · simp only [hselected, List.map_nil, List.append_nil]
    rfl
  · obtain ⟨candidate, -, rfl⟩ := List.mem_map.1 hentry
    exact fun h => by cases h

theorem LoopLog.nil (s : ReconciliationState) : LoopLog [] s s [] := by
  refine ⟨rfl, fun funnel reasons hfunnel hpost => ?_, by simp [selectedEntries],
    fun _ h => absurd h List.not_mem_nil⟩
  rw [hfunnel]
  simp [lateReasons, selectedEntries, ← hpost]

/-- A candidate whose families have been attempted. -/
theorem LoopLog.skip {candidate : ReconciliationCandidate} {rest : List ReconciliationCandidate}
    {s s' : ReconciliationState} {log : List (ReconciliationCandidate × CandidateBucket)}
    (h : LoopLog rest (s.excludeLate .duplicateAssetFamilies 1) s' log) :
    LoopLog (candidate :: rest) s s' ((candidate, .late .duplicateAssetFamilies) :: log) := by
  refine ⟨by rw [List.map_cons, h.candidates], fun funnel reasons hfunnel hpost => ?_, ?_, fun entry hentry => ?_⟩
  · have hnext := h.funnel (funnel.excludeLate .duplicateAssetFamilies 1) (reasons ++ [.duplicateAssetFamilies])
      (by rw [ReconciliationState.excludeLate, hfunnel]; rfl)
      (by rw [Tally.of_append_singleton, ← hpost]; rfl)
    rw [hnext, List.append_assoc]
    rfl
  · exact h.attempts
  · rcases List.mem_cons.1 hentry with rfl | hentry
    · exact fun _ h => by cases h
    · exact h.buckets entry hentry

theorem LoopLog.attempt {candidate : ReconciliationCandidate} {rest : List ReconciliationCandidate}
    {s after s' : ReconciliationState} {log : List (ReconciliationCandidate × CandidateBucket)}
    (h : LoopLog rest after s' log) (hfunnel : after.funnel = s.select.funnel)
    (hattempts : after.attempts.map (·.target) = s.attempts.map (·.target) ++ [candidate.target]) :
    LoopLog (candidate :: rest) s s' ((candidate, .selected) :: log) := by
  refine ⟨by rw [List.map_cons, h.candidates], fun funnel reasons hsome hpost => ?_, ?_, fun entry hentry => ?_⟩
  · have hnext := h.funnel { funnel with selected := funnel.selected + 1 } reasons
      (by rw [hfunnel, ReconciliationState.select, hsome]; rfl) hpost
    rw [hnext]
    simp only [lateReasons, selectedEntries, List.filterMap_cons, List.filter_cons, decide_true, if_true,
      List.length_cons, Nat.add_assoc, Nat.add_comm 1]
  · rw [h.attempts, hattempts, List.append_assoc]
    rfl
  · rcases List.mem_cons.1 hentry with rfl | hentry
    · exact fun _ h => by cases h
    · exact h.buckets entry hentry

theorem attemptCandidate_eq_ok {s after : ReconciliationState} {origin : ReceiptOrigin}
    {target : HistoryMaterializationTarget} {families : List String} {receipt : HistoryMaterializationAttemptReceipt}
    (h : attemptCandidate services request maxTargets s origin target families = .ok (after, receipt)) :
    ∃ result, services.materializeAttempt (nextAttempt request maxTargets s origin target) =
        .ok (result, receipt.generatedAt) ∧
      receipt = receiptOf (nextAttempt request maxTargets s origin target) result receipt.generatedAt ∧
      after = (s.close families).push result receipt := by
  unfold attemptCandidate at h
  dsimp only at h
  cases hresult : services.materializeAttempt (nextAttempt request maxTargets s origin target) with
  | error thrown =>
    rw [hresult] at h
    cases h
  | ok outcome =>
    rw [hresult] at h
    cases h
    exact ⟨outcome.1, rfl, rfl, rfl⟩

/-- **The loop counts each candidate once.** -/
theorem attemptCandidates_log : ∀ {candidates : List ReconciliationCandidate} {s s' : ReconciliationState},
    attemptCandidates services request maxTargets candidates s = (s', none) → ∃ log, LoopLog candidates s s' log
  | [], s, s', h => by
    cases h
    exact ⟨[], .nil s⟩
  | candidate :: rest, s, s', h => by
    unfold attemptCandidates at h
    split at h
    · cases h
      exact ⟨_, .stop (candidate :: rest) s .targetBudget⟩
    split at h
    · cases h
      exact ⟨_, .stop (candidate :: rest) s .assetBudget⟩
    split at h
    · obtain ⟨log, hlog⟩ := attemptCandidates_log h
      exact ⟨_, hlog.skip⟩
    split at h
    · cases h
    · rename_i after receipt hattempt
      obtain ⟨result, -, hreceipt, rfl⟩ := attemptCandidate_eq_ok hattempt
      have htarget : receipt.target = candidate.target := by rw [hreceipt]; rfl
      have hattempts : (((s.close candidate.assetFamilySignatures).push result receipt).attempts.map (·.target)) =
          s.attempts.map (·.target) ++ [candidate.target] := by
        simp only [ReconciliationState.push, List.map_append, List.map_cons, List.map_nil, htarget]
        rfl
      split at h
      · cases h
        exact ⟨_, (LoopLog.stop rest _ .providerGuard).attempt rfl hattempts⟩
      · obtain ⟨log, hlog⟩ := attemptCandidates_log h
        exact ⟨_, hlog.attempt rfl hattempts⟩

end Loop

/-! ## The funnel -/

section Funnel

variable {services : ReconciliationServices} {request : NormalizedRequest} {entries : List AccountMirrorCatalogEntry}
  {evidence : PriorEvidence}

/-- The conversations that are eligible, in the order of the catalog. -/
def eligibleConversations (host : CatalogHost) (request : NormalizedRequest) (entries : List AccountMirrorCatalogEntry)
    (terminal : List String) : List (CatalogConversation × Nat) :=
  (discoveredCandidates host request entries (discoveredConversations entries)).zipIdx.filter fun found =>
    !areTerminal (candidateAt host request entries found).assetFamilySignatures terminal

/-- A candidate at its place has the families and the target of its conversation. -/
theorem candidateAt_place (host : CatalogHost) (request : NormalizedRequest) (entries : List AccountMirrorCatalogEntry)
    (found : CatalogConversation) (n : Nat) :
    candidateAt host request entries (found, n) = { candidateAt host request entries (found, 0) with sequence := n } := by
  unfold candidateAt
  dsimp only
  split
  · rename_i hdiscovered
    exact discovered_place hdiscovered n
  · rfl

theorem discoveredTarget_eq {host : CatalogHost} {found : CatalogConversation}
    (h : (discoveredTarget host request entries found).isSome = true) (n : Nat) :
    discoveredTarget host request entries found = some (candidateAt host request entries (found, n)).target := by
  rw [candidateAt_place]
  unfold discoveredTarget at h ⊢
  unfold candidateAt
  split
  · rename_i hdiscovered
    rw [hdiscovered] at h
    cases h
  · rename_i hdiscovered
    simp only [hdiscovered]

/-- The place of a candidate does not decide whether it is eligible. -/
theorem eligibleConversations_map (host : CatalogHost) (request : NormalizedRequest)
    (entries : List AccountMirrorCatalogEntry) (terminal : List String) :
    (eligibleConversations host request entries terminal).map (·.1) =
      (discoveredCandidates host request entries (discoveredConversations entries)).filter fun found =>
        !areTerminal (candidateAt host request entries (found, 0)).assetFamilySignatures terminal := by
  have hplace : ∀ found : CatalogConversation × Nat,
      (candidateAt host request entries found).assetFamilySignatures =
        (candidateAt host request entries (found.1, 0)).assetFamilySignatures := by
    intro found
    rw [← Prod.mk.eta (p := found), candidateAt_place]
  have hfirst : ∀ (l : List CatalogConversation) (p : CatalogConversation → Bool) (k : Nat),
      ((l.zipIdx k).filter fun found => p found.1).map (·.1) = l.filter p := by
    intro l p
    induction l with
    | nil => exact fun _ => rfl
    | cons found rest ih =>
      intro k
      rw [List.zipIdx_cons, List.filter_cons, List.filter_cons]
      split <;> simp [ih]
  unfold eligibleConversations
  simp only [hplace]
  exact hfirst _ (fun found =>
    !areTerminal (candidateAt host request entries (found, 0)).assetFamilySignatures terminal) 0

/-- The conversations that are left out early are the others. -/
theorem eligibleConversations_eq (host : CatalogHost) (request : NormalizedRequest)
    (entries : List AccountMirrorCatalogEntry) (terminal : List String) :
    (eligibleConversations host request entries terminal).map (·.1) =
      (discoveredConversations entries).filter fun found =>
        !(earlyExclusion host request entries terminal found).isSome := by
  rw [eligibleConversations_map, discoveredCandidates, List.filter_filter]
  refine List.filter_congr fun found _ => ?_
  unfold earlyExclusion discoveredTarget candidateAt
  cases hdiscovered : discovered host request entries found with
  | error reason =>
    cases reason with
    | none => exact absurd hdiscovered (discovered_ne found)
    | some reason => rfl
  | ok candidate =>
    dsimp only
    cases areTerminal (candidate 0).assetFamilySignatures terminal <;> rfl

/-- What is left out early, in the order in which it is counted. -/
theorem earlyReasons_perm (host : CatalogHost) (request : NormalizedRequest)
    (entries : List AccountMirrorCatalogEntry) (terminal : List String) (conversations : List CatalogConversation) :
    (conversations.filterMap (earlyExclusion host request entries terminal)).Perm
      (discoveryReasons host request entries conversations ++
        List.replicate ((discoveredCandidates host request entries conversations).filter fun found =>
          areTerminal (candidateAt host request entries (found, 0)).assetFamilySignatures terminal).length
          .terminalAssetFamilies) := by
  induction conversations with
  | nil => exact List.Perm.nil
  | cons found rest ih =>
    simp only [discoveryReasons, discoveredCandidates, List.filterMap_cons, List.filter_cons] at ih ⊢
    cases hdiscovered : discovered host request entries found with
    | error reason =>
      cases reason with
      | none => exact absurd hdiscovered (discovered_ne found)
      | some reason =>
        have hearly : earlyExclusion host request entries terminal found = some reason := by
          simp only [earlyExclusion, hdiscovered]
        have htarget : discoveredTarget host request entries found = none := by
          simp only [discoveredTarget, hdiscovered]
        simp only [hearly, htarget, Option.isSome_none, Bool.false_eq_true, if_false, List.cons_append]
        exact ih.cons reason
    | ok candidate =>
      have hat : candidateAt host request entries (found, 0) = candidate 0 := by
        simp only [candidateAt, hdiscovered]
      have htarget : discoveredTarget host request entries found = some (candidate 0).target := by
        simp only [discoveredTarget, hdiscovered]
      by_cases hterminal : areTerminal (candidate 0).assetFamilySignatures terminal = true
      · have hearly : earlyExclusion host request entries terminal found = some .terminalAssetFamilies := by
          simp only [earlyExclusion, hdiscovered, if_pos hterminal]
        simp only [hearly, htarget, Option.isSome_some, if_true, List.filter_cons, hat, hterminal, List.length_cons,
          List.replicate_succ]
        exact (ih.cons _).trans List.perm_middle.symm
      · have hearly : earlyExclusion host request entries terminal found = none := by
          simp only [earlyExclusion, hdiscovered, if_neg hterminal]
        simp only [hearly, htarget, Option.isSome_some, if_true, List.filter_cons, hat, hterminal]
        exact ih

variable (services entries evidence) in
/-- The eligible candidates, and what has been counted until then. -/
theorem eligibleCandidates_spec (hids : request.conversationIds = []) :
    let terminal := terminalFamilies services request entries evidence
    let eligible := eligibleCandidates services request entries evidence
    eligible.candidates.Perm ((eligibleConversations services.host request entries terminal).map
      (candidateAt services.host request entries)) ∧
    eligible.funnel = some
      { discovered := (discoveredConversations entries).length
        preEligibilityExclusions := Tally.of ((discoveredConversations entries).filterMap
          (earlyExclusion services.host request entries terminal))
        eligible := eligible.candidates.length } := by
  intro terminal eligible
  have hall := discovers_all services.host entries hids
  have hsorted : (discoverCandidates services.host request entries).candidates.Perm
      ((discoveredCandidates services.host request entries (discoveredConversations entries)).zipIdx.map
        (candidateAt services.host request entries)) := by
    rw [← hall.candidates]
    exact List.perm_insertionSort _ _
  have hmapped : (eligibleConversations services.host request entries terminal).map
      (candidateAt services.host request entries) =
      ((discoveredCandidates services.host request entries (discoveredConversations entries)).zipIdx.map
        (candidateAt services.host request entries)).filter fun candidate =>
          !areTerminal candidate.assetFamilySignatures terminal := by
    rw [List.filter_map]
    rfl
  have hperm : eligible.candidates.Perm ((eligibleConversations services.host request entries terminal).map
      (candidateAt services.host request entries)) := by
    rw [hmapped]
    exact hsorted.filter _
  refine ⟨hperm, ?_⟩
  have hterminal : (discoverCandidates services.host request entries).candidates.length - eligible.candidates.length =
      ((discoveredCandidates services.host request entries (discoveredConversations entries)).filter fun found =>
        areTerminal (candidateAt services.host request entries (found, 0)).assetFamilySignatures terminal).length := by
    have hsplit := List.length_eq_length_filter_add (l := discoveredCandidates services.host request entries
      (discoveredConversations entries)) fun found =>
        areTerminal (candidateAt services.host request entries (found, 0)).assetFamilySignatures terminal
    have hlength := congrArg List.length (eligibleConversations_map services.host request entries terminal)
    rw [List.length_map] at hlength
    rw [hsorted.length_eq, hperm.length_eq, List.length_map, List.length_map, List.length_zipIdx, hlength]
    omega
  have hfound : (discoverCandidates services.host request entries).funnel = _ := hall.funnel
  show (selectCandidates terminal (discoverCandidates services.host request entries)).funnel = _
  unfold selectCandidates
  simp only [hfound, Option.map_some, CandidateFunnel.excludeEarly, Nat.zero_add]
  have hreasons := earlyReasons_perm services.host request entries terminal (discoveredConversations entries)
  have hof : Tally.of ((discoveredConversations entries).filterMap
      (earlyExclusion services.host request entries terminal)) =
      Tally.add (Tally.of (discoveryReasons services.host request entries (discoveredConversations entries)))
        .terminalAssetFamilies ((discoverCandidates services.host request entries).candidates.length -
          eligible.candidates.length) := by
    rw [hterminal, ← Tally.of_append_replicate]
    funext reason
    exact hreasons.count_eq reason
  rw [hof]
  rfl

/-- The log of the conversations that are left out early. -/
def earlyLog (exclusion : CatalogConversation → Option PreEligibilityExclusion)
    (conversations : List CatalogConversation) : List (CatalogConversation × CandidateBucket) :=
  conversations.filterMap fun found => (exclusion found).map fun reason => (found, .early reason)

theorem earlyLog_conversations (exclusion : CatalogConversation → Option PreEligibilityExclusion)
    (conversations : List CatalogConversation) :
    (earlyLog exclusion conversations).map (·.1) = conversations.filter fun found => (exclusion found).isSome := by
  unfold earlyLog
  induction conversations with
  | nil => rfl
  | cons found rest ih =>
    rw [List.filterMap_cons, List.filter_cons]
    cases hfound : exclusion found with
    | none => simpa using ih
    | some reason => simpa using ih

theorem earlyLog_buckets (exclusion : CatalogConversation → Option PreEligibilityExclusion)
    (conversations : List CatalogConversation) :
    (earlyLog exclusion conversations).map (·.2) = (conversations.filterMap exclusion).map .early := by
  unfold earlyLog
  rw [List.map_filterMap, List.map_filterMap]
  simp [Function.comp_def]

theorem mem_earlyLog {exclusion : CatalogConversation → Option PreEligibilityExclusion}
    {conversations : List CatalogConversation} {entry : CatalogConversation × CandidateBucket}
    (h : entry ∈ earlyLog exclusion conversations) :
    ∃ reason, exclusion entry.1 = some reason ∧ entry.2 = .early reason := by
  obtain ⟨found, -, hfound⟩ := List.mem_filterMap.1 h
  obtain ⟨reason, hreason, rfl⟩ := Option.map_eq_some_iff.1 hfound
  exact ⟨reason, hreason, rfl⟩

/-- The tally of a log that leaves no candidate out early. -/
theorem tally_late {α : Type} {log : List (α × CandidateBucket)}
    (h : ∀ entry ∈ log, ∀ reason, entry.2 ≠ .early reason) :
    (∀ reason, Tally.of (log.map (·.2)) (.early reason) = 0) ∧
      (∀ reason, Tally.of (log.map (·.2)) (.late reason) = Tally.of (lateReasons log) reason) ∧
        Tally.of (log.map (·.2)) .selected = (selectedEntries log).length := by
  refine ⟨fun reason => ?_, fun reason => ?_, ?_⟩
  · refine List.count_eq_zero.2 fun hmem => ?_
    obtain ⟨entry, hentry, hbucket⟩ := List.mem_map.1 hmem
    exact h entry hentry reason hbucket
  · clear h
    induction log with
    | nil => rfl
    | cons entry rest ih =>
      obtain ⟨candidate, bucket⟩ := entry
      simp only [Tally.of, lateReasons, List.map_cons, List.count_cons, List.filterMap_cons] at ih ⊢
      cases bucket <;> simp [ih, List.count_cons]
  · clear h
    induction log with
    | nil => rfl
    | cons entry rest ih =>
      obtain ⟨candidate, bucket⟩ := entry
      simp only [Tally.of, selectedEntries, List.map_cons, List.count_cons, List.filter_cons] at ih ⊢
      cases bucket <;> simp [ih]

/-- No conversation that is left out early is selected. -/
theorem selected_earlyLog (exclusion : CatalogConversation → Option PreEligibilityExclusion)
    (conversations : List CatalogConversation) : (earlyLog exclusion conversations).filter (·.2 = .selected) = [] := by
  refine List.filter_eq_nil_iff.2 fun entry hentry => ?_
  obtain ⟨reason, -, hbucket⟩ := mem_earlyLog hentry
  simp [hbucket]

/-- The counts of a funnel are the tally of the early exclusions and of a log that leaves no candidate out early. -/
theorem counts_of_log {α : Type} {funnel : CandidateFunnel} {reasons : List PreEligibilityExclusion}
    {log : List (α × CandidateBucket)} (h : ∀ entry ∈ log, ∀ reason, entry.2 ≠ .early reason)
    (hearly : funnel.preEligibilityExclusions = Tally.of reasons)
    (hlate : funnel.postEligibilityExclusions = Tally.of (lateReasons log))
    (hselected : funnel.selected = (selectedEntries log).length) (bucket : CandidateBucket) :
    funnel.count bucket = Tally.of (reasons.map .early ++ log.map (·.2)) bucket := by
  obtain ⟨hcountEarly, hcountLate, hcountSelected⟩ := tally_late h
  have hof : Tally.of (reasons.map .early ++ log.map (·.2)) bucket =
      Tally.of (reasons.map .early) bucket + Tally.of (log.map (·.2)) bucket := List.count_append
  have hother : (∀ reason, bucket ≠ .early reason) → Tally.of (reasons.map CandidateBucket.early) bucket = 0 := by
    intro hbucket
    refine List.count_eq_zero.2 fun hmem => ?_
    obtain ⟨reason, -, hreason⟩ := List.mem_map.1 hmem
    exact hbucket reason hreason.symm
  rw [hof]
  cases bucket with
  | early reason =>
    rw [hcountEarly, Nat.add_zero]
    show funnel.preEligibilityExclusions reason = _
    rw [hearly]
    exact (List.count_map_of_injective _ _ (fun _ _ h => CandidateBucket.early.inj h) _).symm
  | late reason =>
    rw [hother (fun _ h => by cases h), Nat.zero_add, hcountLate, ← hlate]
    rfl
  | selected =>
    rw [hother (fun _ h => by cases h), Nat.zero_add, hcountSelected, ← hselected]
    rfl

/-- The log of the loop, with the conversations that are left out early. -/
theorem accounts_of_loop {terminal : List String} {state state' : ReconciliationState}
    {candidates : List ReconciliationCandidate} {loop : List (ReconciliationCandidate × CandidateBucket)}
    {funnel : CandidateFunnel} (hloop : LoopLog candidates state state' loop) (hattempts : state.attempts = [])
    (hperm : candidates.Perm ((eligibleConversations services.host request entries terminal).map
      (candidateAt services.host request entries)))
    (hearly : funnel.preEligibilityExclusions = Tally.of ((discoveredConversations entries).filterMap
      (earlyExclusion services.host request entries terminal)))
    (hlate : funnel.postEligibilityExclusions = Tally.of (lateReasons loop))
    (hselected : funnel.selected = (selectedEntries loop).length) :
    ∃ log, Accounts services.host request entries terminal state'.attempts funnel log := by
  obtain ⟨lifted, hlifted, hmap⟩ := Tally.exists_log (hloop.candidates ▸ hperm)
  have hbuckets : lifted.map (·.2) = loop.map (·.2) := by
    rw [← hmap, List.map_map]
    rfl
  have heligible : ∀ entry ∈ lifted, entry.1 ∈ eligibleConversations services.host request entries terminal :=
    fun entry hentry => hlifted.subset (List.mem_map_of_mem hentry)
  have hnone : ∀ entry ∈ lifted, earlyExclusion services.host request entries terminal entry.1.1 = none := by
    intro entry hentry
    have hmem := List.mem_map_of_mem (f := Prod.fst) (heligible entry hentry)
    rw [eligibleConversations_eq] at hmem
    simpa using (List.mem_filter.1 hmem).2
  refine ⟨earlyLog (earlyExclusion services.host request entries terminal) (discoveredConversations entries) ++
    lifted.map fun entry => (entry.1.1, entry.2), ?_, fun bucket => ?_, fun entry hentry reason => ?_, ?_⟩
  · have hfirst : (lifted.map (·.1.1)).Perm ((discoveredConversations entries).filter fun found =>
        !(earlyExclusion services.host request entries terminal found).isSome) := by
      rw [← eligibleConversations_eq]
      have hmapped := hlifted.map Prod.fst
      rwa [List.map_map] at hmapped
    rw [List.map_append, earlyLog_conversations, List.map_map]
    exact (hfirst.append_left _).trans (List.filter_append_perm _ _)
  · have hlater : (lifted.map fun entry => (entry.1.1, entry.2)).map (·.2) = loop.map (·.2) := by
      rw [List.map_map]
      exact hbuckets
    rw [List.map_append, earlyLog_buckets, hlater]
    exact counts_of_log hloop.buckets hearly hlate hselected bucket
  · rcases List.mem_append.1 hentry with hentry | hentry
    · obtain ⟨known, hknown, hbucket⟩ := mem_earlyLog hentry
      rw [hknown, hbucket, CandidateBucket.early.injEq, Option.some.injEq]
    · obtain ⟨source, hsource, rfl⟩ := List.mem_map.1 hentry
      have hmem : source.2 ∈ loop.map (·.2) := hbuckets ▸ List.mem_map_of_mem hsource
      obtain ⟨turn, hturn, hbucket⟩ := List.mem_map.1 hmem
      rw [hnone source hsource]
      exact ⟨fun h => absurd (hbucket.trans h) (hloop.buckets turn hturn reason), fun h => by cases h⟩
  · rw [List.filter_append, selected_earlyLog, List.nil_append, List.filter_map, List.map_map]
    have htargets := congrArg (List.map some) hloop.attempts
    rw [hattempts, List.map_nil, List.nil_append, ← hmap, selectedEntries, List.filter_map, List.map_map, List.map_map,
      List.map_map] at htargets
    refine Eq.trans (List.map_congr_left fun entry hentry => ?_) htargets.symm
    obtain ⟨hmem, -⟩ := List.mem_filter.1 hentry
    have hcandidate : entry.1.1 ∈ discoveredCandidates services.host request entries (discoveredConversations entries) := by
      have hfirst := List.mem_map_of_mem (f := Prod.fst) (heligible entry hmem)
      rw [eligibleConversations_map] at hfirst
      exact (List.mem_filter.1 hfirst).1
    exact discoveredTarget_eq (List.mem_filter.1 hcandidate).2 entry.1.2

theorem attemptConversations_funnel {maxTargets : Nat} {targetOf : String → HistoryMaterializationTarget}
    {familiesOf : String → List String} : ∀ {ids : List String} {s : ReconciliationState}, s.funnel = none →
      (attemptConversations services request maxTargets targetOf familiesOf ids s).1.funnel = none
  | [], _, h => h
  | conversationId :: rest, s, h => by
    unfold attemptConversations
    split
    · exact h
    split
    · exact attemptConversations_funnel h
    split
    · exact h
    · rename_i after receipt hattempt
      obtain ⟨result, -, -, rfl⟩ := attemptCandidate_eq_ok hattempt
      split
      · exact h
      · exact attemptConversations_funnel h

theorem attemptCandidates_funnel {maxTargets : Nat} : ∀ {candidates : List ReconciliationCandidate}
    {s : ReconciliationState}, s.funnel = none →
      (attemptCandidates services request maxTargets candidates s).1.funnel = none
  | [], _, h => h
  | candidate :: rest, s, h => by
    have hlate : ∀ reason n, (s.excludeLate reason n).funnel = none := by
      intro reason n
      rw [ReconciliationState.excludeLate, h]
      rfl
    unfold attemptCandidates
    split
    · exact hlate _ _
    split
    · exact hlate _ _
    split
    · exact attemptCandidates_funnel (hlate _ _)
    split
    · exact h
    · rename_i after receipt hattempt
      obtain ⟨result, -, -, rfl⟩ := attemptCandidate_eq_ok hattempt
      have hselect : ((s.close candidate.assetFamilySignatures).push result receipt).select.funnel = none := by
        simp only [ReconciliationState.select, ReconciliationState.push, ReconciliationState.close, h, Option.map_none]
      split
      · simp only [ReconciliationState.excludeLate, hselect, Option.map_none]
      · exact attemptCandidates_funnel hselect

theorem discoverEntry_funnel {host : CatalogHost} {found : CandidateDiscovery} (h : found.funnel = none)
    (entry : AccountMirrorCatalogEntry) : (discoverEntry host request entries found entry).funnel = none := by
  unfold discoverEntry
  split
  · generalize entry.manifests.conversations = items
    induction items generalizing found with
    | nil => exact h
    | cons item items ih =>
      refine ih ?_
      unfold discoverConversation
      simp only [h, Option.map_none]
      split <;> rfl
  · rw [h]
    rfl

theorem eligibleCandidates_funnel (hids : request.conversationIds ≠ []) :
    (eligibleCandidates services request entries evidence).funnel = none := by
  have hfold : ∀ (rest : List AccountMirrorCatalogEntry) (found : CandidateDiscovery), found.funnel = none →
      (rest.foldl (discoverEntry services.host request entries) found).funnel = none := by
    intro rest
    induction rest with
    | nil => exact fun _ h => h
    | cons entry rest ih => exact fun found h => ih _ (discoverEntry_funnel h entry)
  unfold eligibleCandidates selectCandidates discoverCandidates
  simp only [hids, if_false, hfold entries ⟨none, []⟩ rfl, Option.map_none]

theorem selectsAssets_true (request : NormalizedRequest) : selectsAssets request = true := by
  have hkind : ∀ kind ∈ request.selectedKinds, selectsAssets request = true := by
    intro kind hkind
    have hcontains := List.contains_iff_mem.2 hkind
    unfold selectsAssets
    cases kind <;> simp [hkind]
  have hexists : ∃ kind, kind ∈ request.selectedKinds := by
    unfold NormalizedRequest.selectedKinds
    cases request.assetKinds.getD [] with
    | nil => exact ⟨.artifacts, by decide⟩
    | cons kind rest =>
      unfold normalizeAssetKinds
      rw [List.map_cons, if_neg (by simp)]
      split
      · exact ⟨.artifacts, by decide⟩
      · refine ⟨kind, ?_⟩
        unfold distinct
        rw [List.mem_eraseDups]
        refine List.mem_filterMap.2 ⟨kind.text, List.mem_cons_self, ?_⟩
        cases kind <;> decide
  obtain ⟨kind, hmem⟩ := hexists
  exact hkind kind hmem

theorem materializeReconciliation_eq_ok {jobs : List HistoryJob} {result : HistoryMaterializationResult}
    (h : materializeReconciliation services request jobs = .ok result) : ∃ entries evidence,
      services.readCatalog request.provider request.runtimeProfile (catalogLimit request) = .ok entries ∧
      priorEvidence services request jobs = .ok evidence ∧
      (reconcile services request jobs entries evidence).thrown = none ∧
      result = resultOf services request evidence (reconcile services request jobs entries evidence) := by
  unfold materializeReconciliation at h
  cases hentries : services.readCatalog request.provider request.runtimeProfile (catalogLimit request) with
  | error thrown =>
    rw [hentries] at h
    cases h
  | ok entries =>
  cases hevidence : priorEvidence services request jobs with
  | error thrown =>
    rw [hentries, hevidence] at h
    cases h
  | ok evidence =>
  rw [hentries, hevidence] at h
  dsimp only [Bind.bind, Except.bind] at h
  refine ⟨entries, evidence, rfl, rfl, ?_⟩
  cases hthrown : (reconcile services request jobs entries evidence).thrown with
  | some thrown =>
    rw [hthrown] at h
    cases h
  | none =>
    rw [hthrown] at h
    cases h
    exact ⟨rfl, rfl⟩

/-- The state of a run is that of its attempts. -/
theorem reconcile_state {jobs : List HistoryJob}
    (h : (reconcile services request jobs entries evidence).thrown = none) :
    reconcileConversations services request jobs entries evidence =
      ((reconcile services request jobs entries evidence).state, none) := by
  unfold reconcile at h ⊢
  generalize reconcileConversations services request jobs entries evidence = outcome at h ⊢
  obtain ⟨state, thrown⟩ := outcome
  dsimp only at h ⊢
  split at h
  · rename_i hcondition
    rw [Option.isNone_iff_eq_none.1 hcondition.1, if_pos ⟨rfl, hcondition.2⟩]
    split <;> rfl
  · rename_i hcondition
    obtain rfl : thrown = none := h
    rw [if_neg hcondition]

/-- A log that leaves no candidate out early selects it, or leaves it out late. -/
theorem length_late {α : Type} {log : List (α × CandidateBucket)}
    (h : ∀ entry ∈ log, ∀ reason, entry.2 ≠ .early reason) :
    log.length = (selectedEntries log).length + (lateReasons log).length := by
  induction log with
  | nil => rfl
  | cons entry rest ih =>
    obtain ⟨candidate, bucket⟩ := entry
    have hrest := ih fun other hother => h other (List.mem_cons_of_mem _ hother)
    have hentry := h _ List.mem_cons_self
    simp only [selectedEntries, lateReasons, List.filter_cons, List.filterMap_cons, List.length_cons] at hrest ⊢
    cases bucket with
    | early reason => exact absurd rfl (hentry reason)
    | late reason =>
      simp only [reduceCtorEq, decide_false, Bool.false_eq_true, if_false, List.length_cons]
      omega
    | selected =>
      simp only [decide_true, if_true, List.length_cons]
      omega

/-- The counts of the exclusions add up. -/
theorem early_of {funnel : CandidateFunnel} {log : List PreEligibilityExclusion}
    (h : funnel.preEligibilityExclusions = Tally.of log) : funnel.early = log.length := by
  unfold CandidateFunnel.early
  rw [h]
  refine Tally.sum_of (by decide) fun reason _ => ?_
  cases reason <;> decide

theorem late_of {funnel : CandidateFunnel} {log : List PostEligibilityExclusion}
    (h : funnel.postEligibilityExclusions = Tally.of log) : funnel.late = log.length := by
  unfold CandidateFunnel.late
  rw [h]
  refine Tally.sum_of (by decide) fun reason _ => ?_
  cases reason <;> decide

/-- The conversations of the catalog are left out early or eligible. -/
theorem length_early (host : CatalogHost) (request : NormalizedRequest) (entries : List AccountMirrorCatalogEntry)
    (terminal : List String) :
    (discoveredConversations entries).length =
      ((discoveredConversations entries).filterMap (earlyExclusion host request entries terminal)).length +
        (eligibleConversations host request entries terminal).length := by
  have hsplit := List.length_eq_length_filter_add (l := discoveredConversations entries) fun found =>
    (earlyExclusion host request entries terminal found).isSome
  have hbuckets := congrArg List.length
    (earlyLog_buckets (earlyExclusion host request entries terminal) (discoveredConversations entries))
  have hconversations := congrArg List.length
    (earlyLog_conversations (earlyExclusion host request entries terminal) (discoveredConversations entries))
  have heligible := congrArg List.length (eligibleConversations_eq host request entries terminal)
  rw [List.length_map] at hbuckets hconversations heligible
  rw [List.length_map] at hbuckets
  omega

end Funnel

/-- **Every conversation of the catalog is counted once, and the counts add up**: those that are discovered are left out
early or eligible, and the eligible ones are left out late or selected. -/
theorem funnel_conserved (services : ReconciliationServices) (request : NormalizedRequest) (jobs : List HistoryJob)
    (result : HistoryMaterializationResult) (funnel : CandidateFunnel)
    (h : materializeReconciliation services request jobs = .ok result)
    (hfunnel : result.metrics.candidateFunnel = some funnel) :
    funnel.discovered = funnel.early + funnel.eligible ∧ funnel.eligible = funnel.selected + funnel.late ∧
      ∃ entries evidence log,
        services.readCatalog request.provider request.runtimeProfile (catalogLimit request) = .ok entries ∧
        funnel.discovered = (discoveredConversations entries).length ∧
        Accounts services.host request entries (terminalFamilies services request entries evidence) result.attempts
          funnel log := by
  obtain ⟨entries, evidence, hentries, -, hthrown, rfl⟩ := materializeReconciliation_eq_ok h
  have hstate := reconcile_state hthrown
  generalize reconcile services request jobs entries evidence = run at hthrown hstate hfunnel ⊢
  replace hfunnel : run.state.funnel = some funnel := hfunnel
  show _ ∧ _ ∧ ∃ _ _ log, _ ∧ _ ∧ Accounts _ _ _ _ run.state.attempts funnel log
  have hselects := selectsAssets_true request
  unfold reconcileConversations at hstate
  cases hids : request.conversationIds with
  | cons id ids =>
    -- a request that names conversations has no funnel
    have hnone : run.state.funnel = none := by
      have hstate := (congrArg Prod.fst hstate).symm
      rw [hids] at hstate
      cases hprovider : request.provider with
      | none =>
        simp only [hprovider, hselects, if_true] at hstate
        rw [hstate]
        exact attemptCandidates_funnel (eligibleCandidates_funnel (by simp [hids]))
      | some provider =>
        simp only [hprovider, hselects, if_true] at hstate
        rw [hstate]
        exact attemptConversations_funnel rfl
    rw [hnone] at hfunnel
    cases hfunnel
  | nil =>
    rw [hids] at hstate
    simp only [hselects, if_true] at hstate
    obtain ⟨loop, hloop⟩ := attemptCandidates_log hstate
    obtain ⟨hperm, hstart⟩ := eligibleCandidates_spec services entries evidence hids
    have hordered := List.perm_insertionSort (fun left right : ReconciliationCandidate =>
      retryOrder (retryAttemptedAt request jobs left.target.conversationId)
        (retryAttemptedAt request jobs right.target.conversationId) (left.le right) = true)
      (eligibleCandidates services request entries evidence).candidates
    have hend := hloop.funnel _ [] hstart rfl
    rw [hfunnel] at hend
    obtain rfl := Option.some.inj hend
    have hlength := length_late hloop.buckets
    have hcandidates := congrArg List.length hloop.candidates
    rw [List.length_map, orderCandidates, List.length_insertionSort] at hcandidates
    have hearly := length_early services.host request entries (terminalFamilies services request entries evidence)
    have heligible := hperm.length_eq
    rw [List.length_map] at heligible
    refine ⟨?_, ?_, entries, evidence, ?_⟩
    · rw [early_of rfl]
      show (discoveredConversations entries).length = _ + _
      dsimp only
      omega
    · rw [late_of rfl]
      show (eligibleCandidates services request entries evidence).candidates.length = _ + _
      simp only [List.nil_append]
      omega
    · rw [exists_and_left, exists_and_left]
      exact ⟨hentries, rfl, accounts_of_loop hloop rfl (hordered.trans hperm) rfl rfl (Nat.zero_add _)⟩

/-- One of two conversations has an id. -/
theorem funnel_of_two_conversations : ∃ result funnel,
    materializeReconciliation (servicesOf [artifactConversation "a", .object []] []) (reconcileRequest [.artifacts] 1)
      [] = .ok result ∧ result.metrics.candidateFunnel = some funnel ∧
    funnel.discovered = 2 ∧ funnel.discovered = funnel.early + funnel.eligible ∧
    funnel.eligible = funnel.selected + funnel.late := by
  have hobserved : ((materializeReconciliation (servicesOf [artifactConversation "a", .object []] [])
      (reconcileRequest [.artifacts] 1) []).toOption.bind fun result =>
        result.metrics.candidateFunnel.map (·.discovered)) = some 2 := by decide +kernel
  cases hok : materializeReconciliation (servicesOf [artifactConversation "a", .object []] [])
      (reconcileRequest [.artifacts] 1) [] with
  | error thrown =>
    rw [hok] at hobserved
    cases hobserved
  | ok result =>
    rw [hok] at hobserved
    obtain ⟨funnel, hfunnel, htwo⟩ := Option.map_eq_some_iff.1 hobserved
    obtain ⟨hdiscovered, heligible, -⟩ := funnel_conserved _ _ _ _ _ hok hfunnel
    exact ⟨result, funnel, rfl, hfunnel, htwo, hdiscovered, heligible⟩

end AuraCall.Materialization
