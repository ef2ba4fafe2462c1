import AuraCall.Lib.Rotation
import AuraCall.Materialization.FunnelConservation

/-!
# Retries take turns

An attempt that was skipped and came to nothing puts its conversation behind those that wait for an attempt. Reconciliation
jobs whose first attempts are such retries reach every candidate (`retries_rotate`). An attempt that comes to an asset
leaves its conversation where it is, and a job that is forced does not look at earlier ones
(`failing_candidate_starves`).
-/

namespace AuraCall.Materialization

/-! ## The order of retries -/

section Order

/-- No attempt has been made, or none later than the other. -/
def NotLater (left right : Option IsoTime) : Prop :=
  ∀ time, left = some time → ∃ other, right = some other ∧ time.ms ≤ other.ms

theorem NotLater.refl (time : Option IsoTime) : NotLater time time := fun at' h => ⟨at', h, Int.le_refl _⟩

theorem NotLater.trans {a b c : Option IsoTime} (hab : NotLater a b) (hbc : NotLater b c) : NotLater a c := by
  intro time htime
  obtain ⟨middle, hmiddle, hle⟩ := hab time htime
  obtain ⟨last, hlast, hle'⟩ := hbc middle hmiddle
  exact ⟨last, hlast, Int.le_trans hle hle'⟩

theorem notLater_of_retryOrder {left right : Option IsoTime} {tie : Bool} (h : retryOrder left right tie = true) :
    NotLater left right := by
  intro time htime
  subst htime
  cases right with
  | none => cases h
  | some other =>
    refine ⟨other, rfl, ?_⟩
    unfold retryOrder at h
    dsimp only at h
    split at h
    · rename_i heq
      rw [heq]
    · exact of_decide_eq_true h

theorem notLater_of_not_retryOrder {left right : Option IsoTime} {tie : Bool} (h : ¬retryOrder left right tie = true) :
    NotLater right left := by
  intro time htime
  subst htime
  cases left with
  | none => exact absurd rfl h
  | some other =>
    refine ⟨other, rfl, ?_⟩
    unfold retryOrder at h
    dsimp only at h
    split at h
    · rename_i heq
      rw [heq]
    · rw [decide_eq_true_eq] at h
      omega

variable {retryAttemptedAt : String → Option IsoTime}

theorem head_orderCandidates {candidates rest : List ReconciliationCandidate} {head : ReconciliationCandidate}
    (h : orderCandidates retryAttemptedAt candidates = head :: rest) : ∀ candidate ∈ candidates,
      NotLater (retryAttemptedAt head.target.conversationId) (retryAttemptedAt candidate.target.conversationId) :=
  Rotation.head_insertionSort (fun a b : ReconciliationCandidate =>
      NotLater (retryAttemptedAt a.target.conversationId) (retryAttemptedAt b.target.conversationId))
    (fun _ => .refl _) (fun _ _ _ => .trans) (fun _ _ => notLater_of_retryOrder)
    (fun _ _ => notLater_of_not_retryOrder) h

theorem head_orderConversationIds {ids rest : List String} {head : String}
    (h : orderConversationIds retryAttemptedAt ids = head :: rest) :
    ∀ id ∈ ids, NotLater (retryAttemptedAt head) (retryAttemptedAt id) :=
  Rotation.head_insertionSort (fun a b => NotLater (retryAttemptedAt a) (retryAttemptedAt b))
    (fun _ => .refl _) (fun _ _ _ => .trans) (fun _ _ => notLater_of_retryOrder)
    (fun _ _ => notLater_of_not_retryOrder) h

end Order

/-! ## What the jobs record -/

section Record

/-- The attempts of a job. -/
def attemptsOf (job : HistoryJob) : List HistoryMaterializationAttemptReceipt := (job.result.map (·.attempts)).getD []

theorem noteRetry_some {attemptedAt : String → Option IsoTime} {attempt : HistoryMaterializationAttemptReceipt}
    {id : String} {time : IsoTime} (h : noteRetry attemptedAt attempt id = some time) :
    attemptedAt id = some time ∨
      (isRetry attempt = true ∧ attempt.target.conversationId = id ∧ attempt.generatedAt = time) := by
  unfold noteRetry at h
  split at h
  · rename_i hretry
    by_cases hid : id = attempt.target.conversationId
    · subst hid
      rw [Function.update_self] at h
      exact .inr ⟨(Bool.and_eq_true_iff.1 hretry).1, rfl, Option.some.inj h⟩
    · rw [Function.update_of_ne hid] at h
      exact .inl h
  · exact .inl h

theorem notLater_noteRetry (attemptedAt : String → Option IsoTime) (attempt : HistoryMaterializationAttemptReceipt)
    (id : String) : NotLater (attemptedAt id) (noteRetry attemptedAt attempt id) := by
  unfold noteRetry
  split
  · rename_i hretry
    by_cases hid : id = attempt.target.conversationId
    · subst hid
      rw [Function.update_self]
      intro time htime
      have hlt := (Bool.and_eq_true_iff.1 hretry).2
      rw [htime, Option.all_some, decide_eq_true_eq] at hlt
      exact ⟨attempt.generatedAt, rfl, Int.le_of_lt hlt⟩
    · rw [Function.update_of_ne hid]
      exact .refl _
  · exact .refl _

theorem noteRetry_notes {attemptedAt : String → Option IsoTime} {attempt : HistoryMaterializationAttemptReceipt}
    (h : isRetry attempt = true) :
    NotLater (some attempt.generatedAt) (noteRetry attemptedAt attempt attempt.target.conversationId) := by
  intro time htime
  cases htime
  unfold noteRetry
  split
  · exact ⟨attempt.generatedAt, by rw [Function.update_self], Int.le_refl _⟩
  · rename_i hretry
    rw [h, Bool.true_and] at hretry
    cases hat : attemptedAt attempt.target.conversationId with
    | none =>
      rw [hat] at hretry
      exact absurd rfl hretry
    | some earlier =>
      rw [hat, Option.all_some, decide_eq_true_eq] at hretry
      exact ⟨earlier, rfl, by omega⟩

theorem foldl_noteRetry_some {attempts : List HistoryMaterializationAttemptReceipt} {id : String} {time : IsoTime} :
    ∀ {attemptedAt : String → Option IsoTime}, attempts.foldl noteRetry attemptedAt id = some time →
      attemptedAt id = some time ∨ ∃ attempt ∈ attempts, isRetry attempt = true ∧
        attempt.target.conversationId = id ∧ attempt.generatedAt = time := by
  induction attempts with
  | nil => exact fun h => .inl h
  | cons attempt rest ih =>
    intro attemptedAt h
    rcases ih h with hnoted | ⟨later, hlater, hretry⟩
    · rcases noteRetry_some hnoted with hbefore | hretry
      · exact .inl hbefore
      · exact .inr ⟨attempt, List.mem_cons_self, hretry⟩
    · exact .inr ⟨later, List.mem_cons_of_mem _ hlater, hretry⟩

theorem notLater_foldl_noteRetry (attempts : List HistoryMaterializationAttemptReceipt) (id : String) :
    ∀ attemptedAt : String → Option IsoTime, NotLater (attemptedAt id) (attempts.foldl noteRetry attemptedAt id) := by
  induction attempts with
  | nil => exact fun _ => .refl _
  | cons attempt rest ih => exact fun attemptedAt => (notLater_noteRetry attemptedAt attempt id).trans (ih _)

theorem foldl_noteRetry_notes {attempts : List HistoryMaterializationAttemptReceipt}
    {attempt : HistoryMaterializationAttemptReceipt} (hmem : attempt ∈ attempts) (hretry : isRetry attempt = true) :
    ∀ attemptedAt : String → Option IsoTime,
      NotLater (some attempt.generatedAt) (attempts.foldl noteRetry attemptedAt attempt.target.conversationId) := by
  induction attempts with
  | nil => exact absurd hmem List.not_mem_nil
  | cons first rest ih =>
    intro attemptedAt
    rcases List.mem_cons.1 hmem with rfl | hrest
    · exact (noteRetry_notes hretry).trans (notLater_foldl_noteRetry rest _ _)
    · exact ih hrest _

/-- A retry of the lane. -/
def RecordedRetry (jobs : List HistoryJob) (request : NormalizedRequest) (id : String) (time : IsoTime) : Prop :=
  ∃ job ∈ jobs, sharesRetryLane job request = true ∧ ∃ attempt ∈ attemptsOf job, isRetry attempt = true ∧
    attempt.target.conversationId = id ∧ attempt.generatedAt = time

variable {jobs : List HistoryJob} {request : NormalizedRequest} {id : String} {time : IsoTime}

theorem recorded_of_retryAttemptedAt
    (h : reconciliationRetryAttemptedAtByConversationId jobs request id = some time) :
    RecordedRetry jobs request id time := by
  rcases foldl_noteRetry_some h with hnone | ⟨attempt, hmem, hretry⟩
  · cases hnone
  · obtain ⟨job, hjob, hattempt⟩ := List.mem_flatMap.1 hmem
    obtain ⟨hjob, hlane⟩ := List.mem_filter.1 hjob
    exact ⟨job, hjob, hlane, attempt, hattempt, hretry⟩

theorem retryAttemptedAt_of_recorded (h : RecordedRetry jobs request id time) :
    NotLater (some time) (reconciliationRetryAttemptedAtByConversationId jobs request id) := by
  obtain ⟨job, hjob, hlane, attempt, hattempt, hretry, rfl, rfl⟩ := h
  exact foldl_noteRetry_notes (List.mem_flatMap.2 ⟨job, List.mem_filter.2 ⟨hjob, hlane⟩, hattempt⟩) hretry _

end Record

/-! ## The first attempt -/

section First

variable {services : ReconciliationServices} {request : NormalizedRequest} {maxTargets : Nat}

theorem attemptCandidate_attempts {s after : ReconciliationState} {origin : ReceiptOrigin}
    {target : HistoryMaterializationTarget} {assetFamilySignatures : List String}
    {receipt : HistoryMaterializationAttemptReceipt}
    (h : attemptCandidate services request maxTargets s origin target assetFamilySignatures = .ok (after, receipt)) :
    after.attempts = s.attempts ++ [receipt] ∧ receipt.target = target := by
  obtain ⟨result, -, hreceipt, rfl⟩ := attemptCandidate_eq_ok h
  refine ⟨rfl, ?_⟩
  rw [hreceipt]
  rfl

theorem prefix_of_attemptCandidates : ∀ {candidates : List ReconciliationCandidate} {s s' : ReconciliationState}
    {thrown : Option Thrown}, attemptCandidates services request maxTargets candidates s = (s', thrown) →
      s.attempts <+: s'.attempts
  | [], _, _, _, h => by
    cases h
    exact List.prefix_rfl
  | candidate :: rest, s, s', thrown, h => by
    unfold attemptCandidates at h
    split at h
    · cases h
      exact List.prefix_rfl
    split at h
    · cases h
      exact List.prefix_rfl
    split at h
    · exact prefix_of_attemptCandidates (s := s.excludeLate .duplicateAssetFamilies 1) h
    split at h
    · cases h
      exact List.prefix_rfl
    · rename_i after receipt hattempt
      have hextends : s.attempts <+: after.attempts := ⟨[receipt], (attemptCandidate_attempts hattempt).1.symm⟩
      split at h
      · cases h
        exact hextends
      · exact hextends.trans (prefix_of_attemptCandidates (s := after.select.spend receipt.accounting) h)

theorem prefix_of_attemptConversations {targetOf : String → HistoryMaterializationTarget}
    {familiesOf : String → List String} : ∀ {ids : List String} {s s' : ReconciliationState} {thrown : Option Thrown},
      attemptConversations services request maxTargets targetOf familiesOf ids s = (s', thrown) →
        s.attempts <+: s'.attempts
  | [], _, _, _, h => by
    cases h
    exact List.prefix_rfl
  | conversationId :: rest, s, s', thrown, h => by
    unfold attemptConversations at h
    split at h
    · cases h
      exact List.prefix_rfl
    split at h
    · exact prefix_of_attemptConversations h
    split at h
    · cases h
      exact List.prefix_rfl
    · rename_i after receipt hattempt
      have hextends : s.attempts <+: after.attempts := ⟨[receipt], (attemptCandidate_attempts hattempt).1.symm⟩
      split at h
      · cases h
        exact hextends
      · exact hextends.trans (prefix_of_attemptConversations (s := after.spend receipt.accounting) h)

/-- The first attempt is the one that the prefix has. -/
theorem eq_of_extends {s : ReconciliationState} {receipt attempt : HistoryMaterializationAttemptReceipt}
    {attempts more : List HistoryMaterializationAttemptReceipt} (hempty : s.attempts = [])
    (hextends : s.attempts ++ [receipt] <+: attempts) (hattempts : attempts = attempt :: more) : attempt = receipt := by
  obtain ⟨later, hlater⟩ := hextends
  rw [hempty, hattempts] at hlater
  exact (List.cons.inj hlater).1.symm

theorem first_of_attemptCandidates {candidates : List ReconciliationCandidate} {s s' : ReconciliationState}
    {attempt : HistoryMaterializationAttemptReceipt} {more : List HistoryMaterializationAttemptReceipt}
    (hopen : ∀ candidate ∈ candidates,
      areTerminal candidate.assetFamilySignatures s.attemptedAssetFamilySignatures = false)
    (hempty : s.attempts = []) (h : attemptCandidates services request maxTargets candidates s = (s', none))
    (hattempts : s'.attempts = attempt :: more) :
    ∃ head rest, candidates = head :: rest ∧ attempt.target = head.target := by
  cases candidates with
  | nil =>
    cases h
    rw [hempty] at hattempts
    cases hattempts
  | cons head rest =>
    refine ⟨head, rest, rfl, ?_⟩
    unfold attemptCandidates at h
    split at h
    · cases h
      exact absurd (hempty.symm.trans hattempts) (List.cons_ne_nil _ _).symm
    split at h
    · cases h
      exact absurd (hempty.symm.trans hattempts) (List.cons_ne_nil _ _).symm
    rw [hopen head List.mem_cons_self] at h
    simp only [Bool.false_eq_true, if_false] at h
    split at h
    · cases h
    · rename_i after receipt hattempt
      obtain ⟨hafter, htarget⟩ := attemptCandidate_attempts hattempt
      suffices hextends : s.attempts ++ [receipt] <+: s'.attempts by
        rw [eq_of_extends hempty hextends hattempts, htarget]
      split at h
      · cases h
        exact ⟨[], by rw [List.append_nil]; exact hafter.symm⟩
      · have hlater := prefix_of_attemptCandidates h
        rwa [show (after.select.spend receipt.accounting).attempts = _ from hafter] at hlater

theorem first_of_attemptConversations {targetOf : String → HistoryMaterializationTarget}
    {familiesOf : String → List String} {ids : List String} {s s' : ReconciliationState}
    {attempt : HistoryMaterializationAttemptReceipt} {more : List HistoryMaterializationAttemptReceipt}
    (hopen : ∀ id ∈ ids, areTerminal (familiesOf id) s.attemptedAssetFamilySignatures = false)
    (hempty : s.attempts = [])
    (h : attemptConversations services request maxTargets targetOf familiesOf ids s = (s', none))
    (hattempts : s'.attempts = attempt :: more) :
    ∃ head rest, ids = head :: rest ∧ attempt.target = targetOf head := by
  cases ids with
  | nil =>
    cases h
    rw [hempty] at hattempts
    cases hattempts
  | cons head rest =>
    refine ⟨head, rest, rfl, ?_⟩
    unfold attemptConversations at h
    split at h
    · cases h
      exact absurd (hempty.symm.trans hattempts) (List.cons_ne_nil _ _).symm
    rw [hopen head List.mem_cons_self] at h
    simp only [Bool.false_eq_true, if_false] at h
    split at h
    · cases h
    · rename_i after receipt hattempt
      obtain ⟨hafter, htarget⟩ := attemptCandidate_attempts hattempt
      suffices hextends : s.attempts ++ [receipt] <+: s'.attempts by
        rw [eq_of_extends hempty hextends hattempts, htarget]
      split at h
      · cases h
        exact ⟨[], by rw [List.append_nil]; exact hafter.symm⟩
      · have hlater := prefix_of_attemptConversations h
        rwa [show (after.spend receipt.accounting).attempts = _ from hafter] at hlater

end First

/-! ## Turns -/

section Turns

/-- The conversations that a job may attempt. -/
def eligibleIds (services : ReconciliationServices) (request : NormalizedRequest) (jobs : List HistoryJob) :
    Except Thrown (List String) := do
  let entries ← services.readCatalog request.provider request.runtimeProfile (catalogLimit request)
  let evidence ← priorEvidence services request jobs
  return match request.conversationIds, request.provider with
    | _ :: _, some _ => eligibleConversationIds services request entries evidence
    | _, _ => (eligibleCandidates services request entries evidence).candidates.map (·.target.conversationId)

/-- Two requests whose jobs look at each other's attempts. -/
structure SameLane (request lane : NormalizedRequest) : Prop where
  provider : request.provider = lane.provider
  runtimeProfile : request.runtimeProfile = lane.runtimeProfile
  browserProfile : request.browserProfile = lane.browserProfile
  boundIdentityKey : request.boundIdentityKey = lane.boundIdentityKey
  selectedKinds : request.selectedKinds = lane.selectedKinds

/-- A reconciliation that has ended, and whose first attempt is a retry. The candidates are those of the lane. -/
structure RetryTurn (lane : NormalizedRequest) (candidates : Finset String) (services : ReconciliationServices)
    (history : List HistoryJob) (job : HistoryJob) : Prop where
  source : job.request.source.type = .reconciliation
  lane : SameLane job.request.request lane
  unforced : job.request.request.force = false
  settled : isActiveStatus job.status = false
  eligible : ∃ ids, eligibleIds services job.request.request history = .ok ids ∧ ∀ id, id ∈ ids ↔ id ∈ candidates
  /-- a named conversation is attempted under its name -/
  named : ∀ entries, ∀ id ∈ job.request.request.conversationIds, ∀ found,
    selectedCatalogTarget services.host job.request.request entries id = some found → found.1.conversationId = id
  result : ∃ result, job.result = some result ∧
    materializeReconciliation services job.request.request history = .ok result
  first : ∃ attempt more, attemptsOf job = attempt :: more ∧ isRetry attempt = true

variable {lane : NormalizedRequest} {candidates : Finset String} {services : ReconciliationServices}
  {history : List HistoryJob} {job : HistoryJob}

theorem SameLane.shares {request : NormalizedRequest} (h : SameLane request lane) (other : HistoryJob) :
    sharesRetryLane other request = sharesRetryLane other lane := by
  simp only [sharesRetryLane, h.provider, h.runtimeProfile, h.browserProfile, h.boundIdentityKey, h.selectedKinds]

theorem RetryTurn.shares (h : RetryTurn lane candidates services history job) : sharesRetryLane job lane = true := by
  have hkinds : lane.selectedKinds.all (lane.selectedKinds.contains ·) = true :=
    List.all_eq_true.2 fun kind hkind => List.contains_iff_mem.2 hkind
  simp only [sharesRetryLane, h.source, h.settled, h.lane.provider, h.lane.runtimeProfile, h.lane.browserProfile,
    h.lane.boundIdentityKey, h.lane.selectedKinds, hkinds, decide_true, Bool.not_false, Bool.and_self]

/-- The time of the last retry of a conversation, for the jobs of a lane. -/
def lastRetry (lane : NormalizedRequest) (history : List HistoryJob) : String → Option IsoTime :=
  reconciliationRetryAttemptedAtByConversationId history lane

/-- **A turn goes to a candidate that has waited longest.** -/
theorem RetryTurn.serves (h : RetryTurn lane candidates services history job) :
    ∃ attempt ∈ attemptsOf job, isRetry attempt = true ∧ attempt.target.conversationId ∈ candidates ∧
      ∀ id ∈ candidates, NotLater (lastRetry lane history attempt.target.conversationId) (lastRetry lane history id) := by
  obtain ⟨attempt, more, hattempts, hretry⟩ := h.first
  obtain ⟨result, hresult, hrun⟩ := h.result
  obtain ⟨ids, hids, hcandidates⟩ := h.eligible
  refine ⟨attempt, hattempts ▸ List.mem_cons_self, hretry, ?_⟩
  obtain ⟨entries, evidence, hentries, hevidence, hthrown, rfl⟩ := materializeReconciliation_eq_ok hrun
  rw [attemptsOf, hresult] at hattempts
  replace hattempts : (reconcile services job.request.request history entries evidence).state.attempts =
    attempt :: more := hattempts
  have hstate := reconcile_state hthrown
  generalize (reconcile services job.request.request history entries evidence).state = state at hattempts hstate
  have hlast : retryAttemptedAt job.request.request history = lastRetry lane history := by
    unfold retryAttemptedAt lastRetry reconciliationRetryAttemptedAtByConversationId
    rw [h.unforced]
    simp only [Bool.false_eq_true, if_false, h.lane.shares]
  simp only [eligibleIds, hentries, hevidence, Bind.bind, Except.bind, Pure.pure, Except.pure, Except.ok.injEq] at hids
  have hselects := selectsAssets_true job.request.request
  have hbroad : attemptCandidates services job.request.request (effectiveMaxItems job.request.request)
      (orderCandidates (lastRetry lane history)
        (eligibleCandidates services job.request.request entries evidence).candidates)
      (startReconciliation services job.request.request entries evidence
        (eligibleCandidates services job.request.request entries evidence).funnel
        (eligibleCandidates services job.request.request entries evidence).candidates.length) = (state, none) →
      (eligibleCandidates services job.request.request entries evidence).candidates.map (·.target.conversationId) = ids →
      attempt.target.conversationId ∈ candidates ∧
        ∀ id ∈ candidates, NotLater (lastRetry lane history attempt.target.conversationId) (lastRetry lane history id) := by
    intro hloop hids
    have hopen : ∀ candidate ∈ orderCandidates (lastRetry lane history)
        (eligibleCandidates services job.request.request entries evidence).candidates,
        areTerminal candidate.assetFamilySignatures (terminalFamilies services job.request.request entries evidence) =
          false := by
      intro candidate hcandidate
      simpa using (List.mem_filter.1 ((List.mem_insertionSort _).1 hcandidate)).2
    obtain ⟨head, rest, hordered, htarget⟩ := first_of_attemptCandidates hopen rfl hloop hattempts
    have hmem : head ∈ (eligibleCandidates services job.request.request entries evidence).candidates :=
      (List.mem_insertionSort _).1 (hordered ▸ List.mem_cons_self)
    rw [htarget]
    refine ⟨(hcandidates _).1 (hids ▸ List.mem_map_of_mem hmem), fun id hid => ?_⟩
    obtain ⟨candidate, hcandidate, rfl⟩ := List.mem_map.1 (hids ▸ (hcandidates id).2 hid)
    exact head_orderCandidates hordered candidate hcandidate
  unfold reconcileConversations at hstate
  rw [hlast] at hstate
  cases hconversations : job.request.request.conversationIds with
  | nil =>
    rw [hconversations] at hstate hids
    simp only [hselects, if_true] at hstate
    exact hbroad hstate hids
  | cons first others =>
    rw [hconversations] at hstate hids
    cases hprovider : job.request.request.provider with
    | none =>
      simp only [hprovider, hselects, if_true] at hstate hids
      exact hbroad hstate hids
    | some provider =>
      simp only [hprovider, hselects, if_true] at hstate hids
      have hopen : ∀ id ∈ orderConversationIds (lastRetry lane history)
          (eligibleConversationIds services job.request.request entries evidence),
          areTerminal (((selectedCatalogTarget services.host job.request.request entries id).map (·.2)).getD [])
            (terminalFamilies services job.request.request entries evidence) = false := by
        intro id hid
        simpa using (List.mem_filter.1 ((List.mem_insertionSort _).1 hid)).2
      obtain ⟨head, rest, hordered, htarget⟩ := first_of_attemptConversations hopen rfl hstate hattempts
      have hmem : head ∈ ids := hids ▸ (List.mem_insertionSort _).1 (hordered ▸ List.mem_cons_self)
      have hname : attempt.target.conversationId = head := by
        rw [htarget]
        cases hfound : selectedCatalogTarget services.host job.request.request entries head with
        | none => rfl
        | some found => exact h.named entries head (List.mem_of_mem_filter (hids ▸ hmem)) found hfound
      rw [hname]
      refine ⟨(hcandidates _).1 hmem, fun id hid => ?_⟩
      exact head_orderConversationIds hordered id (hids ▸ (hcandidates id).2 hid)

/-- **Retries take turns.** As many jobs as there are candidates, one after the other, attempt every one of them, up to those
whose last retry is from before and no earlier than an attempt of the jobs. -/
theorem retries_rotate {n : ℕ} {services : ℕ → ReconciliationServices} {jobs : ℕ → HistoryJob}
    {history : ℕ → List HistoryJob} (hturns : ∀ i < n, RetryTurn lane candidates (services i) (history i) (jobs i))
    (hhistory : ∀ i < n, ∀ job, job ∈ history (i + 1) ↔ job = jobs i ∨ job ∈ history i) (hn : candidates.card ≤ n) :
    ∀ id ∈ candidates, (∃ i < n, ∃ attempt ∈ attemptsOf (jobs i), attempt.target.conversationId = id) ∨
      ∃ time, RecordedRetry (history 0) lane id time ∧
        ∃ i < n, ∃ attempt ∈ attemptsOf (jobs i), attempt.generatedAt.ms ≤ time.ms := by
  -- a time is old when every attempt of the jobs is later; those wait whose last retry, if any, is old
  let old (time : IsoTime) : Prop := ∀ i < n, ∀ attempt ∈ attemptsOf (jobs i), time.ms < attempt.generatedAt.ms
  let waits (i : ℕ) (id : String) : Prop := ∀ time, lastRetry lane (history i) id = some time → old time
  have hlater : ∀ i < n, ∀ id, NotLater (lastRetry lane (history i) id) (lastRetry lane (history (i + 1)) id) := by
    intro i hi id time htime
    obtain ⟨job, hjob, hrecorded⟩ := recorded_of_retryAttemptedAt htime
    exact retryAttemptedAt_of_recorded ⟨job, (hhistory i hi job).2 (.inr hjob), hrecorded⟩ time rfl
  have hstays : ∀ i < n, ∀ id, waits (i + 1) id → waits i id := by
    intro i hi id hwaits time htime
    obtain ⟨other, hother, hle⟩ := hlater i hi id time htime
    exact fun k hk attempt hattempt => Int.lt_of_le_of_lt hle (hwaits other hother k hk attempt hattempt)
  have hserves : ∀ i < n, ∀ id ∈ candidates, waits i id → ∃ served ∈ candidates, waits i served ∧
      ¬waits (i + 1) served := by
    intro i hi id hid hwaits
    obtain ⟨attempt, hattempt, hretry, hmem, hfirst⟩ := (hturns i hi).serves
    refine ⟨attempt.target.conversationId, hmem, fun time htime => ?_, fun hwaits' => ?_⟩
    · obtain ⟨other, hother, hle⟩ := hfirst id hid time htime
      exact fun k hk later hlater => Int.lt_of_le_of_lt hle (hwaits other hother k hk later hlater)
    · have hrecorded : RecordedRetry (history (i + 1)) lane attempt.target.conversationId attempt.generatedAt :=
        ⟨jobs i, (hhistory i hi _).2 (.inl rfl), (hturns i hi).shares, attempt, hattempt, hretry, rfl, rfl⟩
      obtain ⟨time, htime, hle⟩ := retryAttemptedAt_of_recorded hrecorded _ rfl
      exact absurd (hwaits' time htime i hi attempt hattempt) (Int.not_lt.2 hle)
  intro id hid
  have hdone := Rotation.none_waits hstays hserves hn id hid
  -- the last retry is of one of the jobs, or from before
  have hsource : ∀ k ≤ n, ∀ time, RecordedRetry (history k) lane id time →
      (∃ i < n, ∃ attempt ∈ attemptsOf (jobs i), attempt.target.conversationId = id) ∨
        RecordedRetry (history 0) lane id time := by
    intro k
    induction k with
    | zero => exact fun _ time h => .inr h
    | succ k ih =>
      rintro hk time ⟨job, hjob, hlane, attempt, hattempt, hretry, hconversation, htime⟩
      rcases (hhistory k hk job).1 hjob with rfl | hjob
      · exact .inl ⟨k, hk, attempt, hattempt, hconversation⟩
      · exact ih (by omega) time ⟨job, hjob, hlane, attempt, hattempt, hretry, hconversation, htime⟩
  simp only [waits, old, not_forall] at hdone
  obtain ⟨time, htime, i, hi, attempt, hattempt, hle⟩ := hdone
  rcases hsource n le_rfl time (recorded_of_retryAttemptedAt htime) with hattempted | hbefore
  · exact .inl hattempted
  · exact .inr ⟨time, hbefore, i, hi, attempt, hattempt, Int.not_lt.1 hle⟩

end Turns

/-! ## Two conversations -/

section Sample

/-- The job that a reconciliation leaves. -/
def reconciledJob (services : ReconciliationServices) (request : NormalizedRequest) (history : List HistoryJob) :
    HistoryJob where
  id := "job"
  request := ⟨request, .reconciliation none, ""⟩
  sourceKey := ""
  status := .succeeded
  createdAt := reconciledAt
  updatedAt := reconciledAt
  startedAt := some reconciledAt
  completedAt := some reconciledAt
  attemptCount := 1
  result := (materializeReconciliation services request history).toOption
  progress := ()
  error := none
  message := ""

theorem attempted_of_reconciledJob {services : ReconciliationServices} {request : NormalizedRequest}
    {history : List HistoryJob} (h : (attemptsOf (reconciledJob services request history)).head?.any isRetry = true) :
    ∃ result, (reconciledJob services request history).result = some result ∧
      materializeReconciliation services request history = .ok result ∧
        ∃ attempt more, attemptsOf (reconciledJob services request history) = attempt :: more ∧ isRetry attempt = true := by
  cases hattempts : attemptsOf (reconciledJob services request history) with
  | nil =>
    rw [hattempts] at h
    cases h
  | cons attempt more =>
    rw [hattempts] at h
    cases hrun : materializeReconciliation services request history with
    | error thrown =>
      rw [attemptsOf, reconciledJob, hrun] at hattempts
      cases hattempts
    | ok result =>
      refine ⟨result, ?_, rfl, attempt, more, rfl, h⟩
      rw [reconciledJob, hrun]
      rfl

/-- Services of two conversations, whose attempts end with the entries. -/
def twoConversations (entries : List HistoryMaterializationManifestEntry) : ReconciliationServices :=
  servicesOf [artifactConversation "a", artifactConversation "b"] entries

/-- Two jobs in a row that attempt the first conversation and not the second, although both are eligible. -/
def SecondStarves (services : ReconciliationServices) (request : NormalizedRequest) : Prop :=
  let first := reconciledJob services request []
  let second := reconciledJob services request [first]
  eligibleIds services request [] = .ok ["a", "b"] ∧ eligibleIds services request [first] = .ok ["a", "b"] ∧
    (attemptsOf first).map (·.target.conversationId) = ["a"] ∧ (attemptsOf second).map (·.target.conversationId) = ["a"]

/-- A conversation whose asset fails is attempted again and again, and so is the first one of a forced job. -/
theorem failing_candidate_starves :
    SecondStarves (twoConversations [artifactEntry .failed (some "download failed")])
      (reconcileRequest [.artifacts] 1) ∧
    SecondStarves (twoConversations []) { reconcileRequest [.artifacts] 1 with force := true } := by
  refine ⟨⟨rfl, rfl, ?_, ?_⟩, rfl, rfl, ?_, ?_⟩ <;> decide +kernel

/-- Two jobs that find nothing attempt both. -/
theorem two_retries_rotate : ∃ first second,
    RetryTurn (reconcileRequest [.artifacts] 1) {"a", "b"} (twoConversations []) [] first ∧
    RetryTurn (reconcileRequest [.artifacts] 1) {"a", "b"} (twoConversations []) [first] second ∧
    ∀ id ∈ ({"a", "b"} : Finset String), ∃ attempt ∈ attemptsOf first ++ attemptsOf second,
      attempt.target.conversationId = id := by
  have hturn : ∀ history : List HistoryJob,
      eligibleIds (twoConversations []) (reconcileRequest [.artifacts] 1) history = .ok ["a", "b"] →
      (attemptsOf (reconciledJob (twoConversations []) (reconcileRequest [.artifacts] 1) history)).head?.any isRetry =
        true →
      RetryTurn (reconcileRequest [.artifacts] 1) {"a", "b"} (twoConversations []) history
        (reconciledJob (twoConversations []) (reconcileRequest [.artifacts] 1) history) := by
    intro history heligible hretry
    obtain ⟨result, hresult, hrun, hfirst⟩ := attempted_of_reconciledJob hretry
    exact ⟨rfl, ⟨rfl, rfl, rfl, rfl, rfl⟩, rfl, rfl, ⟨_, heligible, fun id => by simp⟩,
      fun _ _ h => absurd h List.not_mem_nil, ⟨result, hresult, hrun⟩, hfirst⟩
  let first := reconciledJob (twoConversations []) (reconcileRequest [.artifacts] 1) []
  let second := reconciledJob (twoConversations []) (reconcileRequest [.artifacts] 1) [first]
  have hfirst := hturn [] rfl (by decide +kernel)
  have hsecond := hturn [first] rfl (by decide +kernel)
  refine ⟨first, second, hfirst, hsecond, fun id hid => ?_⟩
  let jobs (i : ℕ) : HistoryJob := if i = 0 then first else second
  let history (i : ℕ) : List HistoryJob := if i = 0 then [] else if i = 1 then [first] else [second, first]
  have hturns : ∀ i < 2, RetryTurn (reconcileRequest [.artifacts] 1) {"a", "b"} (twoConversations []) (history i)
      (jobs i) := by
    intro i hi
    obtain rfl | rfl : i = 0 ∨ i = 1 := by omega
    · exact hfirst
    · exact hsecond
  have hhistory : ∀ i < 2, ∀ job, job ∈ history (i + 1) ↔ job = jobs i ∨ job ∈ history i := by
    intro i hi job
    obtain rfl | rfl : i = 0 ∨ i = 1 := by omega
    · exact List.mem_cons
    · exact List.mem_cons
  rcases retries_rotate hturns hhistory (by decide) id hid with ⟨i, hi, attempt, hattempt, hid⟩ | ⟨time, hrecorded, -⟩
  · refine ⟨attempt, List.mem_append.2 ?_, hid⟩
    obtain rfl | rfl : i = 0 ∨ i = 1 := by omega
    · exact .inl hattempt
    · exact .inr hattempt
  · obtain ⟨job, hjob, -⟩ := hrecorded
    exact absurd hjob List.not_mem_nil

end Sample

end AuraCall.Materialization
