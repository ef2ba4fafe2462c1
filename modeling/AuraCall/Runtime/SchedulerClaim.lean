import AuraCall.Runtime.Processes

/-!
# The safety of a scheduler's claim

The evaluation lets the local runner claim a run that has no active lease, or whose active lease is expired and whose
owner is stale or missing in the registry (`Claimable`). The claim evaluates one read of the record and writes over
another; the revisions say that these are the same record, so with atomic writes a claim replaces only a claimable
record (`ClaimEffect`), the new lease is the only active one, and no lease of a live owner has been ended
(`claim_safe`). -/

namespace AuraCall.Runtime

open RevisionedStore TransitionSystem

/-! ## Only the last lease is active -/

/-- **Every operation keeps the last lease the only one that may be active.** -/
theorem Operation.onlyLastActive {bundle bundle' : ExecutionRunRecordBundle} (h : Operation bundle bundle')
    (hb : OnlyLastActive bundle.leases) : OnlyLastActive bundle'.leases := by
  cases h with
  | acquire h =>
    obtain ⟨hn, he, -⟩ := acquireExecutionRunLease_eq_ok h
    rw [he]
    exact onlyLastActive_append _ (getActiveExecutionRunLease_eq_none hn)
  | heartbeat h =>
    obtain ⟨existing, hf, hs, hl, he⟩ := heartbeatExecutionRunLease_eq_ok h
    have hid := List.find?_some hf
    rw [he]
    refine hb.replace ?_ hs
    rw [hl, beq_iff_eq.mp hid]
    exact hf
  | release h =>
    obtain ⟨existing, hf, hs, hl, he⟩ := releaseExecutionRunLease_eq_ok h
    have hid := List.find?_some hf
    rw [he]
    refine hb.replace ?_ hs
    rw [hl, beq_iff_eq.mp hid]
    exact hf
  | expire =>
    rcases expireExecutionRunLeases_cases bundle _ with ⟨-, he⟩ | ⟨_, he, -⟩
    · rw [he]
      exact hb
    · rw [he]
      exact hb.map fun l _ hs => (expireLease_active hs).1
  | start h => rw [(startExecutionRunStep_eq_ok h).2.2.leases]; exact hb
  | succeed h => rw [(succeedExecutionRunStep_eq_ok h).2.2.leases]; exact hb
  | fail h => rw [(failExecutionRunStep_eq_ok h).2.2.leases]; exact hb
  | escalate h => rw [(cancelExecutionRunStepForHumanEscalation_eq_ok h).2.2.leases]; exact hb
  | cancel h =>
    obtain ⟨-, _, hr⟩ := cancelExecutionRun_eq_ok h
    rw [hr.leases]
    exact hb
  | resume h =>
    obtain ⟨_, -, -, -, -, hr⟩ := resumeExecutionRunAfterHumanEscalation_eq_ok h
    rw [hr.leases]
    exact hb
  | recover h =>
    refine recoverStrandedRunningExecutionRun_keeps (P := fun b => OnlyLastActive b.leases) ?_ h hb
    intro b b' hb _ _ _ _ hr
    rw [hr.leases]
    exact hb
  | resolve h => rw [(resolveLocalActionRequest_eq_some h).2.1]; exact hb
  | drain => exact hb
  | schedule => exact hb

/-! ## What may be claimed -/

/-- The registry has an active runner under the identifier. -/
def LiveOwner (runners : List ExecutionRunnerRecord) (ownerId : String) : Prop :=
  ∃ runner, runners.find? (·.id == ownerId) = some runner ∧ runner.status = .active

/-- The run has no active lease, or its active lease is expired and has no live owner. -/
def Claimable (runners : List ExecutionRunnerRecord) (now : String) (bundle : ExecutionRunRecordBundle) : Prop :=
  getActiveExecutionRunLease bundle = none ∨ ∃ lease, getActiveExecutionRunLease bundle = some lease ∧
    notAfter lease.expiresAt now = true ∧ ¬LiveOwner runners lease.ownerId

theorem not_live_of_freshness {runners : List ExecutionRunnerRecord} {ownerId expiresAt now : String}
    (h : classifyLeaseOwnerFreshness (runners.find? (·.id == ownerId)) expiresAt now = .stale ∨
      classifyLeaseOwnerFreshness (runners.find? (·.id == ownerId)) expiresAt now = .missing) :
    ¬LiveOwner runners ownerId := by
  rintro ⟨runner, hf, ha⟩
  rw [hf, classifyLeaseOwnerFreshness, if_neg (by simp [ha])] at h
  split at h <;> rcases h with h | h <;> cases h

/-- **What the evaluation lets a claim mutate is claimable.** -/
theorem evaluateSchedulerAuthority_claimable {input : EvaluationInput} {bundle : ExecutionRunRecordBundle}
    {runners : List ExecutionRunnerRecord}
    (h : (evaluateSchedulerAuthority input bundle runners).futureMutation = .localClaim ∨
      (evaluateSchedulerAuthority input bundle runners).futureMutation = .schedulerReassignExpiredLease) :
    Claimable runners input.now bundle := by
  cases ha : getActiveExecutionRunLease bundle with
  | none => exact .inl ha
  | some lease =>
    unfold evaluateSchedulerAuthority at h
    simp only [ha] at h
    split at h
    · rename_i hfree
      simp only [Bool.and_eq_true, Bool.or_eq_true, beq_iff_eq] at hfree
      exact .inr ⟨lease, ha, hfree.1, not_live_of_freshness hfree.2⟩
    · rcases h with h | h <;> cases h

/-! ## What a claim does -/

/-- A claim ends expired leases only, and adds the lease of the local runner to leases that are all inactive. -/
structure ClaimEffect (input : SchedulerClaimInput) (bundle bundle' : ExecutionRunRecordBundle) : Prop where
  claimable : Claimable input.runners input.claimAt bundle
  leases : ∃ earlier lease, bundle'.leases = earlier ++ [lease] ∧ (∀ l ∈ earlier, l.status ≠ .active) ∧
    lease.status = .active ∧ truthy input.localRunnerId = some lease.ownerId

/-- The write of a claim. -/
def claimGuarantee (input : SchedulerClaimInput) (_ : Point) (s s' : RunContents) : Prop :=
  ∃ record stored, s = some record ∧ s' = some stored ∧ ClaimEffect input record.value stored.value

/-- What a claim that reports that the run is claimed has written. -/
def claimReport (input : SchedulerClaimInput) (r : Except RuntimeError SchedulerClaimResult) (s : RunContents) : Prop :=
  ∀ result, r = .ok result → result.claimed = true → ∃ record ∈ s, ∃ lease ∈ record.value.leases,
    lease.status = .active ∧ truthy input.localRunnerId = some lease.ownerId ∧ result.newLeaseId = some lease.id ∧
      ∀ l ∈ record.value.leases, l.status = .active → l = lease

theorem not_claimed {status : SchedulerClaimStatus} {reason : String} {evaluation : SchedulerAuthorityEvaluation}
    {previousLease : Option ExecutionRunLease} {input : SchedulerClaimInput} {s : RunContents}
    (h : (status == .claimed || status == .reassigned) = false) :
    claimReport input (.ok (unclaimed status reason evaluation previousLease)) s := by
  intro result he hc
  cases he
  rw [SchedulerClaimResult.claimed, unclaimed, h] at hc
  cases hc

section Claimed

variable {bundle : ExecutionRunRecordBundle} {revision : Nat} {input : SchedulerClaimInput} {localRunnerId : String}
  {previousLease : Option ExecutionRunLease} {decision : SchedulerAuthorityDecision} {futureMutation : FutureMutation}
  {claim : ExecutionRunRecordBundle × ExecutionRunLease}

/-- The bundle of a claim ends with the active lease of the local runner, after leases that are all inactive. -/
theorem claimBundle_leases
    (h : claimBundle bundle revision input localRunnerId previousLease decision futureMutation = .ok claim)
    (hlocal : truthy input.localRunnerId = some localRunnerId) :
    claim.1.leases = bundle.leases ++ [claim.2] ∧ (∀ l ∈ bundle.leases, l.status ≠ .active) ∧
      claim.2.status = .active ∧ truthy input.localRunnerId = some claim.2.ownerId := by
  obtain ⟨acquireInput, acquired, ha, howner, hlease, he⟩ := claimBundle_eq_ok h
  obtain ⟨hn, hab, -, hao, has⟩ := acquireExecutionRunLease_eq_ok ha
  refine ⟨?_, getActiveExecutionRunLease_eq_none hn, by rw [hlease, has], by rw [hlocal, hlease, hao, howner]⟩
  rw [he, hlease]
  show acquired.bundle.leases = _
  rw [hab]
  rfl

/-- A claim that was persisted reports the only active lease. -/
theorem claimReport_persisted {evaluation : SchedulerAuthorityEvaluation} {stored : ExecutionRunStoredRecord}
    {earlier : List ExecutionRunLease} {lease : ExecutionRunLease}
    (hleases : stored.value.leases = earlier ++ [lease]) (hbefore : ∀ l ∈ earlier, l.status ≠ .active)
    (hactive : lease.status = .active) (howned : truthy input.localRunnerId = some lease.ownerId) :
    claimReport input (.ok (persistedClaim localRunnerId evaluation previousLease lease)) (some stored) := by
  intro result he _
  cases he
  refine ⟨stored, rfl, lease, by simp [hleases], hactive, howned, rfl, fun l hm hl => ?_⟩
  rw [hleases] at hm
  rcases List.mem_append.mp hm with hm | hm
  · exact absurd hl (hbefore l hm)
  · exact List.mem_singleton.mp hm

end Claimed

theorem persistSchedulerClaim_ensures {input : SchedulerClaimInput} {localRunnerId : String}
    {inspected : ExecutionRunStoredRecord} {evaluation : SchedulerAuthorityEvaluation}
    (hlocal : truthy input.localRunnerId = some localRunnerId) {s : RunContents}
    (h : ∀ latest : ExecutionRunStoredRecord, Later s (some latest) → latest.revision = inspected.revision →
      Claimable input.runners input.claimAt latest.value) :
    (persistSchedulerClaim input localRunnerId inspected evaluation).Ensures (laterRely _ _) (claimGuarantee input)
      (claimReport input) s := by
  intro s' hs
  cases s' with
  | none => exact not_claimed rfl
  | some latest =>
    show Program.Ensures _ _ _ (if _ then _ else _) _
    split
    · exact not_claimed rfl
    · rename_i hrev
      have hc := h latest hs (not_not.mp hrev)
      split
      · exact not_claimed rfl
      · split
        · exact not_claimed rfl
        · rename_i freed hfree
          cases hclaim : claimBundle freed latest.revision input localRunnerId
              (getActiveExecutionRunLease inspected.value) evaluation.decision evaluation.futureMutation with
          | error e =>
            intro result he
            cases he
          | ok claim =>
            obtain ⟨hleases, hbefore, hactive, howned⟩ := claimBundle_leases hclaim hlocal
            show Program.Ensures _ _ _ ((persistRun input.runId claim.1 (some latest.revision)).outcome >>= _) _
            unfold persistRun
            split
            · exact not_claimed rfl
            · intro s'' hs''
              refine ⟨fun _ _ => not_claimed rfl, fun stored hw => ?_⟩
              have hstored : stored.value.leases = freed.leases ++ [claim.2] := by
                rw [(attempt_eq_ok hw).2]
                exact hleases
              refine ⟨⟨latest, stored, (Later.eq_of_attempt hs'' hw).symm, rfl, hc, ?_⟩, ?_⟩
              · exact ⟨freed.leases, claim.2, hstored, hbefore, hactive, howned⟩
              · show Program.Ensures _ _ _ (Program.ofExcept input.recordRunnerActivity >>= _) _
                cases input.recordRunnerActivity with
                | error e =>
                  intro result he
                  cases he
                | ok _ => exact claimReport_persisted hstored hbefore hactive howned

/-- **What a claim guarantees**, whatever the others write between its reads. -/
theorem claim_ensures (input : SchedulerClaimInput) (s : RunContents) :
    (claimLocalRunWithSchedulerAuthority input).Ensures (laterRely _ _) (claimGuarantee input) (claimReport input) s := by
  have hblocked : ∀ {status : SchedulerClaimStatus} {reason : String} {s : RunContents},
      (status == .claimed || status == .reassigned) = false →
      claimReport input (.ok { status, reason }) s := by
    intro status reason s h result he hc
    cases he
    rw [SchedulerClaimResult.claimed, h] at hc
    cases hc
  unfold claimLocalRunWithSchedulerAuthority
  split
  · exact hblocked rfl
  · rename_i localRunnerId hlocal
    intro s₁ _
    cases s₁ with
    | none => exact hblocked rfl
    | some inspected =>
      intro s₂ h₁₂
      cases s₂ with
      | none => exact hblocked rfl
      | some evaluated =>
        show Program.Ensures _ _ _ (if _ then _ else _) _
        split
        · exact not_claimed rfl
        · rename_i hmutates
          refine persistSchedulerClaim_ensures hlocal fun latest h₂₃ hrev => ?_
          -- the three reads have one revision, so they are the same record
          have h₁ : inspected.revision ≤ evaluated.revision := h₁₂.revision_le
          have h₂ : evaluated.revision ≤ latest.revision := h₂₃.revision_le
          have he : evaluated = latest := by
            have hr : revisionOf (some latest) = revisionOf (some evaluated) := by
              show latest.revision = evaluated.revision
              omega
            simpa using h₂₃.eq_of_revision hr
          rw [← he]
          push Not at hmutates
          exact evaluateSchedulerAuthority_claimable hmutates.1

/-! ## Every interleaving -/

/-- What the claims guarantee; nothing is asked of other processes. -/
def processGuarantee : Process → Point → RunContents → RunContents → Prop
  | .claim input => claimGuarantee input
  | _ => fun _ _ _ => True

def processReport : Process → Except RuntimeError Reply → RunContents → Prop
  | .claim input => fun r s => ∀ result, r = .ok (.claimed result) → claimReport input (.ok result) s
  | _ => fun _ _ => True

theorem Process.ensures (process : Process) (s : RunContents) :
    process.program.Ensures (laterRely _ _) (processGuarantee process) (processReport process) s := by
  cases process with
  | claim input =>
    refine Program.Ensures.bind (fun result s' h => ?_) (fun e s' _ result he => ?_) (claim_ensures input s)
    · intro result' he
      cases he
      exact h
    · cases he
  | _ => exact Program.ensures_true _ _

variable {ι : Type} [DecidableEq ι] {contents : RunContents} {process : ι → Process}

theorem sound_claims {c : RunConfig ι} (h : (atomic (startedFrom contents process)).Reachable c) (i : ι) :
    Sound (fun _ => laterRely _ _) (fun i => processGuarantee (process i)) (fun i => processReport (process i)) c i := by
  have h0 : ∀ i, ((startedFrom contents process).program i).Ensures (laterRely _ _) (processGuarantee (process i))
      (processReport (process i)) (startedFrom contents process).contents := fun i => Process.ensures (process i) contents
  have hr : ((atomic (startedFrom contents process)).restrict fun _ _ => True).Reachable c := h.restrict fun _ _ => trivial
  exact sound_of_reachable h0 (fun _ _ _ _ _ _ _ hlt _ _ _ _ _ => .inr hlt) hr i

/-- **The safety of a scheduler's claim**, of a run stored in any way and any runners the registry lists, among any
other processes with atomic writes. -/
theorem claim_safe {c c' : RunConfig ι} {i : ι} (h : (atomic (startedFrom contents process)).Reachable c)
    (ha : c.call i = some c') {input : SchedulerClaimInput} (hp : process i = .claim input) :
    (∀ stored, c.commits i = some stored → ∃ record, c.contents = some record ∧
      Claimable input.runners input.claimAt record.value ∧
      ((∀ first ∈ contents, OnlyLastActive first.value.leases) → ∀ lease ∈ record.value.leases, lease.status = .active →
        ¬LiveOwner input.runners lease.ownerId)) ∧
    ∀ result, c'.program i = .done (.ok (.claimed result)) → result.claimed = true →
      ∃ record, c'.contents = some record ∧ ∃ lease ∈ record.value.leases, lease.status = .active ∧
        truthy input.localRunnerId = some lease.ownerId ∧ result.newLeaseId = some lease.id ∧
        ∀ l ∈ record.value.leases, l.status = .active → l = lease := by
  have hs := sound_claims h i
  refine ⟨fun stored hw => ?_, fun result hd hc => ?_⟩
  · obtain ⟨record, hm, hclaimable⟩ : ∃ record, c.contents = some record ∧
        Claimable input.runners input.claimAt record.value := by
      rcases Config.call_cases ha with ⟨_, _, hprog, -⟩ | ⟨_, _, _, _, _, hprog, hatt, -⟩ |
        ⟨_, _, _, _, stored', hprog, hatt, -⟩
      · simp [Config.commits, hprog] at hw
      · simp [Config.commits, hprog, hatt, Except.toOption] at hw
      · have hg := hs.guarantee hprog hatt
        rw [hp] at hg
        obtain ⟨record, _, hm, -, he⟩ := hg
        exact ⟨record, hm, he.claimable⟩
    refine ⟨record, hm, hclaimable, fun hone lease hl hst hlive => ?_⟩
    have hstored : OnlyLastActive record.value.leases :=
      stored_of_reachable (I := fun b => OnlyLastActive b.leases) (fun _ _ hb ho => ho.onlyLastActive hb) hone
        (fun _ run _ => by rw [run.leases]; exact onlyLastActive_nil) (Reachable.interleaved h) record hm
    rcases hclaimable with hn | ⟨active, hactive, -, hdead⟩
    · exact getActiveExecutionRunLease_eq_none hn lease hl hst
    · obtain ⟨hma, hsa⟩ := getActiveExecutionRunLease_eq_some hactive
      rw [hstored.unique hl hma hst hsa] at hlive
      exact hdead hlive
  · have he := hs.ensures ha
    rw [hd, hp] at he
    obtain ⟨record, hm, hlease⟩ := he result rfl result rfl hc
    exact ⟨record, hm, hlease⟩

/-! ## A reassigned run -/

/-- The run, held by a lease whose owner is not registered. -/
def abandonedRun : ExecutionRunRecordBundle :=
  { oneStepRun.bundle with
    leases := [⟨"lease-x", "run", "gone", .active, "t0", "t0", "t1", none, none⟩] }

def reassignment : SchedulerClaimInput where
  runId := "run"
  schedulerId := "scheduler"
  localRunnerId := some "runner-a"
  claimAt := "t5"
  runners := [⟨"runner-a", "host", .active, "t4", "t9", [], [], [], [], false⟩]
  createRunAffinity _ := none
  localeCompare _ _ := 0
  dates := ⟨fun _ => none, fun _ => ""⟩

def claimResult : Call Reply → Option SchedulerClaimResult
  | .done (.ok (.claimed result)) => some result
  | _ => none

theorem claimResult_eq_some {p : Call Reply} {result : SchedulerClaimResult} (h : claimResult p = some result) :
    p = .done (.ok (.claimed result)) := by
  unfold claimResult at h
  split at h
  · cases h
    rfl
  · cases h

def beforeReassignment : RunConfig Unit :=
  (execute Config.call (startedFrom (some ⟨1, abandonedRun⟩) fun _ => .claim reassignment) [(), (), ()]).get (by decide +kernel)

def afterReassignment : RunConfig Unit := (beforeReassignment.call ()).get (by decide +kernel)

/-- The claim reports that it has reassigned the run, and its lease is the only active one. -/
theorem claim_safe_reassignment : ∃ record, afterReassignment.contents = some record ∧
    ∃ lease ∈ record.value.leases, lease.ownerId = "runner-a" ∧ ∀ l ∈ record.value.leases, l.status = .active → l = lease := by
  have h0 : (atomic (startedFrom (some ⟨1, abandonedRun⟩) fun _ : Unit => .claim reassignment)).Reachable
      (startedFrom (some ⟨1, abandonedRun⟩) fun _ => .claim reassignment) := .init rfl
  have hr : (atomic (startedFrom (some ⟨1, abandonedRun⟩) fun _ : Unit => .claim reassignment)).Reachable
      beforeReassignment := reachable_get h0 _
  have hclaimed : (claimResult (afterReassignment.program ())).map (·.claimed) = some true := by decide +kernel
  obtain ⟨result, hres, hc⟩ := Option.map_eq_some_iff.mp hclaimed
  obtain ⟨record, hm, lease, hl, -, howner, -, honly⟩ :=
    (claim_safe (i := ()) hr (Option.some_get _).symm rfl).2 result (claimResult_eq_some hres) hc
  exact ⟨record, hm, lease, hl, (Option.some.inj howner).symm, honly⟩

end AuraCall.Runtime
