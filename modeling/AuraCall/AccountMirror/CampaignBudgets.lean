import AuraCall.AccountMirror.Campaign

/-!
# The budgets of an advancement

`advanceSelectedTargets` of the reconciliation campaign service: the first pass attaches completions that are active already,
whatever the budgets are; the second starts children, and every start must be allowed by the targets that are active after
the first pass and by the starts before it (`StartAllowed`).

The invariant of the second pass is that its budgets are those of the attached targets, with each start so far used
(`startTargets_run`).
-/

namespace AuraCall.AccountMirror

variable {σ : Type} (services : CampaignServices σ)

/-! ## Targets -/

/-- A target that has a child. -/
def HasChild (target : Target) : Prop := (target.completionId.filter (· != "")).isSome = true

section Targets

variable {services} {s : σ} {now : String} {policy : CampaignPolicy}

theorem mem_of_activeOperation {active : List CompletionOperation} {target : Target} {operation : CompletionOperation}
    (h : activeOperation active target = some operation) : operation ∈ active :=
  List.mem_reverse.1 (List.mem_of_find?_eq_some h)

/-- A target is left alone, or an active operation of its own is attached to it. -/
theorem attachTarget_cases (services : CampaignServices σ) (s : σ) (now : String) (policy : CampaignPolicy)
    (active : List CompletionOperation) (target : Target) :
    attachTarget services active policy now s target = (target, s) ∨
      ∃ operation, activeOperation active target = some operation ∧
        attachTarget services active policy now s target =
          attachOrUpgradeActiveTarget services s target operation policy now := by
  unfold attachTarget
  cases target.selected with
  | false => exact .inl rfl
  | true =>
    cases hactive : activeOperation active target with
    | none =>
      refine .inl ?_
      cases target.completionId.filter (· != "") with
      | none => rfl
      | some completionId =>
        simp only [Bool.not_true, Bool.false_eq_true, if_false]
        split <;> rfl
    | some operation =>
      cases target.completionId.filter (· != "") with
      | none =>
        simp only [Bool.not_true, Bool.false_eq_true, if_false]
        split
        · exact .inl rfl
        · exact .inr ⟨operation, rfl, rfl⟩
      | some completionId =>
        simp only [Bool.not_true, Bool.false_eq_true, if_false]
        split
        · split
          · exact .inl rfl
          · exact .inr ⟨operation, rfl, rfl⟩
        · split
          · exact .inl rfl
          · exact .inr ⟨operation, rfl, rfl⟩

/-- A target that has a child, or that could not be given one, is left alone. -/
theorem startTarget_of_not_left {maxActiveTargets : Option Nat} {pass : StartPass σ} {target : Target}
    (h : ¬ (target.selected = true ∧ target.state = .eligible ∧ ¬ HasChild target)) :
    startTarget services maxActiveTargets policy now pass target = (target, pass) := by
  unfold startTarget
  rw [if_pos]
  simp only [Bool.or_eq_true, Bool.not_eq_true', bne_iff_ne, ne_eq]
  by_cases hselected : target.selected = true
  · by_cases hstate : target.state = .eligible
    · exact .inr (not_not.1 fun hchild => h ⟨hselected, hstate, hchild⟩)
    · exact .inl (.inr hstate)
  · exact .inl (.inl (Bool.not_eq_true _ ▸ hselected))

end Targets

/-! ## Budgets -/

/-- The browser profile a target needs, if any. -/
def Target.profile (target : Target) : Option String := target.browserProfileId.filter (· != "")

def activeTargets (targets : List Target) : List Target :=
  targets.filter fun target => target.selected && target.execution.status.isActive

/-- `createTargetKey`. -/
def targetKey (target : Target) : Provider × String := (target.provider, target.runtimeProfileId)

/-- The budgets leave room for the target. -/
structure Budgets.Allow (maxActiveTargets : Option Nat) (budgets : Budgets) (target : Target) : Prop where
  fewer : ∀ limit ∈ maxActiveTargets, budgets.activeTargetCount < limit
  profile : ∀ profile ∈ target.profile, profile ∉ budgets.activeBrowserProfiles
  provider : target.provider ∉ budgets.activeProviders

theorem Budgets.allow_iff {maxActiveTargets : Option Nat} {budgets : Budgets} {target : Target} :
    budgets.Allow maxActiveTargets target ↔ maxActiveTargets.any (· ≤ budgets.activeTargetCount) = false ∧
      (target.browserProfileId.filter (· != "")).any budgets.activeBrowserProfiles.contains = false ∧
      budgets.activeProviders.contains target.provider = false := by
  have hprovider : budgets.activeProviders.contains target.provider = false ↔
      target.provider ∉ budgets.activeProviders := by simp
  have hprofile : (target.browserProfileId.filter (· != "")).any budgets.activeBrowserProfiles.contains = false ↔
      ∀ profile ∈ target.profile, profile ∉ budgets.activeBrowserProfiles := by
    unfold Target.profile
    cases target.browserProfileId.filter (· != "") <;> simp
  have hfewer : maxActiveTargets.any (· ≤ budgets.activeTargetCount) = false ↔
      ∀ limit ∈ maxActiveTargets, budgets.activeTargetCount < limit := by
    cases maxActiveTargets <;> simp
  rw [hprovider, hprofile, hfewer]
  exact ⟨fun h => ⟨h.fewer, h.profile, h.provider⟩, fun h => ⟨h.1, h.2.1, h.2.2⟩⟩

/-- A child could be started for the target. -/
structure Startable (target : Target) : Prop where
  selected : target.selected = true
  eligible : target.state = .eligible
  childless : ¬HasChild target

section Used

variable {budgets : Budgets} {targets : List Target}

@[simp] theorem used_count : (targets.foldl Budgets.use budgets).activeTargetCount =
    budgets.activeTargetCount + targets.length := by
  induction targets generalizing budgets with
  | nil => rfl
  | cons target targets ih =>
    rw [List.foldl_cons, ih, List.length_cons]
    show budgets.activeTargetCount + 1 + targets.length = _
    omega

@[simp] theorem mem_used_providers {provider : Provider} :
    provider ∈ (targets.foldl Budgets.use budgets).activeProviders ↔
      provider ∈ budgets.activeProviders ∨ ∃ target ∈ targets, target.provider = provider := by
  induction targets generalizing budgets with
  | nil => simp
  | cons target targets ih =>
    rw [List.foldl_cons, ih, Budgets.use, List.mem_cons]
    simp only [List.exists_mem_cons_iff]
    constructor
    · rintro ((rfl | h) | h)
      · exact .inr (.inl rfl)
      · exact .inl h
      · exact .inr (.inr h)
    · rintro (h | rfl | h)
      · exact .inl (.inr h)
      · exact .inl (.inl rfl)
      · exact .inr h

@[simp] theorem mem_used_profiles {profile : String} :
    profile ∈ (targets.foldl Budgets.use budgets).activeBrowserProfiles ↔
      profile ∈ budgets.activeBrowserProfiles ∨ ∃ target ∈ targets, profile ∈ target.profile := by
  induction targets generalizing budgets with
  | nil => simp
  | cons target targets ih =>
    rw [List.foldl_cons, ih, Budgets.use, List.mem_append, Option.mem_toList]
    simp only [List.exists_mem_cons_iff]
    constructor
    · rintro ((h | h) | h)
      · exact .inr (.inl h)
      · exact .inl h
      · exact .inr (.inr h)
    · rintro (h | h | h)
      · exact .inl (.inr h)
      · exact .inl (.inl h)
      · exact .inr h

end Used

/-! ## The second pass -/

section Starts

variable (maxActiveTargets : Option Nat) (policy : CampaignPolicy) (now : String)

/-- The targets a completion is started for, in order. -/
def startedTargets : StartPass σ → List Target → List Target
  | _, [] => []
  | pass, target :: targets =>
    let next := (startTarget services maxActiveTargets policy now pass target).2
    if next.started = pass.started then startedTargets next targets else target :: startedTargets next targets

variable {services maxActiveTargets policy now} {pass : StartPass σ} {target : Target} {targets : List Target}

/-- **What is done with a target**: it is left alone, deferred, or a completion is started for it. -/
theorem startTarget_cases (services : CampaignServices σ) (maxActiveTargets : Option Nat) (policy : CampaignPolicy)
    (now : String) (pass : StartPass σ) (target : Target) :
    ¬Startable target ∧ startTarget services maxActiveTargets policy now pass target = (target, pass) ∨
    (Startable target ∧ ¬pass.budgets.Allow maxActiveTargets target ∧
      (startTarget services maxActiveTargets policy now pass target).2 = pass ∧
      (startTarget services maxActiveTargets policy now pass target).1.execution.status = .deferred) ∨
    (Startable target ∧ pass.budgets.Allow maxActiveTargets target ∧ ∃ id,
      (startTarget services maxActiveTargets policy now pass target).2.budgets = pass.budgets.use target ∧
      (startTarget services maxActiveTargets policy now pass target).2.started = pass.started ++ [id] ∧
      (startTarget services maxActiveTargets policy now pass target).1.completionId = some id) := by
  by_cases hstartable : Startable target
  · have hleft : ¬(!target.selected || target.state != .eligible || (target.completionId.filter (· != "")).isSome) = true := by
      have hchild : (target.completionId.filter (· != "")).isSome = false := Bool.not_eq_true _ ▸ hstartable.childless
      rw [hstartable.selected, hstartable.eligible, hchild]
      decide
    refine .inr ?_
    rw [Budgets.allow_iff]
    unfold startTarget
    rw [if_neg hleft]
    split
    next hmany => exact .inl ⟨hstartable, fun h => absurd hmany (Bool.not_eq_true _ ▸ h.1), rfl, rfl⟩
    next hfew =>
      split
      next hprofile => exact .inl ⟨hstartable, fun h => absurd hprofile (Bool.not_eq_true _ ▸ h.2.1), rfl, rfl⟩
      next hprofile =>
        split
        next hprovider => exact .inl ⟨hstartable, fun h => absurd hprovider (Bool.not_eq_true _ ▸ h.2.2), rfl, rfl⟩
        next hprovider =>
          exact .inr ⟨hstartable, ⟨Bool.not_eq_true _ ▸ hfew, Bool.not_eq_true _ ▸ hprofile,
            Bool.not_eq_true _ ▸ hprovider⟩, _, rfl, rfl, rfl⟩
  · exact .inl ⟨hstartable, startTarget_of_not_left fun h => hstartable ⟨h.1, h.2.1, h.2.2⟩⟩

theorem startedTargets_cons_of_same (targets : List Target)
    (h : (startTarget services maxActiveTargets policy now pass target).2 = pass) :
    startedTargets services maxActiveTargets policy now pass (target :: targets) =
      startedTargets services maxActiveTargets policy now pass targets := by
  rw [startedTargets, h, if_pos rfl]

theorem startedTargets_cons_of_started (targets : List Target) {id : String}
    (h : (startTarget services maxActiveTargets policy now pass target).2.started = pass.started ++ [id]) :
    startedTargets services maxActiveTargets policy now pass (target :: targets) =
      target :: startedTargets services maxActiveTargets policy now
        (startTarget services maxActiveTargets policy now pass target).2 targets := by
  have hne : (startTarget services maxActiveTargets policy now pass target).2.started ≠ pass.started := by
    rw [h]
    simp
  rw [startedTargets, if_neg hne]

/-- What a second pass does: its budgets are those before with every start used, and every start is allowed by them. -/
structure StartRun (services : CampaignServices σ) (maxActiveTargets : Option Nat) (policy : CampaignPolicy) (now : String)
    (pass : StartPass σ) (targets : List Target) (started : List Target) : Prop where
  allowed : ∀ before target after, started = before ++ target :: after →
    Startable target ∧ (before.foldl Budgets.use pass.budgets).Allow maxActiveTargets target
  distinct : (started.map (·.provider)).Nodup ∧ ∀ target ∈ started, target.provider ∉ pass.budgets.activeProviders
  count : (startTargets services maxActiveTargets policy now pass targets).2.started.length =
    pass.started.length + started.length
  grows : pass.started ⊆ (startTargets services maxActiveTargets policy now pass targets).2.started
  active : (activeTargets (startTargets services maxActiveTargets policy now pass targets).1).length ≤
    (activeTargets targets).length + started.length
  outcomes : List.Forall₂ (fun target target' =>
      (¬Startable target → target' = target) ∧
      (Startable target → target'.execution.status = .deferred ∨
        ∃ id ∈ (startTargets services maxActiveTargets policy now pass targets).2.started, target'.completionId = some id))
    targets (startTargets services maxActiveTargets policy now pass targets).1

theorem length_activeTargets_cons (target : Target) (targets : List Target) :
    (activeTargets (target :: targets)).length =
      (if target.selected && target.execution.status.isActive then 1 else 0) + (activeTargets targets).length := by
  unfold activeTargets
  rw [List.filter_cons]
  split
  · rw [List.length_cons, Nat.add_comm]
  · rw [Nat.zero_add]

/-- A target that is left alone or deferred. -/
theorem StartRun.cons_same {started : List Target}
    (hpass : (startTarget services maxActiveTargets policy now pass target).2 = pass)
    (hkept : ¬Startable target → (startTarget services maxActiveTargets policy now pass target).1 = target)
    (hdeferred : Startable target →
      (startTarget services maxActiveTargets policy now pass target).1.execution.status = .deferred)
    (h : StartRun services maxActiveTargets policy now pass targets started) :
    StartRun services maxActiveTargets policy now pass (target :: targets) started := by
  have hrun : startTargets services maxActiveTargets policy now pass (target :: targets) =
      ((startTarget services maxActiveTargets policy now pass target).1 ::
        (startTargets services maxActiveTargets policy now pass targets).1,
        (startTargets services maxActiveTargets policy now pass targets).2) := by
    rw [startTargets]
    simp only [hpass]
  have hidle : (activeTargets [(startTarget services maxActiveTargets policy now pass target).1]).length ≤
      (activeTargets [target]).length := by
    by_cases hstartable : Startable target
    · simp [activeTargets, hdeferred hstartable, TargetExecutionStatus.isActive]
    · rw [hkept hstartable]
  refine ⟨h.allowed, h.distinct, ?_, ?_, ?_, ?_⟩
  · rw [hrun]
    exact h.count
  · rw [hrun]
    exact h.grows
  · have hactive := h.active
    rw [length_activeTargets_cons, length_activeTargets_cons] at hidle
    rw [hrun, length_activeTargets_cons, length_activeTargets_cons]
    omega
  · rw [hrun]
    exact .cons ⟨hkept, fun hstartable => .inl (hdeferred hstartable)⟩ h.outcomes

theorem StartRun.cons_started {started : List Target} {id : String} (hstartable : Startable target)
    (hallow : pass.budgets.Allow maxActiveTargets target)
    (hbudgets : (startTarget services maxActiveTargets policy now pass target).2.budgets = pass.budgets.use target)
    (hstarted : (startTarget services maxActiveTargets policy now pass target).2.started = pass.started ++ [id])
    (hid : (startTarget services maxActiveTargets policy now pass target).1.completionId = some id)
    (h : StartRun services maxActiveTargets policy now
      (startTarget services maxActiveTargets policy now pass target).2 targets started) :
    StartRun services maxActiveTargets policy now pass (target :: targets) (target :: started) := by
  have hrun : startTargets services maxActiveTargets policy now pass (target :: targets) =
      ((startTarget services maxActiveTargets policy now pass target).1 ::
        (startTargets services maxActiveTargets policy now
          (startTarget services maxActiveTargets policy now pass target).2 targets).1,
        (startTargets services maxActiveTargets policy now
          (startTarget services maxActiveTargets policy now pass target).2 targets).2) := rfl
  have hgrows := h.grows
  rw [hstarted] at hgrows
  refine ⟨?_, ⟨?_, ?_⟩, ?_, ?_, ?_, ?_⟩
  · intro before other after hsplit
    rcases List.cons_eq_append_iff.1 hsplit with ⟨rfl, hsame⟩ | ⟨before', rfl, hrest⟩
    · cases hsame
      exact ⟨hstartable, hallow⟩
    · have hother := h.allowed before' other after hrest
      rwa [hbudgets] at hother
  · rw [List.map_cons, List.nodup_cons]
    refine ⟨fun hmem => ?_, h.distinct.1⟩
    obtain ⟨other, hother, hprovider⟩ := List.mem_map.1 hmem
    apply h.distinct.2 other hother
    rw [hbudgets, hprovider]
    exact List.mem_cons_self
  · intro other hother
    rcases List.mem_cons.1 hother with rfl | hother
    · exact hallow.provider
    · have hfree := h.distinct.2 other hother
      rw [hbudgets] at hfree
      exact fun hmem => hfree (List.mem_cons_of_mem _ hmem)
  · rw [hrun, h.count, hstarted, List.length_append, List.length_singleton, List.length_cons]
    omega
  · rw [hrun]
    exact fun _ hmem => hgrows (List.mem_append_left _ hmem)
  · have hactive := h.active
    rw [hrun, length_activeTargets_cons, length_activeTargets_cons, List.length_cons]
    split <;> omega
  · rw [hrun]
    refine .cons ⟨fun hnot => absurd hstartable hnot, fun _ => .inr ⟨id, ?_, hid⟩⟩ h.outcomes
    exact hgrows (List.mem_append_right _ (List.mem_singleton_self id))

/-- **The second pass.** -/
theorem startTargets_run (pass : StartPass σ) (targets : List Target) :
    StartRun services maxActiveTargets policy now pass targets
      (startedTargets services maxActiveTargets policy now pass targets) := by
  induction targets generalizing pass with
  | nil =>
    refine ⟨fun before target after h => ?_, ⟨List.nodup_nil, fun _ h => absurd h List.not_mem_nil⟩, rfl,
      fun _ h => h, Nat.le_refl _, .nil⟩
    exact absurd h.symm (List.append_ne_nil_of_right_ne_nil _ (List.cons_ne_nil _ _))
  | cons target targets ih =>
    rcases startTarget_cases services maxActiveTargets policy now pass target with
      ⟨hnot, hsame⟩ | ⟨hstartable, -, hpass, hstatus⟩ | ⟨hstartable, hallow, id, hbudgets, hstarted, hid⟩
    · have hpass := congrArg Prod.snd hsame
      rw [startedTargets_cons_of_same targets hpass]
      exact (ih pass).cons_same hpass (fun _ => congrArg Prod.fst hsame) fun h => absurd h hnot
    · rw [startedTargets_cons_of_same targets hpass]
      exact (ih pass).cons_same hpass (fun h => absurd hstartable h) fun _ => hstatus
    · rw [startedTargets_cons_of_started targets hstarted]
      exact (ih _).cons_started hstartable hallow hbudgets hstarted hid

end Starts

/-! ## The first pass -/

section Attached

variable {services} {s : σ} {policy : CampaignPolicy} {now : String}

theorem attachOrUpgrade_completionId {target : Target} {operation : CompletionOperation} :
    (attachOrUpgradeActiveTarget services s target operation policy now).1.completionId = some operation.id := by
  have hattach : ∀ (attached : CompletionOperation) (patch : ExecutionPatch),
      (withTargetExecution
        (resetMaterializationEvidenceWhenChildChanges
          { target with
            activeCompletionId := some attached.id
            completionId := some attached.id
            materializationJobId := attached.materializationCursor.map (·.jobId) }
          target attached) patch).completionId = some attached.id := by
    intro attached patch
    unfold resetMaterializationEvidenceWhenChildChanges
    simp only
    split <;> rfl
  unfold attachOrUpgradeActiveTarget
  simp only
  split
  next upgrade hupgrade =>
    split
    next => exact hattach operation _
    next =>
      cases hresult : (upgrade s operation.id (childRequest policy)).1 with
      | none => exact hattach operation _
      | some upgraded =>
        rw [Option.getD_some, ← services.id_of_upgradePolicy hupgrade hresult]
        exact hattach upgraded _
  next => exact hattach operation _

/-- The target has one of the active operations of its key as its child. -/
def AttachedTo (active : List CompletionOperation) (target target' : Target) : Prop :=
  ∃ operation ∈ active, operation.provider = target.provider ∧ operation.runtimeProfileId = target.runtimeProfileId ∧
    target'.completionId = some operation.id

theorem attachTarget_outcome (active : List CompletionOperation) (s : σ) (target : Target) :
    (attachTarget services active policy now s target).1 = target ∨
      AttachedTo active target (attachTarget services active policy now s target).1 := by
  rcases attachTarget_cases services s now policy active target with h | ⟨operation, hactive, h⟩
  · rw [h]
    exact .inl rfl
  · rw [h]
    have hkey := List.find?_some hactive
    simp only [Bool.and_eq_true, beq_iff_eq] at hkey
    exact .inr ⟨operation, mem_of_activeOperation hactive, hkey.1, hkey.2, attachOrUpgrade_completionId⟩

theorem attachTargets_outcomes (active : List CompletionOperation) : ∀ (s : σ) (targets : List Target),
    List.Forall₂ (fun target target' => target' = target ∨ AttachedTo active target target') targets
      (attachTargets services active policy now s targets).1
  | _, [] => .nil
  | s, target :: targets => .cons (attachTarget_outcome active s target) (attachTargets_outcomes active _ targets)

end Attached

/-! ## Advancements -/

section Advancements

variable (s : σ) (targets : List Target) (policy : CampaignPolicy) (filters : CampaignFilters) (now : String)

/-- The targets after the first pass. -/
def attachedTargets : List Target :=
  (attachTargets services (services.list s filters.provider filters.runtimeProfileId) policy now s targets).1

/-- The targets that an advancement starts completions for, in order. -/
def startedByAdvance : List Target :=
  let attached := attachTargets services (services.list s filters.provider filters.runtimeProfileId) policy now s targets
  startedTargets services filters.maxActiveTargets policy now ⟨Budgets.ofTargets attached.1, attached.2, []⟩ attached.1

/-- A start is allowed: fewer targets are active than may be, and none of the provider or the browser profile. -/
structure StartAllowed (maxActiveTargets : Option Nat) (attached before : List Target) (target : Target) : Prop where
  fewer : ∀ limit ∈ maxActiveTargets, (activeTargets attached).length + before.length < limit
  alone : ∀ other, other ∈ activeTargets attached ∨ other ∈ before →
    other.provider ≠ target.provider ∧ ∀ profile ∈ target.profile, profile ∉ other.profile

theorem StartAllowed.of_allow {maxActiveTargets : Option Nat} {attached before : List Target} {target : Target}
    (h : (before.foldl Budgets.use (Budgets.ofTargets attached)).Allow maxActiveTargets target) :
    StartAllowed maxActiveTargets attached before target := by
  have hof : Budgets.ofTargets attached = (activeTargets attached).foldl Budgets.use ⟨[], [], 0⟩ := rfl
  rw [hof, ← List.foldl_append] at h
  constructor
  · intro limit hlimit
    have hfewer := h.fewer limit hlimit
    rw [used_count, List.length_append, Nat.zero_add] at hfewer
    exact hfewer
  · intro other hother
    have hmem : other ∈ activeTargets attached ++ before := List.mem_append.2 hother
    refine ⟨fun hsame => h.provider ?_, fun profile hprofile hother' => h.profile profile hprofile ?_⟩
    · exact mem_used_providers.2 (.inr ⟨other, hmem, hsame⟩)
    · exact mem_used_profiles.2 (.inr ⟨other, hmem, hother'⟩)

/-- Two passes over a list, one after the other. -/
theorem forall₂_through {α β γ : Type} {R : α → β → Prop} {S : β → γ → Prop} {T : α → γ → Prop}
    (h : ∀ a b c, R a b → S b c → T a c) {as : List α} {bs : List β} {cs : List γ} (hR : List.Forall₂ R as bs)
    (hS : List.Forall₂ S bs cs) : List.Forall₂ T as cs := by
  induction hR generalizing cs with
  | nil =>
    cases hS
    exact .nil
  | cons hab _ ih =>
    cases hS with
    | cons hbc hrest => exact .cons (h _ _ _ hab hbc) (ih hrest)

/-- **An advancement keeps to its budgets.** -/
structure AdvanceWithin : Prop where
  allowed : ∀ before target after, startedByAdvance services s targets policy filters now = before ++ target :: after →
    StartAllowed filters.maxActiveTargets (attachedTargets services s targets policy filters now) before target
  /-- one completion for each started target, and one target for a key -/
  counted : (advanceSelectedTargets services s targets policy filters now).2.2.length =
    (startedByAdvance services s targets policy filters now).length
  once : ((startedByAdvance services s targets policy filters now).map targetKey).Nodup
  bounded : ∀ limit ∈ filters.maxActiveTargets,
    (activeTargets (advanceSelectedTargets services s targets policy filters now).1).length ≤
      max (activeTargets (attachedTargets services s targets policy filters now)).length limit
  handled : List.Forall₂ (fun target target' => Startable target →
      AttachedTo (services.list s filters.provider filters.runtimeProfileId) target target' ∨
      target'.execution.status = .deferred ∨
      ∃ id ∈ (advanceSelectedTargets services s targets policy filters now).2.2, target'.completionId = some id)
    targets (advanceSelectedTargets services s targets policy filters now).1

theorem advance_within_budgets : AdvanceWithin services s targets policy filters now := by
  have hrun := @startTargets_run _ services filters.maxActiveTargets policy now
    ⟨Budgets.ofTargets (attachedTargets services s targets policy filters now),
      (attachTargets services (services.list s filters.provider filters.runtimeProfileId) policy now s targets).2, []⟩
    (attachedTargets services s targets policy filters now)
  have hallowed : ∀ before target after, startedByAdvance services s targets policy filters now =
      before ++ target :: after →
      StartAllowed filters.maxActiveTargets (attachedTargets services s targets policy filters now) before target :=
    fun before target after h => .of_allow (hrun.allowed before target after h).2
  refine ⟨hallowed, ?_, ?_, ?_, ?_⟩
  · exact hrun.count.trans (Nat.zero_add _)
  · have hprovider : (startedByAdvance services s targets policy filters now).map (·.provider) =
        ((startedByAdvance services s targets policy filters now).map targetKey).map Prod.fst := by
      rw [List.map_map]
      rfl
    exact (hprovider ▸ hrun.distinct.1).of_map _
  · intro limit hlimit
    have hactive := hrun.active
    show (activeTargets (startTargets services filters.maxActiveTargets policy now _ _).1).length ≤ _
    rcases List.eq_nil_or_concat (startedByAdvance services s targets policy filters now) with hnone | ⟨before, last, hlast⟩
    · have hzero : (startedByAdvance services s targets policy filters now).length = 0 := congrArg List.length hnone
      exact le_trans (hactive.trans_eq (congrArg _ hzero)) (le_max_left _ _)
    · have hfewer := (hallowed before last [] (hlast.trans (List.concat_eq_append ..))).fewer limit hlimit
      have hlength : (startedByAdvance services s targets policy filters now).length = before.length + 1 := by
        rw [hlast, List.length_concat]
      refine le_trans (hactive.trans_eq (congrArg _ hlength)) (le_trans ?_ (le_max_right _ _))
      omega
  · have hattached := @attachTargets_outcomes _ services policy now
      (services.list s filters.provider filters.runtimeProfileId) s targets
    refine forall₂_through (fun target attached target' hattach hstart hstartable => ?_) hattached hrun.outcomes
    rcases hattach with rfl | ⟨operation, hactive, hprovider, hprofile, hchild⟩
    · exact .inr (hstart.2 hstartable)
    · refine .inl ⟨operation, hactive, hprovider, hprofile, ?_⟩
      have hnot : ¬Startable attached := by
        intro h
        apply h.childless
        rw [HasChild, hchild, Option.filter_some, if_pos (by simpa using services.id_of_list hactive)]
        rfl
      rw [hstart.1 hnot, hchild]

end Advancements

/-! ## A run over the budget -/

/-- What a control does to an operation that is under way. -/
def controlledStatus : CompletionAction → CompletionStatus
  | .pause => .paused
  | .resume => .queued
  | .cancel => .cancelled

def sampleOperation (id runtimeProfileId : String) : CompletionOperation where
  conversationIds := none
  id
  provider := .chatgpt
  runtimeProfileId
  mode := .bounded
  sweepMode := some .steadyFollow
  phase := .backfillHistory
  status := .running
  startedAt := "2026-01-01T00:00:00.000Z"
  completedAt := none
  nextAttemptAt := none
  maxPasses := some 1
  passCount := 0
  lastRefresh := none
  materializationPolicy := some .metadataOnly
  materializationAssetKinds := some [.all]
  materializationMaxItems := none
  materializationRefreshSnapshot := some true
  materializationForce := some false
  materializationCursor := none
  materializationOutcome := none
  accountLibraryCursor := none
  liveFollowCycle := none
  forceRunUntilPassCount := none
  mirrorCompleteness := none
  error := none
  lifecycleEvents := none

/-- A completion service that keeps its operations in a list. -/
def sampleServices : CampaignServices (List CompletionOperation) where
  list s _ _ := s.filter fun operation => operation.status.isActive && operation.id != ""
  read s id := s.find? (·.id == id)
  start s request :=
    let operation := sampleOperation "completion-2" (request.runtimeProfileId.getD "default")
    (operation, s ++ [operation])
  control s id action := s.map fun operation =>
    if operation.id = id ∧ operation.status.isActive = true then { operation with status := controlledStatus action }
    else operation
  upgradePolicy := none
  readJob := none
  id_of_list h := by simpa using (Bool.and_eq_true_iff.1 (List.mem_filter.1 h).2).2
  id_of_read h := by simpa using List.find?_some h
  id_of_start _ _ := (by decide : "completion-2" ≠ "")
  id_of_upgradePolicy h := nomatch h

def sampleTarget (runtimeProfileId : String) (completionId : Option String) (status : TargetExecutionStatus) :
    Target where
  provider := .chatgpt
  runtimeProfileId
  browserProfileId := none
  expectedIdentityKey := none
  detectedIdentityKey := none
  state := .eligible
  selected := true
  reason := "Eligible."
  nextEligibleAt := none
  activeCompletionId := completionId
  mirrorCompleteness := []
  completionId
  materializationJobId := none
  execution :=
    { status
      reason := "Started."
      updatedAt := none
      completionStatus := none
      passCount := none
      materializationJobStatus := none
      materializationMetrics := none
      materializedAssets := []
      terminalRouteability := none
      remainingDetailSurfaces := .null
      nextEligibleAt := none }

/-- **Attaching knows no budget**: two targets whose completions run already become active, where one may be. -/
theorem attached_beyond_budget : ¬ ∀ (σ : Type) (services : CampaignServices σ) (s : σ) (targets : List Target)
    (policy : CampaignPolicy) (filters : CampaignFilters) (now : String), ∀ limit ∈ filters.maxActiveTargets,
    (activeTargets (advanceSelectedTargets services s targets policy filters now).1).length ≤
      max (activeTargets targets).length limit := by
  intro hall
  have hbounded := hall _ sampleServices [sampleOperation "completion-1" "first", sampleOperation "completion-2" "second"]
    [sampleTarget "first" none .notStarted, sampleTarget "second" none .notStarted]
    ⟨.steadyFollow, .metadataOnly, [.all], none⟩ ⟨none, none, some 1⟩ "2026-01-01T00:00:00.000Z" 1 rfl
  revert hbounded
  decide +kernel

end AuraCall.AccountMirror
