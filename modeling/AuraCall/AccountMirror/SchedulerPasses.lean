import AuraCall.AccountMirror.StatusEntries
import AuraCall.Lib.Rotation

/-!
# Scheduler passes

A pass of the scheduler selects one of the live-follow targets that are eligible: those of the first completeness class,
and of them the one that was selected longest ago. Every pass is appended to the ledger with the target that it has
selected, whether it was refreshed or not. So the targets take turns in being selected (`passes_rotate`), and a pass
that only selects a target uses up its turn (`dry_run_takes_turn`).
-/

namespace AuraCall.AccountMirror

/-! ## Passes -/

inductive BackpressureReason
  | none | routineDelayed | providerGuard | blockedByBrowserWork | yieldedToQueuedWork | foregroundWork
  deriving DecidableEq

structure Backpressure where
  reason : BackpressureReason
  message : Option String

structure SelectedTarget where
  provider : Provider
  runtimeProfileId : String
  browserProfileId : Option String
  status : EntryStatus
  reason : String
  eligibleAt : Option String
  mirrorCompleteness : MirrorCompleteness

structure RefreshRequest where
  provider : Provider
  runtimeProfileId : String
  liveFollowOperationId : String
  materializationPolicy : Option MaterializationPolicy

structure RefreshResult where
  provider : Provider
  runtimeProfileId : String
  /-- `metadataEvidence?.attachmentInventory?.yielded === true` -/
  yielded : Bool

structure RefreshError where
  code : String
  statusCode : Nat
  message : String

inductive PassMode | dryRun | execute
  deriving DecidableEq

inductive PassAction | skipped | dryRun | refreshCompleted | refreshBlocked
  deriving DecidableEq

structure PassMetrics where
  totalTargets : Nat
  eligibleTargets : Nat
  delayedTargets : Nat
  blockedTargets : Nat
  liveFollowEnabledTargets : Nat
  liveFollowEligibleTargets : Nat
  liveFollowDelayedTargets : Nat
  inProgressEligibleTargets : Nat

structure SchedulerPassResult where
  mode : PassMode
  action : PassAction
  startedAt : IsoTime
  completedAt : IsoTime
  selectedTarget : Option SelectedTarget
  backpressure : Backpressure
  metrics : PassMetrics
  refresh : Option RefreshResult
  error : Option RefreshError

structure PassHistory where
  updatedAt : Option IsoTime
  limit : Nat
  entries : List SchedulerPassResult

/-- `${provider}:${runtimeProfileId}`. -/
def schedulerTargetKey (provider : Provider) (runtimeProfileId : String) : String :=
  provider.text ++ ":" ++ runtimeProfileId

/-- Whose entry it is. -/
def StatusEntry.target (entry : StatusEntry) : Provider × String := (entry.provider, entry.runtimeProfileId)

def RefreshRequest.target (request : RefreshRequest) : Provider × String := (request.provider, request.runtimeProfileId)

/-! ## Choosing a target -/

/-- `pass.selectedTarget ?? pass.refresh`. -/
def SchedulerPassResult.selected (pass : SchedulerPassResult) : Option (Provider × String) :=
  (pass.selectedTarget.map fun target => (target.provider, target.runtimeProfileId)) <|>
    pass.refresh.map fun refresh => (refresh.provider, refresh.runtimeProfileId)

/-- `createRecentSelectionMap`: the first pass of the history that has selected the target. -/
def createRecentSelectionMap (history : Option PassHistory) (key : String) : Option Int :=
  ((history.elim [] (·.entries)).find? fun pass =>
    (pass.selected.map fun target => schedulerTargetKey target.1 target.2) = some key).map (·.completedAt.ms)

def recentSelectionPriority (history : Option PassHistory) (entry : StatusEntry) : Int :=
  (createRecentSelectionMap history (schedulerTargetKey entry.provider entry.runtimeProfileId)).getD 0

def completenessPriority (entry : StatusEntry) : Nat :=
  match entry.mirrorCompleteness.state with
  | .inProgress => 0
  | .unknown => 1
  | .none => 2
  | .complete => 3

def remainingDetailSurfaces (entry : StatusEntry) : Int := entry.mirrorCompleteness.remainingTotal.getD 0

section Choice

variable (localeCompare : String → String → Ordering) (history : Option PassHistory)

def compareSchedulerTargets (a b : StatusEntry) : Ordering :=
  (compare (completenessPriority a) (completenessPriority b)).then
    ((compare (recentSelectionPriority history a) (recentSelectionPriority history b)).then
      ((compare (remainingDetailSurfaces b) (remainingDetailSurfaces a)).then
        (localeCompare a.runtimeProfileId b.runtimeProfileId)))

def chooseSchedulerTarget (entries : List StatusEntry) : Option StatusEntry :=
  (entries.insertionSort fun a b => compareSchedulerTargets localeCompare history a b ≠ .gt).head?

end Choice

/-! ## One pass -/

/-- What a pass is asked, and what it finds: the entries of the registry, which of them can be selected, whether there
is foreground work, and what becomes of the provider lease and of the refresh. -/
structure PassInputs where
  dryRun : Option Bool
  entries : List StatusEntry
  isTargetSelectable : StatusEntry → Bool
  shouldYieldToForegroundWork : Option Backpressure
  acquire : Except RefreshError Unit
  requestRefresh : RefreshRequest → Except RefreshError RefreshResult
  startedAt : IsoTime
  completedAt : IsoTime

/-- A pass, with the refresh that it has requested. -/
structure SchedulerPass where
  result : SchedulerPassResult
  requested : Option RefreshRequest

namespace PassInputs

variable (inputs : PassInputs)

def liveFollowTargets : List StatusEntry := inputs.entries.filter (·.liveFollow.state = .enabled)

def liveFollowEligibleTargets : List StatusEntry :=
  (inputs.entries.filter (·.status = .eligible)).filter fun entry =>
    entry.liveFollow.state = .enabled ∧ inputs.isTargetSelectable entry

def metrics : PassMetrics where
  totalTargets := inputs.entries.length
  eligibleTargets := (inputs.entries.filter (·.status = .eligible)).length
  delayedTargets := (inputs.entries.filter (·.status = .delayed)).length
  blockedTargets := (inputs.entries.filter (·.status = .blocked)).length
  liveFollowEnabledTargets := inputs.liveFollowTargets.length
  liveFollowEligibleTargets := inputs.liveFollowEligibleTargets.length
  liveFollowDelayedTargets :=
    ((inputs.entries.filter (·.status = .delayed)).filter (·.liveFollow.state = .enabled)).length
  inProgressEligibleTargets :=
    (inputs.liveFollowEligibleTargets.filter (·.mirrorCompleteness.state = .inProgress)).length

end PassInputs

def deriveSkippedBackpressure (entries : List StatusEntry) : Backpressure :=
  match entries.find? fun entry =>
      entry.reason = "provider-manual-clear-required" ∨ entry.reason = "provider-guard-cooldown" with
  | some guarded => ⟨.providerGuard, guarded.providerGuard.summary <|> some guarded.reason⟩
  | none =>
    match entries.find? (·.status = .delayed) with
    | some delayed => ⟨.routineDelayed, some delayed.reason⟩
    | none => ⟨.none, none⟩

def deriveRefreshBackpressure (refresh : RefreshResult) : Backpressure :=
  if refresh.yielded then
    ⟨.yieldedToQueuedWork,
      some "Mirror refresh yielded between detail reads because browser work queued behind it."⟩
  else ⟨.none, none⟩

def deriveErrorBackpressure (error : RefreshError) : Backpressure :=
  if error.code = "account_mirror_browser_operation_busy" then ⟨.blockedByBrowserWork, some error.message⟩
  else ⟨.none, none⟩

def summarizeTarget (entry : StatusEntry) : SelectedTarget :=
  ⟨entry.provider, entry.runtimeProfileId, entry.browserProfileId, entry.status, entry.reason, entry.eligibleAt,
    entry.mirrorCompleteness⟩

def createSchedulerLiveFollowOperationId (entry : StatusEntry) : String :=
  "account-mirror-scheduler:" ++ entry.provider.text ++ ":" ++ entry.runtimeProfileId

def refreshRequest (entry : StatusEntry) : RefreshRequest :=
  ⟨entry.provider, entry.runtimeProfileId, createSchedulerLiveFollowOperationId entry,
    entry.liveFollow.materializationPolicy⟩

/-- The refresh of the target that was selected. -/
def executeRefresh (inputs : PassInputs) (selected : StatusEntry) : SchedulerPass :=
  let finished (action : PassAction) (backpressure : Backpressure) (refresh : Option RefreshResult)
      (error : Option RefreshError) : SchedulerPassResult :=
    ⟨.execute, action, inputs.startedAt, inputs.completedAt, some (summarizeTarget selected), backpressure,
      inputs.metrics, refresh, error⟩
  match inputs.acquire with
  | .error error => ⟨finished .refreshBlocked (deriveErrorBackpressure error) none (some error), none⟩
  | .ok () =>
    match inputs.requestRefresh (refreshRequest selected) with
    | .ok refresh =>
      ⟨finished .refreshCompleted (deriveRefreshBackpressure refresh) (some refresh) none,
        some (refreshRequest selected)⟩
    | .error error =>
      ⟨finished .refreshBlocked (deriveErrorBackpressure error) none (some error), some (refreshRequest selected)⟩

def runOnce (localeCompare : String → String → Ordering) (inputs : PassInputs) (history : Option PassHistory) :
    SchedulerPass :=
  let dryRun := inputs.dryRun.getD true
  let mode : PassMode := if dryRun then .dryRun else .execute
  match chooseSchedulerTarget localeCompare history inputs.liveFollowEligibleTargets with
  | none =>
    ⟨⟨mode, .skipped, inputs.startedAt, inputs.completedAt, none, deriveSkippedBackpressure inputs.liveFollowTargets,
      inputs.metrics, none, none⟩, none⟩
  | some selected =>
    match if dryRun then none else inputs.shouldYieldToForegroundWork with
    | some backpressure =>
      ⟨⟨.execute, .skipped, inputs.startedAt, inputs.completedAt, some (summarizeTarget selected), backpressure,
        inputs.metrics, none, none⟩, none⟩
    | none =>
      if dryRun then
        ⟨⟨.dryRun, .dryRun, inputs.startedAt, inputs.completedAt, some (summarizeTarget selected), ⟨.none, none⟩,
          inputs.metrics, none, none⟩, none⟩
      else executeRefresh inputs selected

/-! ## The ledger -/

/-- `normalizeLimit`. -/
def normalizePassLimit : Option JsNumber → Nat
  | some (.finite value) => (max 1 (min 500 ⌊value⌋)).toNat
  | _ => 50

def readHistory (limit : Nat) (file : PassHistory) : PassHistory :=
  { file with limit, entries := file.entries.take limit }

def appendPass (limit : Nat) (file : PassHistory) (pass : SchedulerPassResult) : PassHistory where
  updatedAt := some pass.completedAt
  limit
  entries :=
    ((pass :: (readHistory limit file).entries).insertionSort fun a b => b.completedAt.ms ≤ a.completedAt.ms).take limit

section Runs

variable (localeCompare : String → String → Ordering) (limit : Nat)

/-- A pass with the ledger as it stands. -/
def runPass (file : PassHistory) (inputs : PassInputs) : SchedulerPass :=
  runOnce localeCompare inputs (some (readHistory limit file))

def ledgerAfter (file : PassHistory) (inputs : List PassInputs) : PassHistory :=
  inputs.foldl (fun file inputs => appendPass limit file (runPass localeCompare limit file inputs).result) file

/-- The passes of a sequence, each appended before the next. -/
def runPasses (file : PassHistory) : List PassInputs → List SchedulerPass
  | [] => []
  | inputs :: rest =>
    let pass := runPass localeCompare limit file inputs
    pass :: runPasses (appendPass limit file pass.result) rest

end Runs

/-! ## Who was selected, and when -/

theorem schedulerTargetKey_injective {target target' : Provider × String}
    (h : schedulerTargetKey target.1 target.2 = schedulerTargetKey target'.1 target'.2) : target = target' := by
  obtain ⟨provider, runtimeProfileId⟩ := target
  obtain ⟨provider', runtimeProfileId'⟩ := target'
  have htext := congrArg String.toList h
  simp only [schedulerTargetKey, String.toList_append] at htext
  cases provider <;> cases provider' <;> simp [Provider.text] at htext ⊢ <;>
    exact String.toList_injective htext

theorem recentSelectionPriority_eq (history : PassHistory) (entry : StatusEntry) :
    recentSelectionPriority (some history) entry =
      ((history.entries.find? fun pass => pass.selected = some entry.target).map (·.completedAt.ms)).getD 0 := by
  unfold recentSelectionPriority createRecentSelectionMap
  congr 3
  funext pass
  cases pass.selected with
  | none => simp
  | some other =>
    simp only [Option.map_some, Option.some.injEq, decide_eq_decide]
    constructor
    · intro h
      exact (schedulerTargetKey_injective h : other = entry.target)
    · rintro rfl
      rfl

/-- The newest passes of the ledger, from a time on, and older ones. -/
structure Newest (start : Int) (newest : List SchedulerPassResult) (entries : List SchedulerPassResult) : Prop where
  splits : ∃ older, entries = newest ++ older ∧ ∀ pass ∈ older, pass.completedAt.ms < start
  sorted : newest.Pairwise fun a b => b.completedAt.ms ≤ a.completedAt.ms
  recent : ∀ pass ∈ newest, start ≤ pass.completedAt.ms

section Recency

variable {start : Int} {newest : List SchedulerPassResult} {history : PassHistory}

/-- A target that one of the newest passes has selected was selected since the time. -/
theorem start_le_recentSelectionPriority {entry : StatusEntry} (h : Newest start newest history.entries)
    (hs : some entry.target ∈ newest.map (·.selected)) : start ≤ recentSelectionPriority (some history) entry := by
  obtain ⟨older, hsplit, -⟩ := h.splits
  obtain ⟨pass, hp, hselected⟩ := List.mem_map.mp hs
  have hfind : (newest.find? fun pass => pass.selected = some entry.target).isSome :=
    List.find?_isSome.mpr ⟨pass, hp, by simpa using hselected⟩
  obtain ⟨found, hfound⟩ := Option.isSome_iff_exists.mp hfind
  rw [recentSelectionPriority_eq, hsplit, List.find?_append, hfound]
  exact h.recent found (List.mem_of_find?_eq_some hfound)

/-- A target that none of them has selected was not. -/
theorem recentSelectionPriority_lt {entry : StatusEntry} (h : Newest start newest history.entries) (h0 : 0 < start)
    (hs : some entry.target ∉ newest.map (·.selected)) : recentSelectionPriority (some history) entry < start := by
  obtain ⟨older, hsplit, hold⟩ := h.splits
  have hnone : (newest.find? fun pass => pass.selected = some entry.target) = none := by
    refine List.find?_eq_none.mpr fun pass hp hselected => hs (List.mem_map.mpr ⟨pass, hp, ?_⟩)
    simpa using hselected
  rw [recentSelectionPriority_eq, hsplit, List.find?_append, hnone, Option.none_or]
  cases hfind : older.find? fun pass => pass.selected = some entry.target with
  | none => exact h0
  | some found => exact hold found (List.mem_of_find?_eq_some hfind)

end Recency

section Steps

variable {localeCompare : String → String → Ordering} {limit : Nat} {start : Int} {newest : List SchedulerPassResult}

/-! ## One choice, one pass -/

/-- A target comes no later than another: by its class, and then by its last selection. -/
def ComesFirst (history : Option PassHistory) (a b : StatusEntry) : Prop :=
  completenessPriority a < completenessPriority b ∨
    completenessPriority a = completenessPriority b ∧
      recentSelectionPriority history a ≤ recentSelectionPriority history b

theorem comesFirst_of_compare {history : Option PassHistory} {a b : StatusEntry}
    (h : compareSchedulerTargets localeCompare history a b ≠ .gt) : ComesFirst history a b := by
  unfold compareSchedulerTargets at h
  unfold ComesFirst
  rcases lt_trichotomy (completenessPriority a) (completenessPriority b) with hc | hc | hc
  · exact .inl hc
  · refine .inr ⟨hc, ?_⟩
    rw [compare_eq_iff_eq.mpr hc] at h
    by_contra hr
    rw [compare_gt_iff_gt.mpr (not_le.mp hr)] at h
    exact h rfl
  · rw [compare_gt_iff_gt.mpr hc] at h
    exact absurd rfl h

theorem comesFirst_of_compare_gt {history : Option PassHistory} {a b : StatusEntry}
    (h : ¬compareSchedulerTargets localeCompare history a b ≠ .gt) : ComesFirst history b a := by
  rw [not_not] at h
  unfold compareSchedulerTargets at h
  unfold ComesFirst
  rcases lt_trichotomy (completenessPriority a) (completenessPriority b) with hc | hc | hc
  · rw [compare_lt_iff_lt.mpr hc] at h
    cases h
  · refine .inr ⟨hc.symm, ?_⟩
    rw [compare_eq_iff_eq.mpr hc] at h
    by_contra hr
    rw [compare_lt_iff_lt.mpr (not_le.mp hr)] at h
    cases h
  · exact .inl hc

theorem ComesFirst.trans {history : Option PassHistory} {a b c : StatusEntry} (hab : ComesFirst history a b)
    (hbc : ComesFirst history b c) : ComesFirst history a c := by
  unfold ComesFirst at *
  omega

theorem chooseSchedulerTarget_first {history : Option PassHistory} {entries : List StatusEntry} {selected : StatusEntry}
    (h : chooseSchedulerTarget localeCompare history entries = some selected) :
    selected ∈ entries ∧ ∀ entry ∈ entries, ComesFirst history selected entry := by
  unfold chooseSchedulerTarget at h
  obtain ⟨rest, hsorted⟩ := List.head?_eq_some_iff.mp h
  constructor
  · refine (List.mem_insertionSort _).mp (hsorted ▸ List.mem_cons_self ..)
  · exact Rotation.head_insertionSort (ComesFirst history) (fun _ => .inr ⟨rfl, le_rfl⟩) (fun _ _ _ => .trans)
      (fun _ _ => comesFirst_of_compare) (fun _ _ => comesFirst_of_compare_gt) hsorted

variable (localeCompare) in
/-- **What a pass does**: it names the target that it has chosen, whatever comes of it, and a refresh that it requests
is the one of that target. -/
theorem runOnce_selected (inputs : PassInputs) (history : Option PassHistory) :
    let chosen := chooseSchedulerTarget localeCompare history inputs.liveFollowEligibleTargets
    let pass := runOnce localeCompare inputs history
    pass.result.selected = chosen.map (·.target) ∧ pass.result.completedAt = inputs.completedAt ∧
      (pass.requested = none ∨ pass.requested.map (·.target) = chosen.map (·.target)) := by
  dsimp only
  unfold runOnce
  dsimp only
  cases chooseSchedulerTarget localeCompare history inputs.liveFollowEligibleTargets with
  | none => exact ⟨rfl, rfl, .inl rfl⟩
  | some selected =>
    dsimp only
    split
    · exact ⟨rfl, rfl, .inl rfl⟩
    · split
      · exact ⟨rfl, rfl, .inl rfl⟩
      · unfold executeRefresh
        dsimp only
        split
        · exact ⟨rfl, rfl, .inl rfl⟩
        · split
          · exact ⟨rfl, rfl, .inr rfl⟩
          · exact ⟨rfl, rfl, .inr rfl⟩

/-! ## The ledger -/

/-- A pass that is completed after the newest is the newest. -/
theorem Newest.append {file : PassHistory} {pass : SchedulerPassResult} (h : Newest start newest file.entries)
    (hafter : ∀ earlier ∈ newest, earlier.completedAt.ms ≤ pass.completedAt.ms) (hstart : start ≤ pass.completedAt.ms)
    (hroom : newest.length < limit) : Newest start (pass :: newest) (appendPass limit file pass).entries := by
  obtain ⟨older, hsplit, hold⟩ := h.splits
  have hfront : (pass :: newest).Pairwise fun a b => b.completedAt.ms ≤ a.completedAt.ms :=
    List.pairwise_cons.mpr ⟨hafter, h.sorted⟩
  have hrecent : ∀ recent ∈ pass :: newest, start ≤ recent.completedAt.ms :=
    List.forall_mem_cons.mpr ⟨hstart, h.recent⟩
  have hentries : (appendPass limit file pass).entries = pass :: newest ++
      ((older.take (limit - newest.length)).insertionSort fun a b => b.completedAt.ms ≤ a.completedAt.ms).take
        (limit - (newest.length + 1)) := by
    unfold appendPass readHistory
    dsimp only
    rw [hsplit, List.take_append, List.take_of_length_le hroom.le, ← List.cons_append,
      Rotation.insertionSort_append hfront fun a ha b hb => ?_, List.take_append,
      List.take_of_length_le (by rw [List.length_cons]; omega), List.length_cons]
    exact (hold b (List.mem_of_mem_take hb)).le.trans (hrecent a ha)
  refine ⟨⟨_, hentries, fun old ho => ?_⟩, hfront, hrecent⟩
  exact hold old (List.mem_of_mem_take ((List.mem_insertionSort _).mp (List.mem_of_mem_take ho)))

theorem Newest.readHistory {file : PassHistory} (h : Newest start newest file.entries) (hroom : newest.length ≤ limit) :
    Newest start newest (readHistory limit file).entries := by
  obtain ⟨older, hsplit, hold⟩ := h.splits
  refine ⟨⟨older.take (limit - newest.length), ?_, fun pass hp => hold pass (List.mem_of_mem_take hp)⟩, h.sorted,
    h.recent⟩
  change file.entries.take limit = _
  rw [hsplit, List.take_append, List.take_of_length_le hroom]

/-- What the ledger holds after some passes are these and what it held before. -/
theorem mem_ledgerAfter {pass : SchedulerPassResult} : ∀ {inputs : List PassInputs} {file : PassHistory},
    pass ∈ (ledgerAfter localeCompare limit file inputs).entries →
      pass ∈ file.entries ∨ ∃ earlier ∈ inputs, pass.completedAt = earlier.completedAt
  | [], _, h => .inl h
  | first :: rest, file, h => by
    have hafter : pass ∈ (appendPass limit file (runPass localeCompare limit file first).result).entries ∨
        ∃ earlier ∈ rest, pass.completedAt = earlier.completedAt := mem_ledgerAfter h
    rcases hafter with hmem | ⟨earlier, he, ht⟩
    · rcases List.mem_cons.mp ((List.mem_insertionSort _).mp (List.mem_of_mem_take hmem)) with rfl | hmem
      · exact .inr ⟨first, List.mem_cons_self .., (runOnce_selected localeCompare first _).2.1⟩
      · exact .inl (List.mem_of_mem_take hmem)
    · exact .inr ⟨earlier, List.mem_cons_of_mem _ he, ht⟩

/-! ## Turns -/

/-- The live-follow targets that are eligible and can be selected are these, all of one completeness class. -/
structure Stays (targets : List (Provider × String)) (inputs : PassInputs) : Prop where
  targets : (inputs.liveFollowEligibleTargets.map (·.target)).Perm targets
  sameClass : ∀ a ∈ inputs.liveFollowEligibleTargets, ∀ b ∈ inputs.liveFollowEligibleTargets,
    completenessPriority a = completenessPriority b

variable (localeCompare) in
/-- A pass selects a target that none of the newest passes has selected, if there is one. -/
theorem selects_fresh {targets : List (Provider × String)} {inputs : PassInputs} {history : PassHistory}
    (h0 : 0 < start) (h : Newest start newest history.entries) (hs : Stays targets inputs) (hne : targets ≠ []) :
    let selected := (runOnce localeCompare inputs (some history)).result.selected
    selected ∈ targets.map some ∧
      ((∃ turn ∈ targets.map some, turn ∉ newest.map (·.selected)) → selected ∉ newest.map (·.selected)) := by
  dsimp only
  rw [(runOnce_selected localeCompare inputs (some history)).1]
  cases hchosen : chooseSchedulerTarget localeCompare (some history) inputs.liveFollowEligibleTargets with
  | none =>
    have hnil : inputs.liveFollowEligibleTargets = [] := by
      unfold chooseSchedulerTarget at hchosen
      have hsorted := List.perm_insertionSort
        (fun a b => compareSchedulerTargets localeCompare (some history) a b ≠ .gt) inputs.liveFollowEligibleTargets
      rw [List.head?_eq_none_iff.mp hchosen] at hsorted
      exact List.nil_perm.mp hsorted
    have hnone := hs.targets
    rw [hnil] at hnone
    exact absurd (List.nil_perm.mp hnone) hne
  | some selected =>
    obtain ⟨hmem, hfirst⟩ := chooseSchedulerTarget_first hchosen
    refine ⟨List.mem_map_of_mem (hs.targets.mem_iff.mp (List.mem_map_of_mem hmem)), ?_⟩
    rintro ⟨turn, ht, hwaits⟩ hpicked
    obtain ⟨target, htarget, rfl⟩ := List.mem_map.mp ht
    obtain ⟨entry, hentry, rfl⟩ := List.mem_map.mp (hs.targets.mem_iff.mpr htarget)
    have hlt := recentSelectionPriority_lt h h0 hwaits
    have hle := start_le_recentSelectionPriority h hpicked
    rcases hfirst entry hentry with hclass | ⟨-, hrecent⟩
    · exact absurd (hs.sameClass selected hmem entry hentry) hclass.ne
    · omega

/-- **The passes from a time on pick fresh targets.** -/
theorem runPasses_fresh {targets : List (Provider × String)} (h0 : 0 < start) (hne : targets ≠ []) :
    ∀ {inputs : List PassInputs} {file : PassHistory} {newest : List SchedulerPassResult},
      Newest start newest file.entries → (∀ input ∈ inputs, Stays targets input) →
        (inputs.map (·.completedAt.ms)).Pairwise (· < ·) → (∀ input ∈ inputs, start ≤ input.completedAt.ms) →
          (∀ input ∈ inputs, ∀ earlier ∈ newest, earlier.completedAt.ms ≤ input.completedAt.ms) →
            newest.length + inputs.length ≤ limit →
              Rotation.Fresh (targets.map some) (newest.map (·.selected))
                ((runPasses localeCompare limit file inputs).map (·.result.selected))
  | [], _, _, _, _, _, _, _, _ => trivial
  | input :: inputs, file, newest, h, hstays, htimes, hstart, hafter, hroom => by
    rw [List.length_cons] at hroom
    rw [List.map_cons, List.pairwise_cons] at htimes
    have hcompleted : (runPass localeCompare limit file input).result.completedAt = input.completedAt :=
      (runOnce_selected localeCompare input _).2.1
    have hmem : input ∈ input :: inputs := List.mem_cons_self ..
    have hroom' : newest.length ≤ limit := by omega
    obtain ⟨hturn, hfresh⟩ := selects_fresh localeCompare h0 (h.readHistory hroom') (hstays input hmem) hne
    refine ⟨hturn, hfresh, runPasses_fresh h0 hne (h.append ?_ ?_ (by omega))
      (fun other ho => hstays other (List.mem_cons_of_mem _ ho)) htimes.2
      (fun other ho => hstart other (List.mem_cons_of_mem _ ho)) ?_ (by rw [List.length_cons]; omega)⟩
    · rw [hcompleted]
      exact hafter input hmem
    · rw [hcompleted]
      exact hstart input hmem
    · intro other ho earlier he
      rcases List.mem_cons.mp he with rfl | he
      · rw [hcompleted]
        exact (htimes.1 _ (List.mem_map_of_mem ho)).le
      · exact hafter other (List.mem_cons_of_mem _ ho) earlier he

theorem requested_selected : ∀ {inputs : List PassInputs} {file : PassHistory},
    ∀ pass ∈ runPasses localeCompare limit file inputs,
      pass.requested = none ∨ pass.requested.map (·.target) = pass.result.selected
  | [], _, _, h => absurd h List.not_mem_nil
  | input :: inputs, file, pass, h => by
    rcases List.mem_cons.mp h with rfl | h
    · obtain ⟨hselected, -, hrequested⟩ := runOnce_selected localeCompare input
        (some (readHistory limit file))
      rw [← hselected] at hrequested
      exact hrequested
    · exact requested_selected pass h

theorem length_runPasses : ∀ (inputs : List PassInputs) (file : PassHistory),
    (runPasses localeCompare limit file inputs).length = inputs.length
  | [], _ => rfl
  | _ :: inputs, _ => congrArg (· + 1) (length_runPasses inputs _)

/-- **Targets take turns.** As many consecutive passes as there are targets select each of them once, whatever comes of
them; and refresh each of them once, if they all refresh the target that they select. -/
theorem passes_rotate (localeCompare : String → String → Ordering) (maxEntries : Option JsNumber) (file : PassHistory)
    {targets : List (Provider × String)} {before window : List PassInputs} (hn : targets.Nodup)
    (hstays : ∀ inputs ∈ window, Stays targets inputs) (hlen : window.length = targets.length)
    (hlimit : targets.length ≤ normalizePassLimit maxEntries)
    (htimes : ((before ++ window).map (·.completedAt.ms)).Pairwise (· < ·))
    (hpast : ∀ pass ∈ file.entries, ∀ inputs ∈ before ++ window, pass.completedAt.ms < inputs.completedAt.ms)
    (h0 : ∀ inputs ∈ before ++ window, 0 < inputs.completedAt.ms) :
    let limit := normalizePassLimit maxEntries
    let passes := runPasses localeCompare limit (ledgerAfter localeCompare limit file before) window
    (passes.map (·.result.selected)).Perm (targets.map some) ∧
      ((∀ pass ∈ passes, pass.requested.isSome) →
        (passes.map fun pass => pass.requested.map (·.target)).Perm (targets.map some)) := by
  intro limit passes
  have hselected : (passes.map (·.result.selected)).Perm (targets.map some) := by
    cases window with
    | nil =>
      rw [List.length_nil] at hlen
      rw [List.length_eq_zero_iff.mp hlen.symm]
      exact .refl _
    | cons first rest =>
      have hfirst : first ∈ before ++ first :: rest := List.mem_append_right _ (List.mem_cons_self ..)
      have hne : targets ≠ [] := fun hnil => by
        rw [hnil] at hlen
        cases hlen
      rw [List.map_append, List.pairwise_append] at htimes
      obtain ⟨-, hwindow, hbefore⟩ := htimes
      have hnewest : Newest first.completedAt.ms [] (ledgerAfter localeCompare limit file before).entries := by
        refine ⟨⟨_, rfl, fun pass hp => ?_⟩, .nil, fun _ h => absurd h List.not_mem_nil⟩
        rcases mem_ledgerAfter hp with hmem | ⟨earlier, he, ht⟩
        · exact hpast pass hmem first hfirst
        · rw [ht]
          exact hbefore _ (List.mem_map_of_mem he) _ (List.mem_cons_self ..)
      have hstart : ∀ input ∈ first :: rest, first.completedAt.ms ≤ input.completedAt.ms := fun input hi => by
        rcases List.mem_cons.mp hi with rfl | hi
        · exact le_rfl
        · exact ((List.pairwise_cons.mp hwindow).1 _ (List.mem_map_of_mem hi)).le
      have hroom : ([] : List SchedulerPassResult).length + (first :: rest).length ≤ limit := by
        rw [List.length_nil, Nat.zero_add, hlen]
        exact hlimit
      have hfresh : Rotation.Fresh (targets.map some) [] (passes.map (·.result.selected)) :=
        runPasses_fresh (h0 first hfirst) hne hnewest hstays hwindow hstart
          (fun _ _ _ he => absurd he List.not_mem_nil) hroom
      have hperm := Rotation.picks_perm (hn.map (Option.some_injective _)) hfresh .nil (List.nil_subset _)
        (by rw [List.length_nil, Nat.zero_add, List.length_map, length_runPasses, List.length_map, hlen])
      rw [List.append_nil] at hperm
      exact (List.reverse_perm _).symm.trans hperm
  refine ⟨hselected, fun hall => ?_⟩
  rwa [List.map_congr_left fun pass hp => ?_]
  rcases requested_selected pass hp with hnone | hsame
  · have := hall pass hp
    rw [hnone] at this
    cases this
  · exact hsame

end Steps

/-! ## Two targets -/

def quietEntry (runtimeProfileId : String) : StatusEntry where
  provider := .chatgpt
  runtimeProfileId
  browserProfileId := none
  status := .eligible
  reason := "eligible"
  eligibleAt := none
  mirrorCompleteness := ⟨.complete, none⟩
  liveFollow := ⟨.enabled, "liveFollow.enabled is true", none, none, none, none, none, none⟩

/-- A pass over two targets that are always eligible, with every refresh refused. -/
def quietPass (dryRun : Bool) (completedAt : IsoTime) : PassInputs where
  dryRun := some dryRun
  entries := [quietEntry "a", quietEntry "b"]
  isTargetSelectable _ := true
  shouldYieldToForegroundWork := none
  acquire := .ok ()
  requestRefresh _ := .error ⟨"account_mirror_not_eligible", 429, "later"⟩
  startedAt := completedAt
  completedAt

def quietTargets : List (Provider × String) := [(.chatgpt, "a"), (.chatgpt, "b")]

def noPasses : PassHistory := ⟨none, 50, []⟩

theorem quietPass_stays (dryRun : Bool) (completedAt : IsoTime) :
    Stays quietTargets (quietPass dryRun completedAt) where
  targets := by
    have : (quietPass dryRun completedAt).liveFollowEligibleTargets = [quietEntry "a", quietEntry "b"] := rfl
    rw [this]
    exact .refl _
  sameClass a ha b hb := by
    have : (quietPass dryRun completedAt).liveFollowEligibleTargets = [quietEntry "a", quietEntry "b"] := rfl
    rw [this] at ha hb
    simp only [List.mem_cons, List.not_mem_nil, or_false] at ha hb
    rcases ha with rfl | rfl <;> rcases hb with rfl | rfl <;> rfl

def passTime (ms : Fin 10) : IsoTime := ⟨ms, by unfold maxTime; omega⟩

/-- Two refreshes after a pass that only selects: each target has one of them. -/
theorem quiet_passes_rotate :
    let passes := runPasses compare 50 (ledgerAfter compare 50 noPasses [quietPass true (passTime 1)])
      [quietPass false (passTime 2), quietPass false (passTime 3)]
    (passes.map (·.result.selected)).Perm (quietTargets.map some) ∧
      ((∀ pass ∈ passes, pass.requested.isSome) →
        (passes.map fun pass => pass.requested.map (·.target)).Perm (quietTargets.map some)) :=
  passes_rotate compare none noPasses (by decide)
    (List.forall_mem_cons.mpr ⟨quietPass_stays false _, List.forall_mem_singleton.mpr (quietPass_stays false _)⟩) rfl
    (by decide) (by decide) (fun _ h => absurd h List.not_mem_nil) (by decide)

/-- Between two refreshes a pass only selects the other target, and the first one is refreshed again. -/
theorem dry_run_takes_turn :
    ¬∀ (localeCompare : String → String → Ordering) (maxEntries : Option JsNumber) (file : PassHistory)
      (targets : List (Provider × String)) (inputs : List PassInputs), targets.Nodup →
        (∀ input ∈ inputs, Stays targets input) → inputs.length ≤ normalizePassLimit maxEntries →
          (inputs.map (·.completedAt.ms)).Pairwise (· < ·) →
            (∀ pass ∈ file.entries, ∀ input ∈ inputs, pass.completedAt.ms < input.completedAt.ms) →
              ∀ before window after,
                (runPasses localeCompare (normalizePassLimit maxEntries) file inputs).filter (·.requested.isSome) =
                    before ++ window ++ after →
                  window.length = targets.length →
                    (window.map fun pass => pass.requested.map (·.target)).Perm (targets.map some) := by
  intro h
  have hstays : ∀ input ∈ [quietPass false (passTime 1), quietPass true (passTime 2), quietPass false (passTime 3)],
      Stays quietTargets input := by
    simp only [List.forall_mem_cons, List.not_mem_nil, false_imp_iff, implies_true, and_true]
    exact ⟨quietPass_stays _ _, quietPass_stays _ _, quietPass_stays _ _⟩
  have hperm := h compare none noPasses quietTargets _ (by decide) hstays (by decide) (by decide)
    (fun _ he => absurd he List.not_mem_nil) [] _ [] (by rw [List.nil_append, List.append_nil]) rfl
  exact absurd hperm (by decide)

-- A target that was selected before 1970 comes before one that was never selected.
example : (runPasses compare 50 noPasses
      [quietPass false ⟨-2, by decide⟩, quietPass false ⟨-1, by decide⟩]).map (·.result.selected) =
    [some (.chatgpt, "a"), some (.chatgpt, "a")] := by decide

end AuraCall.AccountMirror
