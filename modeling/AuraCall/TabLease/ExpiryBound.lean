import AuraCall.TabLease.System

/-!
# The expiries of a lease

A lease that is not exempt is to end at its absolute expiry: its idle expiry is no later, the absolute expiry never moves,
and no operation of an owner succeeds after it (`Bounded`).

Three operations leave this to their callers. `acquireProcess` sets the idle expiry without looking at the absolute one,
`bindConversation` does not look at the clock, and `markLost` ends the exemption of a lease whose idle expiry may be
anywhere. `expiry_bound_iff` shows that the others keep the bound, and these exactly under their conditions (`KeepsBound`).
-/

namespace AuraCall.TabLease

/-! ## Dates -/

theorem parseTimestamp_eq_ok {γ : Type} {value : DateString} {name : String} {ms : Int} :
    (parseTimestamp value name : Except (Stop γ) Int) = .ok ms ↔ value.parse = some ms := by
  unfold parseTimestamp
  cases value.parse with
  | none => simp
  | some n => simp

theorem toISOString_eq_ok {γ : Type} {ms : Int} {date : DateString}
    (h : (toISOString ms : Except (Stop γ) DateString) = .ok date) : date.parse = some ms := by
  unfold toISOString at h
  split at h
  · rename_i hrange
    cases h
    exact if_pos hrange
  · cases h

/-- Both are dates, and the first is not after the second. -/
def NotLater (first second : DateString) : Prop :=
  ∃ x y, first.parse = some x ∧ second.parse = some y ∧ x ≤ y

theorem NotLater.refl {first second : DateString} (h : NotLater first second) : NotLater second second := by
  obtain ⟨_, y, -, hy, -⟩ := h
  exact ⟨y, y, hy, hy, le_refl y⟩

theorem notLater_iff {first second : DateString} {x y : Int} (hx : first.parse = some x) (hy : second.parse = some y) :
    NotLater first second ↔ x ≤ y := by
  constructor
  · rintro ⟨x', y', hx', hy', hle⟩
    rw [hx] at hx'
    rw [hy] at hy'
    cases hx'
    cases hy'
    exact hle
  · exact fun hle => ⟨x, y, hx, hy, hle⟩

/-! ## The bound -/

/-- The time that an operation of an owner gives. -/
def LeaseOperation.ownerTime : LeaseOperation → Option DateString
  | .heartbeat input => some input.now
  | .recordMeaningfulUse input => some input.now
  | .recordTargetAction input => some input.occurredAt
  | .bindConversation input => some input.now
  | .acquire input => some input.now
  | .acquireProcess input => some input.now
  | _ => none

/-- The idle expiry of a lease is within its absolute expiry, unless the lease is exempt. -/
def Within (lease : BrowserTabLease) : Prop :=
  isTabLeaseTtlExempt lease = false → NotLater lease.idleExpiresAt lease.absoluteExpiresAt

/-- What an operation may do with the lease it finds. -/
structure StepBounded (operation : LeaseOperation) (old new : BrowserTabLease) : Prop where
  within : Within new
  absolute : isTabLeaseTtlExempt old = false → NotLater new.absoluteExpiresAt old.absoluteExpiresAt
  owner : isTabLeaseTtlExempt old = false → ∀ now, operation.ownerTime = some now → NotLater now old.absoluteExpiresAt

def TabLeaseWorkload.isLiveFollow : TabLeaseWorkload → Bool
  | .liveFollow _ => true
  | _ => false

/-- The condition of an operation on the lease it finds. -/
def LeaseOperation.KeepsBound (old : BrowserTabLease) : LeaseOperation → Prop
  | .acquireProcess input => isTabLeaseTtlExempt old = false → input.workload.isLiveFollow = false →
      ∀ nowMs idleTtlMs absoluteMs, input.now.parse = some nowMs →
        normalizeTtl input.idleTtlMs "idleTtlMs" = .ok idleTtlMs → old.absoluteExpiresAt.parse = some absoluteMs →
          nowMs + idleTtlMs ≤ absoluteMs
  | .bindConversation input => isTabLeaseTtlExempt old = false → NotLater input.now old.absoluteExpiresAt
  | .markLost _ => isTabLeaseTtlExempt old = true → NotLater old.idleExpiresAt old.absoluteExpiresAt
  | _ => True

section Steps

variable {table : CaseTable} {options : RegistryOptions} {registry : Registry} {old new : BrowserTabLease}

/-- An operation that is no owner's and leaves the expiries and the exemption alone. -/
theorem stepBounded_of_kept {operation : LeaseOperation} (hold : Within old)
    (hidle : new.idleExpiresAt = old.idleExpiresAt) (habsolute : new.absoluteExpiresAt = old.absoluteExpiresAt)
    (hexempt : isTabLeaseTtlExempt new = isTabLeaseTtlExempt old)
    (howner : isTabLeaseTtlExempt old = false → ∀ now, operation.ownerTime = some now →
      NotLater now old.absoluteExpiresAt) : StepBounded operation old new where
  within hnew := by
    rw [hidle, habsolute]
    exact hold (hexempt ▸ hnew)
  absolute hex := by
    rw [habsolute]
    exact (hold hex).refl
  owner := howner

theorem renewedIdleExpiry_within {nowMs absoluteMs : Int} {idleTtlMs : JsNumber} {idle : DateString}
    (h : renewedIdleExpiry old nowMs absoluteMs idleTtlMs = .ok idle) (habs : old.absoluteExpiresAt.parse = some absoluteMs)
    (hex : isTabLeaseTtlExempt old = false) : NotLater idle old.absoluteExpiresAt := by
  simp only [renewedIdleExpiry, bind_eq_ok, hex, Bool.false_eq_true, ↓reduceIte] at h
  obtain ⟨ttl, -, hidle⟩ := h
  exact ⟨_, _, toISOString_eq_ok hidle, habs, min_le_right _ _⟩

/-- An operation that renews the idle expiry within the absolute one. -/
theorem stepBounded_of_renewed {operation : LeaseOperation} {nowMs absoluteMs : Int} {idleTtlMs : JsNumber}
    {now : DateString} (hidle : renewedIdleExpiry old nowMs absoluteMs idleTtlMs = .ok new.idleExpiresAt)
    (habs : old.absoluteExpiresAt.parse = some absoluteMs) (hnow : now.parse = some nowMs)
    (hlate : (decide (nowMs > absoluteMs) && !isTabLeaseTtlExempt old) = false)
    (hsame : new.absoluteExpiresAt = old.absoluteExpiresAt)
    (hexempt : isTabLeaseTtlExempt new = isTabLeaseTtlExempt old) (htime : operation.ownerTime = some now) :
    StepBounded operation old new where
  within hnew := by
    rw [hsame]
    exact renewedIdleExpiry_within hidle habs (hexempt ▸ hnew)
  absolute _ := by
    rw [hsame]
    exact ⟨absoluteMs, absoluteMs, habs, habs, le_refl absoluteMs⟩
  owner hex now' hnow' := by
    rw [htime] at hnow'
    cases hnow'
    rw [hex, Bool.not_false, Bool.and_true, decide_eq_false_iff_not] at hlate
    exact (notLater_iff hnow habs).2 (Int.not_lt.1 hlate)

theorem renewHeartbeat_bounded {operation : LeaseOperation} {input : RecordMeaningfulUseInput} {meaningfulUse : Bool}
    (htime : operation.ownerTime = some input.now) (h : renewHeartbeat input meaningfulUse registry = .ok new) :
    ∃ old, registry.leases.get? new.leaseId = some old ∧ StepBounded operation old new := by
  simp only [renewHeartbeat, bind_eq_ok, claimedLease_eq_ok, refuseIf_eq_ok, pure_eq_ok, parseTimestamp_eq_ok] at h
  obtain ⟨old, ⟨hg, -⟩, _, -, nowMs, hnow, absoluteMs, habs, _, -, _, -, _, hlate, _, -, idle, hidle, _, -, rfl⟩ := h
  obtain ⟨hmem, -⟩ := KeyedMap.get?_eq_some.1 hg
  exact ⟨old, KeyedMap.get?_self hmem, stepBounded_of_renewed hidle habs hnow hlate rfl rfl htime⟩

theorem recordTargetAction_bounded {input : RecordTargetActionInput} (h : recordTargetAction input registry = .ok new) :
    ∃ old, registry.leases.get? new.leaseId = some old ∧ StepBounded (.recordTargetAction input) old new := by
  simp only [recordTargetAction, bind_eq_ok, claimedLease_eq_ok, refuseIf_eq_ok, pure_eq_ok, parseTimestamp_eq_ok] at h
  obtain ⟨old, ⟨hg, -⟩, _, -, nowMs, hnow, absoluteMs, habs, _, hlate, _, -, idle, hidle, rfl⟩ := h
  obtain ⟨hmem, -⟩ := KeyedMap.get?_eq_some.1 hg
  exact ⟨old, KeyedMap.get?_self hmem, stepBounded_of_renewed hidle habs hnow hlate rfl rfl rfl⟩

theorem acquire_bounded {input : AcquireInput} (hold : ∀ lease ∈ registry.leases, Within lease)
    (h : acquire table options input registry = .ok new) :
    ∃ old, registry.leases.get? new.leaseId = some old ∧ StepBounded (.acquire input) old new := by
  simp only [acquire, bind_eq_ok, orRefuse_eq_ok, refuseIf_eq_ok, pure_eq_ok, parseTimestamp_eq_ok] at h
  obtain ⟨scope, -, _, -, _, -, nowMs, hnow, old, hfind, _, -, _, -, late, hlate, _, hnot, _, -, _, -, _, -, rfl⟩ := h
  have hmem : old ∈ registry.leases := List.mem_of_find?_eq_some hfind
  refine ⟨old, KeyedMap.get?_self hmem, stepBounded_of_kept (hold old hmem) rfl rfl rfl fun hex now hown => ?_⟩
  cases hown
  subst hnot
  simp only [acquireTooLate, hex, Bool.false_eq_true, ↓reduceIte, bind_eq_ok, parseTimestamp_eq_ok] at hlate
  obtain ⟨idleMs, -, hlate⟩ := hlate
  split at hlate
  · cases hlate
  · simp only [bind_eq_ok, parseTimestamp_eq_ok, pure_eq_ok, decide_eq_false_iff_not] at hlate
    obtain ⟨absoluteMs, habs, hbefore⟩ := hlate
    exact (notLater_iff hnow habs).2 (le_of_lt (Int.not_le.1 hbefore))

theorem bindConversation_bounded {input : BindConversationInput} (hold : ∀ lease ∈ registry.leases, Within lease)
    (h : bindConversation input registry = .ok new) :
    ∃ old, registry.leases.get? new.leaseId = some old ∧
      (StepBounded (.bindConversation input) old new ↔ (LeaseOperation.bindConversation input).KeepsBound old) := by
  simp only [bindConversation, bind_eq_ok, claimedLease_eq_ok, refuseIf_eq_ok, pure_eq_ok, Bool.or_eq_false_iff,
    Bool.not_eq_false'] at h
  obtain ⟨old, ⟨hg, -⟩, _, ⟨-, hnew⟩, _, -, _, -, _, -, _, -, _, -, rfl⟩ := h
  obtain ⟨hmem, -⟩ := KeyedMap.get?_eq_some.1 hg
  refine ⟨old, KeyedMap.get?_self hmem, fun hb hex => hb.owner hex input.now rfl, fun hk => ?_⟩
  refine stepBounded_of_kept (hold old hmem) rfl rfl ?_ fun hex now hown => ?_
  · unfold isTabLeaseTtlExempt
    dsimp only
    cases hw : old.workload with
    | liveFollow id =>
      rw [hw] at hnew
      cases hnew
    | _ => rfl
  · cases hown
    exact hk hex

theorem markLost_bounded {input : MarkLostInput} (hold : ∀ lease ∈ registry.leases, Within lease)
    (h : markLost input registry = .ok new) :
    ∃ old, registry.leases.get? new.leaseId = some old ∧
      (StepBounded (.markLost input) old new ↔ (LeaseOperation.markLost input).KeepsBound old) := by
  simp only [markLost, bind_eq_ok, fencedLease_eq_ok, refuseIf_eq_ok, pure_eq_ok] at h
  obtain ⟨old, ⟨hg, -⟩, _, -, _, -, _, -, rfl⟩ := h
  obtain ⟨hmem, -⟩ := KeyedMap.get?_eq_some.1 hg
  refine ⟨old, KeyedMap.get?_self hmem, fun hb _ => hb.within rfl,
    fun hk => ⟨fun _ => ?_, fun hex => ?_, fun _ _ h => by cases h⟩⟩
  · cases hex : isTabLeaseTtlExempt old with
    | false => exact hold old hmem hex
    | true => exact hk hex
  · exact (hold old hmem hex).refl

theorem isTabLeaseTtlExempt_of_retention {lease : BrowserTabLease} {retention : Retention}
    (h : lease.retention = some retention) : isTabLeaseTtlExempt lease = (retention == .liveFollow) := by
  rw [isTabLeaseTtlExempt, h]

/-- A workload keeps its kind when it is normalized. -/
theorem normalizeWorkload_isLiveFollow {workload normalized : TabLeaseWorkload}
    (h : normalizeWorkload workload = .ok normalized) : normalized.isLiveFollow = workload.isLiveFollow := by
  cases workload <;> simp only [normalizeWorkload, bind_eq_ok, pure_eq_ok] at h <;> obtain ⟨_, -, rfl⟩ := h <;> rfl

/-- What `acquireProcess` stores: the idle expiry without regard to the absolute one. -/
theorem acquireProcess_stored {input : AcquireProcessInput} (h : acquireProcess table options input registry = .ok new) :
    ∃ old nowMs idleTtlMs, registry.leases.get? new.leaseId = some old ∧ input.now.parse = some nowMs ∧
      normalizeTtl input.idleTtlMs "idleTtlMs" = .ok idleTtlMs ∧ new.idleExpiresAt.parse = some (nowMs + idleTtlMs) ∧
        isTabLeaseTtlExempt new = (input.workload.isLiveFollow || isTabLeaseTtlExempt old) ∧
          (isTabLeaseTtlExempt old = false →
            new.absoluteExpiresAt = old.absoluteExpiresAt ∧ reached nowMs old.absoluteExpiresAt = false) := by
  simp only [acquireProcess, bind_eq_ok, fencedLease_eq_ok, refuseIf_eq_ok, pure_eq_ok, parseTimestamp_eq_ok,
    Bool.or_eq_false_iff] at h
  obtain ⟨old, ⟨hg, -⟩, scope, -, workload, hworkload, tab, -, _, -, nowMs, hnow, idleTtlMs, hidleTtl, absoluteTtlMs, -,
    _, -, _, ⟨-, hrefuse⟩, _, -, _, -, operationId, -, idle, hidle, absolute, habsolute, rfl⟩ := h
  obtain ⟨hmem, -⟩ := KeyedMap.get?_eq_some.1 hg
  refine ⟨old, nowMs, idleTtlMs, KeyedMap.get?_self hmem, hnow, hidleTtl, toISOString_eq_ok hidle, ?_, fun hex => ?_⟩
  · rw [← normalizeWorkload_isLiveFollow hworkload]
    refine (isTabLeaseTtlExempt_of_retention rfl).trans ?_
    cases workload <;> cases isTabLeaseTtlExempt old <;> rfl
  · simp only [acquiredAbsoluteExpiry, hex, Bool.false_eq_true, ↓reduceIte, pure_eq_ok] at habsolute
    simp only [hex, Bool.not_false, Bool.true_and, Bool.or_eq_false_iff] at hrefuse
    exact ⟨habsolute.symm, hrefuse.2⟩

theorem acquireProcess_bounded {input : AcquireProcessInput} (hold : ∀ lease ∈ registry.leases, Within lease)
    (h : acquireProcess table options input registry = .ok new) :
    ∃ old, registry.leases.get? new.leaseId = some old ∧
      (StepBounded (.acquireProcess input) old new ↔ (LeaseOperation.acquireProcess input).KeepsBound old) := by
  obtain ⟨old, nowMs, idleTtlMs, hg, hnow, hidleTtl, hidle, hexempt, hkept⟩ := acquireProcess_stored h
  obtain ⟨hmem, -⟩ := KeyedMap.get?_eq_some.1 hg
  refine ⟨old, hg, ?_⟩
  cases hex : isTabLeaseTtlExempt old with
  | true =>
    have hno : isTabLeaseTtlExempt old ≠ false := by simp [hex]
    rw [hex, Bool.or_true] at hexempt
    refine ⟨fun _ he => absurd he hno, fun _ => ⟨fun hnew => ?_, fun he => absurd he hno, fun he => absurd he hno⟩⟩
    rw [hexempt] at hnew
    cases hnew
  | false =>
    rw [hex, Bool.or_false] at hexempt
    obtain ⟨habsolute, hreached⟩ := hkept hex
    obtain ⟨_, absoluteMs, -, habs, -⟩ := hold old hmem hex
    have hbefore : nowMs < absoluteMs := by
      simp only [reached, habs, Option.any_some, decide_eq_false_iff_not] at hreached
      exact Int.not_le.1 hreached
    have hwithin : NotLater new.idleExpiresAt new.absoluteExpiresAt ↔ nowMs + idleTtlMs ≤ absoluteMs :=
      notLater_iff hidle (habsolute ▸ habs)
    constructor
    · intro hb _ hlive nowMs' idleTtlMs' absoluteMs' hnow' hidleTtl' habs'
      rw [hnow] at hnow'
      rw [hidleTtl] at hidleTtl'
      rw [habs] at habs'
      cases hnow'
      cases hidleTtl'
      cases habs'
      exact hwithin.1 (hb.within (hexempt.trans hlive))
    · intro hk
      refine ⟨fun hnew => hwithin.2 ?_, fun _ => ?_, fun _ now hown => ?_⟩
      · exact hk hex (hexempt ▸ hnew) nowMs idleTtlMs absoluteMs hnow hidleTtl habs
      · rw [habsolute]
        exact (hold old hmem hex).refl
      · cases hown
        exact (notLater_iff hnow habs).2 (le_of_lt hbefore)

/-- **What an operation does with the lease it finds.** -/
theorem rewrite_bounded {operation : LeaseOperation} (hold : ∀ lease ∈ registry.leases, Within lease)
    (h : operation.rewrite table options registry = .ok new) :
    ∃ old, registry.leases.get? new.leaseId = some old ∧ (StepBounded operation old new ↔ operation.KeepsBound old) := by
  have hkept : ∀ {id : String} {old : BrowserTabLease}, registry.leases.get? id = some old →
      operation.ownerTime = none → operation.KeepsBound old → new.leaseId = old.leaseId →
        new.idleExpiresAt = old.idleExpiresAt → new.absoluteExpiresAt = old.absoluteExpiresAt →
          isTabLeaseTtlExempt new = isTabLeaseTtlExempt old → ∃ old, registry.leases.get? new.leaseId = some old ∧
            (StepBounded operation old new ↔ operation.KeepsBound old) := by
    intro id old hg htime hk hid hidle habs hex
    obtain ⟨hmem, -⟩ := KeyedMap.get?_eq_some.1 hg
    refine ⟨old, hid ▸ KeyedMap.get?_self hmem, fun _ => hk, fun _ => ?_⟩
    exact stepBounded_of_kept (hold old hmem) hidle habs hex fun _ now hown => by rw [htime] at hown; cases hown
  cases operation with
  | acquireProcess input => exact acquireProcess_bounded hold h
  | bindConversation input => exact bindConversation_bounded hold h
  | markLost input => exact markLost_bounded hold h
  | heartbeat input =>
    obtain ⟨old, hg, hb⟩ := renewHeartbeat_bounded (show (LeaseOperation.heartbeat input).ownerTime = some input.now from rfl) h
    exact ⟨old, hg, fun _ => trivial, fun _ => hb⟩
  | recordMeaningfulUse input =>
    obtain ⟨old, hg, hb⟩ := renewHeartbeat_bounded (show (LeaseOperation.recordMeaningfulUse input).ownerTime = some input.now from rfl) h
    exact ⟨old, hg, fun _ => trivial, fun _ => hb⟩
  | recordTargetAction input =>
    obtain ⟨old, hg, hb⟩ := recordTargetAction_bounded h
    exact ⟨old, hg, fun _ => trivial, fun _ => hb⟩
  | acquire input =>
    obtain ⟨old, hg, hb⟩ := acquire_bounded hold h
    exact ⟨old, hg, fun _ => trivial, fun _ => hb⟩
  | idle input =>
    simp only [LeaseOperation.rewrite, idle, bind_eq_ok, claimedLease_eq_ok, pure_eq_ok] at h
    obtain ⟨old, ⟨hg, -⟩, _, -, _, -, _, -, rfl⟩ := h
    exact hkept hg rfl trivial rfl rfl rfl rfl
  | beginRetirement input =>
    simp only [LeaseOperation.rewrite, beginRetirement, bind_eq_ok, fencedLease_eq_ok, pure_eq_ok] at h
    obtain ⟨old, ⟨hg, -⟩, _, -, _, -, _, -, _, -, rfl⟩ := h
    exact hkept hg rfl trivial rfl rfl rfl rfl
  | finishRetirement input =>
    simp only [LeaseOperation.rewrite, finishRetirement, bind_eq_ok, fencedLease_eq_ok, pure_eq_ok] at h
    obtain ⟨old, ⟨hg, -⟩, _, -, _, -, _, -, rfl⟩ := h
    exact hkept hg rfl trivial rfl rfl rfl rfl
  | releaseLost input =>
    simp only [LeaseOperation.rewrite, releaseLost, bind_eq_ok, fencedLease_eq_ok, pure_eq_ok] at h
    obtain ⟨old, ⟨hg, -⟩, _, -, _, -, _, -, rfl⟩ := h
    exact hkept hg rfl trivial rfl rfl rfl rfl
  | reconcileEffect input =>
    simp only [LeaseOperation.rewrite, reconcileEffect, bind_eq_ok, fencedLease_eq_ok, pure_eq_ok] at h
    obtain ⟨_, -, _, -, _, -, _, -, old, ⟨hg, -⟩, _, -, _, -, rfl⟩ := h
    exact hkept hg rfl trivial rfl rfl rfl rfl
  | abandonUnknownEffect input =>
    simp only [LeaseOperation.rewrite, abandonUnknownEffect, bind_eq_ok, fencedLease_eq_ok, pure_eq_ok] at h
    obtain ⟨_, -, _, -, _, -, old, ⟨hg, -⟩, _, -, _, -, _, -, _, -, _, -, rfl⟩ := h
    exact hkept hg rfl trivial rfl rfl rfl rfl
  | releasePreserved input =>
    simp only [LeaseOperation.rewrite, releasePreserved, bind_eq_ok, fencedLease_eq_ok, pure_eq_ok] at h
    obtain ⟨old, ⟨hg, -⟩, _, -, _, -, _, -, rfl⟩ := h
    exact hkept hg rfl trivial rfl rfl rfl rfl

/-- A reservation sets both expiries from one clock, the idle one no later. -/
theorem reserve_within {input : ReserveTabLeaseInput} (h : (reserve table options input registry).1 = .ok new) :
    Within new := by
  unfold reserve at h
  split at h
  · rename_i normalized hnormalized
    simp only [reservedLease, bind_eq_ok, pure_eq_ok] at h
    obtain ⟨_, -, _, -, _, -, _, -, idle, hidle, absolute, habsolute, rfl⟩ := h
    intro _
    refine ⟨_, _, toISOString_eq_ok hidle, toISOString_eq_ok habsolute, ?_⟩
    simp only [normalizeReserveInput, bind_eq_ok, throwIf_eq_ok, pure_eq_ok, decide_eq_false_iff_not] at hnormalized
    obtain ⟨_, -, _, -, _, hle, _, -, _, -, _, -, _, -, _, -, _, -, _, -, rfl⟩ := hnormalized
    exact Int.add_le_add_left (Int.not_lt.1 hle) _
  · cases h

theorem reserve_leases_of_error {input : ReserveTabLeaseInput} {stop : Stop TabLeaseConflict}
    (h : (reserve table options input registry).1 = .error stop) :
    (reserve table options input registry).2.leases = registry.leases := by
  unfold reserve at h ⊢
  split at h
  · rename_i normalized hnormalized
    dsimp only at h ⊢
    rw [h]
    rfl
  · rfl

theorem reserve_leases_of_ok {input : ReserveTabLeaseInput} (h : (reserve table options input registry).1 = .ok new) :
    (∀ old ∈ registry.leases, old.leaseId ≠ new.leaseId) ∧
      (reserve table options input registry).2.leases = registry.leases.set new := by
  unfold reserve at h ⊢
  split at h
  · rename_i normalized hnormalized
    dsimp only at h ⊢
    refine ⟨(reservedLease_spec (normalizeReserveInput_group hnormalized) h).fresh, ?_⟩
    rw [h]
    rfl
  · cases h

/-! ## Calls -/

/-- What the bound asks of a call. -/
structure Bounded (table : CaseTable) (registry : Registry) (call : Call) (registry' : Registry) : Prop where
  within : ∀ lease ∈ registry'.leases, Within lease
  absolute : ∀ old ∈ registry.leases, isTabLeaseTtlExempt old = false → ∀ new ∈ registry'.leases,
    new.leaseId = old.leaseId → NotLater new.absoluteExpiresAt old.absoluteExpiresAt
  owner : ∀ operation now new, call.operation = .lease operation → operation.ownerTime = some now →
    operation.rewrite table call.options registry = .ok new → ∀ old ∈ registry.leases, old.leaseId = new.leaseId →
      isTabLeaseTtlExempt old = false → NotLater now old.absoluteExpiresAt

/-- A call meets the condition of its operation, on the lease it names. -/
def KeepsBound (registry : Registry) (call : Call) : Prop :=
  ∀ operation, call.operation = .lease operation → ∀ old ∈ registry.leases,
    operation.presented.map (·.1) = some old.leaseId → operation.KeepsBound old

theorem perform_leases (table : CaseTable) (call : Call) (registry : Registry) :
    (∃ operation new, call.operation = .lease operation ∧ operation.rewrite table call.options registry = .ok new ∧
      (perform table call registry).2.leases = registry.leases.set new) ∨
    (∃ new, (∀ operation, call.operation ≠ .lease operation) ∧ (∀ old ∈ registry.leases, old.leaseId ≠ new.leaseId) ∧
      Within new ∧ (perform table call registry).2.leases = registry.leases.set new) ∨
    ((∀ operation new, call.operation = .lease operation → operation.rewrite table call.options registry ≠ .ok new) ∧
      (perform table call registry).2.leases = registry.leases) := by
  obtain ⟨options, operation⟩ := call
  cases operation with
  | acquireProfileControl input =>
    refine .inr (.inr ⟨fun _ _ h => (by cases h), ?_⟩)
    simp only [perform, acquireProfileControl]
    split
    · unfold storeControl
      split <;> rfl
    · rfl
    · rfl
  | releaseProfileControl input =>
    refine .inr (.inr ⟨fun _ _ h => (by cases h), ?_⟩)
    simp only [perform, releaseProfileControl]
    split <;> rfl
  | reserve input =>
    have hperform : (perform table ⟨options, .reserve input⟩ registry).2 = (reserve table options input registry).2 := rfl
    rw [hperform]
    cases hr : (reserve table options input registry).1 with
    | error stop =>
      refine .inr (.inr ⟨fun _ _ h => (by cases h), ?_⟩)
      exact reserve_leases_of_error hr
    | ok new =>
      obtain ⟨hfresh, hleases⟩ := reserve_leases_of_ok hr
      exact .inr (.inl ⟨new, fun _ h => (by cases h), hfresh, reserve_within hr, hleases⟩)
  | lease operation =>
    cases hr : operation.rewrite table options registry with
    | error stop =>
      refine .inr (.inr ⟨fun operation' new he h => ?_, ?_⟩)
      · cases he
        rw [hr] at h
        cases h
      · simp only [perform, hr]
        rfl
    | ok new =>
      refine .inl ⟨operation, new, rfl, hr, ?_⟩
      simp only [perform, hr]
      rfl

/-- A call that rewrites no lease keeps the bound. -/
theorem bounded_of_leases {call : Call} {registry' : Registry} (hold : ∀ lease ∈ registry.leases, Within lease)
    (hno : ∀ operation new, call.operation = .lease operation → operation.rewrite table call.options registry ≠ .ok new)
    (hleases : ∀ lease ∈ registry'.leases, lease ∈ registry.leases ∨
      (∀ old ∈ registry.leases, old.leaseId ≠ lease.leaseId) ∧ Within lease) :
    Bounded table registry call registry' where
  within lease hm := by
    rcases hleases lease hm with hm | ⟨-, hw⟩
    · exact hold lease hm
    · exact hw
  absolute old hm hex new hnew hid := by
    rcases hleases new hnew with hnew | ⟨hfresh, -⟩
    · rw [KeyedMap.eq_of_key hnew hm hid]
      exact (hold old hm hex).refl
    · exact absurd hid.symm (hfresh old hm)
  owner operation now new hop _ h := absurd h (hno operation new hop)

/-- A call that rewrites a lease keeps the bound when its step does. -/
theorem bounded_iff_stepBounded {call : Call} {registry' : Registry} {operation : LeaseOperation}
    (hold : ∀ lease ∈ registry.leases, Within lease) (hop : call.operation = .lease operation)
    (h : operation.rewrite table call.options registry = .ok new)
    (hleases : registry'.leases = registry.leases.set new) (hg : registry.leases.get? new.leaseId = some old) :
    Bounded table registry call registry' ↔ StepBounded operation old new := by
  obtain ⟨hmem, hid⟩ := KeyedMap.get?_eq_some.1 hg
  have hnew : new ∈ registry'.leases := hleases ▸ KeyedMap.mem_set_self _ _
  constructor
  · intro hb
    exact ⟨hb.within new hnew, fun hex => hb.absolute old hmem hex new hnew hid.symm,
      fun hex now htime => hb.owner operation now new hop htime h old hmem hid hex⟩
  · intro hs
    refine ⟨fun lease hm => ?_, fun other hother hex lease hm hsame => ?_, fun operation' now new' hop' htime h' => ?_⟩
    · rw [hleases] at hm
      rcases KeyedMap.mem_set.1 hm with rfl | ⟨hm, -⟩
      · exact hs.within
      · exact hold lease hm
    · rw [hleases] at hm
      rcases KeyedMap.mem_set.1 hm with rfl | ⟨hm, -⟩
      · obtain rfl := KeyedMap.eq_of_key hother hmem (hsame.symm.trans hid.symm)
        exact hs.absolute hex
      · rw [KeyedMap.eq_of_key hm hother hsame]
        exact (hold other hother hex).refl
    · rw [hop] at hop'
      cases hop'
      rw [h] at h'
      cases h'
      intro other hother hsame hex
      obtain rfl := KeyedMap.eq_of_key hother hmem (hsame.trans hid.symm)
      exact hs.owner hex now htime

/-- Only the operations that present a lease have a condition. -/
theorem keepsBound_iff {call : Call} {operation : LeaseOperation} (hop : call.operation = .lease operation)
    (h : operation.rewrite table call.options registry = .ok new) (hg : registry.leases.get? new.leaseId = some old) :
    KeepsBound registry call ↔ operation.KeepsBound old := by
  obtain ⟨hmem, hid⟩ := KeyedMap.get?_eq_some.1 hg
  obtain ⟨found, hpresented, hsuccessor⟩ := rewrite_successor h
  have hfound : found = old :=
    KeyedMap.eq_of_key hsuccessor.mem hmem (hsuccessor.leaseId.symm.trans hid.symm)
  subst hfound
  constructor
  · intro hk
    cases hp : operation.presented with
    | some presented =>
      refine hk operation hop found hmem ?_
      rw [hp, Option.map_some, (hpresented _ _ hp).1]
    | none =>
      cases operation with
      | acquire input => trivial
      | _ => cases hp
  · intro hk operation' hop' other hother hsame
    rw [hop] at hop'
    cases hop'
    obtain ⟨presented, hp, hpid⟩ := Option.map_eq_some_iff.1 hsame
    have hother' : other = found :=
      KeyedMap.eq_of_key hother hmem (hpid.symm.trans (hpresented _ _ hp).1.symm)
    rw [hother']
    exact hk

/-- A call that meets its condition keeps the bound, and one that is carried out keeps it only then. -/
theorem perform_bounded (call : Call) (hold : ∀ lease ∈ registry.leases, Within lease) :
    (KeepsBound registry call → Bounded table registry call (perform table call registry).2) ∧
      ((∃ reply, (perform table call registry).1 = .ok reply) →
        Bounded table registry call (perform table call registry).2 → KeepsBound registry call) := by
  rcases perform_leases table call registry with ⟨operation, new, hop, h, hleases⟩ | ⟨new, hop, hfresh, hw, hleases⟩ |
    ⟨hno, hleases⟩
  · obtain ⟨old, hg, hstep⟩ := rewrite_bounded hold h
    have hiff := (bounded_iff_stepBounded hold hop h hleases hg).trans (hstep.trans (keepsBound_iff hop h hg).symm)
    exact ⟨hiff.2, fun _ => hiff.1⟩
  · refine ⟨fun _ => bounded_of_leases hold (fun operation _ he => absurd he (hop operation)) fun lease hm => ?_,
      fun _ _ operation he => absurd he (hop operation)⟩
    rw [hleases] at hm
    rcases KeyedMap.mem_set.1 hm with rfl | ⟨hm, -⟩
    · exact .inr ⟨hfresh, hw⟩
    · exact .inl hm
  · refine ⟨fun _ => bounded_of_leases hold hno fun lease hm => .inl (hleases ▸ hm), fun ⟨reply, hreply⟩ _ => ?_⟩
    intro operation hop
    obtain ⟨options, _⟩ := call
    cases hop
    cases hr : operation.rewrite table options registry with
    | ok new => exact absurd hr (hno operation new rfl)
    | error stop =>
      simp only [perform, hr] at hreply
      cases hreply

end Steps

/-- **The bound of the expiries.** In a run whose calls all meet their conditions every lease that is not exempt has its idle
expiry within its absolute one, and every call keeps the bound; a call that is carried out keeps it only if it meets its
condition. -/
theorem expiry_bound_iff (table : CaseTable) {registry : Registry}
    (h : ((system table).restrict KeepsBound).Reachable registry) :
    (∀ lease ∈ registry.leases, Within lease) ∧ ∀ call,
      (KeepsBound registry call → Bounded table registry call (perform table call registry).2) ∧
        ((∃ reply, (perform table call registry).1 = .ok reply) →
          Bounded table registry call (perform table call registry).2 → KeepsBound registry call) := by
  have hwithin : ∀ lease ∈ registry.leases, Within lease := by
    refine h.invariant (I := fun registry => ∀ lease ∈ registry.leases, Within lease) ?_ ?_
    · rintro _ rfl lease hm
      exact absurd hm (KeyedMap.not_mem_empty lease)
    · rintro registry call registry' - hold ⟨hk, hstep⟩
      cases hstep
      exact ((perform_bounded call hold).1 hk).within
  exact ⟨hwithin, fun call => perform_bounded call hwithin⟩

/-! ## A tab that is taken again shortly before its end -/

/-- A heartbeat of the first of the two sample leases. -/
def sampleHeartbeat : Call :=
  ⟨sampleOptions 10 "lease-1", .lease (.heartbeat ⟨⟨"lease-1", 1, "operation"⟩, .at 1000, .finite 60000⟩)⟩

/-- A heartbeat has no condition. -/
theorem sampleHeartbeat_bounded :
    Bounded .lowered samplePair sampleHeartbeat (perform .lowered sampleHeartbeat samplePair).2 := by
  have hreach : ((system .lowered).restrict KeepsBound).Reachable samplePair := by
    refine .step (a := sampleReserve 20 "lease-2" "target-2" "conversation-2" none) (.step
      (a := sampleReserve 10 "lease-1" "target-1" "conversation-1" none) (.init rfl) ⟨?_, rfl⟩) ⟨?_, rfl⟩
    · exact fun _ he => by cases he
    · exact fun _ he => by cases he
  refine ((expiry_bound_iff .lowered hreach).2 sampleHeartbeat).1 ?_
  intro operation he old _ _
  cases he
  trivial

/-- A process reserves a tab for ten minutes, lets it rest, and takes it again a moment before the ten minutes are over. -/
def takenAgain : Registry :=
  runCalls .lowered
    [⟨sampleOptions 10 "lease-1", .reserve {
        scope := sampleScope, targetId := "target-1", workload := .conversation "conversation-1"
        operationId := "operation", now := .at 0, idleTtlMs := .finite 600000, absoluteTtlMs := .finite 600000
        processBound := true }⟩,
      ⟨sampleOptions 10 "lease-1", .lease (.idle ⟨⟨"lease-1", 1, "operation"⟩, .at 1000, .settled, settled_notInFlight⟩)⟩,
      ⟨sampleOptions 10 "lease-1", .lease (.acquireProcess ⟨"lease-1", 2, sampleScope, .conversation "conversation-1",
        "operation", .at 599999, .finite 600000, .finite 600000⟩)⟩] .empty

/-- The tab may now rest for ten minutes more than it is to live. -/
theorem takenAgain_unbounded : ¬∀ registry, (system .lowered).Reachable registry →
    (∀ lease ∈ registry.leases, Within lease) ∧ ∀ call,
      Bounded .lowered registry call (perform .lowered call registry).2 := by
  intro h
  obtain ⟨hwithin, -⟩ := h takenAgain (runCalls_reachable _ _)
  have hlease : (takenAgain.leases.get? "lease-1").map (fun lease =>
      (isTabLeaseTtlExempt lease, lease.idleExpiresAt, lease.absoluteExpiresAt)) =
        some (false, .at 1199999, .at 600000) := by decide +kernel
  obtain ⟨lease, hg, hfields⟩ := Option.map_eq_some_iff.1 hlease
  simp only [Prod.mk.injEq] at hfields
  obtain ⟨hexempt, hidle, habsolute⟩ := hfields
  have hlater := hwithin lease (KeyedMap.get?_eq_some.1 hg).1 hexempt
  rw [hidle, habsolute, notLater_iff (x := 1199999) (y := 600000) (by decide) (by decide)] at hlater
  exact absurd hlater (by decide)

end AuraCall.TabLease
