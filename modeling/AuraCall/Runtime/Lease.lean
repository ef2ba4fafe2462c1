import AuraCall.Runtime.Model

/-!
# Run leases

A runner holds a run through a lease of the bundle. `acquireExecutionRunLease` appends an active lease unless the bundle
has one, `heartbeatExecutionRunLease` and `releaseExecutionRunLease` rewrite the lease with an identifier, and
`expireExecutionRunLeases` ends every active lease whose time is over.

Identifiers of leases may repeat, so a heartbeat or a release rewrites every lease with the identifier of the first one.
Only the last lease of a bundle is ever active (`OnlyLastActive`): this is what every operation keeps, and it makes the
active lease unique.
-/

namespace AuraCall.Runtime

/-! ## Operations -/

/-- `record.bundle.leases.find((lease) => lease.status === 'active')`. -/
def getActiveExecutionRunLease (bundle : ExecutionRunRecordBundle) : Option ExecutionRunLease :=
  bundle.leases.find? (·.status == .active)

def requireLease (bundle : ExecutionRunRecordBundle) (leaseId : String) : Except RuntimeError ExecutionRunLease :=
  match bundle.leases.find? (·.id == leaseId) with
  | some lease => .ok lease
  | none => throwing s!"Execution lease {leaseId} was not found in run {bundle.run.id}"

/-- The bundle with other leases and the events of the change. -/
def withLeases (bundle : ExecutionRunRecordBundle) (leases : List ExecutionRunLease) (events : List ExecutionRunEvent)
    (updatedAt : String) : ExecutionRunRecordBundle :=
  { bundle with
    run := { bundle.run with updatedAt }
    leases
    events := bundle.events ++ events
    sharedState := { bundle.sharedState with
      history := bundle.sharedState.history ++ events
      lastUpdatedAt := updatedAt } }

def appendLeaseMutation (bundle : ExecutionRunRecordBundle) (lease : ExecutionRunLease) (event : ExecutionRunEvent)
    (updatedAt : String) : ExecutionRunRecordBundle :=
  withLeases bundle (bundle.leases ++ [lease]) [event] updatedAt

def replaceLeaseMutation (bundle : ExecutionRunRecordBundle) (lease : ExecutionRunLease) (event : ExecutionRunEvent)
    (updatedAt : String) : ExecutionRunRecordBundle :=
  withLeases bundle (bundle.leases.map fun entry => if entry.id == lease.id then lease else entry) [event] updatedAt

structure AcquireInput where
  leaseId : String
  ownerId : String
  acquiredAt : String
  heartbeatAt : Option String := none
  expiresAt : String

structure LeaseMutationResult where
  bundle : ExecutionRunRecordBundle
  lease : ExecutionRunLease
  event : ExecutionRunEvent

def acquireExecutionRunLease (bundle : ExecutionRunRecordBundle) (input : AcquireInput) :
    Except RuntimeError LeaseMutationResult :=
  match getActiveExecutionRunLease bundle with
  | some conflicting => throwing s!"Execution run {bundle.run.id} already has active lease {conflicting.id}"
  | none =>
    let lease : ExecutionRunLease :=
      { id := input.leaseId, runId := bundle.run.id, ownerId := input.ownerId, status := .active,
        acquiredAt := input.acquiredAt, heartbeatAt := input.heartbeatAt.getD input.acquiredAt,
        expiresAt := input.expiresAt, releasedAt := none, releaseReason := none }
    let event : ExecutionRunEvent :=
      { id := s!"{bundle.run.id}:event:{lease.id}:lease-acquired", runId := bundle.run.id, type := .leaseAcquired,
        createdAt := input.acquiredAt, leaseId := some lease.id, note := some s!"lease acquired by {lease.ownerId}",
        payload := some [("ownerId", .string lease.ownerId), ("expiresAt", .string lease.expiresAt)] }
    .ok ⟨appendLeaseMutation bundle lease event input.acquiredAt, lease, event⟩

structure HeartbeatInput where
  leaseId : String
  heartbeatAt : String
  expiresAt : String
  runtimeEvidence : Option JsonRecord := none

def heartbeatExecutionRunLease (bundle : ExecutionRunRecordBundle) (input : HeartbeatInput) :
    Except RuntimeError LeaseMutationResult := do
  let existing ← requireLease bundle input.leaseId
  if existing.status ≠ .active then throwing s!"Execution lease {existing.id} is not active"
  else
    let lease := { existing with heartbeatAt := input.heartbeatAt, expiresAt := input.expiresAt }
    let event : ExecutionRunEvent :=
      { id := s!"{bundle.run.id}:event:{lease.id}:lease-heartbeat:{input.heartbeatAt}", runId := bundle.run.id,
        type := .noteAdded, createdAt := input.heartbeatAt, leaseId := some lease.id,
        note := some s!"lease heartbeat from {lease.ownerId}",
        payload := some ([("ownerId", .string lease.ownerId), ("expiresAt", .string lease.expiresAt)] ++
          (input.runtimeEvidence.map fun evidence => ("runtimeEvidence", .object evidence)).toList) }
    .ok ⟨replaceLeaseMutation bundle lease event input.heartbeatAt, lease, event⟩

structure ReleaseInput where
  leaseId : String
  releasedAt : String
  releaseReason : Option String := none

def releaseExecutionRunLease (bundle : ExecutionRunRecordBundle) (input : ReleaseInput) :
    Except RuntimeError LeaseMutationResult := do
  let existing ← requireLease bundle input.leaseId
  if existing.status ≠ .active then throwing s!"Execution lease {existing.id} is not active"
  else
    let lease := { existing with
      status := .released, releasedAt := some input.releasedAt, releaseReason := input.releaseReason }
    let event : ExecutionRunEvent :=
      { id := s!"{bundle.run.id}:event:{lease.id}:lease-released", runId := bundle.run.id, type := .leaseReleased,
        createdAt := input.releasedAt, leaseId := some lease.id,
        note := some (lease.releaseReason.elim "lease released" fun reason =>
          if reason.isEmpty then "lease released" else s!"lease released: {reason}"),
        payload := some [("ownerId", .string lease.ownerId), ("releaseReason", .ofOption lease.releaseReason)] }
    .ok ⟨replaceLeaseMutation bundle lease event input.releasedAt, lease, event⟩

/-- An active lease with `!(lease.expiresAt > now)`. -/
def leaseExpired (now : String) (lease : ExecutionRunLease) : Bool :=
  lease.status == .active && notAfter lease.expiresAt now

def expireLease (now : String) (lease : ExecutionRunLease) : ExecutionRunLease :=
  if leaseExpired now lease then
    { lease with status := .expired, releasedAt := some now, releaseReason := some "lease expired" }
  else lease

def leaseExpiredEvent (runId now : String) (lease : ExecutionRunLease) : ExecutionRunEvent :=
  { id := s!"{runId}:event:{lease.id}:lease-expired", runId, type := .leaseReleased, createdAt := now,
    leaseId := some lease.id, note := some "lease expired",
    payload := some [("ownerId", .string lease.ownerId), ("previousExpiresAt", .string lease.expiresAt)] }

structure ExpireResult where
  bundle : ExecutionRunRecordBundle
  expiredLeaseIds : List String
  events : List ExecutionRunEvent

def expireExecutionRunLeases (bundle : ExecutionRunRecordBundle) (now : String) : ExpireResult :=
  let expired := bundle.leases.filter (leaseExpired now)
  let events := expired.map (leaseExpiredEvent bundle.run.id now)
  if events.isEmpty then ⟨bundle, [], []⟩
  else ⟨withLeases bundle (bundle.leases.map (expireLease now)) events now, expired.map (·.id), events⟩

/-! ## What an operation changes -/

@[simp] theorem withLeases_leases (bundle : ExecutionRunRecordBundle) (leases : List ExecutionRunLease)
    (events : List ExecutionRunEvent) (updatedAt : String) :
    (withLeases bundle leases events updatedAt).leases = leases := rfl

theorem withLeases_appends (bundle : ExecutionRunRecordBundle) (leases : List ExecutionRunLease)
    (events : List ExecutionRunEvent) (updatedAt : String) :
    Appends bundle (withLeases bundle leases events updatedAt) events := ⟨rfl, rfl⟩

/-- The steps and the status of the run are kept. -/
structure KeepsSteps (bundle bundle' : ExecutionRunRecordBundle) : Prop where
  steps : bundle'.steps = bundle.steps
  status : bundle'.run.status = bundle.run.status

theorem KeepsSteps.trans {b b' b'' : ExecutionRunRecordBundle} (h : KeepsSteps b b') (h' : KeepsSteps b' b'') :
    KeepsSteps b b'' := ⟨h'.steps.trans h.steps, h'.status.trans h.status⟩

theorem withLeases_keepsSteps (bundle : ExecutionRunRecordBundle) (leases : List ExecutionRunLease)
    (events : List ExecutionRunEvent) (updatedAt : String) :
    KeepsSteps bundle (withLeases bundle leases events updatedAt) := ⟨rfl, rfl⟩

theorem requireLease_eq_ok {bundle : ExecutionRunRecordBundle} {leaseId : String} {lease : ExecutionRunLease}
    (h : requireLease bundle leaseId = .ok lease) : bundle.leases.find? (·.id == leaseId) = some lease := by
  unfold requireLease at h
  split at h
  · cases h; assumption
  · cases h

/-- An acquired lease is appended to leases that are all inactive. -/
theorem acquireExecutionRunLease_eq_ok {bundle : ExecutionRunRecordBundle} {input : AcquireInput}
    {result : LeaseMutationResult} (h : acquireExecutionRunLease bundle input = .ok result) :
    getActiveExecutionRunLease bundle = none ∧
      result.bundle = appendLeaseMutation bundle result.lease result.event input.acquiredAt ∧
      result.lease.id = input.leaseId ∧ result.lease.ownerId = input.ownerId ∧ result.lease.status = .active := by
  unfold acquireExecutionRunLease at h
  split at h
  · cases h
  · rename_i hn
    cases h
    exact ⟨hn, rfl, rfl, rfl, rfl⟩

/-- A heartbeat rewrites an active lease, and leaves it active with its owner. -/
theorem heartbeatExecutionRunLease_eq_ok {bundle : ExecutionRunRecordBundle} {input : HeartbeatInput}
    {result : LeaseMutationResult} (h : heartbeatExecutionRunLease bundle input = .ok result) :
    ∃ existing, bundle.leases.find? (·.id == input.leaseId) = some existing ∧ existing.status = .active ∧
      result.lease = { existing with heartbeatAt := input.heartbeatAt, expiresAt := input.expiresAt } ∧
      result.bundle = replaceLeaseMutation bundle result.lease result.event input.heartbeatAt := by
  unfold heartbeatExecutionRunLease at h
  cases hr : requireLease bundle input.leaseId with
  | error e => simp [hr, bind, Except.bind] at h
  | ok existing =>
    simp only [hr, bind, Except.bind] at h
    split at h
    · cases h
    · rename_i hs
      cases h
      exact ⟨existing, requireLease_eq_ok hr, by simpa using hs, rfl, rfl⟩

/-- A release rewrites an active lease, and leaves it released. -/
theorem releaseExecutionRunLease_eq_ok {bundle : ExecutionRunRecordBundle} {input : ReleaseInput}
    {result : LeaseMutationResult} (h : releaseExecutionRunLease bundle input = .ok result) :
    ∃ existing, bundle.leases.find? (·.id == input.leaseId) = some existing ∧ existing.status = .active ∧
      result.lease = { existing with
        status := .released, releasedAt := some input.releasedAt, releaseReason := input.releaseReason } ∧
      result.bundle = replaceLeaseMutation bundle result.lease result.event input.releasedAt := by
  unfold releaseExecutionRunLease at h
  cases hr : requireLease bundle input.leaseId with
  | error e => simp [hr, bind, Except.bind] at h
  | ok existing =>
    simp only [hr, bind, Except.bind] at h
    split at h
    · cases h
    · rename_i hs
      cases h
      exact ⟨existing, requireLease_eq_ok hr, by simpa using hs, rfl, rfl⟩

/-- Expiry leaves the bundle alone, or rewrites its leases one by one. -/
theorem expireExecutionRunLeases_cases (bundle : ExecutionRunRecordBundle) (now : String) :
    ((∀ lease ∈ bundle.leases, leaseExpired now lease = false) ∧
      expireExecutionRunLeases bundle now = ⟨bundle, [], []⟩) ∨
    ∃ events, (expireExecutionRunLeases bundle now).bundle =
        withLeases bundle (bundle.leases.map (expireLease now)) events now ∧
      (expireExecutionRunLeases bundle now).expiredLeaseIds =
        (bundle.leases.filter (leaseExpired now)).map (·.id) := by
  unfold expireExecutionRunLeases
  by_cases he : ((bundle.leases.filter (leaseExpired now)).map (leaseExpiredEvent bundle.run.id now)).isEmpty
  · refine .inl ⟨fun lease hm => ?_, by simp only [he, if_true]⟩
    simp only [List.isEmpty_iff, List.map_eq_nil_iff, List.filter_eq_nil_iff] at he
    simpa using he lease hm
  · exact .inr ⟨_, by simp only [he]; rfl, by simp only [he]; rfl⟩

theorem acquireExecutionRunLease_keepsSteps {bundle : ExecutionRunRecordBundle} {input : AcquireInput}
    {result : LeaseMutationResult} (h : acquireExecutionRunLease bundle input = .ok result) :
    KeepsSteps bundle result.bundle := by
  obtain ⟨-, he, -⟩ := acquireExecutionRunLease_eq_ok h
  rw [he]
  exact withLeases_keepsSteps _ _ _ _

theorem heartbeatExecutionRunLease_keepsSteps {bundle : ExecutionRunRecordBundle} {input : HeartbeatInput}
    {result : LeaseMutationResult} (h : heartbeatExecutionRunLease bundle input = .ok result) :
    KeepsSteps bundle result.bundle := by
  obtain ⟨_, -, -, -, he⟩ := heartbeatExecutionRunLease_eq_ok h
  rw [he]
  exact withLeases_keepsSteps _ _ _ _

theorem releaseExecutionRunLease_keepsSteps {bundle : ExecutionRunRecordBundle} {input : ReleaseInput}
    {result : LeaseMutationResult} (h : releaseExecutionRunLease bundle input = .ok result) :
    KeepsSteps bundle result.bundle := by
  obtain ⟨_, -, -, -, he⟩ := releaseExecutionRunLease_eq_ok h
  rw [he]
  exact withLeases_keepsSteps _ _ _ _

theorem expireExecutionRunLeases_keepsSteps (bundle : ExecutionRunRecordBundle) (now : String) :
    KeepsSteps bundle (expireExecutionRunLeases bundle now).bundle := by
  rcases expireExecutionRunLeases_cases bundle now with ⟨-, he⟩ | ⟨_, he, -⟩
  · rw [he]
    exact ⟨rfl, rfl⟩
  · rw [he]
    exact withLeases_keepsSteps _ _ _ _

/-- A lease is active after an expiry when it was active and its time is not over. -/
theorem expireLease_active {now : String} {lease : ExecutionRunLease} (h : (expireLease now lease).status = .active) :
    lease.status = .active ∧ leaseExpired now lease = false ∧ expireLease now lease = lease := by
  unfold expireLease at h ⊢
  split at h
  · cases h
  · rename_i he
    exact ⟨h, by simpa using he, by simp [he]⟩

/-! ## The active lease -/

/-- Every lease but the last has ended. -/
def OnlyLastActive (leases : List ExecutionRunLease) : Prop :=
  ∀ earlier lease later, leases = earlier ++ lease :: later → lease.status = .active → later = []

theorem onlyLastActive_nil : OnlyLastActive [] := by
  intro earlier lease later h
  simp at h

theorem OnlyLastActive.unique {leases : List ExecutionRunLease} (h : OnlyLastActive leases) {l l' : ExecutionRunLease}
    (hl : l ∈ leases) (hl' : l' ∈ leases) (ha : l.status = .active) (ha' : l'.status = .active) : l = l' := by
  obtain ⟨s, t, rfl⟩ := List.append_of_mem hl
  obtain rfl := h s l t rfl ha
  rcases List.mem_append.mp hl' with hs | hs
  · obtain ⟨s₁, s₂, rfl⟩ := List.append_of_mem hs
    have := h s₁ l' (s₂ ++ [l]) (by simp) ha'
    simp at this
  · exact (List.mem_singleton.mp hs).symm

theorem onlyLastActive_append {leases : List ExecutionRunLease} (lease : ExecutionRunLease)
    (h : ∀ l ∈ leases, l.status ≠ .active) : OnlyLastActive (leases ++ [lease]) := by
  intro earlier l later he ha
  rcases List.eq_nil_or_concat later with rfl | ⟨later', last, rfl⟩
  · rfl
  · have hm : l ∈ leases := by
      have : leases ++ [lease] = (earlier ++ l :: later') ++ [last] := by simpa using he
      rw [(List.append_inj' this rfl).1]
      simp
    exact absurd ha (h l hm)

/-- Rewriting the leases one by one, where no lease becomes active. -/
theorem OnlyLastActive.map {leases : List ExecutionRunLease} (h : OnlyLastActive leases)
    {f : ExecutionRunLease → ExecutionRunLease} (hf : ∀ l ∈ leases, (f l).status = .active → l.status = .active) :
    OnlyLastActive (leases.map f) := by
  intro earlier l later he ha
  obtain ⟨e', rest, rfl, rfl, hr⟩ := List.map_eq_append_iff.mp he
  obtain ⟨l', later', rfl, rfl, rfl⟩ := List.map_eq_cons_iff.mp hr
  rw [h e' l' later' rfl (hf l' (by simp) ha), List.map_nil]

/-- The first lease with an identifier, when it is active, is the only one with the identifier. -/
theorem OnlyLastActive.eq_of_id {leases : List ExecutionRunLease} (h : OnlyLastActive leases) {leaseId : String}
    {existing : ExecutionRunLease} (hf : leases.find? (·.id == leaseId) = some existing) (ha : existing.status = .active) :
    ∀ l ∈ leases, l.id = leaseId → l = existing := by
  intro l hm hi
  obtain ⟨-, s, t, rfl, hs⟩ := List.find?_eq_some_iff_append.mp hf
  obtain rfl := h s existing t rfl ha
  rcases List.mem_append.mp hm with hms | hms
  · have := hs l hms
    simp [hi] at this
  · simpa using hms

/-- A bundle with its lease replaced, where the first lease with the identifier is active. -/
theorem OnlyLastActive.replace {leases : List ExecutionRunLease} (h : OnlyLastActive leases)
    {lease existing : ExecutionRunLease} (hf : leases.find? (·.id == lease.id) = some existing)
    (ha : existing.status = .active) :
    OnlyLastActive (leases.map fun entry => if entry.id == lease.id then lease else entry) := by
  refine h.map fun l hm hs => ?_
  split at hs
  · rename_i hi
    rw [h.eq_of_id hf ha l hm (by simpa using hi)]
    exact ha
  · exact hs

theorem getActiveExecutionRunLease_eq_none {bundle : ExecutionRunRecordBundle}
    (h : getActiveExecutionRunLease bundle = none) : ∀ l ∈ bundle.leases, l.status ≠ .active := by
  intro l hm
  simpa using List.find?_eq_none.mp h l hm

theorem getActiveExecutionRunLease_eq_some {bundle : ExecutionRunRecordBundle} {lease : ExecutionRunLease}
    (h : getActiveExecutionRunLease bundle = some lease) : lease ∈ bundle.leases ∧ lease.status = .active :=
  ⟨List.mem_of_find?_eq_some h, by simpa using List.find?_some h⟩

theorem acquireExecutionRunLease_active {bundle : ExecutionRunRecordBundle} {input : AcquireInput}
    {result : LeaseMutationResult} (h : acquireExecutionRunLease bundle input = .ok result) :
    getActiveExecutionRunLease result.bundle = some result.lease := by
  obtain ⟨hn, he, -, -, hs⟩ := acquireExecutionRunLease_eq_ok h
  unfold getActiveExecutionRunLease at hn ⊢
  rw [he, appendLeaseMutation, withLeases_leases, List.find?_append, hn]
  simp [hs]

/-- Replacing the active lease, where it is the first with its identifier. -/
theorem find?_active_replace {lease active existing : ExecutionRunLease} (hid : lease.id = active.id)
    (hs : lease.status = .active) (he : existing.status = .active) : ∀ {leases : List ExecutionRunLease},
      leases.find? (·.status == .active) = some active → leases.find? (·.id == active.id) = some existing →
      existing = active ∧
        (leases.map fun entry => if entry.id == lease.id then lease else entry).find? (·.status == .active) = some lease
  | [], hf, _ => by cases hf
  | head :: rest, hf, hx => by
    by_cases ha : head.status = .active
    · rw [List.find?_cons_of_pos (by simp [ha])] at hf
      obtain rfl := Option.some.inj hf
      rw [List.find?_cons_of_pos (by simp)] at hx
      refine ⟨(Option.some.inj hx).symm, ?_⟩
      rw [List.map_cons, if_pos (by simp [hid]), List.find?_cons_of_pos (by simp [hs])]
    · have hne : head.id ≠ active.id := by
        intro hi
        rw [List.find?_cons_of_pos (by simp [hi])] at hx
        obtain rfl := Option.some.inj hx
        exact ha he
      rw [List.find?_cons_of_neg (by simp [ha])] at hf
      rw [List.find?_cons_of_neg (by simp [hne])] at hx
      obtain ⟨hex, hr⟩ := find?_active_replace hid hs he hf hx
      refine ⟨hex, ?_⟩
      rw [List.map_cons, if_neg (by simp [hid, hne]), List.find?_cons_of_neg (by simp [ha])]
      exact hr

theorem heartbeatExecutionRunLease_active {bundle : ExecutionRunRecordBundle} {input : HeartbeatInput}
    {result : LeaseMutationResult} {active : ExecutionRunLease}
    (h : heartbeatExecutionRunLease bundle input = .ok result) (ha : getActiveExecutionRunLease bundle = some active)
    (hi : active.id = input.leaseId) :
    ∃ lease, getActiveExecutionRunLease result.bundle = some lease ∧ lease.id = active.id ∧
      lease.ownerId = active.ownerId := by
  obtain ⟨existing, hf, hs, hl, he⟩ := heartbeatExecutionRunLease_eq_ok h
  have hid : existing.id = input.leaseId := by simpa using List.find?_some hf
  rw [← hi] at hf
  have hlid : result.lease.id = active.id := by rw [hl, hi, ← hid]
  have hls : result.lease.status = .active := by rw [hl, hs]
  obtain ⟨rfl, hr⟩ := find?_active_replace hlid hls hs ha hf
  refine ⟨result.lease, ?_, hlid, by rw [hl]⟩
  rw [getActiveExecutionRunLease, he]
  exact hr

end AuraCall.Runtime
