import AuraCall.Runtime.SchedulerClaim

/-!
# Lease ids that come back

The leases of a bundle stay in it when they have ended, and the local runner takes its lease under the same id every time.
`requireLease` finds the first lease with an id; on a run that has been through a lease with the id it finds that one, which
is not active, and the lease just acquired can neither be kept up nor be released. `lease_lifecycle_iff` shows that an id
which no earlier lease has is all it takes.
-/

namespace AuraCall.Runtime

open TransitionSystem

/-- The bundles of a run: created, and rewritten by operations of the runtime. -/
def bundles : TransitionSystem ExecutionRunRecordBundle Unit where
  Init bundle := ∃ run : NewRun, run.bundle = bundle
  Step bundle _ bundle' := Operation bundle bundle'

theorem onlyLastActive_of_reachable {bundle : ExecutionRunRecordBundle} (h : bundles.Reachable bundle) :
    OnlyLastActive bundle.leases := by
  refine h.invariant (I := fun bundle => OnlyLastActive bundle.leases) ?_ ?_
  · rintro _ ⟨run, rfl⟩
    rw [run.leases]
    exact onlyLastActive_nil
  · exact fun _ _ _ _ ho hstep => hstep.onlyLastActive ho

theorem OnlyLastActive.length_le {leases : List ExecutionRunLease} (h : OnlyLastActive leases) :
    (leases.filter (·.status = .active)).length ≤ 1 := by
  induction leases with
  | nil => exact Nat.zero_le _
  | cons lease leases ih =>
    rw [List.filter_cons]
    split
    · rename_i hactive
      rw [h [] lease leases rfl (of_decide_eq_true hactive)]
      exact Nat.le_refl _
    · exact ih fun earlier l later he ha => h (lease :: earlier) l later (by rw [he, List.cons_append]) ha

/-- What an acquired lease is for: its heartbeats and its release succeed, they rewrite that lease alone, and after the
release no lease is active. -/
structure LivesThrough (before : ExecutionRunRecordBundle) (leaseId : String) (acquired : ExecutionRunRecordBundle) :
    Prop where
  heartbeat : ∀ input : HeartbeatInput, input.leaseId = leaseId →
    ∃ result, heartbeatExecutionRunLease acquired input = .ok result ∧
      result.bundle.leases = before.leases ++ [result.lease]
  release : ∀ input : ReleaseInput, input.leaseId = leaseId →
    ∃ result, releaseExecutionRunLease acquired input = .ok result ∧
      result.bundle.leases = before.leases ++ [result.lease] ∧
      ∀ lease ∈ result.bundle.leases, lease.status ≠ .active

section Acquired

variable {bundle : ExecutionRunRecordBundle} {input : AcquireInput} {result : LeaseMutationResult}

/-- With a new id, the lease found under it is the one just acquired. -/
theorem requireLease_of_new (h : acquireExecutionRunLease bundle input = .ok result)
    (hnew : ∀ lease ∈ bundle.leases, lease.id ≠ input.leaseId) :
    requireLease result.bundle input.leaseId = .ok result.lease := by
  obtain ⟨-, he, hid, -, -⟩ := acquireExecutionRunLease_eq_ok h
  have hnone : bundle.leases.find? (·.id == input.leaseId) = none :=
    List.find?_eq_none.2 fun lease hm => by simpa using hnew lease hm
  rw [requireLease, he, appendLeaseMutation, withLeases_leases, List.find?_append, hnone]
  simp [hid]

/-- With an id that is there already, it is an earlier lease, which has ended. -/
theorem requireLease_of_reused (h : acquireExecutionRunLease bundle input = .ok result)
    (hold : ∃ lease ∈ bundle.leases, lease.id = input.leaseId) :
    ∃ lease, requireLease result.bundle input.leaseId = .ok lease ∧ lease.status ≠ .active := by
  obtain ⟨hn, he, -⟩ := acquireExecutionRunLease_eq_ok h
  obtain ⟨earlier, hm, hid⟩ := hold
  have hsome : (bundle.leases.find? (·.id == input.leaseId)).isSome :=
    List.find?_isSome.2 ⟨earlier, hm, by simp [hid]⟩
  obtain ⟨lease, hf⟩ := Option.isSome_iff_exists.1 hsome
  refine ⟨lease, ?_, getActiveExecutionRunLease_eq_none hn lease (List.mem_of_find?_eq_some hf)⟩
  rw [requireLease, he, appendLeaseMutation, withLeases_leases, List.find?_append, hf]
  rfl

/-- Replacing the lease just acquired, when no earlier lease has its id. -/
theorem replace_acquired (h : acquireExecutionRunLease bundle input = .ok result)
    (hnew : ∀ lease ∈ bundle.leases, lease.id ≠ input.leaseId) (lease : ExecutionRunLease)
    (hid : lease.id = input.leaseId) (event : ExecutionRunEvent) (updatedAt : String) :
    (replaceLeaseMutation result.bundle lease event updatedAt).leases = bundle.leases ++ [lease] := by
  obtain ⟨-, he, hrid, -, -⟩ := acquireExecutionRunLease_eq_ok h
  have hkept : bundle.leases.map (fun entry => if entry.id == lease.id then lease else entry) = bundle.leases := by
    conv_rhs => rw [← List.map_id bundle.leases]
    refine List.map_congr_left fun entry hm => ?_
    rw [if_neg (by simpa [hid] using hnew entry hm)]
    rfl
  rw [replaceLeaseMutation, withLeases_leases, he, appendLeaseMutation, withLeases_leases, List.map_append, hkept]
  simp [hrid, hid]

/-- A heartbeat of an active lease succeeds, and so does its release. -/
theorem heartbeatExecutionRunLease_of_active {lease : ExecutionRunLease} {heartbeat : HeartbeatInput}
    (hr : requireLease bundle heartbeat.leaseId = .ok lease) (ha : lease.status = .active) :
    ∃ result, heartbeatExecutionRunLease bundle heartbeat = .ok result := by
  simp [heartbeatExecutionRunLease, hr, bind, Except.bind, ha]

theorem releaseExecutionRunLease_of_active {lease : ExecutionRunLease} {release : ReleaseInput}
    (hr : requireLease bundle release.leaseId = .ok lease) (ha : lease.status = .active) :
    ∃ result, releaseExecutionRunLease bundle release = .ok result := by
  simp [releaseExecutionRunLease, hr, bind, Except.bind, ha]

theorem livesThrough_of_new (h : acquireExecutionRunLease bundle input = .ok result)
    (hnew : ∀ lease ∈ bundle.leases, lease.id ≠ input.leaseId) : LivesThrough bundle input.leaseId result.bundle := by
  have hrequire := requireLease_of_new h hnew
  have hfind := requireLease_eq_ok hrequire
  obtain ⟨hnone, -, hid, -, hactive⟩ := acquireExecutionRunLease_eq_ok h
  constructor
  · intro heartbeat hsame
    rw [← hsame] at hrequire hfind
    obtain ⟨kept, hkept⟩ := heartbeatExecutionRunLease_of_active hrequire hactive
    obtain ⟨existing, hf, -, hl, he⟩ := heartbeatExecutionRunLease_eq_ok hkept
    obtain rfl := Option.some.inj (hf.symm.trans hfind)
    refine ⟨kept, hkept, ?_⟩
    rw [he]
    exact replace_acquired h hnew _ (by rw [hl, ← hid]) _ _
  · intro release hsame
    rw [← hsame] at hrequire hfind
    obtain ⟨released, hreleased⟩ := releaseExecutionRunLease_of_active hrequire hactive
    obtain ⟨existing, hf, -, hl, he⟩ := releaseExecutionRunLease_eq_ok hreleased
    obtain rfl := Option.some.inj (hf.symm.trans hfind)
    have hleases : released.bundle.leases = bundle.leases ++ [released.lease] := by
      rw [he]
      exact replace_acquired h hnew _ (by rw [hl, ← hid]) _ _
    refine ⟨released, hreleased, hleases, fun lease hm => ?_⟩
    rw [hleases] at hm
    rcases List.mem_append.1 hm with hm | hm
    · exact getActiveExecutionRunLease_eq_none hnone lease hm
    · rw [List.mem_singleton.1 hm, hl]
      nofun

theorem not_livesThrough_of_reused (h : acquireExecutionRunLease bundle input = .ok result)
    (hold : ∃ lease ∈ bundle.leases, lease.id = input.leaseId) : ¬LivesThrough bundle input.leaseId result.bundle := by
  intro hlives
  obtain ⟨found, hrequire, hended⟩ := requireLease_of_reused h hold
  obtain ⟨released, hreleased, -⟩ := hlives.release ⟨input.leaseId, "", none⟩ rfl
  rw [releaseExecutionRunLease, hrequire] at hreleased
  simp only [bind, Except.bind, ne_eq, hended, not_false_eq_true, if_true] at hreleased
  cases hreleased

end Acquired

/-- **The life of a lease.** Of every bundle the runtime reaches at most one lease is active; and an acquired lease lives
through its heartbeats and its release exactly when no earlier lease of the bundle has its id. -/
theorem lease_lifecycle_iff {bundle : ExecutionRunRecordBundle} (h : bundles.Reachable bundle) :
    (bundle.leases.filter (·.status = .active)).length ≤ 1 ∧
    ∀ input result, acquireExecutionRunLease bundle input = .ok result →
      (LivesThrough bundle input.leaseId result.bundle ↔ ∀ lease ∈ bundle.leases, lease.id ≠ input.leaseId) := by
  refine ⟨(onlyLastActive_of_reachable h).length_le, fun input result ha => ⟨fun hlives => ?_, livesThrough_of_new ha⟩⟩
  intro lease hm hid
  exact not_livesThrough_of_reused ha ⟨lease, hm, hid⟩ hlives

/-! ## The lease of the local runner -/

def localRunnerLease : AcquireInput := ⟨"run:lease:local-runner", "runner", "t1", none, "t9"⟩

/-- A first lease under an id. -/
theorem first_lease_lives : ∃ result, acquireExecutionRunLease oneStepRun.bundle localRunnerLease = .ok result ∧
    LivesThrough oneStepRun.bundle "run:lease:local-runner" result.bundle := by
  have hreach : bundles.Reachable oneStepRun.bundle := .init ⟨oneStepRun, rfl⟩
  refine ⟨_, rfl, ((lease_lifecycle_iff hreach).2 localRunnerLease _ rfl).2 fun lease hm => ?_⟩
  cases hm

/-- The local runner takes its lease, releases it, and takes it again: it cannot release the second one. -/
theorem second_lease_stuck : ¬∀ bundle, bundles.Reachable bundle → ∀ input result,
    acquireExecutionRunLease bundle input = .ok result → LivesThrough bundle input.leaseId result.bundle := by
  intro h
  obtain ⟨first, hfirst⟩ : ∃ first, acquireExecutionRunLease oneStepRun.bundle localRunnerLease = .ok first := ⟨_, rfl⟩
  have hlives := livesThrough_of_new hfirst fun lease hm => nomatch hm
  obtain ⟨released, hreleased, hleases, hended⟩ := hlives.release ⟨"run:lease:local-runner", "t2", none⟩ rfl
  have hid : released.lease.id = "run:lease:local-runner" := by
    obtain ⟨existing, hf, -, hl, -⟩ := releaseExecutionRunLease_eq_ok hreleased
    rw [hl]
    simpa using List.find?_some hf
  obtain ⟨second, hsecond⟩ : ∃ second, acquireExecutionRunLease released.bundle localRunnerLease = .ok second := by
    have hnone : getActiveExecutionRunLease released.bundle = none :=
      List.find?_eq_none.2 fun lease hm => by simpa using hended lease hm
    simp [acquireExecutionRunLease, hnone]
  have hreach : bundles.Reachable released.bundle :=
    .step (a := ()) (.step (a := ()) (.init ⟨oneStepRun, rfl⟩) (.acquire hfirst)) (.release hreleased)
  have hmem : released.lease ∈ released.bundle.leases := hleases ▸ List.mem_append_right _ List.mem_cons_self
  exact not_livesThrough_of_reused hsecond ⟨released.lease, hmem, hid⟩ (h _ hreach _ _ hsecond)

end AuraCall.Runtime
