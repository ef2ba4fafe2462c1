import AuraCall.Runtime.Processes

/-!
# One lease for each revision

`acquireLease` and `persistRun` write with the revision they expect, and report the record they have written. The store
compares the revision and renames the new record into place in separate awaits: two calls that both compare before
either renames both report success, with the same revision (`acquired_twice`).

Where no other write falls between the comparison and the renaming of a write, calls that report success report
different revisions, and of several acquisitions of one run at most one reports success (`lease_exclusion`).
-/

namespace AuraCall.Runtime

open RevisionedStore TransitionSystem

/-- A process on the run, or a call of `persistRun` with any bundle. -/
inductive Contender
  | process (process : Process)
  | persist (runId : String) (bundle : ExecutionRunRecordBundle) (expectedRevision : Option Nat)

def Contender.program : Contender → Call Reply
  | process p => p.program
  | persist runId bundle expectedRevision => do return .record (some (← persistRun runId bundle expectedRevision))

/-- `acquireLease` or `persistRun`. -/
def Contender.Claims : Contender → Prop
  | process (.acquire _ _) => True
  | process _ => False
  | persist _ _ _ => True

def Contender.Acquires (contender : Contender) : Prop := ∃ runId input, contender = .process (.acquire runId input)

/-- The record with which a call reports success. -/
def reported : Call Reply → Option ExecutionRunStoredRecord
  | .done (.ok (.record record)) => record
  | _ => none

variable {ι : Type}

/-- Any stored record, and the contenders at their beginning. -/
def contention (contents : RunContents) (contender : ι → Contender) : RunConfig ι :=
  ⟨contents, fun i => (contender i).program⟩

/-! ## Two calls that compare before either renames -/

def twoRunners : Bool → Contender
  | false => .process (.acquire "run" ⟨"lease-a", "runner-a", "t1", none, "t2"⟩)
  | true => .process (.acquire "run" ⟨"lease-b", "runner-b", "t1", none, "t2"⟩)

/-- Both read, both compare, both rename. -/
def bothAcquired : Interleaving Bool Point ExecutionRunRecordBundle RuntimeError Reply :=
  (execute Interleaving.call ⟨contention (some ⟨1, oneStepRun.bundle⟩) twoRunners, fun _ => none⟩
    [false, true, false, true, false, true]).get (by decide +kernel)

/-- **Both runners are told that they hold the run**, with the same revision. -/
theorem acquired_twice : ¬∀ s, (interleaved (contention (some ⟨1, oneStepRun.bundle⟩) twoRunners)).Reachable s →
    ∀ i j a b, i ≠ j → reported (s.program i) = some a → reported (s.program j) = some b → a.revision ≠ b.revision := by
  intro h
  have h0 : (interleaved (contention (some ⟨1, oneStepRun.bundle⟩) twoRunners)).Reachable
      ⟨contention (some ⟨1, oneStepRun.bundle⟩) twoRunners, fun _ => none⟩ := .init rfl
  have ha : ((reported (bothAcquired.program false)).map (·.revision)) = some 2 := by decide +kernel
  have hb : ((reported (bothAcquired.program true)).map (·.revision)) = some 2 := by decide +kernel
  obtain ⟨a, hra, hva⟩ := Option.map_eq_some_iff.mp ha
  obtain ⟨b, hrb, hvb⟩ := Option.map_eq_some_iff.mp hb
  exact h bothAcquired (reachable_get h0 _) false true a b (by decide) hra hrb (hva.trans hvb.symm)

/-! ## Uninterrupted writes -/

theorem reported_eq_some {p : Call Reply} {record : ExecutionRunStoredRecord} (h : reported p = some record) :
    p = .done (.ok (.record (some record))) := by
  unfold reported at h
  split at h
  · rw [h]
  · cases h

/-- A call that claims the run reports the record it writes. -/
theorem Contender.reports {contender : Contender} (h : contender.Claims) :
    contender.program.Reports fun stored => Reply.record (some stored) := by
  cases contender with
  | persist runId bundle expectedRevision =>
    show Program.Reports _ (persistRun runId bundle expectedRevision >>= _)
    unfold persistRun
    split
    · exact ⟨_, rfl⟩
    · exact ⟨fun _ => ⟨_, rfl⟩, fun _ => rfl⟩
  | process p =>
    cases p with
    | acquire runId input =>
      intro s
      cases s with
      | none => exact ⟨_, rfl⟩
      | some record =>
        show Program.Reports _ ((Program.ofExcept ((acquireExecutionRunLease record.value input).map (·.bundle)) >>= _) >>= _)
        cases acquireExecutionRunLease record.value input with
        | error e => exact ⟨_, rfl⟩
        | ok result => exact ⟨fun _ => ⟨_, rfl⟩, fun _ => rfl⟩
    | _ => cases h

/-- The write of an acquisition replaces a record without an active lease by one with an active lease. -/
def Acquisition (_ : Point) (s s' : RunContents) : Prop :=
  (∀ record ∈ s, getActiveExecutionRunLease record.value = none) ∧
    ∃ stored ∈ s', getActiveExecutionRunLease stored.value ≠ none

theorem acquire_ensures (runId : String) (input : AcquireInput) (s : RunContents) :
    (Process.acquire runId input).program.Ensures (laterRely Point ExecutionRunRecordBundle) Acquisition
      (fun _ _ => True) s := by
  intro s' _
  cases s' with
  | none => trivial
  | some record =>
    show Program.Ensures _ _ _ ((Program.ofExcept ((acquireExecutionRunLease record.value input).map (·.bundle)) >>= _) >>= _) _
    cases ha : acquireExecutionRunLease record.value input with
    | error e => trivial
    | ok result =>
      intro s'' hs
      refine ⟨fun _ _ => trivial, fun stored hw => ⟨⟨fun record' hm => ?_, stored, rfl, ?_⟩, trivial⟩⟩
      · obtain rfl := Later.eq_of_attempt hs hw
        obtain rfl : record = record' := by simpa using hm
        exact (acquireExecutionRunLease_eq_ok ha).1
      · rw [(attempt_eq_ok hw).2]
        show getActiveExecutionRunLease result.bundle ≠ none
        rw [acquireExecutionRunLease_active ha]
        simp

variable {contents : RunContents} {contender : ι → Contender}

theorem Contender.Acquires.claims {contender : Contender} (h : contender.Acquires) : contender.Claims := by
  obtain ⟨runId, input, rfl⟩ := h
  trivial

/-- A call that has yet to report its write has reported nothing. -/
theorem reported_of_reports {p : Call Reply} (h : p.Reports fun stored => Reply.record (some stored)) :
    reported p = none := by
  cases hr : reported p with
  | none => rfl
  | some a =>
    rw [reported_eq_some hr] at h
    obtain ⟨e, he⟩ := h
    cases he

/-- At most one call has reported success, and then a lease is active. -/
def AcquiredOnce (c : RunConfig ι) : Prop :=
  ∀ i a, reported (c.program i) = some a → (∃ record ∈ c.contents, getActiveExecutionRunLease record.value ≠ none) ∧
    ∀ j b, reported (c.program j) = some b → j = i

theorem acquisition_ensures (hacq : ∀ i, (contender i).Acquires) (i : ι) :
    ((contention contents contender).program i).Ensures (laterRely Point ExecutionRunRecordBundle) Acquisition
      (fun _ _ => True) (contention contents contender).contents := by
  obtain ⟨runId, input, hi⟩ := hacq i
  show (contender i).program.Ensures _ _ _ _
  rw [hi]
  exact acquire_ensures runId input contents

variable [DecidableEq ι]

/-- A call that goes on without a write reports nothing. -/
theorem reported_set {c : RunConfig ι} {i j : ι} {p : Call Reply} {a : ExecutionRunStoredRecord}
    (hp : reported p = none) (ha : reported ((c.set i p).program j) = some a) :
    j ≠ i ∧ reported (c.program j) = some a := by
  by_cases hj : j = i
  · subst hj
    rw [Config.set_self, hp] at ha
    cases ha
  · exact ⟨hj, by rwa [Config.set_ne _ _ hj] at ha⟩

theorem AcquiredOnce.set {c : RunConfig ι} (h : AcquiredOnce c) {i : ι} {p : Call Reply} (hp : reported p = none) :
    AcquiredOnce (c.set i p) := by
  intro j a ha
  obtain ⟨hactive, honly⟩ := h j a (reported_set hp ha).2
  exact ⟨hactive, fun k b hb => honly k b (reported_set hp hb).2⟩

/-- Of several acquisitions at most one has reported success, and then a lease is active. -/
theorem acquired_once (hacq : ∀ i, (contender i).Acquires) {c : RunConfig ι}
    (h : (atomic (contention contents contender)).Reachable c) : AcquiredOnce c := by
  have hinj : Function.Injective fun stored : ExecutionRunStoredRecord => Reply.record (some stored) :=
    fun a b he => by simpa using he
  refine h.invariant (I := AcquiredOnce) ?_ ?_
  · rintro c rfl i a ha
    have hnone := reported_of_reports ((contender i).reports (hacq i).claims)
    rw [show (contention contents contender).program i = (contender i).program from rfl, hnone] at ha
    cases ha
  · intro c i c' hr hc ha
    have hreporting : Reporting (fun stored => Reply.record (some stored)) (fun _ => True) c :=
      reporting_of_reachable hinj (fun i _ => (contender i).reports (hacq i).claims) hr
    have hsound : Sound (fun _ : ι => laterRely Point ExecutionRunRecordBundle) (fun _ => Acquisition)
        (fun _ _ _ => True) c i :=
      sound_of_reachable (acquisition_ensures hacq) (fun _ _ _ _ _ _ _ hlt _ _ _ _ _ => .inr hlt)
        (hr.restrict fun _ _ => trivial) i
    have hreports : (∀ e, c.program i ≠ .done e) → (c.program i).Reports fun stored => Reply.record (some stored) := by
      intro hd
      rcases hreporting.program i trivial with hreports | ⟨stored, hdone, -⟩
      · exact hreports
      · exact absurd hdone (hd _)
    rcases Config.call_cases ha with ⟨p, next, hp, rfl⟩ | ⟨p, expected, value, next, found, hp, hw, rfl⟩ |
      ⟨p, expected, value, next, stored, hp, hw, he⟩
    · have := hreports (by rw [hp]; simp)
      rw [hp] at this
      exact hc.set (reported_of_reports (this _))
    · have := hreports (by rw [hp]; simp)
      rw [hp] at this
      exact hc.set (reported_of_reports (this.1 _))
    · -- the write finds no active lease, so it is the first one, and leaves one
      obtain ⟨hbefore, hafter⟩ := hsound.guarantee hp hw
      have hfirst : ∀ j b, reported (c.program j) ≠ some b := by
        intro j b hb
        obtain ⟨⟨record, hm, hne⟩, -⟩ := hc j b hb
        exact hne (hbefore record hm)
      have honly : ∀ j b, reported (c'.program j) = some b → j = i := by
        intro j b hb
        by_contra hj
        rw [he, Config.set_ne _ _ hj] at hb
        exact hfirst j b hb
      intro j a hj
      obtain rfl := honly j a hj
      exact ⟨by rw [he]; exact hafter, honly⟩

/-- **Uninterrupted calls report different revisions, and one acquisition at most reports success.** -/
theorem lease_exclusion {s : Interleaving ι Point ExecutionRunRecordBundle RuntimeError Reply}
    (h : ((interleaved (contention contents contender)).restrict Uninterrupted).Reachable s) :
    (∀ i j a b, i ≠ j → (contender i).Claims → (contender j).Claims → reported (s.program i) = some a →
      reported (s.program j) = some b → a.revision ≠ b.revision) ∧
    ((∀ i, (contender i).Acquires) → ∀ i j a b, reported (s.program i) = some a → reported (s.program j) = some b →
      i = j) := by
  have hr := Reachable.atomic_of_uninterrupted h
  refine ⟨fun i j a b hij hi hj ha hb => ?_, fun hacq i j a b ha hb => ?_⟩
  · have hinj : Function.Injective fun stored : ExecutionRunStoredRecord => Reply.record (some stored) :=
      fun a b he => by simpa using he
    have hreporting : Reporting (fun stored => Reply.record (some stored)) (fun i => (contender i).Claims) s.toConfig :=
      reporting_of_reachable hinj (fun i hi => Contender.reports hi) hr
    exact hreporting.distinct i j a b hi hj hij (reported_eq_some ha) (reported_eq_some hb)
  · exact ((acquired_once hacq hr i a ha).2 j b hb).symm

/-- The first runner acquires the run before the second one reads it. -/
def acquiredInTurn : Interleaving Bool Point ExecutionRunRecordBundle RuntimeError Reply :=
  (execute (fun s i => if (s.checked i).all (fun stored => revisionOf s.contents + 1 == stored.revision) then s.call i
    else none) ⟨contention (some ⟨1, oneStepRun.bundle⟩) twoRunners, fun _ => none⟩
    [false, false, false, true]).get (by decide +kernel)

/-- Only the first runner is told that it holds the run. -/
theorem lease_exclusion_inTurn : (reported (acquiredInTurn.program false)).isSome = true ∧
    ∀ i a, reported (acquiredInTurn.program i) = some a → i = false := by
  have hr : ((interleaved (contention (some ⟨1, oneStepRun.bundle⟩) twoRunners)).restrict Uninterrupted).Reachable
      acquiredInTurn := by
    refine reachable_execute_where (fun s i hc stored hs => ?_) (.init rfl) (Option.some_get _).symm
    simpa [hs] using hc
  have hfirst : (reported (acquiredInTurn.program false)).isSome = true := by decide +kernel
  obtain ⟨b, hb⟩ := Option.isSome_iff_exists.mp hfirst
  refine ⟨hfirst, fun i a ha => (lease_exclusion hr).2 (fun j => ?_) i false a b ha hb⟩
  cases j with
  | false => exact ⟨_, _, rfl⟩
  | true => exact ⟨_, _, rfl⟩

end AuraCall.Runtime
