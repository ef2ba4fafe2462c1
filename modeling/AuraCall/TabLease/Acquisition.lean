import AuraCall.Lib.Transition
import AuraCall.TabLease.Model
import Mathlib.Logic.Function.Basic

/-!
# Acquisitions in one process

`withProcessTabAcquisition` lets the acquisitions of a process with one key run one after the other. Under each key a map has
the promise `pending` of the last call: it is fulfilled when that of the call before is and the gate of the call is open. A
call waits for the promise it finds, runs its callback, and then, whatever became of the callback, opens its gate and removes
its promise from the map if it is still there.

What carries the proofs is that the calls with a key are linked in the order in which they were made (`Linked`).
-/

namespace AuraCall.TabLease

open TransitionSystem

/-- What a call has come to. The callback of a settled call has returned, or thrown. -/
inductive CallPhase
  | idle | waiting | running
  | settled (thrown : Bool)
  deriving DecidableEq

def CallPhase.isSettled : CallPhase → Bool
  | settled _ => true
  | idle | waiting | running => false

/-- The calls under way. `order` has, for each key, the calls with it in the order in which they were made. -/
structure Acquisitions (κ ι : Type) where
  pendingAcquisitions : κ → Option ι
  previous : ι → Option ι
  phase : ι → CallPhase
  order : κ → List ι

variable {κ ι : Type}

/-- `previous.then(() => gate)` is fulfilled. -/
inductive Fulfilled (s : Acquisitions κ ι) : ι → Prop
  | intro {i : ι} (released : (s.phase i).isSettled = true) (previous : ∀ j ∈ s.previous i, Fulfilled s j) : Fulfilled s i

/-! ## The order of the calls -/

variable {key : ι → κ} {s s' : Acquisitions κ ι} {k : κ} {i j : ι} {before after : List ι}

/-- All the calls have settled. -/
def AllSettled (s : Acquisitions κ ι) (l : List ι) : Prop := ∀ i ∈ l, (s.phase i).isSettled = true

/-- The calls with a key wait for each other in order, and the map has the last one until it settles. -/
structure Linked (key : ι → κ) (s : Acquisitions κ ι) : Prop where
  nodup : ∀ k, (s.order k).Nodup
  mem_order : ∀ k i, i ∈ s.order k ↔ key i = k ∧ s.phase i ≠ .idle
  previous : ∀ k before i after, s.order k = before ++ i :: after →
    s.previous i = before.getLast? ∨ s.previous i = none ∧ AllSettled s before
  started : ∀ k before i after, s.order k = before ++ i :: after → s.phase i ≠ .waiting → AllSettled s before
  entry : ∀ k i, s.pendingAcquisitions k = some i → (s.order k).getLast? = some i ∧ (s.phase i).isSettled = false
  entry_none : ∀ k, s.pendingAcquisitions k = none → AllSettled s (s.order k)

/-- A call that comes after others: what it waits for, and that it waits until they have settled. -/
def LinkedAt (s : Acquisitions κ ι) (before : List ι) (i : ι) : Prop :=
  (s.previous i = before.getLast? ∨ s.previous i = none ∧ AllSettled s before) ∧
    (s.phase i ≠ .waiting → AllSettled s before)

theorem Linked.linkedAt (hl : Linked key s) (h : s.order k = before ++ i :: after) : LinkedAt s before i :=
  ⟨hl.previous k before i after h, hl.started k before i after h⟩

theorem fulfilled_iff : Fulfilled s i ↔ (s.phase i).isSettled = true ∧ ∀ j ∈ s.previous i, Fulfilled s j :=
  ⟨fun ⟨hr, hp⟩ => ⟨hr, hp⟩, fun h => .intro h.1 h.2⟩

theorem allSettled_append {l l' : List ι} : AllSettled s (l ++ l') ↔ AllSettled s l ∧ AllSettled s l' :=
  List.forall_mem_append

/-- **What a call waits for**: the promise it awaits is fulfilled when all the calls before it have settled. -/
theorem Linked.awaits_iff (hl : Linked key s) (h : s.order k = before ++ i :: after) :
    (∀ j ∈ s.previous i, Fulfilled s j) ↔ AllSettled s before := by
  -- the call before is linked to the one before it
  induction before using List.reverseRecOn generalizing i after with
  | nil =>
    have hnone : s.previous i = none := (hl.previous k [] i after h).elim id And.left
    simp [hnone, AllSettled]
  | append_singleton earlier j ih =>
    rcases hl.previous k _ i after h with hp | ⟨hp, hall⟩
    · have hj : s.order k = earlier ++ j :: (i :: after) := by simp [h]
      rw [hp, List.getLast?_concat, allSettled_append, and_comm, ← ih hj]
      simp [AllSettled, fulfilled_iff (i := j)]
    · simp [hp, hall]

theorem AllSettled.mono {l : List ι} (h : AllSettled s l)
    (hs : ∀ i ∈ l, (s.phase i).isSettled = true → (s'.phase i).isSettled = true) : AllSettled s' l :=
  fun i hm => hs i hm (h i hm)

theorem split_append_singleton {l : List ι} (h : l ++ [i] = before ++ j :: after) :
    before = l ∧ j = i ∨ ∃ after', l = before ++ j :: after' := by
  rcases List.eq_nil_or_concat after with rfl | ⟨after', last, rfl⟩
  · obtain ⟨h1, h2⟩ := List.append_inj' h rfl
    exact .inl ⟨h1.symm, (List.cons.inj h2).1.symm⟩
  · rw [List.concat_eq_append, ← List.cons_append, ← List.append_assoc] at h
    exact .inr ⟨after', (List.append_inj' h rfl).1⟩

/-! ## The calls -/

inductive AcquisitionLabel (ι : Type)
  | call (i : ι)
  /-- The awaited promise is fulfilled, and the callback is called. -/
  | run (i : ι)
  /-- The callback has settled, and the `finally` block runs. -/
  | settle (i : ι) (thrown : Bool)

def AcquisitionLabel.caller {ι : Type} : AcquisitionLabel ι → ι
  | call i | run i | settle i _ => i

variable [DecidableEq κ] [DecidableEq ι]

/-- The part of a call up to its first `await`. -/
def Acquisitions.enter (s : Acquisitions κ ι) (k : κ) (i : ι) : Acquisitions κ ι where
  pendingAcquisitions := Function.update s.pendingAcquisitions k (some i)
  previous := Function.update s.previous i (s.pendingAcquisitions k)
  phase := Function.update s.phase i .waiting
  order := Function.update s.order k (s.order k ++ [i])

/-- The callback is called. -/
def Acquisitions.start (s : Acquisitions κ ι) (i : ι) : Acquisitions κ ι :=
  { s with phase := Function.update s.phase i .running }

/-- The `finally` block. -/
def Acquisitions.leave (s : Acquisitions κ ι) (k : κ) (i : ι) (thrown : Bool) : Acquisitions κ ι :=
  { s with
    phase := Function.update s.phase i (.settled thrown)
    pendingAcquisitions := if s.pendingAcquisitions k = some i then Function.update s.pendingAcquisitions k none
      else s.pendingAcquisitions }

/-- Calls with the given keys: `JSON.stringify([scope.managedBrowserProfile, scope.service, scope.tenantKey])`. -/
def withProcessTabAcquisition (key : ι → κ) : TransitionSystem (Acquisitions κ ι) (AcquisitionLabel ι) where
  Init s := s = ⟨fun _ => none, fun _ => none, fun _ => .idle, fun _ => []⟩
  Step s a s' := match a with
    | .call i => s.phase i = .idle ∧ s' = s.enter (key i) i
    | .run i => s.phase i = .waiting ∧ (∀ j ∈ s.previous i, Fulfilled s j) ∧ s' = s.start i
    | .settle i thrown => s.phase i = .running ∧ s' = s.leave (key i) i thrown

/-! ## What a step keeps -/

variable {a : AcquisitionLabel ι}

theorem enter_phase_of_ne (h : j ≠ i) : (s.enter k i).phase j = s.phase j := Function.update_of_ne h _ _

theorem enter_phase_self : (s.enter k i).phase i = .waiting := Function.update_self _ _ _

theorem enter_order_self : (s.enter k i).order k = s.order k ++ [i] := Function.update_self _ _ _

theorem enter_order_of_ne {k' : κ} (h : k' ≠ k) : (s.enter k i).order k' = s.order k' := Function.update_of_ne h _ _

theorem enter_entry_self : (s.enter k i).pendingAcquisitions k = some i := Function.update_self _ _ _

theorem enter_entry_of_ne {k' : κ} (h : k' ≠ k) :
    (s.enter k i).pendingAcquisitions k' = s.pendingAcquisitions k' := Function.update_of_ne h _ _

/-- A new call settles nothing and takes nothing back. -/
theorem AllSettled.enter {l : List ι} (h : AllSettled s l) (hi : i ∉ l) : AllSettled (s.enter k i) l :=
  h.mono fun j hm hj => by
    have hne : j ≠ i := fun h => hi (h ▸ hm)
    rwa [enter_phase_of_ne hne]

theorem mem_order_enter (hl : Linked key s) (hi : s.phase i = .idle) (k : κ) (j : ι) :
    j ∈ (s.enter (key i) i).order k ↔ key j = k ∧ (s.enter (key i) i).phase j ≠ .idle := by
  have hnot : i ∉ s.order k := fun hm => ((hl.mem_order k i).1 hm).2 hi
  by_cases hj : j = i
  · subst hj
    rw [enter_phase_self]
    by_cases hk : k = key j
    · subst hk
      rw [enter_order_self]
      simp
    · rw [enter_order_of_ne hk]
      exact iff_of_false hnot fun h => hk h.1.symm
  · rw [enter_phase_of_ne hj, ← hl.mem_order k j]
    by_cases hk : k = key i
    · subst hk
      rw [enter_order_self]
      simp [hj]
    · rw [enter_order_of_ne hk]

/-- A call that was there is linked as before. -/
theorem LinkedAt.enter (h : LinkedAt s before j) (hi : i ∉ before) (hj : j ≠ i) :
    LinkedAt (s.enter k i) before j := by
  have hprevious : (s.enter k i).previous j = s.previous j := Function.update_of_ne hj _ _
  unfold LinkedAt
  rw [hprevious, enter_phase_of_ne hj]
  exact ⟨h.1.imp_right fun hp => ⟨hp.1, hp.2.enter hi⟩, fun hw => (h.2 hw).enter hi⟩

/-- The new call waits for the last one with its key. -/
theorem linkedAt_new (hl : Linked key s) (hi : i ∉ s.order (key i)) :
    LinkedAt (s.enter (key i) i) (s.order (key i)) i := by
  have hprevious : (s.enter (key i) i).previous i = s.pendingAcquisitions (key i) := Function.update_self _ _ _
  refine ⟨?_, fun hw => absurd enter_phase_self hw⟩
  rw [hprevious]
  cases hentry : s.pendingAcquisitions (key i) with
  | none => exact .inr ⟨rfl, (hl.entry_none _ hentry).enter hi⟩
  | some last => exact .inl (hl.entry _ _ hentry).1.symm

theorem linkedAt_enter (hl : Linked key s) (hi : s.phase i = .idle)
    (h : (s.enter (key i) i).order k = before ++ j :: after) : LinkedAt (s.enter (key i) i) before j := by
  have hnot : ∀ k, i ∉ s.order k := fun k hm => ((hl.mem_order k i).1 hm).2 hi
  have hold : ∀ k before j after, s.order k = before ++ j :: after → LinkedAt (s.enter (key i) i) before j := by
    intro k before j after h
    have hmem : i ∉ before ++ j :: after := h ▸ hnot k
    exact (hl.linkedAt h).enter (fun hm => hmem (List.mem_append_left _ hm)) fun hj => hmem (by simp [hj])
  by_cases hk : k = key i
  · subst hk
    rw [enter_order_self] at h
    rcases split_append_singleton h with ⟨rfl, rfl⟩ | ⟨after', h'⟩
    · exact linkedAt_new hl (hnot _)
    · exact hold _ before j after' h'
  · rw [enter_order_of_ne hk] at h
    exact hold k before j after h

theorem Linked.enter (hl : Linked key s) (hi : s.phase i = .idle) : Linked key (s.enter (key i) i) := by
  have hnot : ∀ k, i ∉ s.order k := fun k hm => ((hl.mem_order k i).1 hm).2 hi
  refine ⟨fun k => ?_, mem_order_enter hl hi, fun k before j after h => (linkedAt_enter hl hi h).1,
    fun k before j after h => (linkedAt_enter hl hi h).2, fun k j h => ?_, fun k h => ?_⟩
  · by_cases hk : k = key i
    · subst hk
      rw [enter_order_self]
      exact List.nodup_append.2 ⟨hl.nodup _, List.nodup_singleton i, fun a ha b hb => by
        rw [List.mem_singleton.1 hb]
        exact fun h => hnot _ (h ▸ ha)⟩
    · rw [enter_order_of_ne hk]
      exact hl.nodup k
  · by_cases hk : k = key i
    · subst hk
      rw [enter_entry_self] at h
      obtain rfl := Option.some.inj h
      rw [enter_order_self, List.getLast?_concat, enter_phase_self]
      exact ⟨rfl, rfl⟩
    · rw [enter_entry_of_ne hk] at h
      obtain ⟨hlast, hj⟩ := hl.entry k j h
      have hne : j ≠ i := fun h => hnot k (h ▸ List.mem_of_getLast? hlast)
      rw [enter_order_of_ne hk, enter_phase_of_ne hne]
      exact ⟨hlast, hj⟩
  · by_cases hk : k = key i
    · subst hk
      rw [enter_entry_self] at h
      cases h
    · rw [enter_entry_of_ne hk] at h
      rw [enter_order_of_ne hk]
      exact (hl.entry_none k h).enter (hnot k)

omit [DecidableEq κ] in
theorem Linked.start (hl : Linked key s) (hi : s.phase i = .waiting) (hp : ∀ j ∈ s.previous i, Fulfilled s j) :
    Linked key (s.start i) := by
  have hself : (s.start i).phase i = .running := Function.update_self _ _ _
  have hphase : ∀ j, j ≠ i → (s.start i).phase j = s.phase j := fun j hj => Function.update_of_ne hj _ _
  have hsettled : ∀ j, ((s.start i).phase j).isSettled = (s.phase j).isSettled := by
    intro j
    by_cases hj : j = i
    · subst hj
      rw [hself, hi]
      rfl
    · rw [hphase j hj]
  have hall : ∀ l, AllSettled (s.start i) l ↔ AllSettled s l := fun l => forall₂_congr fun j _ => by rw [hsettled j]
  refine ⟨hl.nodup, fun k j => ?_, fun k before j after h => ?_, fun k before j after h hw => ?_, fun k j h => ?_,
    fun k h => (hall _).2 (hl.entry_none k h)⟩
  · rw [show (s.start i).order k = s.order k from rfl, hl.mem_order k j]
    by_cases hj : j = i
    · subst hj
      rw [hself, hi]
      simp
    · rw [hphase j hj]
  · rw [hall]
    exact hl.previous k before j after h
  · rw [hall]
    by_cases hj : j = i
    · subst hj
      exact (hl.awaits_iff h).1 hp
    · exact hl.started k before j after h (by rwa [hphase j hj] at hw)
  · obtain ⟨hlast, hj⟩ := hl.entry k j h
    exact ⟨hlast, (hsettled j).trans hj⟩

theorem leave_phase_of_ne {thrown : Bool} (h : j ≠ i) : (s.leave k i thrown).phase j = s.phase j :=
  Function.update_of_ne h _ _

theorem leave_phase_self {thrown : Bool} : (s.leave k i thrown).phase i = .settled thrown := Function.update_self _ _ _

theorem AllSettled.leave {thrown : Bool} {l : List ι} (h : AllSettled s l) : AllSettled (s.leave k i thrown) l :=
  h.mono fun j _ hj => by
    by_cases hji : j = i
    · subst hji
      rw [leave_phase_self]
      rfl
    · rwa [leave_phase_of_ne hji]

/-- The entry of its key is removed if it is that of the call, and no other entry is one of the call. -/
theorem leave_entry_eq_some (hl : Linked key s) {thrown : Bool} :
    (s.leave (key i) i thrown).pendingAcquisitions k = some j ↔ s.pendingAcquisitions k = some j ∧ j ≠ i := by
  have hown : s.pendingAcquisitions k = some i → k = key i := fun h =>
    (((hl.mem_order k i).1 (List.mem_of_getLast? (hl.entry k i h).1)).1).symm
  by_cases hentry : s.pendingAcquisitions (key i) = some i
  · have hleave : (s.leave (key i) i thrown).pendingAcquisitions = Function.update s.pendingAcquisitions (key i) none :=
      if_pos hentry
    rw [hleave]
    by_cases hk : k = key i
    · subst hk
      rw [Function.update_self, hentry]
      exact iff_of_false nofun fun h => h.2 (Option.some.inj h.1).symm
    · rw [Function.update_of_ne hk]
      exact ⟨fun h => ⟨h, fun hj => hk (hown (hj ▸ h))⟩, And.left⟩
  · have hleave : (s.leave (key i) i thrown).pendingAcquisitions = s.pendingAcquisitions := if_neg hentry
    rw [hleave]
    exact ⟨fun h => ⟨h, fun hj => hentry (by rw [← hown (hj ▸ h)]; exact hj ▸ h)⟩, And.left⟩

theorem Linked.leave (hl : Linked key s) (hi : s.phase i = .running) (thrown : Bool) :
    Linked key (s.leave (key i) i thrown) := by
  refine ⟨hl.nodup, fun k j => ?_, fun k before j after h => ?_, fun k before j after h hw => ?_, fun k j h => ?_, fun k h => ?_⟩
  · rw [show (s.leave (key i) i thrown).order k = s.order k from rfl, hl.mem_order k j]
    by_cases hj : j = i
    · subst hj
      rw [leave_phase_self, hi]
      simp
    · rw [leave_phase_of_ne hj]
  · exact (hl.previous k before j after h).imp_right fun hp => ⟨hp.1, hp.2.leave⟩
  · refine AllSettled.leave (hl.started k before j after h ?_)
    by_cases hj : j = i
    · rw [hj, hi]
      nofun
    · rwa [leave_phase_of_ne hj] at hw
  · obtain ⟨h, hj⟩ := (leave_entry_eq_some hl).1 h
    obtain ⟨hlast, hs⟩ := hl.entry k j h
    exact ⟨hlast, by rwa [leave_phase_of_ne hj]⟩
  · cases hp : s.pendingAcquisitions k with
    | none => exact (hl.entry_none k hp).leave
    | some last =>
      -- the entry that is removed is the one of the call, which is the last
      obtain rfl : last = i := by
        by_contra hne
        rw [(leave_entry_eq_some hl).2 ⟨hp, hne⟩] at h
        cases h
      obtain ⟨before, hsplit⟩ := List.getLast?_eq_some_iff.1 (hl.entry _ _ hp).1
      rw [show (s.leave (key last) last thrown).order k = before ++ [last] from hsplit, allSettled_append]
      refine ⟨(hl.started _ before last [] hsplit (by rw [hi]; nofun)).leave, fun j hj => ?_⟩
      rw [List.mem_singleton.1 hj, leave_phase_self]
      rfl

theorem Linked.step (hl : Linked key s) (hs : (withProcessTabAcquisition key).Step s a s') : Linked key s' := by
  cases a with
  | call i =>
    rw [hs.2]
    exact hl.enter hs.1
  | run i =>
    rw [hs.2.2]
    exact hl.start hs.1 hs.2.1
  | settle i thrown =>
    rw [hs.2]
    exact hl.leave hs.1 thrown

theorem linked_of_reachable (h : (withProcessTabAcquisition key).Reachable s) : Linked key s := by
  refine h.invariant ?_ fun s a s' _ hl hs => hl.step hs
  rintro s rfl
  exact ⟨fun _ => List.nodup_nil, fun _ _ => by simp, fun _ _ _ _ h => absurd h (by simp),
    fun _ _ _ _ h => absurd h (by simp), nofun, nofun⟩

/-! ## Independent keys -/

/-- What a step sees and changes: the entry and the calls of a key, and a call with it. -/
structure CallView (ι : Type) where
  entry : Option ι
  previous : Option ι
  phase : CallPhase
  order : List ι

def Acquisitions.view (s : Acquisitions κ ι) (k : κ) (i : ι) : CallView ι :=
  ⟨s.pendingAcquisitions k, s.previous i, s.phase i, s.order k⟩

def Acquisitions.touch (s : Acquisitions κ ι) (k : κ) (i : ι) (v : CallView ι) : Acquisitions κ ι where
  pendingAcquisitions := Function.update s.pendingAcquisitions k v.entry
  previous := Function.update s.previous i v.previous
  phase := Function.update s.phase i v.phase
  order := Function.update s.order k v.order

def AcquisitionLabel.change (v : CallView ι) : AcquisitionLabel ι → CallView ι
  | call i => ⟨some i, v.entry, .waiting, v.order ++ [i]⟩
  | run _ => { v with phase := .running }
  | settle i thrown => { v with phase := .settled thrown, entry := if v.entry = some i then none else v.entry }

/-- The step can be taken. -/
def Enabled (s : Acquisitions κ ι) : AcquisitionLabel ι → Prop
  | .call i => s.phase i = .idle
  | .run i => s.phase i = .waiting ∧ ∀ j ∈ s.previous i, Fulfilled s j
  | .settle i _ => s.phase i = .running

/-- **A step changes nothing but the entry of its key and its call.** -/
theorem step_iff : (withProcessTabAcquisition key).Step s a s' ↔
    Enabled s a ∧ s' = s.touch (key a.caller) a.caller (a.change (s.view (key a.caller) a.caller)) := by
  cases a with
  | call i => exact Iff.rfl
  | run i =>
    have htouch : s.start i = s.touch (key i) i ((AcquisitionLabel.run i).change (s.view (key i) i)) := by
      simp only [Acquisitions.start, Acquisitions.touch, AcquisitionLabel.change, Acquisitions.view, Function.update_eq_self]
    show (_ ∧ _ ∧ s' = s.start i) ↔ _
    rw [htouch, ← and_assoc]
    exact Iff.rfl
  | settle i thrown =>
    have htouch : s.leave (key i) i thrown =
        s.touch (key i) i ((AcquisitionLabel.settle i thrown).change (s.view (key i) i)) := by
      by_cases hown : s.pendingAcquisitions (key i) = some i
      · simp [Acquisitions.leave, Acquisitions.touch, AcquisitionLabel.change, Acquisitions.view, hown]
      · simp [Acquisitions.leave, Acquisitions.touch, AcquisitionLabel.change, Acquisitions.view, hown]
    show (_ ∧ s' = s.leave (key i) i thrown) ↔ _
    rw [htouch]
    exact Iff.rfl

theorem touch_comm {k' : κ} (hk : k ≠ k') (hi : i ≠ j) (v w : CallView ι) :
    (s.touch k i v).touch k' j w = (s.touch k' j w).touch k i v := by
  unfold Acquisitions.touch
  rw [Function.update_comm hk, Function.update_comm hi, Function.update_comm hi, Function.update_comm hk]

theorem view_touch {k' : κ} (hk : k' ≠ k) (hi : j ≠ i) (v : CallView ι) : (s.touch k i v).view k' j = s.view k' j := by
  simp only [Acquisitions.view, Acquisitions.touch, Function.update_of_ne hk, Function.update_of_ne hi]

/-- A step with one key changes nothing for a step with another. -/
theorem enabled_touch (hl : Linked key s) (v : CallView ι) (hl' : Linked key (s.touch k i v)) (hik : key i = k)
    (ha : key a.caller ≠ k) : Enabled (s.touch k i v) a ↔ Enabled s a := by
  have hne : ∀ j, key j ≠ k → j ≠ i := fun j hj h => hj (by rw [h, hik])
  have hphase : ∀ j, key j ≠ k → (s.touch k i v).phase j = s.phase j := fun j hj => Function.update_of_ne (hne j hj) _ _
  cases a with
  | call j =>
    show (s.touch k i v).phase j = _ ↔ s.phase j = _
    rw [hphase j ha]
  | settle j thrown =>
    show (s.touch k i v).phase j = _ ↔ s.phase j = _
    rw [hphase j ha]
  | run j =>
    have horder : (s.touch k i v).order (key j) = s.order (key j) := Function.update_of_ne ha _ _
    show (_ ∧ _) ↔ (_ ∧ _)
    rw [hphase j ha]
    refine and_congr_right fun hwaiting => ?_
    obtain ⟨before, after, hsplit⟩ := List.append_of_mem ((hl.mem_order (key j) j).2 ⟨rfl, by rw [hwaiting]; nofun⟩)
    rw [hl.awaits_iff hsplit, hl'.awaits_iff (horder.trans hsplit)]
    refine forall₂_congr fun l hm => ?_
    have hkey : key l = key j := ((hl.mem_order (key j) l).1 (by simp [hsplit, hm])).1
    rw [hphase l (hkey ▸ ha)]

/-- **Steps with different keys can be taken in either order.** -/
theorem steps_commute (hl : Linked key s) {b : AcquisitionLabel ι} {s₁ s₂ : Acquisitions κ ι}
    (ha : (withProcessTabAcquisition key).Step s a s₁) (hb : (withProcessTabAcquisition key).Step s₁ b s₂)
    (hne : key a.caller ≠ key b.caller) :
    ∃ s₁', (withProcessTabAcquisition key).Step s b s₁' ∧ (withProcessTabAcquisition key).Step s₁' a s₂ := by
  obtain ⟨hea, hs₁⟩ := step_iff.1 ha
  obtain ⟨heb, hs₂⟩ := step_iff.1 hb
  have hcaller : a.caller ≠ b.caller := fun h => hne (by rw [h])
  have hl₁ : Linked key s₁ := hl.step ha
  rw [hs₁] at heb hl₁
  rw [hs₁, view_touch hne.symm hcaller.symm, touch_comm hne hcaller] at hs₂
  have hb' : (withProcessTabAcquisition key).Step s b _ := step_iff.2 ⟨(enabled_touch hl _ hl₁ rfl hne.symm).1 heb, rfl⟩
  have hl₁' := hl.step hb'
  refine ⟨_, hb', step_iff.2 ⟨(enabled_touch hl _ hl₁' rfl hne).2 hea, ?_⟩⟩
  rw [hs₂, view_touch hne hcaller]

/-! ## What the calls can rely on -/

/-- **Acquisitions with one key exclude each other, in the order of the calls.** Only an unsettled call with its key holds a call
back, whatever became of the settled ones; the entry of a key is gone when all the calls with it have settled; and steps with
different keys can be taken in either order. -/
theorem acquisitions_serialized (key : ι → κ) {s : Acquisitions κ ι} (hr : (withProcessTabAcquisition key).Reachable s) :
    (∀ i j, s.phase i = .running → s.phase j = .running → key i = key j → i = j) ∧
    (∀ k before i after, s.order k = before ++ i :: after → s.phase i ≠ .waiting → AllSettled s before) ∧
    (∀ i, s.phase i = .waiting → ∃ before after, s.order (key i) = before ++ i :: after ∧
      ((∃ s', (withProcessTabAcquisition key).Step s (.run i) s') ↔ AllSettled s before)) ∧
    (∀ i, s.phase i = .running → ∀ thrown, ∃ s', (withProcessTabAcquisition key).Step s (.settle i thrown) s') ∧
    (∀ k, (∀ i, key i = k → s.phase i = .idle ∨ (s.phase i).isSettled = true) → s.pendingAcquisitions k = none) ∧
    ∀ a b s₁ s₂, (withProcessTabAcquisition key).Step s a s₁ → (withProcessTabAcquisition key).Step s₁ b s₂ →
      key a.caller ≠ key b.caller →
      ∃ s₁', (withProcessTabAcquisition key).Step s b s₁' ∧ (withProcessTabAcquisition key).Step s₁' a s₂ := by
  have hl := linked_of_reachable hr
  have hsplit : ∀ i, s.phase i ≠ .idle → ∃ before after, s.order (key i) = before ++ i :: after := fun i hi =>
    List.append_of_mem ((hl.mem_order (key i) i).2 ⟨rfl, hi⟩)
  refine ⟨fun i j hi hj hkey => ?_, hl.started, fun i hi => ?_, fun i hi thrown => ⟨_, hi, rfl⟩, fun k hall => ?_,
    fun a b s₁ s₂ ha hb hne => steps_commute hl ha hb hne⟩
  · by_contra hne
    obtain ⟨before, after, h⟩ := hsplit i (by rw [hi]; nofun)
    have hm : j ∈ s.order (key i) := (hl.mem_order (key i) j).2 ⟨hkey.symm, by rw [hj]; nofun⟩
    rw [h] at hm
    rcases List.mem_append.1 hm with hm | hm
    · have := hl.started _ before i after h (by rw [hi]; nofun) j hm
      rw [hj] at this
      cases this
    · rcases List.mem_cons.1 hm with rfl | hm
      · exact hne rfl
      · obtain ⟨between, later, rfl⟩ := List.append_of_mem hm
        have := hl.started (key i) (before ++ i :: between) j later (by simp [h]) (by rw [hj]; nofun) i (by simp)
        rw [hi] at this
        cases this
  · obtain ⟨before, after, h⟩ := hsplit i (by rw [hi]; nofun)
    refine ⟨before, after, h, ?_⟩
    rw [← hl.awaits_iff h]
    exact ⟨fun ⟨_, _, hp, _⟩ => hp, fun hp => ⟨_, hi, hp, rfl⟩⟩
  · cases hentry : s.pendingAcquisitions k with
    | none => rfl
    | some last =>
      obtain ⟨hlast, hopen⟩ := hl.entry k last hentry
      obtain ⟨hkey, hidle⟩ := (hl.mem_order k last).1 (List.mem_of_getLast? hlast)
      rcases hall last hkey with h | h
      · exact absurd h hidle
      · rw [hopen] at h
        cases h

/-- Two calls with one key have been made, and the callback of the first has thrown. -/
def afterThrow : Acquisitions Unit Bool :=
  ((((⟨fun _ => none, fun _ => none, fun _ => .idle, fun _ => []⟩ : Acquisitions Unit Bool).enter () false).enter () true).start
    false).leave () false true

theorem afterThrow_reachable : (withProcessTabAcquisition fun _ : Bool => ()).Reachable afterThrow := by
  have h : (withProcessTabAcquisition fun _ : Bool => ()).Reachable
      ⟨fun _ => none, fun _ => none, fun _ => .idle, fun _ => []⟩ := .init rfl
  have hfirst := h.step (show (withProcessTabAcquisition fun _ : Bool => ()).Step _ (.call false) _ from ⟨rfl, rfl⟩)
  have hsecond := hfirst.step (show (withProcessTabAcquisition fun _ : Bool => ()).Step _ (.call true) _ from ⟨rfl, rfl⟩)
  have hrun := hsecond.step (show (withProcessTabAcquisition fun _ : Bool => ()).Step _ (.run false) _ from
    ⟨rfl, fun j hj => (by cases (show none = some j from hj)), rfl⟩)
  exact hrun.step (show (withProcessTabAcquisition fun _ : Bool => ()).Step _ (.settle false true) _ from ⟨rfl, rfl⟩)

theorem second_call_runs : ∃ s', (withProcessTabAcquisition fun _ : Bool => ()).Step afterThrow (.run true) s' := by
  obtain ⟨before, after, h, hruns⟩ := (acquisitions_serialized _ afterThrow_reachable).2.2.1 true rfl
  refine hruns.2 fun i hm => ?_
  cases i with
  | false => rfl
  | true =>
    -- the second call is not before itself
    have hcount := congrArg (List.count true) (show [false, true] = before ++ true :: after from h)
    have hpos := List.count_pos_iff.2 hm
    simp at hcount
    omega

end AuraCall.TabLease
