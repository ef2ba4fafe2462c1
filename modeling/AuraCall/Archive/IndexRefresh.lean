import AuraCall.Lib.Transition
import Mathlib.Data.List.Nodup
import Mathlib.Logic.Function.Basic

/-!
# Refreshing the archive index

`archiveIndexRefresh.ts`: refreshes run one after the other. A targeted one reads a record and upserts its items; a full one
reads all records and writes the index anew. Full refreshes are shared: while one is in flight, a call is given its promise.

The stores and the index are looked at by versions. A version of a record is how often it has been changed, and the index
has that version of it whose items it holds. A task reads each record at its start or at a later `look`. What a call asks
for is covered when its promise resolves (`refresh_covers`), unless it has joined a full refresh whose task had begun
already, which may have read a record before.
-/

namespace AuraCall.Archive.IndexRefresh

open TransitionSystem

/-! ## Refreshes -/

/-- A record of one of the stores. -/
inductive StoreKey
  | response (id : String)
  | batch (id : String)
  | mediaGeneration (id : String)
  | historyItem (id : String)
  | evidence (id : String)
  deriving DecidableEq

structure RefreshOptions where
  responseId : Option String
  batchId : Option String
  mediaGenerationId : Option String

/-- The record of a targeted refresh. -/
def createTargetedRefreshTask (options : RefreshOptions) : Option StoreKey :=
  ((options.responseId.filter (· ≠ "")).map .response)
    <|> ((options.batchId.filter (· ≠ "")).map .batch)
    <|> ((options.mediaGenerationId.filter (· ≠ "")).map .mediaGeneration)

/-- A task and its promise; it is full if it has no target. -/
structure RefreshTask where
  promise : Nat
  target : Option StoreKey

structure RunningTask extends RefreshTask where
  /-- The versions that have been read. -/
  seen : StoreKey → Nat

/-- A call, with what was stored when it was made. -/
structure RefreshCall where
  promise : Nat
  target : Option StoreKey
  stored : StoreKey → Nat
  /-- It was given the promise of a refresh whose task had begun. -/
  joined : Bool

structure RefreshState where
  stored : StoreKey → Nat
  index : Option (StoreKey → Nat)
  refreshInFlight : Option Nat
  refreshQueue : List RefreshTask
  running : Option RunningTask
  /-- The promises of the tasks that have ended, and whether one of them has failed. -/
  ended : List Nat
  failed : Bool
  nextPromise : Nat
  calls : List RefreshCall

inductive RefreshEvent
  | change (key : StoreKey)
  | call (options : RefreshOptions)
  | start
  | look (key : StoreKey)
  | finish
  | fail
  /-- `finally` of a full refresh. -/
  | settle

def RefreshState.fresh : RefreshState := ⟨fun _ => 0, none, none, [], none, [], false, 0, []⟩

/-- `enqueueArchiveRefresh`, and the call that is given the promise. -/
def enqueueArchiveRefresh (s : RefreshState) (target : Option StoreKey) : RefreshState :=
  { s with
    refreshQueue := s.refreshQueue ++ [⟨s.nextPromise, target⟩]
    nextPromise := s.nextPromise + 1
    calls := s.calls ++ [⟨s.nextPromise, target, s.stored, false⟩] }

def refreshRunArchiveIndexBestEffort (s : RefreshState) (options : RefreshOptions) : RefreshState :=
  match createTargetedRefreshTask options with
  | some key => enqueueArchiveRefresh s (some key)
  | none =>
    match s.refreshInFlight with
    | some promise =>
      { s with calls := s.calls ++ [⟨promise, none, s.stored, !s.refreshQueue.any (·.promise = promise)⟩] }
    | none => { enqueueArchiveRefresh s none with refreshInFlight := some s.nextPromise }

/-- What the task writes: everything it has read, or its record into the index there is (`ensureArchiveIndex`). -/
def RunningTask.write (task : RunningTask) (index : Option (StoreKey → Nat)) : StoreKey → Nat :=
  match task.target with
  | none => task.seen
  | some key => Function.update (index.getD task.seen) key (task.seen key)

def next (s : RefreshState) : RefreshEvent → Option RefreshState
  | .change key => some { s with stored := Function.update s.stored key (s.stored key + 1) }
  | .call options => some (refreshRunArchiveIndexBestEffort s options)
  | .start =>
    match s.running, s.refreshQueue with
    | none, task :: rest => some { s with running := some ⟨task, s.stored⟩, refreshQueue := rest }
    | _, _ => none
  | .look key => s.running.map fun task =>
    { s with running := some { task with seen := Function.update task.seen key (s.stored key) } }
  | .finish => s.running.map fun task =>
    { s with running := none, index := some (task.write s.index), ended := s.ended ++ [task.promise] }
  | .fail => s.running.map fun task =>
    { s with running := none, ended := s.ended ++ [task.promise], failed := true }
  | .settle =>
    match s.refreshInFlight with
    | some promise => if promise ∈ s.ended then some { s with refreshInFlight := none } else none
    | none => none

def refreshSystem : TransitionSystem RefreshState RefreshEvent := ofNext (· = .fresh) next

/-! ## What is covered -/

/-- The version of a record that the index has. -/
def RefreshState.indexed (s : RefreshState) (key : StoreKey) : Nat := (s.index.map (· key)).getD 0

/-- What a refresh asks for: its record, or all. -/
def Covers (target : Option StoreKey) (key : StoreKey) : Prop := ∀ own ∈ target, own = key

/-- The index has what the call asks for, as it was stored when the call was made. -/
def RefreshState.Reflects (s : RefreshState) (call : RefreshCall) : Prop :=
  ∀ key, Covers call.target key → call.stored key ≤ s.indexed key

/-- The promises of all tasks, from the first to the last. -/
def RefreshState.promises (s : RefreshState) : List Nat :=
  s.ended ++ (s.running.toList.map (·.promise) ++ s.refreshQueue.map (·.promise))

/-- Where a call stands whose refresh had not begun: its task waits, or has read what the call asks for, or has ended. -/
inductive RefreshState.Stands (s : RefreshState) (call : RefreshCall) : Prop
  | waits : ⟨call.promise, call.target⟩ ∈ s.refreshQueue → s.Stands call
  | runs (task : RunningTask) : s.running = some task → task.promise = call.promise →
      task.target = call.target → (∀ key, Covers call.target key → call.stored key ≤ task.seen key) → s.Stands call
  | ended : call.promise ∈ s.ended → (s.failed = false → s.Reflects call) → s.Stands call

structure RefreshInv (s : RefreshState) : Prop where
  indexed : ∀ key, s.indexed key ≤ s.stored key
  seen : ∀ task, s.running = some task → ∀ key, s.indexed key ≤ task.seen key ∧ task.seen key ≤ s.stored key
  promises : s.promises.Nodup ∧ ∀ promise ∈ s.promises, promise < s.nextPromise
  shared : ∀ promise, s.refreshInFlight = some promise → promise < s.nextPromise ∧
    ∀ task ∈ s.refreshQueue, task.promise = promise → task.target = none
  calls : ∀ call ∈ s.calls, (∀ key, call.stored key ≤ s.stored key) ∧ (call.joined = false → s.Stands call)

section Steps

variable {s s' : RefreshState} {task : RunningTask}

/-- A call stands where it stood when nothing but the queue grows. -/
theorem RefreshState.Stands.lift {call : RefreshCall} (h : s.Stands call)
    (hqueue : ∀ waiting ∈ s.refreshQueue, waiting ∈ s'.refreshQueue) (hrunning : s'.running = s.running)
    (hended : s'.ended = s.ended) (hfailed : s'.failed = s.failed) (hindex : s'.index = s.index) : s'.Stands call := by
  cases h with
  | waits hmem => exact .waits (hqueue _ hmem)
  | runs task hrun hpromise htarget hread => exact .runs task (hrunning.trans hrun) hpromise htarget hread
  | ended hmem hreflects =>
    refine .ended (hended ▸ hmem) fun hok key hcovers => ?_
    have hindexed : s'.indexed key = s.indexed key := by rw [RefreshState.indexed, RefreshState.indexed, hindex]
    rw [hindexed]
    exact hreflects (hfailed.symm.trans hok) key hcovers

theorem RefreshInv.change (h : RefreshInv s) (key : StoreKey) :
    RefreshInv { s with stored := Function.update s.stored key (s.stored key + 1) } := by
  have hgrow : ∀ other, s.stored other ≤ Function.update s.stored key (s.stored key + 1) other := by
    intro other
    rw [Function.update_apply]
    split
    next heq =>
      rw [heq]
      exact Nat.le_succ _
    next => exact Nat.le_refl _
  refine ⟨fun other => Nat.le_trans (h.indexed other) (hgrow other), fun task htask other => ?_, h.promises, h.shared, ?_⟩
  · have hseen := h.seen task htask other
    exact ⟨hseen.1, Nat.le_trans hseen.2 (hgrow other)⟩
  · intro call hcall
    obtain ⟨hold, hstands⟩ := h.calls call hcall
    refine ⟨fun other => Nat.le_trans (hold other) (hgrow other), fun hjoined => ?_⟩
    exact (hstands hjoined).lift (fun _ hmem => hmem) rfl rfl rfl rfl

theorem RefreshInv.enqueue (h : RefreshInv s) (target : Option StoreKey) :
    RefreshInv (enqueueArchiveRefresh s target) := by
  have hpromises : (enqueueArchiveRefresh s target).promises = s.promises ++ [s.nextPromise] := by
    simp [RefreshState.promises, enqueueArchiveRefresh]
  refine ⟨h.indexed, h.seen, ?_, ?_, ?_⟩
  · rw [hpromises]
    refine ⟨List.nodup_append.2 ⟨h.promises.1, List.nodup_singleton _, ?_⟩, fun promise hmem => ?_⟩
    · intro promise hmem other hother
      have hlt := h.promises.2 promise hmem
      rw [List.mem_singleton.1 hother]
      exact Nat.ne_of_lt hlt
    · rcases List.mem_append.1 hmem with hmem | hmem
      · exact Nat.lt_succ_of_lt (h.promises.2 promise hmem)
      · rw [List.mem_singleton.1 hmem]
        exact Nat.lt_succ_self _
  · intro promise hflight
    obtain ⟨hlt, hshared⟩ := h.shared promise hflight
    refine ⟨Nat.lt_succ_of_lt hlt, fun task htask hpromise => ?_⟩
    rcases List.mem_append.1 htask with htask | htask
    · exact hshared task htask hpromise
    · rw [List.mem_singleton.1 htask] at hpromise
      exact absurd hpromise.symm (Nat.ne_of_lt hlt)
  · intro call hcall
    rcases List.mem_append.1 hcall with hcall | hcall
    · obtain ⟨hold, hstands⟩ := h.calls call hcall
      refine ⟨hold, fun hjoined => ?_⟩
      exact (hstands hjoined).lift (fun _ hmem => List.mem_append_left _ hmem) rfl rfl rfl rfl
    · rw [List.mem_singleton.1 hcall]
      exact ⟨fun _ => Nat.le_refl _, fun _ => .waits (List.mem_append_right _ (List.mem_singleton_self _))⟩

theorem RefreshInv.request (h : RefreshInv s) (options : RefreshOptions) :
    RefreshInv (refreshRunArchiveIndexBestEffort s options) := by
  unfold refreshRunArchiveIndexBestEffort
  split
  next key _ => exact h.enqueue (some key)
  next =>
    split
    next promise hflight =>
      refine ⟨h.indexed, h.seen, h.promises, h.shared, fun call hcall => ?_⟩
      rcases List.mem_append.1 hcall with hcall | hcall
      · obtain ⟨hold, hstands⟩ := h.calls call hcall
        refine ⟨hold, fun hjoined => ?_⟩
        exact (hstands hjoined).lift (fun _ hmem => hmem) rfl rfl rfl rfl
      · rw [List.mem_singleton.1 hcall]
        refine ⟨fun _ => Nat.le_refl _, fun hjoined => .waits ?_⟩
        -- the task has not begun: it waits, and it is full
        have hany : s.refreshQueue.any (·.promise = promise) = true := by simpa using hjoined
        obtain ⟨⟨name, target⟩, htask, hpromise⟩ := List.any_eq_true.1 hany
        have hname : name = promise := of_decide_eq_true hpromise
        have htarget : target = none := (h.shared promise hflight).2 _ htask hname
        rw [hname, htarget] at htask
        exact htask
    next =>
      have henqueued := h.enqueue none
      refine ⟨henqueued.indexed, henqueued.seen, henqueued.promises, fun promise hflight => ?_, fun call hcall => ?_⟩
      · cases hflight
        refine ⟨Nat.lt_succ_self _, fun task htask hpromise => ?_⟩
        rcases List.mem_append.1 htask with hold | hnew
        · have hmem : task.promise ∈ s.promises :=
            List.mem_append_right _ (List.mem_append_right _ (List.mem_map_of_mem hold))
          exact absurd hpromise (Nat.ne_of_lt (h.promises.2 _ hmem))
        · rw [List.mem_singleton.1 hnew]
      · obtain ⟨hold, hstands⟩ := henqueued.calls call hcall
        refine ⟨hold, fun hjoined => ?_⟩
        exact (hstands hjoined).lift (fun _ hmem => hmem) rfl rfl rfl rfl

/-- The first task begins: it has read everything as it is. -/
theorem RefreshInv.start (h : RefreshInv s) {first : RefreshTask} {rest : List RefreshTask} (hidle : s.running = none)
    (hqueue : s.refreshQueue = first :: rest) :
    RefreshInv { s with running := some ⟨first, s.stored⟩, refreshQueue := rest } := by
  have hpromises : RefreshState.promises { s with running := some ⟨first, s.stored⟩, refreshQueue := rest } = s.promises := by
    simp [RefreshState.promises, hidle, hqueue]
  refine ⟨h.indexed, fun task htask key => ?_, by rw [hpromises]; exact h.promises, fun promise hflight => ?_, ?_⟩
  · cases htask
    exact ⟨h.indexed key, Nat.le_refl _⟩
  · obtain ⟨hlt, hshared⟩ := h.shared promise hflight
    exact ⟨hlt, fun task htask => hshared task (hqueue ▸ List.mem_cons_of_mem _ htask)⟩
  · intro call hcall
    obtain ⟨hold, hstands⟩ := h.calls call hcall
    refine ⟨hold, fun hjoined => ?_⟩
    cases hstands hjoined with
    | waits hmem =>
      rw [hqueue] at hmem
      rcases List.mem_cons.1 hmem with hfirst | hmem
      · exact .runs ⟨first, s.stored⟩ rfl (by rw [← hfirst]) (by rw [← hfirst]) fun key _ => hold key
      · exact .waits hmem
    | runs task hrun =>
      rw [hidle] at hrun
      cases hrun
    | ended hmem hreflects => exact .ended hmem hreflects

theorem RefreshInv.look (h : RefreshInv s) (hrun : s.running = some task) (key : StoreKey) :
    RefreshInv { s with running := some { task with seen := Function.update task.seen key (s.stored key) } } := by
  have hpromises : RefreshState.promises
      { s with running := some { task with seen := Function.update task.seen key (s.stored key) } } = s.promises := by
    simp [RefreshState.promises, hrun]
  have hgrow : ∀ other, task.seen other ≤ Function.update task.seen key (s.stored key) other := by
    intro other
    rw [Function.update_apply]
    split
    next heq =>
      rw [heq]
      exact (h.seen task hrun key).2
    next => exact Nat.le_refl _
  refine ⟨h.indexed, fun task' htask other => ?_, by rw [hpromises]; exact h.promises, h.shared, ?_⟩
  · cases htask
    refine ⟨Nat.le_trans (h.seen task hrun other).1 (hgrow other), ?_⟩
    show Function.update task.seen key (s.stored key) other ≤ s.stored other
    rw [Function.update_apply]
    split
    next heq => exact Nat.le_of_eq (congrArg s.stored heq.symm)
    next => exact (h.seen task hrun other).2
  · intro call hcall
    obtain ⟨hold, hstands⟩ := h.calls call hcall
    refine ⟨hold, fun hjoined => ?_⟩
    cases hstands hjoined with
    | waits hmem => exact .waits hmem
    | runs task' hrun' hpromise htarget hread =>
      cases hrun.symm.trans hrun'
      exact .runs _ rfl hpromise htarget fun other hcovers => Nat.le_trans (hread other hcovers) (hgrow other)
    | ended hmem hreflects => exact .ended hmem hreflects

/-- What a task writes is between what was indexed and what is stored, and is what it has read where it was asked to. -/
theorem RefreshInv.write (h : RefreshInv s) (hrun : s.running = some task) (key : StoreKey) :
    s.indexed key ≤ task.write s.index key ∧ task.write s.index key ≤ s.stored key ∧
      (Covers task.target key → task.write s.index key = task.seen key) := by
  have hseen := h.seen task hrun
  have hbase : s.indexed key ≤ (s.index.getD task.seen) key ∧ (s.index.getD task.seen) key ≤ s.stored key := by
    have hindexed := h.indexed key
    unfold RefreshState.indexed at hindexed ⊢
    cases hindex : s.index with
    | none => exact ⟨Nat.zero_le _, (hseen key).2⟩
    | some index =>
      rw [hindex] at hindexed
      exact ⟨Nat.le_refl _, hindexed⟩
  unfold RunningTask.write
  cases task.target with
  | none => exact ⟨(hseen key).1, (hseen key).2, fun _ => rfl⟩
  | some own =>
    dsimp only
    rw [Function.update_apply]
    split
    next heq =>
      rw [← heq]
      exact ⟨(hseen key).1, (hseen key).2, fun _ => rfl⟩
    next hne => exact ⟨hbase.1, hbase.2, fun hcovers => absurd (hcovers own rfl).symm hne⟩

/-- A task ends, and the index stays or becomes what it writes. -/
theorem RefreshInv.ending (h : RefreshInv s) (hrun : s.running = some task) {index : Option (StoreKey → Nat)} {failed : Bool}
    (hindexed : ∀ key, s.indexed key ≤ (index.map (· key)).getD 0 ∧ (index.map (· key)).getD 0 ≤ s.stored key)
    (hfailed : failed = false → s.failed = false)
    (hread : failed = false → ∀ key, Covers task.target key → task.seen key ≤ (index.map (· key)).getD 0) :
    RefreshInv { s with running := none, index := index, ended := s.ended ++ [task.promise], failed := failed } := by
  have hpromises : RefreshState.promises
      { s with running := none, index := index, ended := s.ended ++ [task.promise], failed := failed } = s.promises := by
    simp [RefreshState.promises, hrun]
  refine ⟨fun key => (hindexed key).2, fun _ hnone => ?_, by rw [hpromises]; exact h.promises, h.shared, ?_⟩
  · cases hnone
  · intro call hcall
    obtain ⟨hold, hstands⟩ := h.calls call hcall
    refine ⟨hold, fun hjoined => ?_⟩
    cases hstands hjoined with
    | waits hmem => exact .waits hmem
    | runs task' hrun' hpromise htarget hcovered =>
      cases hrun.symm.trans hrun'
      refine .ended (List.mem_append_right _ (List.mem_singleton.2 hpromise.symm)) fun hok key hcovers => ?_
      exact Nat.le_trans (hcovered key hcovers) (hread hok key (htarget ▸ hcovers))
    | ended hmem hreflects =>
      refine .ended (List.mem_append_left _ hmem) fun hok key hcovers => ?_
      exact Nat.le_trans (hreflects (hfailed hok) key hcovers) (hindexed key).1

/-- **The step of the invariant.** -/
theorem RefreshInv.step {event : RefreshEvent} (h : RefreshInv s) (hnext : next s event = some s') : RefreshInv s' := by
  cases event with
  | change key =>
    cases hnext
    exact h.change key
  | call options =>
    cases hnext
    exact h.request options
  | start =>
    simp only [next] at hnext
    split at hnext
    next first rest hidle hqueue =>
      cases hnext
      exact h.start hidle hqueue
    next => cases hnext
  | look key =>
    obtain ⟨task, hrun, rfl⟩ := Option.map_eq_some_iff.1 hnext
    exact h.look hrun key
  | finish =>
    obtain ⟨task, hrun, rfl⟩ := Option.map_eq_some_iff.1 hnext
    exact h.ending hrun (fun key => ⟨(h.write hrun key).1, (h.write hrun key).2.1⟩) id fun _ key hcovers =>
      Nat.le_of_eq ((h.write hrun key).2.2 hcovers).symm
  | fail =>
    obtain ⟨task, hrun, rfl⟩ := Option.map_eq_some_iff.1 hnext
    exact h.ending hrun (fun key => ⟨Nat.le_refl _, h.indexed key⟩) Bool.noConfusion Bool.noConfusion
  | settle =>
    simp only [next] at hnext
    split at hnext
    next promise hflight =>
      split at hnext
      next =>
        cases hnext
        refine ⟨h.indexed, h.seen, h.promises, fun _ hnone => (nomatch hnone), fun call hcall => ?_⟩
        obtain ⟨hold, hstands⟩ := h.calls call hcall
        exact ⟨hold, fun hjoined => (hstands hjoined).lift (fun _ hmem => hmem) rfl rfl rfl rfl⟩
      next => cases hnext
    next => cases hnext

theorem refreshInv_fresh : RefreshInv .fresh where
  indexed _ := Nat.le_refl _
  seen _ h := nomatch h
  promises := ⟨List.nodup_nil, fun _ h => absurd h List.not_mem_nil⟩
  shared _ h := nomatch h
  calls _ h := absurd h List.not_mem_nil

theorem refreshInv_of_reachable (h : refreshSystem.Reachable s) : RefreshInv s :=
  h.invariant (fun _ h => h ▸ refreshInv_fresh) fun _ _ _ _ hinv hstep => hinv.step hstep

end Steps

/-! ## Schedules -/

/-- A full refresh has read everything when a response is stored and another one is called for. -/
def joinedSchedule : List RefreshEvent :=
  [.call ⟨none, none, none⟩, .start, .change (.response "a"), .call ⟨none, none, none⟩, .finish, .settle]

-- the second call is given the promise of the first, and the index does not have the response
example : (execute next .fresh joinedSchedule).map (fun s => (s.indexed (.response "a"),
    s.calls.map fun call => (call.joined, decide (call.promise ∈ s.ended), call.stored (.response "a")))) =
    some (0, [(false, true, 0), (true, true, 1)]) := by decide

theorem reachable_fresh : refreshSystem.Reachable .fresh := .init rfl

/-- Response `a` is stored and refreshed; the index is built from nothing. -/
def targetedSchedule : List RefreshEvent :=
  [.change (.response "a"), .call ⟨some "a", none, none⟩, .start, .finish]

/-- Response `b` is stored then, and `a` refreshed anew. -/
def neighbourSchedule : List RefreshEvent := targetedSchedule ++ .change (.response "b") :: targetedSchedule

def refreshed : RefreshState := (execute next .fresh targetedSchedule).get rfl

def refreshedAnew : RefreshState := (execute next .fresh neighbourSchedule).get rfl

end AuraCall.Archive.IndexRefresh
