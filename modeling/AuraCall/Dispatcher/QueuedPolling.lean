import AuraCall.Dispatcher.FileBacked
import AuraCall.Dispatcher.InMemory

/-!
# Waiting for an operation

`acquireQueuedWithPolling`: ask for the operation again and again, until it is granted, the time is up, or the caller aborts.
Both dispatchers wait in this way; `Queue` is what the loop needs of them.

The check for an abort after the awaited `acquire` comes before the answer is looked at. A grant that the abort has crossed
is thrown away without its `release`, and the key stays taken; `accounted_iff` shows that this is the only way to lose one.
-/

namespace AuraCall.Dispatcher

namespace QueuedPolling

/-! ## The call -/

/-- Why a call rejects. -/
inductive Rejection
  | aborted
  | thrown (message : String)
  deriving DecidableEq

/-- How a call ends. -/
inductive Outcome
  | acquired (operation : BrowserOperationRecord)
  | busy (result : BrowserOperationBusyResult)
  | rejected (reason : Rejection)

/-- What a call sees besides the dispatcher: its options, what `Date.now() - startedAt` is after each attempt, what
`onBlocked` throws, and the instant at which the signal fires. -/
structure Options where
  timeoutMs : Option JsNumber
  pollMs : Option JsNumber
  elapsedMs : Nat → Int
  onBlocked : Nat → Option String
  abortAt : Option Nat

/-! The instants that the checks tell apart: before an attempt, during its `acquire`, during `onBlocked`, and during the
delay. -/

def beforeAttempt (n : Nat) : Nat := 4 * n
def duringAcquire (n : Nat) : Nat := 4 * n + 1
def duringBlocked (n : Nat) : Nat := 4 * n + 2
def duringDelay (n : Nat) : Nat := 4 * n + 3

/-- `Math.trunc`. -/
def truncated (q : ℚ) : Int := if q < 0 then ⌈q⌉ else ⌊q⌋

def normalizeNonNegativeInteger (value : Option JsNumber) (fallback : Int) : Int :=
  match value with
  | some (.finite q) => max 0 (truncated q)
  | _ => fallback

def normalizePositiveInteger (value : Option JsNumber) (fallback : Int) : Int :=
  match value with
  | some (.finite q) => max 1 (truncated q)
  | _ => fallback

section Call

variable (options : Options)

/-- `options.abortSignal?.aborted`, at an instant. -/
def Options.aborted (instant : Nat) : Bool := options.abortAt.any (· ≤ instant)

def Options.timeout : Int := normalizeNonNegativeInteger options.timeoutMs 30000

def Options.poll : Int := normalizePositiveInteger options.pollMs 250

/-- `delay(ms, abortSignal)`; a delay of no time does not look at the signal. -/
def delay (n : Nat) (ms : Int) : Except Rejection Unit :=
  if ms ≤ 0 then .ok ()
  else if options.aborted (duringBlocked n) then .error .aborted
  else if options.aborted (duringDelay n) then .error .aborted
  else .ok ()

/-- The rest of a turn of the loop, when the dispatcher was busy: how the call ends, `none` when it goes on. -/
def waitForNext (n : Nat) (lastBusy : BrowserOperationBusyResult) : Option Outcome :=
  let elapsedMs := options.elapsedMs n
  match options.onBlocked n with
  | some message => some (.rejected (.thrown message))
  | none =>
    if options.aborted (duringBlocked n) then some (.rejected .aborted)
    else if elapsedMs ≥ options.timeout then some (.busy lastBusy)
    else match delay options n (min options.poll (max 0 (options.timeout - elapsedMs))) with
      | .error reason => some (.rejected reason)
      | .ok () => none

end Call

/-! ## The dispatcher -/

/-- A dispatcher, with all that others do to it while the call waits. The attempt `n` answers, or `acquire` never does. What
the call holds is what it was granted, as nobody else releases it. -/
structure Queue (σ : Type) where
  start : σ
  acquire : Nat → σ → Option (Except (Stop BrowserOperationBusyResult) BrowserOperationRecord × σ)
  /-- The call holds the operation. -/
  Held : σ → BrowserOperationRecord → Prop
  /-- The attempt has not been made, and those before it were refused. -/
  Waiting : Nat → σ → Prop
  start_waiting : Waiting 0 start
  not_held : ∀ n s operation, Waiting n s → ¬Held s operation
  granted : ∀ n s operation s', Waiting n s → acquire n s = some (.ok operation, s') → ∀ o, Held s' o ↔ o = operation
  refused : ∀ n s stop s', Waiting n s → acquire n s = some (.error stop, s') → Waiting (n + 1) s'

section Loop

variable {σ : Type} (queue : Queue σ) (options : Options)

/-- The loop, from the attempt `n`; `none` while it has not ended. -/
def acquireFrom : Nat → Nat → σ → Option (Outcome × σ)
  | 0, _, _ => none
  | fuel + 1, n, s =>
    if options.aborted (beforeAttempt n) then some (.rejected .aborted, s)
    else match queue.acquire n s with
      | none => none
      | some (.error (.thrown message), s') => some (.rejected (.thrown message), s')
      | some (.ok operation, s') =>
        if options.aborted (duringAcquire n) then some (.rejected .aborted, s') else some (.acquired operation, s')
      | some (.error (.refused busy), s') =>
        if options.aborted (duringAcquire n) then some (.rejected .aborted, s')
        else match waitForNext options n busy with
          | some outcome => some (outcome, s')
          | none => acquireFrom fuel (n + 1) s'

/-- `acquireQueuedWithPolling`, with fuel for the turns of its loop. -/
def acquireQueuedWithPolling (fuel : Nat) : Option (Outcome × σ) := acquireFrom queue options fuel 0 queue.start

/-- A call that rejects holds nothing, and one that resolves acquired holds its operation and no other. -/
def Accounted (s : σ) : Outcome → Prop
  | .acquired operation => ∀ o, queue.Held s o ↔ o = operation
  | .busy _ => True
  | .rejected _ => ∀ o, ¬queue.Held s o

/-- What the attempts before the `n`-th lead to, when all of them are made. -/
def stateBefore : Nat → Option σ
  | 0 => some queue.start
  | n + 1 => (stateBefore n).bind fun s => (queue.acquire n s).map (·.2)

/-- The attempt finds the dispatcher busy, `onBlocked` does not throw, and there is time left. -/
def KeepsWaiting (n : Nat) (s : σ) : Prop :=
  (∃ busy s', queue.acquire n s = some (.error (.refused busy), s')) ∧ options.onBlocked n = none ∧
    options.elapsedMs n < options.timeout

/-- The signal fires while the attempt that is going to be granted is under way. -/
def AbortsGrant : Prop :=
  ∃ n s operation s', stateBefore queue n = some s ∧ (∀ m < n, ∀ s, stateBefore queue m = some s →
    KeepsWaiting queue options m s) ∧ queue.acquire n s = some (.ok operation, s') ∧
      options.abortAt = some (duringAcquire n)

end Loop

section Proofs

variable {σ : Type} {queue : Queue σ} {options : Options}

/-- An abort that shows at an instant and not before has happened in between. -/
theorem abortAt_eq {instant : Nat} (hbefore : options.aborted instant = false)
    (hnow : options.aborted (instant + 1) = true) : options.abortAt = some (instant + 1) := by
  simp only [Options.aborted] at hbefore hnow
  cases h : options.abortAt with
  | none => simp [h] at hnow
  | some at' =>
    simp only [h, Option.any_some, decide_eq_false_iff_not, decide_eq_true_eq] at hbefore hnow
    rw [show at' = instant + 1 by omega]

theorem not_aborted_of_lt {instant later : Nat} (h : options.abortAt = some later) (hlt : instant < later) :
    options.aborted instant = false := by
  simp only [Options.aborted, h, Option.any_some, decide_eq_false_iff_not]
  omega

theorem Queue.waiting_before : ∀ {n : Nat} {s : σ}, stateBefore queue n = some s →
    (∀ m < n, ∀ s, stateBefore queue m = some s → KeepsWaiting queue options m s) → queue.Waiting n s
  | 0, s, hs, _ => by
    cases hs
    exact queue.start_waiting
  | n + 1, s, hs, hw => by
    obtain ⟨s₀, hs₀, hs⟩ := Option.bind_eq_some_iff.1 hs
    have hwaiting := Queue.waiting_before hs₀ fun m hm => hw m (Nat.lt_succ_of_lt hm)
    obtain ⟨⟨busy, s', hrefused⟩, -, -⟩ := hw n (Nat.lt_succ_self n) s₀ hs₀
    rw [hrefused] at hs
    cases hs
    exact queue.refused n s₀ _ _ hwaiting hrefused

/-- When a turn of the loop goes on, there is time left, `onBlocked` has not thrown and the signal has not fired. -/
theorem waitForNext_eq_none {n : Nat} {busy : BrowserOperationBusyResult} (h : waitForNext options n busy = none) :
    options.onBlocked n = none ∧ options.elapsedMs n < options.timeout := by
  unfold waitForNext at h
  dsimp only at h
  split at h
  · cases h
  · rename_i hblocked
    split at h
    · cases h
    · split at h
      · cases h
      · rename_i htime
        exact ⟨hblocked, Int.not_le.1 htime⟩

/-- How a turn of the loop that does not go on ends: not with a grant. -/
theorem waitForNext_ne_acquired {n : Nat} {busy : BrowserOperationBusyResult} {operation : BrowserOperationRecord} :
    waitForNext options n busy ≠ some (.acquired operation) := by
  unfold waitForNext
  dsimp only
  split
  · nofun
  · split
    · nofun
    · split
      · nofun
      · split <;> nofun

/-- Without an abort up to the next attempt, a turn that keeps waiting goes on. -/
theorem waitForNext_of_not_aborted {n : Nat} {busy : BrowserOperationBusyResult}
    (hblocked : options.onBlocked n = none) (htime : options.elapsedMs n < options.timeout)
    (hb : options.aborted (duringBlocked n) = false) (hd : options.aborted (duringDelay n) = false) :
    waitForNext options n busy = none := by
  simp only [waitForNext, hblocked, hb, hd, delay, ge_iff_le, Int.not_le.2 htime, Bool.false_eq_true, ↓reduceIte,
    ite_self]

/-- **A turn of the loop.** From an attempt on, a call that ends is accounted for unless the signal fires during the
attempt that is granted. -/
theorem acquireFrom_accounted (hno : ¬AbortsGrant queue options) : ∀ {fuel n : Nat} {s : σ} {outcome : Outcome} {s' : σ},
    stateBefore queue n = some s → (∀ m < n, ∀ s, stateBefore queue m = some s → KeepsWaiting queue options m s) →
      acquireFrom queue options fuel n s = some (outcome, s') → Accounted queue s' outcome
  | 0, _, _, _, _, _, _, h => nomatch h
  | fuel + 1, n, s, outcome, s', hs, hw, h => by
    have hwaiting := Queue.waiting_before hs hw
    unfold acquireFrom at h
    split at h
    · cases h
      exact fun o => queue.not_held n s o hwaiting
    rename_i hbefore
    split at h
    · cases h
    · rename_i message t hanswer
      cases h
      exact fun o => queue.not_held (n + 1) s' o (queue.refused n s _ _ hwaiting hanswer)
    · rename_i operation t hanswer
      split at h
      · rename_i hnow
        have hat := abortAt_eq (eq_false_of_ne_true hbefore) hnow
        exact absurd ⟨n, s, operation, t, hs, hw, hanswer, hat⟩ hno
      · cases h
        exact queue.granted n s operation s' hwaiting hanswer
    · rename_i busy t hanswer
      have hnext := queue.refused n s _ _ hwaiting hanswer
      split at h
      · cases h
        exact fun o => queue.not_held (n + 1) s' o hnext
      · split at h
        · rename_i ended hended
          cases h
          cases outcome with
          | acquired operation => exact absurd hended waitForNext_ne_acquired
          | busy _ => trivial
          | rejected _ => exact fun o => queue.not_held (n + 1) s' o hnext
        · rename_i hgoes
          have hkeeps : KeepsWaiting queue options n s := ⟨⟨busy, t, hanswer⟩, waitForNext_eq_none hgoes⟩
          have hs' : stateBefore queue (n + 1) = some t := by
            rw [stateBefore, hs, Option.bind_some, hanswer]
            rfl
          refine acquireFrom_accounted hno hs' (fun m hm r hr => ?_) h
          rcases Nat.lt_succ_iff_lt_or_eq.1 hm with hm | rfl
          · exact hw m hm r hr
          · rw [hs] at hr
            cases hr
            exact hkeeps

/-- When the signal fires during the attempt that is granted, the call gets as far as that, and rejects. -/
theorem acquireFrom_of_aborts {n : Nat} {s : σ} {operation : BrowserOperationRecord} {t : σ}
    (hs : stateBefore queue n = some s)
    (hw : ∀ m < n, ∀ s, stateBefore queue m = some s → KeepsWaiting queue options m s)
    (hgrant : queue.acquire n s = some (.ok operation, t)) (hat : options.abortAt = some (duringAcquire n)) :
    ∀ k ≤ n, ∀ r, stateBefore queue (n - k) = some r →
      acquireFrom queue options (k + 1) (n - k) r = some (.rejected .aborted, t) := by
  intro k
  induction k with
  | zero =>
    intro _ r hr
    rw [Nat.sub_zero, hs] at hr
    cases hr
    have hbefore : options.aborted (beforeAttempt n) = false := not_aborted_of_lt hat (Nat.lt_succ_self _)
    have hnow : options.aborted (duringAcquire n) = true := by simp [Options.aborted, hat]
    simp [acquireFrom, hbefore, hgrant, hnow]
  | succ k ih =>
    intro hk r hr
    have hm : n - (k + 1) + 1 = n - k := by omega
    have hlater : ∀ instant ≤ duringDelay (n - (k + 1)), options.aborted instant = false := fun instant hle =>
      not_aborted_of_lt hat (by simp only [duringDelay, duringAcquire] at hle ⊢; omega)
    obtain ⟨⟨busy, r', hanswer⟩, hblocked, htime⟩ := hw _ (by omega) r hr
    have hgoes := @waitForNext_of_not_aborted options _ busy hblocked htime
      (hlater _ (by simp [duringBlocked, duringDelay])) (hlater _ (Nat.le_refl _))
    have hnext : stateBefore queue (n - k) = some r' := by
      rw [← hm, stateBefore, hr, Option.bind_some, hanswer]
      rfl
    have hbefore := hlater (beforeAttempt (n - (k + 1))) (by simp [beforeAttempt, duringDelay])
    have hduring := hlater (duringAcquire (n - (k + 1))) (by simp [duringAcquire, duringDelay])
    rw [acquireFrom, hbefore, hanswer]
    simp only [Bool.false_eq_true, ↓reduceIte, hduring, hgoes, hm]
    exact ih (by omega) r' hnext

end Proofs

/-- Every way for the call to end accounts for the operations granted to it exactly when the signal does not fire during
the attempt that is granted. -/
theorem accounted_iff {σ : Type} (queue : Queue σ) (options : Options) :
    (∀ fuel outcome s, acquireQueuedWithPolling queue options fuel = some (outcome, s) → Accounted queue s outcome) ↔
      ¬AbortsGrant queue options := by
  constructor
  · rintro h ⟨n, s, operation, t, hs, hw, hgrant, hat⟩
    have hrun := acquireFrom_of_aborts hs hw hgrant hat n (Nat.le_refl n) queue.start (by rw [Nat.sub_self]; rfl)
    rw [Nat.sub_self] at hrun
    have haccounted := h (n + 1) _ t hrun
    exact haccounted operation ((queue.granted n s operation t (Queue.waiting_before hs hw) hgrant operation).2 rfl)
  · exact fun hno fuel outcome s h => acquireFrom_accounted hno rfl (fun m hm => absurd hm (Nat.not_lt_zero m)) h

/-! ## The in-memory dispatcher -/

/-- A call that waits for the in-memory dispatcher: the identifiers and times of the records its attempts build, and what
others do before each of them. -/
structure InMemoryCall where
  host : Host
  input : BrowserOperationAcquireInput
  ids : Nat → String
  nowMs : Nat → Int
  others : Nat → List Call
  start : State
  fresh : (∀ operation ∈ start.granted, ∀ n, operation.id ≠ ids n) ∧ ∀ n, ids n ∉ start.released
  others_fresh : ∀ n input id nowMs, Call.acquire input id nowMs ∈ others n → ∀ m, id ≠ ids m

section InMemory

variable (c : InMemoryCall)

/-- None of the operations is one of the call's. -/
def Untouched (s : State) : Prop :=
  (∀ operation ∈ s.granted, ∀ n, operation.id ≠ c.ids n) ∧ ∀ n, c.ids n ∉ s.released

/-- What others do before an attempt; a call that the dispatcher does not have is left out. -/
def InMemoryCall.before (n : Nat) (s : State) : State :=
  (c.others n).foldl (fun s call => (next c.host s call).getD s) s

def InMemoryCall.attempt (n : Nat) (s : State) :
    Except (Stop BrowserOperationBusyResult) BrowserOperationRecord × State :=
  let s := c.before n s
  match acquire c.host (fun _ => true) c.input (c.ids n) (c.nowMs n) s.active with
  | (.ok operation, active) => (.ok operation, { s with active, granted := s.granted ++ [operation] })
  | (.error stop, active) => (.error stop, { s with active })

variable {c} {s s' : State}

theorem Untouched.next (h : Untouched c s) {call : Call}
    (hcall : ∀ input id nowMs, call = .acquire input id nowMs → ∀ m, id ≠ c.ids m)
    (hs : next c.host s call = some s') : Untouched c s' := by
  cases call with
  | acquire input id nowMs =>
    simp only [Dispatcher.next] at hs
    split at hs
    · cases hs
    · obtain ⟨stop, he⟩ | ⟨operation, he, hid, -⟩ := acquire_cases c.host input id nowMs s.active
      · rw [he] at hs
        cases hs
        exact h
      · rw [he] at hs
        cases hs
        refine ⟨fun o ho => ?_, h.2⟩
        rcases List.mem_append.1 ho with ho | ho
        · exact h.1 o ho
        · rw [List.mem_singleton.1 ho, hid]
          exact hcall input id nowMs rfl
  | release operation =>
    simp only [Dispatcher.next] at hs
    split at hs
    · rename_i hmem
      cases hs
      refine ⟨h.1, fun n hn => ?_⟩
      rcases List.mem_cons.1 hn with heq | hn
      · exact h.1 operation hmem n heq.symm
      · exact h.2 n hn
    · cases hs
  | getActive key =>
    cases hs
    exact h

theorem Untouched.before (h : Untouched c s) (n : Nat) : Untouched c (c.before n s) := by
  have hall : ∀ calls : List Call, (∀ input id nowMs, Call.acquire input id nowMs ∈ calls → ∀ m, id ≠ c.ids m) →
      ∀ s, Untouched c s → Untouched c (calls.foldl (fun s call => (Dispatcher.next c.host s call).getD s) s) := by
    intro calls
    induction calls with
    | nil => exact fun _ s hs => hs
    | cons call calls ih =>
      intro hcalls s hs
      refine ih (fun input id nowMs hmem => hcalls input id nowMs (List.mem_cons_of_mem _ hmem)) _ ?_
      show Untouched c ((Dispatcher.next c.host s call).getD s)
      cases hn : Dispatcher.next c.host s call with
      | none => exact hs
      | some t =>
        refine hs.next (fun input id nowMs he => ?_) hn
        exact hcalls input id nowMs (he ▸ List.mem_cons_self)
  exact hall _ (c.others_fresh n) s h

/-- The in-memory dispatcher, for a call that waits. -/
def inMemoryQueue (c : InMemoryCall) : Queue State where
  start := c.start
  acquire n s := some (c.attempt n s)
  Held s operation := Dispatcher.Held s operation ∧ ∃ n, operation.id = c.ids n
  Waiting _ s := Untouched c s
  start_waiting := c.fresh
  not_held := fun _ s operation h ⟨⟨hgranted, _⟩, n, hid⟩ => h.1 operation hgranted n hid
  granted := by
    intro n s operation s' h ha o
    have hbefore := h.before n
    obtain ⟨stop, he⟩ | ⟨granted, he, hid, -⟩ :=
      acquire_cases c.host c.input (c.ids n) (c.nowMs n) (c.before n s).active
    · simp only [InMemoryCall.attempt, he, Option.some.injEq, Prod.mk.injEq, reduceCtorEq, false_and] at ha
    · simp only [InMemoryCall.attempt, he, Option.some.injEq, Prod.mk.injEq, Except.ok.injEq] at ha
      obtain ⟨rfl, rfl⟩ := ha
      constructor
      · rintro ⟨⟨hmem, -⟩, m, hm⟩
        rcases List.mem_append.1 hmem with hmem | hmem
        · exact absurd hm (hbefore.1 o hmem m)
        · exact List.mem_singleton.1 hmem
      · rintro rfl
        exact ⟨⟨List.mem_append_right _ List.mem_cons_self, hid ▸ hbefore.2 n⟩, n, hid⟩
  refused := by
    intro n s stop s' h ha
    obtain ⟨stop', he⟩ | ⟨granted, he, -⟩ :=
      acquire_cases c.host c.input (c.ids n) (c.nowMs n) (c.before n s).active
    · simp only [InMemoryCall.attempt, he, Option.some.injEq, Prod.mk.injEq] at ha
      obtain ⟨-, rfl⟩ := ha
      exact h.before n
    · simp only [InMemoryCall.attempt, he, Option.some.injEq, Prod.mk.injEq, reduceCtorEq, false_and] at ha

end InMemory

/-! ## The file-backed dispatcher -/

/-- The call of `acquire` that a step belongs to. -/
def acquirer {ι : Type} : FileBacked.Action ι → Option ι
  | .open i _ _ | .write i | .read i | .remove i | .throw i => some i
  | .releaseRead _ _ | .releaseRemove _ _ => none

/-- The call whose operation a step releases. -/
def releaser {ι : Type} : FileBacked.Action ι → Option ι
  | .releaseRead i _ | .releaseRemove i _ => some i
  | .open _ _ _ | .write _ | .read _ | .remove _ | .throw _ => none

/-- A call that waits for the file-backed dispatcher: its attempts among the calls of `acquire` on the key, and the steps of
all the calls up to the answer of each attempt. -/
structure FileBackedCall (ι : Type) where
  calls : FileBacked.Calls ι
  mine : Nat → ι
  steps : Nat → List (FileBacked.Action ι)
  start : FileBacked.State ι
  fresh : ∀ n, start.acquiring (mine n) = .opening ∧ ∀ k, start.releasing (mine n) k = .reading
  one_attempt : ∀ n, ∀ action ∈ steps n, ∀ m, acquirer action = some (mine m) → mine m = mine n
  not_released : ∀ n, ∀ action ∈ steps n, ∀ m, releaser action ≠ some (mine m)

section FileBacked

variable {ι : Type} [DecidableEq ι] {calls : FileBacked.Calls ι} {s s' : FileBacked.State ι}

/-- A step leaves the calls alone that it is no step of. -/
theorem next_frame {action : FileBacked.Action ι} (h : FileBacked.next calls s action = some s') {i : ι} :
    (acquirer action ≠ some i → s'.acquiring i = s.acquiring i) ∧
      (releaser action ≠ some i → s'.releasing i = s.releasing i) := by
  have hset : ∀ (t : FileBacked.State ι) (j : ι) phase, some j ≠ some i →
      (t.setAcquiring j phase).acquiring i = t.acquiring i :=
    fun t j phase hj => Function.update_of_ne (fun e => hj (congrArg some e.symm)) ..
  have hrel : ∀ (t : FileBacked.State ι) (j : ι) k phase, some j ≠ some i →
      (t.setReleasing j k phase).releasing i = t.releasing i :=
    fun t j k phase hj => Function.update_of_ne (fun e => hj (congrArg some e.symm)) ..
  cases action with
  | «open» j id nowMs =>
    simp only [FileBacked.next] at h
    split at h
    · split at h
      · cases h
      · split at h
        · cases h
          exact ⟨hset s j _, fun _ => rfl⟩
        · cases h
          unfold FileBacked.openExclusive
          split
          · exact ⟨hset _ j _, fun _ => rfl⟩
          · exact ⟨hset _ j _, fun _ => rfl⟩
    · cases h
  | write j =>
    simp only [FileBacked.next] at h
    split at h
    · cases h
      exact ⟨hset _ j _, fun _ => rfl⟩
    · cases h
  | read j =>
    simp only [FileBacked.next] at h
    split at h
    · split at h
      · cases h
        exact ⟨hset s j _, fun _ => rfl⟩
      · split at h <;> cases h <;> exact ⟨hset s j _, fun _ => rfl⟩
    · cases h
  | remove j =>
    simp only [FileBacked.next] at h
    split at h
    · cases h
      exact ⟨hset _ j _, fun _ => rfl⟩
    · cases h
  | throw j =>
    simp only [FileBacked.next] at h
    split at h
    all_goals first | (cases h; exact ⟨hset s j _, fun _ => rfl⟩) | cases h
  | releaseRead j k =>
    simp only [FileBacked.next] at h
    split at h
    · split at h <;> cases h <;> exact ⟨fun _ => rfl, hrel s j k _⟩
    · cases h
  | releaseRemove j k =>
    simp only [FileBacked.next] at h
    split at h
    · cases h
      exact ⟨fun _ => rfl, hrel _ j k _⟩
    · cases h

theorem execute_frame {i : ι} : ∀ {actions : List (FileBacked.Action ι)} {s s' : FileBacked.State ι},
    TransitionSystem.execute (FileBacked.next calls) s actions = some s' →
      ((∀ action ∈ actions, acquirer action ≠ some i) → s'.acquiring i = s.acquiring i) ∧
        ((∀ action ∈ actions, releaser action ≠ some i) → s'.releasing i = s.releasing i)
  | [], s, s', h => by
    cases h
    exact ⟨fun _ => rfl, fun _ => rfl⟩
  | action :: actions, s, s', h => by
    obtain ⟨t, hnext, hrest⟩ := Option.bind_eq_some_iff.1 h
    have hstep := next_frame (i := i) hnext
    have hrun := execute_frame (i := i) hrest
    constructor
    · intro hno
      rw [hrun.1 fun a ha => hno a (List.mem_cons_of_mem _ ha), hstep.1 (hno action List.mem_cons_self)]
    · intro hno
      rw [hrun.2 fun a ha => hno a (List.mem_cons_of_mem _ ha), hstep.2 (hno action List.mem_cons_self)]

variable (c : FileBackedCall ι)

/-- No attempt has been granted an operation. -/
def Ungranted (s : FileBacked.State ι) : Prop :=
  ∀ n, (∀ operation inode, s.acquiring (c.mine n) ≠ .granted operation inode) ∧
    ∀ k, s.releasing (c.mine n) k ≠ .finished

/-- What an attempt answers, once it has. -/
def FileBackedCall.answer (n : Nat) (s : FileBacked.State ι) :
    Option (Except (Stop BrowserOperationBusyResult) BrowserOperationRecord) :=
  match s.acquiring (c.mine n) with
  | .granted operation _ => some (.ok operation)
  | .busy result => some (.error (.refused result))
  | .thrown => some (.error (.thrown "acquire"))
  | _ => none

def FileBackedCall.attempt (n : Nat) (s : FileBacked.State ι) :
    Option (Except (Stop BrowserOperationBusyResult) BrowserOperationRecord × FileBacked.State ι) := do
  let s' ← TransitionSystem.execute (FileBacked.next c.calls) s (c.steps n)
  return (← c.answer n s', s')

variable {c}

theorem attempt_eq_some {n : Nat} {answer : Except (Stop BrowserOperationBusyResult) BrowserOperationRecord}
    (h : c.attempt n s = some (answer, s')) :
    c.answer n s' = some answer ∧ (∀ m, c.mine m ≠ c.mine n → s'.acquiring (c.mine m) = s.acquiring (c.mine m)) ∧
      ∀ m, s'.releasing (c.mine m) = s.releasing (c.mine m) := by
  obtain ⟨t, hrun, h⟩ := Option.bind_eq_some_iff.1 h
  obtain ⟨answer', hanswer, h⟩ := Option.bind_eq_some_iff.1 h
  cases h
  refine ⟨hanswer, fun m hm => ?_, fun m => ?_⟩
  · exact (execute_frame hrun).1 fun action ha he => hm (c.one_attempt n action ha m he)
  · exact (execute_frame hrun).2 fun action ha => c.not_released n action ha m

/-- The file-backed dispatcher, for a call that waits. -/
def fileBackedQueue (c : FileBackedCall ι) : Queue (FileBacked.State ι) where
  start := c.start
  acquire := c.attempt
  Held s operation := ∃ n inode, s.acquiring (c.mine n) = .granted operation inode ∧
    ∀ k, s.releasing (c.mine n) k ≠ .finished
  Waiting _ s := Ungranted c s
  start_waiting n := by
    obtain ⟨hopening, hreading⟩ := c.fresh n
    exact ⟨fun operation inode => by rw [hopening]; nofun, fun k => by rw [hreading k]; nofun⟩
  not_held := fun _ s operation h ⟨n, inode, hgranted, _⟩ => (h n).1 operation inode hgranted
  granted := by
    intro n s operation s' h ha o
    obtain ⟨hanswer, hother, hreleasing⟩ := attempt_eq_some ha
    have hgranted : ∃ inode, s'.acquiring (c.mine n) = .granted operation inode := by
      unfold FileBackedCall.answer at hanswer
      split at hanswer
      · rename_i inode hphase
        cases hanswer
        exact ⟨inode, hphase⟩
      all_goals cases hanswer
    obtain ⟨inode, hphase⟩ := hgranted
    constructor
    · rintro ⟨m, inode', hm, -⟩
      by_cases hmn : c.mine m = c.mine n
      · rw [hmn, hphase] at hm
        cases hm
        rfl
      · rw [hother m hmn] at hm
        exact absurd hm ((h m).1 o inode')
    · rintro rfl
      exact ⟨n, inode, hphase, fun k => by rw [hreleasing n]; exact (h n).2 k⟩
  refused := by
    intro n s stop s' h ha m
    obtain ⟨hanswer, hother, hreleasing⟩ := attempt_eq_some ha
    refine ⟨fun operation inode hm => ?_, fun k => by rw [hreleasing m]; exact (h m).2 k⟩
    by_cases hmn : c.mine m = c.mine n
    · rw [hmn] at hm
      simp only [FileBackedCall.answer, hm] at hanswer
      cases hanswer
    · rw [hother m hmn] at hm
      exact (h m).1 operation inode hm

end FileBacked

/-! ## Aborting a grant -/

/-- **The operations of a call that waits**, of either dispatcher, whatever its attempts answer. -/
theorem queued_accounted_iff (options : Options) :
    (∀ c : InMemoryCall,
      (∀ fuel outcome s, acquireQueuedWithPolling (inMemoryQueue c) options fuel = some (outcome, s) →
        Accounted (inMemoryQueue c) s outcome) ↔ ¬AbortsGrant (inMemoryQueue c) options) ∧
    ∀ (ι : Type) [DecidableEq ι] (c : FileBackedCall ι),
      (∀ fuel outcome s, acquireQueuedWithPolling (fileBackedQueue c) options fuel = some (outcome, s) →
        Accounted (fileBackedQueue c) s outcome) ↔ ¬AbortsGrant (fileBackedQueue c) options :=
  ⟨fun c => accounted_iff (inMemoryQueue c) options, fun _ _ c => accounted_iff (fileBackedQueue c) options⟩

/-- A call for the sample profile, which nobody uses. -/
def sampleCall : InMemoryCall where
  host := sampleHost
  input := sampleRequest .exclusiveMutating
  ids _ := "attempt"
  nowMs _ := 0
  others _ := []
  start := .initial
  fresh := ⟨fun _ h => absurd h List.not_mem_nil, fun _ => List.not_mem_nil⟩
  others_fresh _ _ _ _ h := absurd h List.not_mem_nil

/-- The signal fires during the first attempt: the call rejects, and the operation stays in the map. -/
theorem aborted_grant_stays :
    ¬∀ (c : InMemoryCall) (options : Options) fuel outcome s,
      acquireQueuedWithPolling (inMemoryQueue c) options fuel = some (outcome, s) →
        Accounted (inMemoryQueue c) s outcome := by
  intro h
  have hrun : acquireQueuedWithPolling (inMemoryQueue sampleCall) ⟨none, none, fun _ => 0, fun _ => none, some 1⟩ 1 =
      some (.rejected .aborted, (sampleCall.attempt 0 .initial).2) := rfl
  exact h _ _ _ _ _ hrun _ ⟨⟨List.mem_cons_self, List.not_mem_nil⟩, 0, rfl⟩

end QueuedPolling

end AuraCall.Dispatcher
