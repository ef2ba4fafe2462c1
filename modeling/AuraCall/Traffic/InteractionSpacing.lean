import AuraCall.Lib.EventLoop
import AuraCall.Traffic.Model

/-!
# The spacing of interactions

`createBrowserInteractionGovernor`: before an interaction a call reads when the last one was, sleeps for the rest of the
spacing, and notes its own time. What happens while it sleeps it does not see: two calls that sleep at once wake together
(`wakes_together`).

`spaced_iff` shows that this is the only way to break the spacing. A call that completes has to leave every sleeping call
its distance (`LeavesRoom`); where all do, the interactions are spaced, and where one does not, the sleeping call breaks the
spacing by waking in time.
-/

namespace AuraCall.Traffic

namespace InteractionSpacing

open EventLoop

/-! ## The governor -/

/-- `BrowserInteractionGovernorPolicy`, up to the clock and the timers; `null` and `undefined` are `none`. -/
structure BrowserInteractionGovernorPolicy where
  maxInteractionsPerMinute : Option JsNumber := none
  cooldownsByClass : BrowserInteractionClass → Option JsNumber := fun _ => none

def BrowserInteractionGovernorPolicy.maxPerMinute (policy : BrowserInteractionGovernorPolicy) : Int :=
  match policy.maxInteractionsPerMinute with
  | some (.finite q) => max 1 ⌊q⌋
  | _ => 20

def BrowserInteractionGovernorPolicy.minSpacingMs (policy : BrowserInteractionGovernorPolicy) : Int :=
  ⌈(60000 : ℚ) / policy.maxPerMinute⌉

def normalizeCooldownMs (value : Option JsNumber) : Int :=
  match value with
  | some (.finite q) => if 0 < q then ⌊q⌋ else 0
  | _ => 0

def BrowserInteractionGovernorPolicy.cooldownMs (policy : BrowserInteractionGovernorPolicy)
    (kind : BrowserInteractionClass) : Int :=
  normalizeCooldownMs (policy.cooldownsByClass kind)

/-- An interaction that was let through, and the time its call observed. -/
structure Completion where
  kind : BrowserInteractionClass
  atMs : Int
  deriving DecidableEq

/-- The variables of the governor, the time of the last turn, and the interactions let through so far. -/
structure State where
  clock : Int
  lastInteractionAtMs : Int
  lastByClass : BrowserInteractionClass → Option Int
  completed : List Completion

/-- A call, with its readings of the clock and of the abort signal. -/
structure Call where
  kind : BrowserInteractionClass := .generic
  nowMs : Int
  observedAtMs : Int
  aborted : Bool := false

/-- What a call awaits: its sleep, until the given time. -/
inductive Point
  | sleeping (kind : BrowserInteractionClass) (untilMs : Int)
  | resolved
  | rejected
  deriving DecidableEq

/-- The sleep ends, at the given time; or it fails, or the abort signal has fired. -/
inductive Answer
  | woken (observedAtMs : Int)
  | failed
  deriving DecidableEq

/-- The end of a call that is let through. -/
def State.complete (s : State) (kind : BrowserInteractionClass) (observedAtMs : Int) : State where
  clock := observedAtMs
  lastInteractionAtMs := observedAtMs
  lastByClass := Function.update s.lastByClass kind (some observedAtMs)
  completed := s.completed ++ [⟨kind, observedAtMs⟩]

section Governor

variable (policy : BrowserInteractionGovernorPolicy)

def globalWaitMs (s : State) (nowMs : Int) : Int :=
  if s.lastInteractionAtMs > 0 then max 0 (s.lastInteractionAtMs + policy.minSpacingMs - nowMs) else 0

def classWaitMs (s : State) (kind : BrowserInteractionClass) (nowMs : Int) : Int :=
  match s.lastByClass kind with
  | none => 0
  | some lastClassInteractionAtMs => max 0 (lastClassInteractionAtMs + policy.cooldownMs kind - nowMs)

def waitMs (s : State) (kind : BrowserInteractionClass) (nowMs : Int) : Int :=
  max (globalWaitMs policy s nowMs) (classWaitMs policy s kind nowMs)

/-- `beforeInteraction` to its first await; the clock does not go back. -/
def beforeInteraction (s : State) (call : Call) : Option (State × Point) :=
  if call.nowMs < s.clock ∨ call.observedAtMs < call.nowMs then none
  else if call.aborted then some ({ s with clock := call.nowMs }, .rejected)
  else
    let wait := waitMs policy s call.kind call.nowMs
    if wait > 0 then some ({ s with clock := call.nowMs }, .sleeping call.kind (call.nowMs + wait))
    else some (s.complete call.kind call.observedAtMs, .resolved)

/-- `beforeInteraction` after its await; a sleep does not end early. -/
def wake (s : State) : Point → Answer → Option (State × Point)
  | .sleeping kind untilMs, .woken observedAtMs =>
    if observedAtMs < s.clock ∨ observedAtMs < untilMs then none
    else some (s.complete kind observedAtMs, .resolved)
  | .sleeping _ _, .failed => some (s, .rejected)
  | _, _ => none

def governor : EventLoop State Call Point Answer := ⟨beforeInteraction policy, wake⟩

/-- No interaction yet; the clock is past the epoch. -/
def Initial (s : State) : Prop :=
  0 < s.clock ∧ s.lastInteractionAtMs = 0 ∧ s.lastByClass = (fun _ => none) ∧ s.completed = []

/-- All schedules of calls. -/
def system : TransitionSystem (Config State Point) (Turn Call Answer) := (governor policy).system Initial

/-! ## Spacing -/

/-- The second of two interactions is far enough from the first. -/
def Apart (first second : Completion) : Prop :=
  first.atMs + policy.minSpacingMs ≤ second.atMs ∧
    (first.kind = second.kind → first.atMs + policy.cooldownMs first.kind ≤ second.atMs)

/-- Any two interactions are far enough from each other. -/
def Spaced (s : State) : Prop := s.completed.Pairwise (Apart policy)

/-- A sleeping call wakes no earlier than far enough from the interaction. -/
def LeavesRoom (completion : Completion) : Point → Prop
  | .sleeping kind untilMs => Apart policy completion ⟨kind, untilMs⟩
  | _ => True

/-- The interaction that a turn lets through, and the calls that it leaves waiting. -/
def letThrough (c : Config State Point) : Turn Call Answer → Option (Completion × List Point)
  | .call call =>
    if call.aborted ∨ waitMs policy c.shared call.kind call.nowMs > 0 then none
    else some (⟨call.kind, call.observedAtMs⟩, c.calls)
  | .answer index (.woken observedAtMs) =>
    match c.calls[index]? with
    | some (.sleeping kind _) => some (⟨kind, observedAtMs⟩, c.calls.take index ++ c.calls.drop (index + 1))
    | _ => none
  | .answer _ .failed => none

/-- A turn that lets an interaction through leaves room for every call that sleeps. -/
def LeavesRoomForAll (c : Config State Point) (turn : Turn Call Answer) : Prop :=
  ∀ completion waiting, letThrough policy c turn = some (completion, waiting) →
    ∀ point ∈ waiting, LeavesRoom policy completion point

end Governor

section Proofs

variable {policy : BrowserInteractionGovernorPolicy} {s : State}

/-- The variables say when the last interactions were. -/
structure Noted (s : State) : Prop where
  clock : 0 < s.clock
  positive : ∀ completion ∈ s.completed, 0 < completion.atMs
  past : ∀ completion ∈ s.completed, completion.atMs ≤ s.clock
  last : ∀ completion ∈ s.completed, completion.atMs ≤ s.lastInteractionAtMs
  byClass : ∀ completion ∈ s.completed, ∃ last, s.lastByClass completion.kind = some last ∧ completion.atMs ≤ last

theorem Noted.clocked (h : Noted s) {nowMs : Int} (hnow : s.clock ≤ nowMs) : Noted { s with clock := nowMs } :=
  ⟨lt_of_lt_of_le h.clock hnow, h.positive, fun completion hm => le_trans (h.past completion hm) hnow, h.last, h.byClass⟩

theorem Noted.complete (h : Noted s) {kind : BrowserInteractionClass} {observedAtMs : Int}
    (hnow : s.clock ≤ observedAtMs) : Noted (s.complete kind observedAtMs) := by
  have hpos : 0 < observedAtMs := lt_of_lt_of_le h.clock hnow
  have hclock : ∀ completion ∈ s.completed, completion.atMs ≤ observedAtMs :=
    fun completion hm => le_trans (h.past completion hm) hnow
  constructor
  · exact hpos
  · intro completion hm
    rcases List.mem_append.1 hm with hm | hm
    · exact h.positive completion hm
    · rw [List.mem_singleton.1 hm]
      exact hpos
  · intro completion hm
    rcases List.mem_append.1 hm with hm | hm
    · exact hclock completion hm
    · rw [List.mem_singleton.1 hm]
      exact le_refl observedAtMs
  · intro completion hm
    rcases List.mem_append.1 hm with hm | hm
    · exact hclock completion hm
    · rw [List.mem_singleton.1 hm]
      exact le_refl observedAtMs
  · intro completion hm
    show ∃ last, Function.update s.lastByClass kind (some observedAtMs) completion.kind = some last ∧ _
    by_cases hk : completion.kind = kind
    · refine ⟨observedAtMs, by rw [hk, Function.update_self], ?_⟩
      rcases List.mem_append.1 hm with hm | hm
      · exact hclock completion hm
      · rw [List.mem_singleton.1 hm]
    · rw [Function.update_of_ne hk]
      rcases List.mem_append.1 hm with hm | hm
      · exact h.byClass completion hm
      · rw [List.mem_singleton.1 hm] at hk
        exact absurd rfl hk

/-- After its wait, a call is far enough from every interaction that it has seen. -/
theorem Noted.apart_of_wait (h : Noted s) {kind : BrowserInteractionClass} {nowMs atMs : Int}
    (hat : nowMs + waitMs policy s kind nowMs ≤ atMs) : ∀ completion ∈ s.completed, Apart policy completion ⟨kind, atMs⟩ := by
  intro completion hm
  constructor
  · have hlast : 0 < s.lastInteractionAtMs := lt_of_lt_of_le (h.positive completion hm) (h.last completion hm)
    have hglobal : globalWaitMs policy s nowMs ≤ waitMs policy s kind nowMs := le_max_left _ _
    have hwait : s.lastInteractionAtMs + policy.minSpacingMs - nowMs ≤ globalWaitMs policy s nowMs := by
      rw [globalWaitMs, if_pos hlast]
      exact le_max_right _ _
    have hle := h.last completion hm
    show completion.atMs + policy.minSpacingMs ≤ atMs
    omega
  · intro hk
    obtain ⟨last, hlast, hle⟩ := h.byClass completion hm
    have hclass : classWaitMs policy s kind nowMs ≤ waitMs policy s kind nowMs := le_max_right _ _
    have hk' : completion.kind = kind := hk
    have hwait : last + policy.cooldownMs kind - nowMs ≤ classWaitMs policy s kind nowMs := by
      rw [classWaitMs, ← hk', hlast]
      exact le_max_right _ _
    show completion.atMs + policy.cooldownMs completion.kind ≤ atMs
    rw [hk']
    omega

theorem Apart.later {first second : Completion} (h : Apart policy first second) {atMs : Int} (hat : second.atMs ≤ atMs) :
    Apart policy first ⟨second.kind, atMs⟩ := ⟨le_trans h.1 hat, fun hk => le_trans (h.2 hk) hat⟩

theorem Spaced.complete (h : Spaced policy s) {kind : BrowserInteractionClass} {observedAtMs : Int}
    (hnew : ∀ completion ∈ s.completed, Apart policy completion ⟨kind, observedAtMs⟩) :
    Spaced policy (s.complete kind observedAtMs) := by
  show (s.completed ++ [_]).Pairwise _
  rw [List.pairwise_append]
  refine ⟨h, List.pairwise_singleton _ _, fun first hfirst second hsecond => ?_⟩
  rw [List.mem_singleton.1 hsecond]
  exact hnew first hfirst

theorem minSpacingMs_pos : 0 < policy.minSpacingMs := by
  have hmax : (0 : ℚ) < policy.maxPerMinute := by
    have : 0 < policy.maxPerMinute := by
      unfold BrowserInteractionGovernorPolicy.maxPerMinute
      split
      · exact lt_of_lt_of_le Int.one_pos (le_max_left _ _)
      · decide
    exact_mod_cast this
  exact Int.ceil_pos.2 (div_pos (by norm_num) hmax)

/-- Letting an interaction through leaves room for the sleeping calls, if the interaction does. -/
theorem leavesRoom_complete {kind : BrowserInteractionClass} {observedAtMs : Int} {point : Point}
    (hold : ∀ completion ∈ s.completed, LeavesRoom policy completion point)
    (hnew : LeavesRoom policy ⟨kind, observedAtMs⟩ point) :
    ∀ completion ∈ (s.complete kind observedAtMs).completed, LeavesRoom policy completion point := by
  intro completion hm
  rcases List.mem_append.1 hm with hm | hm
  · exact hold completion hm
  · rw [List.mem_singleton.1 hm]
    exact hnew

/-- A turn of a new call. -/
theorem beforeInteraction_cases {call : Call} {s' : State} {point : Point}
    (h : beforeInteraction policy s call = some (s', point)) :
    s.clock ≤ call.nowMs ∧ call.nowMs ≤ call.observedAtMs ∧
      (s' = { s with clock := call.nowMs } ∧ (point = .rejected ∧ call.aborted = true ∨
        point = .sleeping call.kind (call.nowMs + waitMs policy s call.kind call.nowMs) ∧
          0 < waitMs policy s call.kind call.nowMs) ∨
      s' = s.complete call.kind call.observedAtMs ∧ point = .resolved ∧ call.aborted = false ∧
        waitMs policy s call.kind call.nowMs ≤ 0) := by
  unfold beforeInteraction at h
  dsimp only at h
  split at h
  · cases h
  rename_i hclock
  obtain ⟨hnow, hobserved⟩ := not_or.1 hclock
  refine ⟨Int.not_lt.1 hnow, Int.not_lt.1 hobserved, ?_⟩
  split at h
  · rename_i haborted
    cases h
    exact .inl ⟨rfl, .inl ⟨rfl, haborted⟩⟩
  rename_i haborted
  split at h
  · rename_i hwait
    cases h
    exact .inl ⟨rfl, .inr ⟨rfl, hwait⟩⟩
  · rename_i hwait
    cases h
    exact .inr ⟨rfl, rfl, eq_false_of_ne_true haborted, Int.not_lt.1 hwait⟩

/-- A turn of a call that sleeps. -/
theorem wake_cases {point point' : Point} {answer : Answer} {s' : State} (h : wake s point answer = some (s', point')) :
    (s' = s ∧ point' = .rejected) ∨ ∃ kind untilMs observedAtMs, point = .sleeping kind untilMs ∧
      answer = .woken observedAtMs ∧ s.clock ≤ observedAtMs ∧ untilMs ≤ observedAtMs ∧
        s' = s.complete kind observedAtMs ∧ point' = .resolved := by
  unfold wake at h
  split at h
  · rename_i kind untilMs observedAtMs
    split at h
    · cases h
    · rename_i hclock
      obtain ⟨hnow, huntil⟩ := not_or.1 hclock
      cases h
      exact .inr ⟨kind, untilMs, observedAtMs, rfl, rfl, Int.not_lt.1 hnow, Int.not_lt.1 huntil, rfl, rfl⟩
  · cases h
    exact .inl ⟨rfl, rfl⟩
  · cases h

/-- In a run whose turns all leave room, the interactions are spaced, and no sleeping call will break the spacing. -/
theorem spaced_of_restricted {c : Config State Point}
    (h : ((system policy).restrict (LeavesRoomForAll policy)).Reachable c) :
    (Noted c.shared ∧ Spaced policy c.shared) ∧
      ∀ point ∈ c.calls, ∀ completion ∈ c.shared.completed, LeavesRoom policy completion point := by
  refine forall_calls (I := fun s => Noted s ∧ Spaced policy s)
    (P := fun s point => ∀ completion ∈ s.completed, LeavesRoom policy completion point) ?_ ?_ ?_ h
  · rintro s ⟨hclock, -, -, hnone⟩
    have hno : ∀ completion, completion ∉ s.completed := by
      rw [hnone]
      exact fun _ => List.not_mem_nil
    refine ⟨⟨hclock, fun c hm => absurd hm (hno c), fun c hm => absurd hm (hno c), fun c hm => absurd hm (hno c),
      fun c hm => absurd hm (hno c)⟩, ?_⟩
    rw [Spaced, hnone]
    exact .nil
  · intro c call s' point hok ⟨hnoted, hspaced⟩ hcalls hstart
    obtain ⟨hnow, hobserved, ⟨rfl, hpoint⟩ | ⟨rfl, rfl, haborted, hwait⟩⟩ := beforeInteraction_cases hstart
    · refine ⟨⟨hnoted.clocked hnow, hspaced⟩, fun completion hm => ?_, hcalls⟩
      rcases hpoint with ⟨rfl, -⟩ | ⟨rfl, -⟩
      · trivial
      · exact hnoted.apart_of_wait (le_refl _) completion hm
    · have hnew : ∀ completion ∈ c.shared.completed, Apart policy completion ⟨call.kind, call.observedAtMs⟩ :=
        hnoted.apart_of_wait (le_trans (by omega : call.nowMs + waitMs policy c.shared call.kind call.nowMs ≤ call.nowMs) hobserved)
      refine ⟨⟨hnoted.complete (le_trans hnow hobserved), hspaced.complete hnew⟩, fun _ _ => trivial, fun q hq => ?_⟩
      refine leavesRoom_complete (hcalls q hq) (hok _ c.calls ?_ q hq)
      rw [letThrough, if_neg (by simp [haborted, Int.not_lt.2 hwait])]
  · intro c before after point answer s' point' hok ⟨hnoted, hspaced⟩ hcalls hsplit hresume
    have hothers : ∀ q ∈ before ++ after, q ∈ c.calls := by
      intro q hq
      rw [hsplit]
      rcases List.mem_append.1 hq with hq | hq
      · exact List.mem_append_left _ hq
      · exact List.mem_append_right _ (List.mem_cons_of_mem _ hq)
    rcases wake_cases hresume with ⟨rfl, rfl⟩ | ⟨kind, untilMs, observedAtMs, rfl, rfl, hnow, huntil, rfl, rfl⟩
    · exact ⟨⟨hnoted, hspaced⟩, fun _ _ => trivial, fun q hq => hcalls q (hothers q hq)⟩
    · have hself : ∀ completion ∈ c.shared.completed, Apart policy completion ⟨kind, untilMs⟩ :=
        hcalls (.sleeping kind untilMs) (hsplit ▸ List.mem_append_right _ List.mem_cons_self)
      have hnew := fun completion hm => (hself completion hm).later huntil
      refine ⟨⟨hnoted.complete hnow, hspaced.complete hnew⟩, fun _ _ => trivial, fun q hq => ?_⟩
      refine leavesRoom_complete (hcalls q (hothers q hq)) (hok _ (before ++ after) ?_ q hq)
      simp [letThrough, hsplit]

/-- A sleep that ends lets the interaction through. -/
theorem wake_woken_ne_rejected {point : Point} {observedAtMs : Int} {s' : State} :
    wake s point (.woken observedAtMs) ≠ some (s', .rejected) := by
  intro h
  cases point with
  | sleeping kind untilMs =>
    rw [wake] at h
    split at h <;> simp at h
  | resolved => cases h
  | rejected => cases h

theorem step_letThrough {c c' : Config State Point} {turn : Turn Call Answer} (hstep : (system policy).Step c turn c')
    {completion : Completion} {waiting : List Point} (h : letThrough policy c turn = some (completion, waiting)) :
    c'.shared = c.shared.complete completion.kind completion.atMs ∧ ∀ point ∈ waiting, point ∈ c'.calls := by
  cases takes_of_turn hstep with
  | call hstart =>
    rename_i call shared point
    rw [letThrough] at h
    split at h
    · cases h
    rename_i hthrough
    cases h
    obtain ⟨-, -, ⟨rfl, ⟨-, ha⟩ | ⟨-, hwait⟩⟩ | ⟨rfl, -⟩⟩ := beforeInteraction_cases hstart
    · exact absurd (.inl ha) hthrough
    · exact absurd (.inr hwait) hthrough
    · exact ⟨rfl, fun q hq => List.mem_append_left _ hq⟩
  | answer hsplit hresume =>
    rename_i before after point point' answer shared
    rcases wake_cases hresume with ⟨rfl, rfl⟩ | ⟨kind, untilMs, observedAtMs, rfl, rfl, -, -, rfl, rfl⟩
    · cases answer with
      | failed => cases h
      | woken observedAtMs => exact absurd hresume wake_woken_ne_rejected
    · simp only [letThrough, hsplit, List.getElem?_append_right (Nat.le_refl _), Nat.sub_self, List.getElem?_cons_zero,
        Option.some.injEq, Prod.mk.injEq] at h
      obtain ⟨rfl, rfl⟩ := h
      refine ⟨rfl, fun q hq => ?_⟩
      rw [List.take_left, List.drop_append, List.drop_of_length_le (Nat.le_succ _)] at hq
      simp at hq
      rcases hq with hq | hq
      · exact List.mem_append_left _ hq
      · exact List.mem_append_right _ (List.mem_cons_of_mem _ hq)

/-- A call that sleeps can wake at any time from its own on. -/
theorem step_wake {c : Config State Point} {kind : BrowserInteractionClass} {untilMs observedAtMs : Int}
    (hm : Point.sleeping kind untilMs ∈ c.calls) (hnow : c.shared.clock ≤ observedAtMs) (huntil : untilMs ≤ observedAtMs) :
    ∃ turn c', (system policy).Step c turn c' ∧ c'.shared = c.shared.complete kind observedAtMs := by
  obtain ⟨before, after, hsplit⟩ := List.append_of_mem hm
  refine ⟨.answer before.length (.woken observedAtMs),
    ⟨c.shared.complete kind observedAtMs, before ++ .resolved :: after⟩, ?_, rfl⟩
  show turn _ _ _ = _
  have hwake : wake c.shared (.sleeping kind untilMs) (.woken observedAtMs) =
      some (c.shared.complete kind observedAtMs, .resolved) := by
    rw [wake, if_neg (by omega)]
  simp [turn, governor, hsplit, hwake]

end Proofs

/-- **The spacing of interactions.** In a run in which every interaction that is let through leaves room for the calls that
sleep, any two interactions are far enough from each other. Where one does not, a sleeping call may break the spacing in the
very next turn. -/
theorem spaced_iff (policy : BrowserInteractionGovernorPolicy) :
    (∀ c, ((system policy).restrict (LeavesRoomForAll policy)).Reachable c → Spaced policy c.shared) ∧
    ∀ c turn c', (system policy).Step c turn c' → ¬LeavesRoomForAll policy c turn →
      ∃ next c'', (system policy).Step c' next c'' ∧ ¬Spaced policy c''.shared := by
  refine ⟨fun c h => (spaced_of_restricted h).1.2, fun c turn c' hstep hno => ?_⟩
  simp only [LeavesRoomForAll, not_forall] at hno
  obtain ⟨completion, waiting, hthrough, point, hpoint, hroom⟩ := hno
  obtain ⟨hshared, hwaiting⟩ := step_letThrough hstep hthrough
  cases point with
  | resolved => exact absurd trivial hroom
  | rejected => exact absurd trivial hroom
  | sleeping kind untilMs =>
    obtain ⟨next, c'', hnext, hshared'⟩ := @step_wake policy c' kind untilMs (max completion.atMs untilMs)
      (hwaiting _ hpoint) (by rw [hshared]; exact le_max_left _ _) (le_max_right _ _)
    refine ⟨next, c'', hnext, fun hspaced => hroom ?_⟩
    rw [hshared', hshared] at hspaced
    obtain ⟨-, -, hcross⟩ := List.pairwise_append.1 hspaced
    have hapart : Apart policy completion ⟨kind, max completion.atMs untilMs⟩ :=
      hcross completion (List.mem_append_right _ List.mem_cons_self) _ List.mem_cons_self
    -- the sleeping call is due only after the interaction, since the spacing is not zero
    have huntil : max completion.atMs untilMs = untilMs := by
      have hpos := @minSpacingMs_pos policy
      have hdue := hapart.1
      rcases max_choice completion.atMs untilMs with hmax | hmax
      · rw [hmax] at hdue
        exact absurd hdue (by show ¬(completion.atMs + policy.minSpacingMs ≤ completion.atMs); omega)
      · exact hmax
    rw [huntil] at hapart
    exact hapart

/-! ## Two calls that sleep at once -/

/-- The first interaction, and two calls that come right after it and wake when their time is up. -/
def twoSleepers : List (Turn Call Answer) :=
  [.call ⟨.generic, 1000, 1000, false⟩, .call ⟨.generic, 1000, 1000, false⟩, .call ⟨.generic, 1000, 1000, false⟩,
    .answer 1 (.woken 4000), .answer 2 (.woken 4000)]

/-- Twenty interactions a minute are three seconds apart, and two of them happen at once. -/
theorem wakes_together : ¬∀ policy c, (system policy).Reachable c → Spaced policy c.shared := by
  intro h
  have hrun : (TransitionSystem.execute (governor {}).turn ⟨⟨1, 0, fun _ => none, []⟩, []⟩ twoSleepers).map
      (·.shared.completed) = some [⟨.generic, 1000⟩, ⟨.generic, 4000⟩, ⟨.generic, 4000⟩] := by decide +kernel
  obtain ⟨c, hc, hcompleted⟩ := Option.map_eq_some_iff.1 hrun
  have hreach : (system {}).Reachable c :=
    TransitionSystem.reachable_execute (.init ⟨⟨by decide, rfl, rfl, rfl⟩, rfl⟩) hc
  have hspaced := h {} c hreach
  rw [Spaced, hcompleted] at hspaced
  have hpos := @minSpacingMs_pos {}
  have hlast := ((List.pairwise_cons.1 (List.pairwise_cons.1 hspaced).2).1 ⟨.generic, 4000⟩ List.mem_cons_self).1
  exact absurd hlast (by show ¬((4000 : Int) + _ ≤ 4000); omega)

end InteractionSpacing

end AuraCall.Traffic
