/-!
# Labelled transition systems

Runs, reachable states, and the two induction rules the protocols use: an invariant of every step holds of every
reachable state (`Reachable.invariant`), and a property that every step from a reachable state keeps is kept by every
run from a reachable state (`Run.stable`).

`T.restrict ok` has only the steps of `T` that meet `ok`; its reachable states are reachable in `T`
(`Reachable.of_restrict`). `T.keeping P` has the steps into states with `P` (`run_keeping_iff`). `T.clocked time` is `T` under a clock. `ofNext` is the system of a partial next-state
function, and `execute` runs a list of labels, so that a schedule can be evaluated (`reachable_execute`).
-/

universe u v

/-- Initial states and labelled steps. -/
structure TransitionSystem (σ : Type u) (α : Type v) where
  Init : σ → Prop
  Step : σ → α → σ → Prop

namespace TransitionSystem

variable {σ : Type u} {α : Type v}

/-- The states some run from an initial state ends in. -/
inductive Reachable (T : TransitionSystem σ α) : σ → Prop
  | init {s : σ} : T.Init s → T.Reachable s
  | step {s s' : σ} {a : α} : T.Reachable s → T.Step s a s' → T.Reachable s'

/-- A run between two states, with its labels. -/
inductive Run (T : TransitionSystem σ α) : σ → List α → σ → Prop
  | nil (s : σ) : T.Run s [] s
  | cons {s s' s'' : σ} {a : α} {as : List α} : T.Step s a s' → T.Run s' as s'' → T.Run s (a :: as) s''

variable {T : TransitionSystem σ α}

/-- **The invariant rule.** -/
theorem Reachable.invariant {I : σ → Prop} {s : σ} (h : T.Reachable s) (h0 : ∀ s, T.Init s → I s)
    (hs : ∀ s a s', T.Reachable s → I s → T.Step s a s' → I s') : I s := by
  induction h with
  | init h => exact h0 _ h
  | step hr ha ih => exact hs _ _ _ hr ih ha

theorem Run.reachable {s s' : σ} {as : List α} (h : T.Run s as s') (hr : T.Reachable s) : T.Reachable s' := by
  induction h with
  | nil => exact hr
  | cons ha _ ih => exact ih (hr.step ha)

/-- **The stability rule**: what every step from a reachable state keeps, every run from a reachable state keeps. -/
theorem Run.stable {P : σ → Prop} (hs : ∀ s a s', T.Reachable s → P s → T.Step s a s' → P s') {s s' : σ}
    {as : List α} (h : T.Run s as s') (hr : T.Reachable s) (hp : P s) : P s' := by
  induction h with
  | nil => exact hp
  | cons ha _ ih => exact ih (hr.step ha) (hs _ _ _ hr hp ha)

/-- The step is taken in a run with the labels from an initial state. -/
def Takes (T : TransitionSystem σ α) (as : List α) (s : σ) (a : α) (s' : σ) : Prop :=
  ∃ s₀ before after, T.Init s₀ ∧ as = before ++ a :: after ∧ T.Run s₀ before s ∧ T.Step s a s'

theorem Takes.reachable {as : List α} {s s' : σ} {a : α} (h : T.Takes as s a s') : T.Reachable s := by
  obtain ⟨_, _, _, h0, _, hr, _⟩ := h
  exact hr.reachable (.init h0)

theorem Takes.step {as : List α} {s s' : σ} {a : α} (h : T.Takes as s a s') : T.Step s a s' := by
  obtain ⟨_, _, _, _, _, _, hs⟩ := h
  exact hs

/-! ## Restricting the steps -/

/-- The steps of `T` that meet `ok`. -/
def restrict (T : TransitionSystem σ α) (ok : σ → α → Prop) : TransitionSystem σ α :=
  ⟨T.Init, fun s a s' => ok s a ∧ T.Step s a s'⟩

theorem Reachable.of_restrict {ok : σ → α → Prop} {s : σ} (h : (T.restrict ok).Reachable s) : T.Reachable s := by
  induction h with
  | init h => exact .init h
  | step _ ha ih => exact ih.step ha.2

/-- A restriction that every step meets. -/
theorem Reachable.restrict {ok : σ → α → Prop} {s : σ} (h : T.Reachable s) (hok : ∀ s a, ok s a) :
    (T.restrict ok).Reachable s := by
  induction h with
  | init h => exact .init h
  | step _ ha ih => exact ih.step ⟨hok _ _, ha⟩

/-- A run whose labels all meet the restriction. -/
theorem Run.restrict {ok : σ → α → Prop} {s s' : σ} {as : List α} (h : T.Run s as s') (hok : ∀ a ∈ as, ∀ s, ok s a) :
    (T.restrict ok).Run s as s' := by
  induction h with
  | nil s => exact .nil s
  | cons ha _ ih =>
    exact .cons ⟨hok _ List.mem_cons_self _, ha⟩ (ih fun a hm => hok a (List.mem_cons_of_mem _ hm))

/-- The steps of `T` into states with `P`. -/
def keeping (T : TransitionSystem σ α) (P : σ → Prop) : TransitionSystem σ α :=
  ⟨T.Init, fun s a s' => T.Step s a s' ∧ P s'⟩

/-- **The exactness rule**: when the steps that keep `P` are those that meet the restriction, the runs with `P` in every
state are those of the restricted system. -/
theorem run_keeping_iff {ok : σ → α → Prop} {P : σ → Prop}
    (hexact : ∀ s a s', T.Reachable s → P s → T.Step s a s' → (P s' ↔ ok s a)) {s s' : σ} {as : List α}
    (hr : T.Reachable s) (hp : P s) : (T.keeping P).Run s as s' ↔ (T.restrict ok).Run s as s' := by
  constructor
  · intro h
    induction h with
    | nil => exact .nil _
    | cons ha _ ih => exact .cons ⟨(hexact _ _ _ hr hp ha.1).1 ha.2, ha.1⟩ (ih (hr.step ha.1) ha.2)
  · intro h
    induction h with
    | nil => exact .nil _
    | cons ha _ ih =>
      have hp' := (hexact _ _ _ hr hp ha.2).2 ha.1
      exact .cons ⟨ha.2, hp'⟩ (ih (hr.step ha.2) hp')

/-! ## A clock -/

/-- `T` under a clock that never goes back. A label that reports a time sets the clock to it. -/
def clocked (T : TransitionSystem σ α) (time : α → Option Int) : TransitionSystem (Int × σ) α where
  Init s := T.Init s.2
  Step s a s' := s.1 ≤ s'.1 ∧ (∀ t, time a = some t → s'.1 = t) ∧ T.Step s.2 a s'.2

/-! ## Next-state functions -/

/-- The system of a partial next-state function. -/
def ofNext (Init : σ → Prop) (next : σ → α → Option σ) : TransitionSystem σ α :=
  ⟨Init, fun s a s' => next s a = some s'⟩

/-- Take the steps of a list of labels. -/
def execute (next : σ → α → Option σ) : σ → List α → Option σ
  | s, [] => some s
  | s, a :: as => (next s a).bind (execute next · as)

theorem run_foldl {Init : σ → Prop} {step : σ → α → σ} : ∀ (as : List α) (s : σ),
    (ofNext Init fun s a => some (step s a)).Run s as (as.foldl step s)
  | [], s => .nil s
  | _ :: as, _ => .cons rfl (run_foldl as _)

theorem run_execute {Init : σ → Prop} {next : σ → α → Option σ} : ∀ {as : List α} {s s' : σ},
    execute next s as = some s' → (ofNext Init next).Run s as s'
  | [], s, _, h => by cases h; exact .nil s
  | a :: as, s, s', h => by
    cases hn : next s a with
    | none => simp [execute, hn] at h
    | some t =>
      simp only [execute, hn, Option.bind_some] at h
      exact .cons hn (run_execute h)

theorem reachable_execute {Init : σ → Prop} {next : σ → α → Option σ} {as : List α} {s s' : σ}
    (hr : (ofNext Init next).Reachable s) (h : execute next s as = some s') : (ofNext Init next).Reachable s' :=
  (run_execute h).reachable hr

theorem reachable_get {Init : σ → Prop} {next : σ → α → Option σ} {as : List α} {s : σ}
    (hr : (ofNext Init next).Reachable s) (h : (execute next s as).isSome = true) :
    (ofNext Init next).Reachable ((execute next s as).get h) := reachable_execute hr (Option.some_get h).symm

/-- A schedule whose steps all pass a check of the restriction is a run of the restricted system. -/
theorem reachable_execute_where {Init : σ → Prop} {next : σ → α → Option σ} {ok : σ → α → Prop} {check : σ → α → Bool}
    (hok : ∀ s a, check s a = true → ok s a) : ∀ {as : List α} {s s' : σ}, ((ofNext Init next).restrict ok).Reachable s →
      execute (fun s a => if check s a then next s a else none) s as = some s' →
      ((ofNext Init next).restrict ok).Reachable s'
  | [], _, _, hr, h => by cases h; exact hr
  | a :: as, s, s', hr, h => by
    cases hn : (if check s a then next s a else none) with
    | none => simp [execute, hn] at h
    | some t =>
      simp only [execute, hn, Option.bind_some] at h
      obtain ⟨hc, ht⟩ := Option.ite_none_right_eq_some.mp hn
      exact reachable_execute_where hok (hr.step ⟨hok s a hc, ht⟩) h

end TransitionSystem
