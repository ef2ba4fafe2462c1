import Mathlib.Logic.Function.Basic
import AuraCall.Lib.Transition

/-!
# Programs over a store with revisions

A store holds one value and its revision. A program reads it and writes it, each write with the revision it expects to
replace. Any number of programs share one store.

- `atomic`: a write compares the revision and replaces the value in one step.
- `interleaved`: a write first compares the revision and puts the new value in place in a later step. Where no other
  write falls between the two, this is `atomic` (`Reachable.atomic`).
- `Program.Reports`: programs that report what they have written report different revisions (`reporting_of_reachable`).
- `Program.Keeps`: a property of the values that every program keeps holds of every stored value, in `interleaved`
  (`keeps_of_reachable`).
- `Program.Ensures`: rely and guarantee. What a program has last seen of the store is `s`; the others change the store
  within its rely, and it changes the store within its guarantee (`sound_of_reachable`).

A call of a program has a point, which the relies and guarantees may speak of.
-/

namespace RevisionedStore

/-! ## Stores and programs -/

/-- A stored value with its revision. -/
structure Stored (σ : Type) where
  revision : Nat
  value : σ

/-- What the store holds. -/
abbrev Contents (σ : Type) := Option (Stored σ)

variable {τ σ ε α β ι : Type}

def revisionOf : Contents σ → Nat
  | none => 0
  | some stored => stored.revision

/-- What a write stores, or the revision it has found instead of the expected one. -/
def attempt (expected : Option Nat) (value : σ) (s : Contents σ) : Except Nat (Stored σ) :=
  if expected.all (· == revisionOf s) then .ok ⟨revisionOf s + 1, value⟩ else .error (revisionOf s)

theorem attempt_eq_ok {expected : Option Nat} {value : σ} {s : Contents σ} {stored : Stored σ}
    (h : attempt expected value s = .ok stored) :
    (∀ r, expected = some r → revisionOf s = r) ∧ stored = ⟨revisionOf s + 1, value⟩ := by
  unfold attempt at h
  split at h
  case isTrue he =>
    refine ⟨fun r hr => ?_, by simpa using h.symm⟩
    subst hr
    simpa using (beq_iff_eq.mp (by simpa using he)).symm
  case isFalse => cases h

theorem attempt_revisionOf {expected : Option Nat} {value : σ} {s : Contents σ}
    (h : ∀ r, expected = some r → revisionOf s = r) : attempt expected value s = .ok ⟨revisionOf s + 1, value⟩ := by
  unfold attempt
  cases expected with
  | none => rfl
  | some r => simp [h r rfl]

/-- A program: a result, or a call at a point and what follows for each answer. -/
inductive Program (τ σ ε α : Type)
  | done (result : Except ε α)
  | read (point : τ) (next : Contents σ → Program τ σ ε α)
  | write (point : τ) (expected : Option Nat) (value : σ) (next : Except Nat (Stored σ) → Program τ σ ε α)

namespace Program

/-- The point of the call the program is at. -/
def point : Program τ σ ε α → Option τ
  | done _ => none
  | read p _ => some p
  | write p _ _ _ => some p

def bind : Program τ σ ε α → (α → Program τ σ ε β) → Program τ σ ε β
  | done (.ok a), f => f a
  | done (.error e), _ => done (.error e)
  | read p next, f => read p fun s => (next s).bind f
  | write p expected value next, f => write p expected value fun r => (next r).bind f

/-- `try … catch`. -/
def orElse : Program τ σ ε α → (ε → Program τ σ ε α) → Program τ σ ε α
  | done (.ok a), _ => done (.ok a)
  | done (.error e), handler => handler e
  | read p next, handler => read p fun s => (next s).orElse handler
  | write p expected value next, handler => write p expected value fun r => (next r).orElse handler

/-- Run a program to its result, an error included. -/
def outcome : Program τ σ ε α → Program τ σ ε (Except ε α)
  | done result => done (.ok result)
  | read p next => read p fun s => (next s).outcome
  | write p expected value next => write p expected value fun r => (next r).outcome

instance : Monad (Program τ σ ε) where
  pure a := done (.ok a)
  bind := bind

def throw (e : ε) : Program τ σ ε α := done (.error e)

def ofExcept (x : Except ε α) : Program τ σ ε α := done x

def readAt (p : τ) : Program τ σ ε (Contents σ) := read p fun s => done (.ok s)

def writeAt (p : τ) (expected : Option Nat) (value : σ) : Program τ σ ε (Except Nat (Stored σ)) :=
  write p expected value fun r => done (.ok r)

end Program

/-! ## Configurations -/

/-- The store and the programs that share it. -/
structure Config (ι τ σ ε α : Type) where
  contents : Contents σ
  program : ι → Program τ σ ε α

section Calls

variable [DecidableEq ι]

def Config.set (c : Config ι τ σ ε α) (i : ι) (p : Program τ σ ε α) : Config ι τ σ ε α :=
  { c with program := Function.update c.program i p }

@[simp] theorem Config.set_contents (c : Config ι τ σ ε α) (i : ι) (p : Program τ σ ε α) :
    (c.set i p).contents = c.contents := rfl

@[simp] theorem Config.set_self (c : Config ι τ σ ε α) (i : ι) (p : Program τ σ ε α) : (c.set i p).program i = p := by
  simp [Config.set]

theorem Config.set_ne (c : Config ι τ σ ε α) {i j : ι} (p : Program τ σ ε α) (h : j ≠ i) :
    (c.set i p).program j = c.program j := by simp [Config.set, h]

/-- What the call of a program would store. -/
def Config.commits (c : Config ι τ σ ε α) (i : ι) : Option (Stored σ) :=
  match c.program i with
  | .write _ expected value _ => (attempt expected value c.contents).toOption
  | _ => none

/-- One call of a program, in one step. -/
def Config.call (c : Config ι τ σ ε α) (i : ι) : Option (Config ι τ σ ε α) :=
  match c.program i with
  | .done _ => none
  | .read _ next => some (c.set i (next c.contents))
  | .write _ expected value next => match attempt expected value c.contents with
    | .error found => some (c.set i (next (.error found)))
    | .ok stored => some ({ c with contents := some stored }.set i (next (.ok stored)))

/-- The programs with atomic writes, from a configuration. -/
def atomic (c₀ : Config ι τ σ ε α) : TransitionSystem (Config ι τ σ ε α) ι := .ofNext (· = c₀) Config.call

/-- What a call does: it reads, its write is refused, or its write is stored. -/
theorem Config.call_cases {c c' : Config ι τ σ ε α} {i : ι} (h : c.call i = some c') :
    (∃ p next, c.program i = .read p next ∧ c' = c.set i (next c.contents)) ∨
    (∃ p expected value next found, c.program i = .write p expected value next ∧
      attempt expected value c.contents = .error found ∧ c' = c.set i (next (.error found))) ∨
    (∃ p expected value next stored, c.program i = .write p expected value next ∧
      attempt expected value c.contents = .ok stored ∧
      c' = { c with contents := some stored }.set i (next (.ok stored))) := by
  unfold Config.call at h
  cases hp : c.program i with
  | done result => simp [hp] at h
  | read p next =>
    simp only [hp, Option.some.injEq] at h
    exact .inl ⟨p, next, rfl, h.symm⟩
  | write p expected value next =>
    cases ha : attempt expected value c.contents with
    | error found =>
      simp only [hp, ha, Option.some.injEq] at h
      exact .inr (.inl ⟨p, expected, value, next, found, rfl, ha, h.symm⟩)
    | ok stored =>
      simp only [hp, ha, Option.some.injEq] at h
      exact .inr (.inr ⟨p, expected, value, next, stored, rfl, ha, h.symm⟩)

theorem Config.call_ne {c c' : Config ι τ σ ε α} {i j : ι} (h : c.call i = some c') (hj : j ≠ i) :
    c'.program j = c.program j := by
  rcases call_cases h with ⟨_, _, _, rfl⟩ | ⟨_, _, _, _, _, _, _, rfl⟩ | ⟨_, _, _, _, _, _, _, rfl⟩ <;>
    exact c.set_ne _ hj

omit [DecidableEq ι] in
theorem Config.commits_write {c : Config ι τ σ ε α} {i : ι} {p : τ} {expected : Option Nat} {value : σ}
    {next : Except Nat (Stored σ) → Program τ σ ε α} {stored : Stored σ} (hp : c.program i = .write p expected value next)
    (ha : attempt expected value c.contents = .ok stored) : c.commits i = some stored := by
  simp [Config.commits, hp, ha, Except.toOption]

/-! ## Writes in two steps -/

/-- A configuration with the writes that have compared the revision and not stored their value. -/
structure Interleaving (ι τ σ ε α : Type) extends Config ι τ σ ε α where
  checked : ι → Option (Stored σ)

/-- One step of a program: a read, the comparison of a write, or its replacement of the value. -/
def Interleaving.call (s : Interleaving ι τ σ ε α) (i : ι) : Option (Interleaving ι τ σ ε α) :=
  match s.checked i, s.program i with
  | some stored, .write _ _ _ next =>
    some ⟨{ s.toConfig with contents := some stored }.set i (next (.ok stored)), Function.update s.checked i none⟩
  | none, .write _ expected value next => match attempt expected value s.contents with
    | .error found => some { s with toConfig := s.toConfig.set i (next (.error found)) }
    | .ok stored => some { s with checked := Function.update s.checked i (some stored) }
  | none, .read _ next => some { s with toConfig := s.toConfig.set i (next s.contents) }
  | _, _ => none

/-- The programs with writes in two steps, from a configuration. -/
def interleaved (c₀ : Config ι τ σ ε α) : TransitionSystem (Interleaving ι τ σ ε α) ι :=
  .ofNext (· = ⟨c₀, fun _ => none⟩) Interleaving.call

/-- A write that replaces the value replaces the revision it has compared. -/
def Uninterrupted (s : Interleaving ι τ σ ε α) (i : ι) : Prop :=
  ∀ stored, s.checked i = some stored → revisionOf s.contents + 1 = stored.revision

/-- A checked write is the call its program is at. -/
def Interleaving.Pending (s : Interleaving ι τ σ ε α) : Prop :=
  ∀ i stored, s.checked i = some stored → ∃ p expected value next, s.program i = .write p expected value next ∧
    stored.value = value ∧ ∀ r, expected = some r → r + 1 = stored.revision

/-- What a step does: it reads, its write is refused, its write is checked, or its write is stored. -/
theorem Interleaving.call_cases {s s' : Interleaving ι τ σ ε α} {i : ι} (h : s.call i = some s') :
    (∃ p next, s.checked i = none ∧ s.program i = .read p next ∧
      s' = { s with toConfig := s.toConfig.set i (next s.contents) }) ∨
    (∃ p expected value next found, s.checked i = none ∧ s.program i = .write p expected value next ∧
      attempt expected value s.contents = .error found ∧
      s' = { s with toConfig := s.toConfig.set i (next (.error found)) }) ∨
    (∃ p expected value next stored, s.checked i = none ∧ s.program i = .write p expected value next ∧
      attempt expected value s.contents = .ok stored ∧
      s' = { s with checked := Function.update s.checked i (some stored) }) ∨
    (∃ p expected value next stored, s.checked i = some stored ∧ s.program i = .write p expected value next ∧
      s' = ⟨{ s.toConfig with contents := some stored }.set i (next (.ok stored)),
        Function.update s.checked i none⟩) := by
  unfold Interleaving.call at h
  cases hc : s.checked i with
  | none =>
    cases hp : s.program i with
    | done result => simp [hc, hp] at h
    | read p next =>
      simp only [hc, hp, Option.some.injEq] at h
      exact .inl ⟨p, next, rfl, rfl, h.symm⟩
    | write p expected value next =>
      cases ha : attempt expected value s.contents with
      | error found =>
        simp only [hc, hp, ha, Option.some.injEq] at h
        exact .inr (.inl ⟨p, expected, value, next, found, rfl, rfl, ha, h.symm⟩)
      | ok stored =>
        simp only [hc, hp, ha, Option.some.injEq] at h
        exact .inr (.inr (.inl ⟨p, expected, value, next, stored, rfl, rfl, ha, h.symm⟩))
  | some stored =>
    cases hp : s.program i with
    | done result => simp [hc, hp] at h
    | read p next => simp [hc, hp] at h
    | write p expected value next =>
      simp only [hc, hp, Option.some.injEq] at h
      exact .inr (.inr (.inr ⟨p, expected, value, next, stored, rfl, rfl, h.symm⟩))

theorem pending_of_reachable {c₀ : Config ι τ σ ε α} {s : Interleaving ι τ σ ε α} (h : (interleaved c₀).Reachable s) :
    s.Pending := by
  refine h.invariant ?_ ?_
  · rintro s rfl i stored hc
    cases hc
  · rintro s i s' - hs ha j stored hc
    rcases Interleaving.call_cases ha with ⟨p, next, hn, hp, rfl⟩ | ⟨p, expected, value, next, found, hn, hp, _, rfl⟩ |
      ⟨p, expected, value, next, stored', hn, hp, hw, rfl⟩ | ⟨p, expected, value, next, stored', hn, hp, rfl⟩
    · have hj : j ≠ i := fun e => by simp [e, hn] at hc
      simpa [Config.set_ne _ _ hj] using hs j stored hc
    · have hj : j ≠ i := fun e => by simp [e, hn] at hc
      simpa [Config.set_ne _ _ hj] using hs j stored hc
    · by_cases hj : j = i
      · subst hj
        obtain rfl : stored' = stored := by simpa using hc
        obtain ⟨he, rfl⟩ := attempt_eq_ok hw
        exact ⟨p, expected, value, next, hp, rfl, fun r hr => by rw [he r hr]⟩
      · exact hs j stored (by simpa [hj] using hc)
    · have hj : j ≠ i := fun e => by simp [e] at hc
      simpa [Config.set_ne _ _ hj] using hs j stored (by simpa [hj] using hc)

omit [DecidableEq ι] in
/-- An uninterrupted write stores what the call of its program would store. -/
theorem Interleaving.Pending.attempt {s : Interleaving ι τ σ ε α} (h : s.Pending) {i : ι} {stored : Stored σ}
    (hc : s.checked i = some stored) (hu : Uninterrupted s i) :
    ∃ p expected value next, s.program i = .write p expected value next ∧
      RevisionedStore.attempt expected value s.contents = .ok stored := by
  obtain ⟨p, expected, value, next, hp, hv, he⟩ := h i stored hc
  have hrev := hu stored hc
  refine ⟨p, expected, value, next, hp, ?_⟩
  rw [attempt_revisionOf fun r hr => by have := he r hr; omega]
  subst hv
  rw [hrev]

/-- **Uninterrupted writes are atomic writes**, of the steps that meet a condition on what is stored. -/
theorem Reachable.atomic {c₀ : Config ι τ σ ε α} {ok : Config ι τ σ ε α → ι → Prop}
    (hok : ∀ c i, c.commits i = none → ok c i) {s : Interleaving ι τ σ ε α}
    (h : ((interleaved c₀).restrict fun s i => Uninterrupted s i ∧ (s.checked i ≠ none → ok s.toConfig i)).Reachable s) :
    ((RevisionedStore.atomic c₀).restrict ok).Reachable s.toConfig := by
  refine h.invariant (I := fun s => ((RevisionedStore.atomic c₀).restrict ok).Reachable s.toConfig) ?_ ?_
  · rintro s rfl
    exact .init rfl
  · rintro s i s' hr ih ⟨⟨hu, ho⟩, ha⟩
    rcases Interleaving.call_cases ha with ⟨p, next, hn, hp, rfl⟩ | ⟨p, expected, value, next, found, hn, hp, hw, rfl⟩ |
      ⟨p, expected, value, next, stored, hn, hp, hw, rfl⟩ | ⟨p, expected, value, next, stored, hn, hp, rfl⟩
    · refine ih.step ⟨hok _ i (by simp [Config.commits, hp]), ?_⟩
      show Config.call s.toConfig i = _
      simp [Config.call, hp]
    · refine ih.step ⟨hok _ i (by simp [Config.commits, hp, hw, Except.toOption]), ?_⟩
      show Config.call s.toConfig i = _
      simp [Config.call, hp, hw]
    · exact ih
    · obtain ⟨p', expected', value', next', hp', hw⟩ := (pending_of_reachable hr.of_restrict).attempt hn hu
      rw [hp] at hp'
      cases hp'
      refine ih.step ⟨ho (by simp [hn]), ?_⟩
      show Config.call s.toConfig i = _
      simp [Config.call, hp, hw]

theorem Reachable.atomic_of_uninterrupted {c₀ : Config ι τ σ ε α} {s : Interleaving ι τ σ ε α}
    (h : ((interleaved c₀).restrict Uninterrupted).Reachable s) : (RevisionedStore.atomic c₀).Reachable s.toConfig := by
  have hr : ((interleaved c₀).restrict fun s i => Uninterrupted s i ∧ (s.checked i ≠ none → True)).Reachable s := by
    induction h with
    | init h => exact .init h
    | step _ ha ih => exact ih.step ⟨⟨ha.1, fun _ => trivial⟩, ha.2⟩
  exact (Reachable.atomic (fun _ _ _ => trivial) hr).of_restrict

/-- Atomic writes are writes in two steps, one after the other. -/
theorem Reachable.interleaved {c₀ c : Config ι τ σ ε α} (h : (RevisionedStore.atomic c₀).Reachable c) :
    (RevisionedStore.interleaved c₀).Reachable ⟨c, fun _ => none⟩ := by
  refine h.invariant (I := fun c => (RevisionedStore.interleaved c₀).Reachable ⟨c, fun _ => none⟩) ?_ ?_
  · rintro c rfl
    exact .init rfl
  · intro c i c' _ ih ha
    rcases Config.call_cases ha with ⟨p, next, hp, rfl⟩ | ⟨p, expected, value, next, found, hp, hw, rfl⟩ |
      ⟨p, expected, value, next, stored, hp, hw, rfl⟩
    · refine ih.step (a := i) ?_
      show Interleaving.call _ i = _
      simp [Interleaving.call, hp]
    · refine ih.step (a := i) ?_
      show Interleaving.call _ i = _
      simp [Interleaving.call, hp, hw]
    · have hchecked : (RevisionedStore.interleaved c₀).Reachable
          ⟨c, Function.update (fun _ => none) i (some stored)⟩ := by
        refine ih.step (a := i) ?_
        show Interleaving.call _ i = _
        simp [Interleaving.call, hp, hw]
      refine hchecked.step (a := i) ?_
      show Interleaving.call _ i = _
      simp [Interleaving.call, hp]

end Calls

/-! ## What programs report -/

/-- A program that reports what it has written, as soon as it has written it, and reports nothing else. -/
def Program.Reports (report : Stored σ → α) : Program τ σ ε α → Prop
  | done result => ∃ e, result = .error e
  | read _ next => ∀ s, (next s).Reports report
  | write _ _ _ next =>
    (∀ found, (next (.error found)).Reports report) ∧ ∀ stored, next (.ok stored) = done (.ok (report stored))

section Reports

variable [DecidableEq ι] {report : Stored σ → α} {reports : ι → Prop}

/-- The programs that report their writes have reported different revisions. -/
structure Reporting (report : Stored σ → α) (reports : ι → Prop) (c : Config ι τ σ ε α) : Prop where
  program : ∀ i, reports i → (c.program i).Reports report ∨
    ∃ stored, c.program i = .done (.ok (report stored)) ∧ stored.revision ≤ revisionOf c.contents
  distinct : ∀ i j a b, reports i → reports j → i ≠ j → c.program i = .done (.ok (report a)) →
    c.program j = .done (.ok (report b)) → a.revision ≠ b.revision

omit [DecidableEq ι] in
/-- A program that has reported a write is done with a revision that has been stored. -/
theorem Reporting.revision_le (hinj : Function.Injective report) {c : Config ι τ σ ε α} (h : Reporting report reports c)
    {i : ι} (hi : reports i) {stored : Stored σ} (hp : c.program i = .done (.ok (report stored))) :
    stored.revision ≤ revisionOf c.contents := by
  rcases h.program i hi with hr | ⟨stored', hp', hle⟩
  · rw [hp] at hr
    obtain ⟨e, he⟩ := hr
    cases he
  · rw [hp] at hp'
    simp only [Program.done.injEq, Except.ok.injEq] at hp'
    exact hinj hp' ▸ hle

/-- A program that goes on without a write has reported nothing. -/
theorem Reporting.set {c : Config ι τ σ ε α} (h : Reporting report reports c) {i : ι} {p : Program τ σ ε α}
    (hp : reports i → p.Reports report) : Reporting report reports (c.set i p) := by
  have hne : ∀ j a, reports j → (c.set i p).program j = .done (.ok (report a)) →
      c.program j = .done (.ok (report a)) := by
    intro j a hj hd
    by_cases hji : j = i
    · subst hji
      rw [Config.set_self] at hd
      obtain ⟨e, he⟩ := hd ▸ hp hj
      cases he
    · rwa [Config.set_ne _ _ hji] at hd
  refine ⟨fun j hj => ?_, fun j k a b hj hk hjk ha hb => ?_⟩
  · by_cases hji : j = i
    · subst hji
      exact .inl (by simpa using hp hj)
    · simpa [Config.set_ne _ _ hji] using h.program j hj
  · exact h.distinct j k a b hj hk hjk (hne j a hj ha) (hne k b hk hb)

/-- A program that reports its write reports a revision above every revision reported before. -/
theorem Reporting.write (hinj : Function.Injective report) {c : Config ι τ σ ε α} (h : Reporting report reports c)
    {i : ι} {p : Program τ σ ε α} {stored : Stored σ} (hrev : stored.revision = revisionOf c.contents + 1)
    (hp : reports i → p = .done (.ok (report stored))) :
    Reporting report reports ({ c with contents := some stored }.set i p) := by
  have hnew : ∀ j a b, reports i → reports j → c.program j = .done (.ok (report a)) →
      p = .done (.ok (report b)) → a.revision < b.revision := by
    intro j a b hr hj hd hb
    rw [hp hr] at hb
    simp only [Program.done.injEq, Except.ok.injEq] at hb
    obtain rfl := hinj hb
    have := h.revision_le hinj hj hd
    omega
  refine ⟨fun j hj => ?_, fun j k a b hj hk hjk hda hdb => ?_⟩
  · by_cases hji : j = i
    · subst hji
      exact .inr ⟨stored, by simpa using hp hj, Nat.le_refl _⟩
    · rw [Config.set_ne _ _ hji]
      rcases h.program j hj with hq | ⟨stored', hd, hle⟩
      · exact .inl hq
      · refine .inr ⟨stored', hd, ?_⟩
        show stored'.revision ≤ stored.revision
        omega
  · by_cases hji : j = i
    · subst hji
      rw [Config.set_self] at hda
      rw [Config.set_ne _ _ (Ne.symm hjk)] at hdb
      have := hnew k b a hj hk hdb hda
      omega
    · rw [Config.set_ne _ _ hji] at hda
      by_cases hki : k = i
      · subst hki
        rw [Config.set_self] at hdb
        have := hnew j a b hk hj hda hdb
        omega
      · rw [Config.set_ne _ _ hki] at hdb
        exact h.distinct j k a b hj hk hjk hda hdb

theorem Reporting.step (hinj : Function.Injective report) {c c' : Config ι τ σ ε α} {i : ι}
    (h : Reporting report reports c) (ha : c.call i = some c') : Reporting report reports c' := by
  have hi := h.program i
  rcases Config.call_cases ha with ⟨p, next, hp, rfl⟩ | ⟨p, expected, value, next, found, hp, hw, rfl⟩ |
    ⟨p, expected, value, next, stored, hp, hw, rfl⟩
  · refine h.set fun hr => ?_
    rcases hi hr with hi | ⟨_, hd, -⟩
    · rw [hp] at hi
      exact hi _
    · simp [hp] at hd
  · refine h.set fun hr => ?_
    rcases hi hr with hi | ⟨_, hd, -⟩
    · rw [hp] at hi
      exact hi.1 _
    · simp [hp] at hd
  · have hrev : stored.revision = revisionOf c.contents + 1 := by rw [(attempt_eq_ok hw).2]
    refine h.write hinj hrev fun hr => ?_
    rcases hi hr with hi | ⟨_, hd, -⟩
    · rw [hp] at hi
      exact hi.2 _
    · simp [hp] at hd

/-- **Programs that report their writes report different revisions**, where writes are atomic. -/
theorem reporting_of_reachable (hinj : Function.Injective report) {c₀ : Config ι τ σ ε α}
    (h0 : ∀ i, reports i → (c₀.program i).Reports report) {c : Config ι τ σ ε α} (h : (atomic c₀).Reachable c) :
    Reporting report reports c := by
  refine h.invariant ?_ fun _ _ _ _ hc ha => hc.step hinj ha
  rintro c rfl
  refine ⟨fun i hi => .inl (h0 i hi), fun i j a b hi _ _ ha _ => ?_⟩
  obtain ⟨e, he⟩ := ha ▸ h0 i hi
  cases he

end Reports

/-! ## Values every program keeps -/

namespace Program

/-- Given values with `I` the program writes values with `I`, and its result has `Q`. -/
def Keeps (I : σ → Prop) (Q : Except ε α → Prop) : Program τ σ ε α → Prop
  | done result => Q result
  | read _ next => ∀ s : Contents σ, (∀ stored ∈ s, I stored.value) → (next s).Keeps I Q
  | write _ _ value next => I value ∧
      ∀ r : Except Nat (Stored σ), (∀ stored, r = .ok stored → I stored.value) → (next r).Keeps I Q

variable {I : σ → Prop}

theorem Keeps.mono {Q Q' : Except ε α → Prop} (hQ : ∀ r, Q r → Q' r) : ∀ {p : Program τ σ ε α}, p.Keeps I Q → p.Keeps I Q'
  | done _, h => hQ _ h
  | read _ _, h => fun s hs => (h s hs).mono hQ
  | write _ _ _ _, h => ⟨h.1, fun r hr => (h.2 r hr).mono hQ⟩

/-- **Keeping, in sequence.** -/
theorem Keeps.bind {Q : Except ε α → Prop} {Q' : Except ε β → Prop} {f : α → Program τ σ ε β}
    (hf : ∀ a, Q (.ok a) → (f a).Keeps I Q') (he : ∀ e, Q (.error e) → Q' (.error e)) :
    ∀ {p : Program τ σ ε α}, p.Keeps I Q → (p >>= f).Keeps I Q'
  | done (.ok _), h => hf _ h
  | done (.error _), h => he _ h
  | read _ _, h => fun s hs => Keeps.bind hf he (h s hs)
  | write _ _ _ _, h => ⟨h.1, fun r hr => Keeps.bind hf he (h.2 r hr)⟩

theorem Keeps.orElse {Q Q' : Except ε α → Prop} {handler : ε → Program τ σ ε α}
    (hh : ∀ e, Q (.error e) → (handler e).Keeps I Q') (ho : ∀ a, Q (.ok a) → Q' (.ok a)) :
    ∀ {p : Program τ σ ε α}, p.Keeps I Q → (p.orElse handler).Keeps I Q'
  | done (.ok _), h => ho _ h
  | done (.error _), h => hh _ h
  | read _ _, h => fun s hs => Keeps.orElse hh ho (h s hs)
  | write _ _ _ _, h => ⟨h.1, fun r hr => Keeps.orElse hh ho (h.2 r hr)⟩

theorem Keeps.outcome {Q : Except ε α → Prop} : ∀ {p : Program τ σ ε α}, p.Keeps I Q →
    p.outcome.Keeps I fun r => ∃ x, r = .ok x ∧ Q x
  | done _, h => ⟨_, rfl, h⟩
  | read _ _, h => fun s hs => (h s hs).outcome
  | write _ _ _ _, h => ⟨h.1, fun r hr => (h.2 r hr).outcome⟩

end Program

section Values

variable [DecidableEq ι] {I : σ → Prop} {Q : ι → Except ε α → Prop}

/-- What every step of the programs keeps: the values stored or to be stored have `I`. -/
structure Kept (I : σ → Prop) (Q : ι → Except ε α → Prop) (s : Interleaving ι τ σ ε α) : Prop where
  contents : ∀ stored ∈ s.contents, I stored.value
  checked : ∀ i stored, s.checked i = some stored → I stored.value
  program : ∀ i, (s.program i).Keeps I (Q i)

theorem Kept.step {s s' : Interleaving ι τ σ ε α} {i : ι} (h : Kept I Q s) (ha : s.call i = some s') : Kept I Q s' := by
  have hne : ∀ {c : Config ι τ σ ε α} {p : Program τ σ ε α}, c.program = s.program → p.Keeps I (Q i) →
      ∀ j, ((c.set i p).program j).Keeps I (Q j) := by
    intro c p hc hp j
    by_cases hj : j = i
    · subst hj; simpa using hp
    · rw [Config.set_ne _ _ hj, hc]; exact h.program j
  have hi := h.program i
  rcases Interleaving.call_cases ha with ⟨p, next, hn, hp, rfl⟩ | ⟨p, expected, value, next, found, hn, hp, hw, rfl⟩ |
    ⟨p, expected, value, next, stored, hn, hp, hw, rfl⟩ | ⟨p, expected, value, next, stored, hn, hp, rfl⟩
  · rw [hp] at hi
    exact ⟨h.contents, h.checked, hne rfl (hi _ h.contents)⟩
  · rw [hp] at hi
    exact ⟨h.contents, h.checked, hne rfl (hi.2 _ fun _ he => by cases he)⟩
  · rw [hp] at hi
    refine ⟨h.contents, fun j stored' hj => ?_, h.program⟩
    by_cases hji : j = i
    · obtain rfl : stored = stored' := by simpa [hji] using hj
      rw [(attempt_eq_ok hw).2]
      exact hi.1
    · exact h.checked j stored' (by simpa [hji] using hj)
  · rw [hp] at hi
    have hs := h.checked i stored hn
    refine ⟨fun stored' hm => ?_, fun j stored' hj => ?_, hne rfl (hi.2 _ fun _ he => by cases he; exact hs)⟩
    · obtain rfl : stored = stored' := by simpa using hm
      exact hs
    · by_cases hji : j = i
      · simp [hji] at hj
      · exact h.checked j stored' (by simpa [hji] using hj)

/-- **The values every program keeps are all that is ever stored**, however the writes interleave. -/
theorem keeps_of_reachable {c₀ : Config ι τ σ ε α} (h0 : ∀ stored ∈ c₀.contents, I stored.value)
    (hp : ∀ i, (c₀.program i).Keeps I (Q i)) {s : Interleaving ι τ σ ε α} (h : (interleaved c₀).Reachable s) :
    Kept I Q s := by
  refine h.invariant ?_ fun _ _ _ _ hs ha => hs.step ha
  rintro s rfl
  refine ⟨h0, ?_, hp⟩
  intro i stored hc
  cases hc

end Values

/-! ## Rely and guarantee -/

/-- How the others may change the store while a program is at a point. -/
structure Rely (τ σ : Type) where
  holds : τ → Contents σ → Contents σ → Prop
  refl : ∀ p s, holds p s s
  trans : ∀ {p s s' s''}, holds p s s' → holds p s' s'' → holds p s s''

namespace Program

variable {R : Rely τ σ} {G G' : τ → Contents σ → Contents σ → Prop}

/-- From the contents last seen, under the rely, the program's writes are within the guarantee and its result has `Q`
with the contents it has seen last. -/
def Ensures (R : Rely τ σ) (G : τ → Contents σ → Contents σ → Prop) (Q : Except ε α → Contents σ → Prop) :
    Program τ σ ε α → Contents σ → Prop
  | done result, s => Q result s
  | read p next, s => ∀ s', R.holds p s s' → (next s').Ensures R G Q s'
  | write p expected value next, s => ∀ s', R.holds p s s' →
      (∀ found, attempt expected value s' = .error found → (next (.error found)).Ensures R G Q s') ∧
      ∀ stored, attempt expected value s' = .ok stored →
        G p s' (some stored) ∧ (next (.ok stored)).Ensures R G Q (some stored)

theorem Ensures.mono {Q Q' : Except ε α → Contents σ → Prop} (hG : ∀ p s s', G p s s' → G' p s s')
    (hQ : ∀ r s, Q r s → Q' r s) : ∀ {p : Program τ σ ε α} {s : Contents σ}, p.Ensures R G Q s → p.Ensures R G' Q' s
  | done _, _, h => hQ _ _ h
  | read _ _, _, h => fun s' hs => (h s' hs).mono hG hQ
  | write _ _ _ _, _, h => fun s' hs =>
      ⟨fun found hf => ((h s' hs).1 found hf).mono hG hQ,
        fun stored hw => ⟨hG _ _ _ ((h s' hs).2 stored hw).1, ((h s' hs).2 stored hw).2.mono hG hQ⟩⟩

/-- **Rely and guarantee, in sequence.** -/
theorem Ensures.bind {Q : Except ε α → Contents σ → Prop} {Q' : Except ε β → Contents σ → Prop}
    {f : α → Program τ σ ε β} (hf : ∀ a s, Q (.ok a) s → (f a).Ensures R G Q' s)
    (he : ∀ e s, Q (.error e) s → Q' (.error e) s) :
    ∀ {p : Program τ σ ε α} {s : Contents σ}, p.Ensures R G Q s → (p >>= f).Ensures R G Q' s
  | done (.ok _), _, h => hf _ _ h
  | done (.error _), _, h => he _ _ h
  | read _ _, _, h => fun s' hs => Ensures.bind hf he (h s' hs)
  | write _ _ _ _, _, h => fun s' hs =>
      ⟨fun found hr => Ensures.bind hf he ((h s' hs).1 found hr),
        fun stored hw => ⟨((h s' hs).2 stored hw).1, Ensures.bind hf he ((h s' hs).2 stored hw).2⟩⟩

theorem Ensures.orElse {Q Q' : Except ε α → Contents σ → Prop} {handler : ε → Program τ σ ε α}
    (hh : ∀ e s, Q (.error e) s → (handler e).Ensures R G Q' s) (ho : ∀ a s, Q (.ok a) s → Q' (.ok a) s) :
    ∀ {p : Program τ σ ε α} {s : Contents σ}, p.Ensures R G Q s → (p.orElse handler).Ensures R G Q' s
  | done (.ok _), _, h => ho _ _ h
  | done (.error _), _, h => hh _ _ h
  | read _ _, _, h => fun s' hs => Ensures.orElse hh ho (h s' hs)
  | write _ _ _ _, _, h => fun s' hs =>
      ⟨fun found hr => Ensures.orElse hh ho ((h s' hs).1 found hr),
        fun stored hw => ⟨((h s' hs).2 stored hw).1, Ensures.orElse hh ho ((h s' hs).2 stored hw).2⟩⟩

theorem Ensures.outcome {Q : Except ε α → Contents σ → Prop} :
    ∀ {p : Program τ σ ε α} {s : Contents σ}, p.Ensures R G Q s →
      p.outcome.Ensures R G (fun r s => ∃ x, r = .ok x ∧ Q x s) s
  | done _, _, h => ⟨_, rfl, h⟩
  | read _ _, _, h => fun s' hs => (h s' hs).outcome
  | write _ _ _ _, _, h => fun s' hs =>
      ⟨fun found hr => ((h s' hs).1 found hr).outcome,
        fun stored hw => ⟨((h s' hs).2 stored hw).1, ((h s' hs).2 stored hw).2.outcome⟩⟩

theorem ensures_true : ∀ (p : Program τ σ ε α) (s : Contents σ), p.Ensures R (fun _ _ _ => True) (fun _ _ => True) s
  | done _, _ => trivial
  | read _ next, _ => fun s' _ => ensures_true (next s') s'
  | write _ _ _ next, _ => fun s' _ =>
      ⟨fun found _ => ensures_true (next (.error found)) s', fun stored _ => ⟨trivial, ensures_true (next (.ok stored)) _⟩⟩

end Program

section Reliance

variable [DecidableEq ι] {R : ι → Rely τ σ} {G : ι → τ → Contents σ → Contents σ → Prop}
  {Q : ι → Except ε α → Contents σ → Prop}

/-- A program's own view: the contents it has seen last, and what has happened since. -/
def Sound (R : ι → Rely τ σ) (G : ι → τ → Contents σ → Contents σ → Prop) (Q : ι → Except ε α → Contents σ → Prop)
    (c : Config ι τ σ ε α) (i : ι) : Prop :=
  ∃ s, (∀ p, (c.program i).point = some p → (R i).holds p s c.contents) ∧ (c.program i).Ensures (R i) (G i) (Q i) s

omit [DecidableEq ι] in
/-- The guarantee a sound program gives for the write it is at. -/
theorem Sound.guarantee {c : Config ι τ σ ε α} {i : ι} (h : Sound R G Q c i) {p : τ} {expected : Option Nat} {value : σ}
    {next : Except Nat (Stored σ) → Program τ σ ε α} {stored : Stored σ} (hp : c.program i = .write p expected value next)
    (ha : attempt expected value c.contents = .ok stored) : G i p c.contents (some stored) := by
  obtain ⟨s, hs, he⟩ := h
  rw [hp] at hs he
  exact ((he _ (hs p rfl)).2 stored ha).1

/-- After its call a program has seen the contents. -/
theorem Sound.ensures {c c' : Config ι τ σ ε α} {i : ι} (h : Sound R G Q c i) (ha : c.call i = some c') :
    (c'.program i).Ensures (R i) (G i) (Q i) c'.contents := by
  obtain ⟨s, hs, he⟩ := h
  rcases Config.call_cases ha with ⟨p, next, hp, rfl⟩ | ⟨p, expected, value, next, found, hp, hw, rfl⟩ |
    ⟨p, expected, value, next, stored, hp, hw, rfl⟩
  · rw [hp] at hs he
    rw [Config.set_self]
    exact he _ (hs p rfl)
  · rw [hp] at hs he
    rw [Config.set_self]
    exact (he _ (hs p rfl)).1 found hw
  · rw [hp] at hs he
    rw [Config.set_self]
    exact ((he _ (hs p rfl)).2 stored hw).2

theorem Sound.step {c c' : Config ι τ σ ε α} {i : ι} (h : Sound R G Q c i) (ha : c.call i = some c') :
    Sound R G Q c' i := ⟨c'.contents, fun _ _ => (R i).refl _ _, h.ensures ha⟩

/-- **Rely and guarantee, in parallel**: programs whose writes are within each other's relies stay sound. -/
theorem sound_of_reachable {c₀ : Config ι τ σ ε α} {ok : Config ι τ σ ε α → ι → Prop}
    (h0 : ∀ i, (c₀.program i).Ensures (R i) (G i) (Q i) c₀.contents)
    (hR : ∀ c i p stored, ok c i → (c.program i).point = some p → c.commits i = some stored →
      revisionOf c.contents < stored.revision → G i p c.contents (some stored) →
      ∀ j, j ≠ i → ∀ q, (c.program j).point = some q → (R j).holds q c.contents (some stored))
    {c : Config ι τ σ ε α} (h : ((atomic c₀).restrict ok).Reachable c) : ∀ i, Sound R G Q c i := by
  refine h.invariant (I := fun c => ∀ i, Sound R G Q c i) ?_ ?_
  · rintro c rfl i
    exact ⟨_, fun _ _ => (R i).refl _ _, h0 i⟩
  · rintro c i c' - hc ⟨ho, ha⟩ j
    by_cases hj : j = i
    · subst hj
      exact (hc j).step ha
    obtain ⟨s, hs, he⟩ := hc j
    refine ⟨s, fun q hq => ?_, by rwa [Config.call_ne ha hj]⟩
    rw [Config.call_ne ha hj] at hq
    rcases Config.call_cases ha with ⟨_, _, _, rfl⟩ | ⟨_, _, _, _, _, _, _, rfl⟩ |
      ⟨p, expected, value, next, stored, hp, hw, rfl⟩
    · exact hs q hq
    · exact hs q hq
    · refine (R j).trans (hs q hq) ?_
      have hlt : revisionOf c.contents < stored.revision := by rw [(attempt_eq_ok hw).2]; simp
      exact hR c i p stored ho (by rw [hp]; rfl) (Config.commits_write hp hw) hlt ((hc i).guarantee hp hw) j hj q hq

end Reliance

/-! ## Revisions order the contents -/

/-- The contents of a later moment: the same, or those of a later revision. -/
def Later (s s' : Contents σ) : Prop := s = s' ∨ revisionOf s < revisionOf s'

theorem Later.refl (s : Contents σ) : Later s s := .inl rfl

theorem Later.trans {s s' s'' : Contents σ} (h : Later s s') (h' : Later s' s'') : Later s s'' := by
  rcases h with rfl | h
  · exact h'
  · rcases h' with rfl | h'
    · exact .inr h
    · exact .inr (by omega)

theorem Later.revision_le {s s' : Contents σ} (h : Later s s') : revisionOf s ≤ revisionOf s' := by
  rcases h with rfl | h <;> omega

/-- A revision that has not changed has kept its contents. -/
theorem Later.eq_of_revision {s s' : Contents σ} (h : Later s s') (hr : revisionOf s' = revisionOf s) : s = s' := by
  rcases h with h | h
  · exact h
  · omega

/-- A write that expects the revision last seen replaces the contents last seen. -/
theorem Later.eq_of_attempt {s s' : Contents σ} (h : Later s s') {value : σ} {stored : Stored σ}
    (ha : attempt (some (revisionOf s)) value s' = .ok stored) : s = s' :=
  h.eq_of_revision ((attempt_eq_ok ha).1 _ rfl)

/-- A rely on nothing but the order of the revisions. -/
def laterRely (τ σ : Type) : Rely τ σ := ⟨fun _ => Later, fun _ => .refl, fun h h' => h.trans h'⟩

end RevisionedStore
