/-!
# Programs of atomic actions that may stop anywhere

A `Script` is a program over states of type `σ`: it has ended with a result or an error, or its next action changes the
state, and what follows depends on the state that the action has found. `run` runs a script to its end, and `after n`
is the state when it has stopped after `n` actions.

`Holds I Q` is the proof rule: `I` holds of every state the script can stop in, its last one included, and `Q` of its
end. `holds_bind`, `holds_orElse` and `holds_ensure` take it apart along the script.
-/

universe u v w

/-- A script: its end, or an action and what follows. Both see the state before the action. -/
inductive Script (σ : Type u) (ε : Type v) (α : Type w)
  | done (result : Except ε α)
  | act (effect : σ → σ) (next : σ → Script σ ε α)

namespace Script

variable {σ : Type u} {ε ε' : Type v} {α β : Type w}

/-! ## Programs -/

def bind : Script σ ε α → (α → Script σ ε β) → Script σ ε β
  | done (.ok a), f => f a
  | done (.error e), _ => done (.error e)
  | act effect next, f => act effect fun s => (next s).bind f

instance : Monad (Script σ ε) where
  pure a := done (.ok a)
  bind := bind

def throw (e : ε) : Script σ ε α := done (.error e)

def ofExcept (result : Except ε α) : Script σ ε α := done result

/-- `try … catch`. -/
def orElse : Script σ ε α → (ε → Script σ ε' α) → Script σ ε' α
  | done (.ok a), _ => done (.ok a)
  | done (.error e), handler => handler e
  | act effect next, handler => act effect fun s => (next s).orElse handler

/-- `try … finally`: an error of the last part takes the place of the result. -/
def ensure : Script σ ε α → Script σ ε PUnit → Script σ ε α
  | done result, last => last.bind fun _ => done result
  | act effect next, last => act effect fun s => (next s).ensure last

/-- One action with an answer. -/
def perform (action : σ → Except ε α × σ) : Script σ ε α := act (fun s => (action s).2) fun s => done (action s).1

/-- One action that only looks at the state. -/
def look (read : σ → Except ε α) : Script σ ε α := act id fun s => done (read s)

/-- One action that only changes the state. -/
def change (effect : σ → σ) : Script σ ε PUnit := act effect fun _ => done (.ok ⟨⟩)

/-! ## Runs -/

/-- The end of a script, and the state it ends in. -/
def run : Script σ ε α → σ → Except ε α × σ
  | done result, s => (result, s)
  | act effect next, s => (next s).run (effect s)

/-- The state when a script has stopped after `n` actions, or before if it has ended. -/
def after : Nat → Script σ ε α → σ → σ
  | 0, _, s => s
  | _ + 1, done _, s => s
  | n + 1, act effect next, s => (next s).after n (effect s)

/-- `I` holds wherever the script stops, and `Q` of its end. -/
def Holds (I : σ → Prop) (Q : Except ε α → σ → Prop) : Script σ ε α → σ → Prop
  | done result, s => I s ∧ Q result s
  | act effect next, s => I s ∧ (next s).Holds I Q (effect s)

section Rules

variable {I : σ → Prop} {Q Q' : Except ε α → σ → Prop} {s : σ}

theorem Holds.here {p : Script σ ε α} (h : p.Holds I Q s) : I s := by
  cases p with
  | done => exact h.1
  | act => exact h.1

/-- **Wherever a script stops.** -/
theorem Holds.after {p : Script σ ε α} (h : p.Holds I Q s) (n : Nat) : I (p.after n s) := by
  induction n generalizing p s with
  | zero => exact h.here
  | succ n ih =>
    cases p with
    | done => exact h.1
    | act effect next => exact ih h.2

/-- **The end of a script.** -/
theorem Holds.run {p : Script σ ε α} (h : p.Holds I Q s) : I (p.run s).2 ∧ Q (p.run s).1 (p.run s).2 := by
  induction p generalizing s with
  | done => exact h
  | act effect next ih => exact ih s h.2

theorem holds_of_run {p : Script σ ε α} (hI : ∀ n, I (p.after n s)) (hQ : Q (p.run s).1 (p.run s).2) :
    p.Holds I Q s := by
  induction p generalizing s with
  | done => exact ⟨hI 0, hQ⟩
  | act effect next ih => exact ⟨hI 0, ih s (fun n => hI (n + 1)) hQ⟩

theorem Holds.imp {p : Script σ ε α} (h : p.Holds I Q s) (himp : ∀ r s', I s' → Q r s' → Q' r s') :
    p.Holds I Q' s := by
  induction p generalizing s with
  | done => exact ⟨h.1, himp _ _ h.1 h.2⟩
  | act effect next ih => exact ⟨h.1, ih s h.2⟩

theorem Holds.mono {p : Script σ ε α} {I' : σ → Prop} (h : p.Holds I Q s) (himp : ∀ s', I s' → I' s') :
    p.Holds I' Q s := by
  induction p generalizing s with
  | done => exact ⟨himp _ h.1, h.2⟩
  | act effect next ih => exact ⟨himp _ h.1, ih s h.2⟩

/-- Two facts about one script. -/
theorem Holds.and {p : Script σ ε α} {I' : σ → Prop} (h : p.Holds I Q s) (h' : p.Holds I' Q' s) :
    p.Holds I (fun r s' => Q r s' ∧ Q' r s') s := by
  induction p generalizing s with
  | done => exact ⟨h.1, h.2, h'.2⟩
  | act effect next ih => exact ⟨h.1, ih s h.2 h'.2⟩

@[simp] theorem holds_pure {a : α} : (pure a : Script σ ε α).Holds I Q s ↔ I s ∧ Q (.ok a) s := .rfl

@[simp] theorem holds_ofExcept {result : Except ε α} :
    (ofExcept result : Script σ ε α).Holds I Q s ↔ I s ∧ Q result s := .rfl

@[simp] theorem holds_perform {action : σ → Except ε α × σ} :
    (perform action).Holds I Q s ↔ I s ∧ I (action s).2 ∧ Q (action s).1 (action s).2 := .rfl

@[simp] theorem holds_look {read : σ → Except ε α} : (look read).Holds I Q s ↔ I s ∧ I s ∧ Q (read s) s := .rfl

@[simp] theorem holds_change {effect : σ → σ} {Q : Except ε PUnit → σ → Prop} :
    (change effect).Holds I Q s ↔ I s ∧ I (effect s) ∧ Q (.ok ⟨⟩) (effect s) := .rfl

/-- **The rule for a sequence.** -/
theorem holds_bind {p : Script σ ε α} {f : α → Script σ ε β} {Q : Except ε β → σ → Prop} :
    (p >>= f).Holds I Q s ↔
      p.Holds I (fun r s => match r with | .ok a => (f a).Holds I Q s | .error e => I s ∧ Q (.error e) s) s := by
  show (p.bind f).Holds I Q s ↔ _
  induction p generalizing s with
  | done result =>
    cases result with
    | ok a => exact ⟨fun h => ⟨h.here, h⟩, fun h => h.2⟩
    | error e => exact ⟨fun h => ⟨h.1, h⟩, fun h => h.2⟩
  | act effect next ih => exact and_congr_right fun _ => ih s

/-- **The rule for a result that is not used.** -/
theorem holds_discard {p : Script σ ε α} {Q : Except ε PUnit → σ → Prop} :
    (discard p).Holds I Q s ↔ p.Holds I (fun r s => Q (r.map fun _ => ⟨⟩) s) s := by
  show (p >>= fun _ => pure ⟨⟩).Holds I Q s ↔ _
  rw [holds_bind]
  constructor
  · intro h
    refine h.imp fun r s' _ hr => ?_
    cases r <;> exact hr.2
  · intro h
    refine h.imp fun r s' hI hr => ?_
    cases r <;> exact ⟨hI, hr⟩

/-- **The rule for `try … catch`.** -/
theorem holds_orElse {p : Script σ ε α} {handler : ε → Script σ ε' α} {Q : Except ε' α → σ → Prop} :
    (p.orElse handler).Holds I Q s ↔
      p.Holds I (fun r s => match r with | .ok a => Q (.ok a) s | .error e => (handler e).Holds I Q s) s := by
  induction p generalizing s with
  | done result =>
    cases result with
    | ok a => exact .rfl
    | error e => exact ⟨fun h => ⟨h.here, h⟩, fun h => h.2⟩
  | act effect next ih => exact and_congr_right fun _ => ih s

/-- **The rule for `try … finally`.** -/
theorem holds_ensure {p : Script σ ε α} {last : Script σ ε PUnit} :
    (p.ensure last).Holds I Q s ↔
      p.Holds I (fun r s => last.Holds I
        (fun r' s => match r' with | .ok _ => Q r s | .error e => Q (.error e) s) s) s := by
  induction p generalizing s with
  | done result =>
    have hlast : ∀ {p : Script σ ε PUnit} {s : σ}, (p.bind fun _ => done result).Holds I Q s ↔
        p.Holds I (fun r' s => match r' with | .ok _ => Q result s | .error e => Q (.error e) s) s := by
      intro p s
      induction p generalizing s with
      | done r' => cases r' <;> exact .rfl
      | act effect next ih => exact and_congr_right fun _ => ih s
    exact ⟨fun h => ⟨h.here, hlast.1 h⟩, fun h => hlast.2 h.2⟩
  | act effect next ih => exact and_congr_right fun _ => ih s

end Rules

/-! ## Frames -/

/-- No action changes what `f` reads of the state. -/
def Keeps {τ : Type u} (f : σ → τ) : Script σ ε α → Prop
  | done _ => True
  | act effect next => ∀ s, f (effect s) = f s ∧ (next s).Keeps f

section Frames

variable {τ : Type u} {f : σ → τ} {I : σ → Prop} {Q : Except ε α → σ → Prop} {s : σ}

/-- **The frame rule.** -/
theorem Keeps.holds {p : Script σ ε α} (hf : p.Keeps f) (h : p.Holds I Q s) :
    p.Holds I (fun r s' => Q r s' ∧ f s' = f s) s := by
  suffices ∀ (p : Script σ ε α) (s₀ : σ), p.Keeps f → p.Holds I Q s₀ → f s₀ = f s →
      p.Holds I (fun r s' => Q r s' ∧ f s' = f s) s₀ from this p s hf h rfl
  intro p
  induction p with
  | done => exact fun s₀ _ h hs => ⟨h.1, h.2, hs⟩
  | act effect next ih =>
    exact fun s₀ hf h hs => ⟨h.1, ih s₀ (effect s₀) (hf s₀).2 h.2 ((hf s₀).1.trans hs)⟩

theorem Keeps.imp {τ' : Type u} {g : σ → τ'} {p : Script σ ε α} (hf : p.Keeps f)
    (h : ∀ s s', f s' = f s → g s' = g s) : p.Keeps g := by
  induction p with
  | done => trivial
  | act effect next ih => exact fun s => ⟨h s _ (hf s).1, ih s (hf s).2⟩

/-- What depends only on what is kept holds wherever the script stops. -/
theorem Keeps.always {p : Script σ ε α} (hf : p.Keeps f) (hI : ∀ s', f s' = f s → I s') :
    p.Holds I (fun _ s' => f s' = f s) s := by
  suffices ∀ (p : Script σ ε α) (s₀ : σ), p.Keeps f → f s₀ = f s → p.Holds I (fun _ s' => f s' = f s) s₀ from
    this p s hf rfl
  intro p
  induction p with
  | done => exact fun s₀ _ hs => ⟨hI s₀ hs, hs⟩
  | act effect next ih => exact fun s₀ hf hs => ⟨hI s₀ hs, ih s₀ (effect s₀) (hf s₀).2 ((hf s₀).1.trans hs)⟩

@[simp] theorem keeps_pure {a : α} : (pure a : Script σ ε α).Keeps f := trivial

@[simp] theorem keeps_throw {e : ε} : (throw e : Script σ ε α).Keeps f := trivial

@[simp] theorem keeps_ofExcept {result : Except ε α} : (ofExcept result : Script σ ε α).Keeps f := trivial

@[simp] theorem keeps_look {read : σ → Except ε α} : (look read).Keeps f := fun _ => ⟨rfl, trivial⟩

theorem keeps_perform {action : σ → Except ε α × σ} (h : ∀ s, f (action s).2 = f s) : (perform action).Keeps f :=
  fun s => ⟨h s, trivial⟩

theorem keeps_change {effect : σ → σ} (h : ∀ s, f (effect s) = f s) :
    (change effect : Script σ ε PUnit).Keeps f := fun s => ⟨h s, trivial⟩

theorem keeps_bind {p : Script σ ε α} {g : α → Script σ ε β} (hp : p.Keeps f) (hg : ∀ a, (g a).Keeps f) :
    (p >>= g).Keeps f := by
  show (p.bind g).Keeps f
  induction p with
  | done result =>
    cases result with
    | ok a => exact hg a
    | error e => trivial
  | act effect next ih => exact fun s => ⟨(hp s).1, ih s (hp s).2⟩

theorem keeps_orElse {p : Script σ ε α} {handler : ε → Script σ ε' α} (hp : p.Keeps f)
    (hh : ∀ e, (handler e).Keeps f) : (p.orElse handler).Keeps f := by
  induction p with
  | done result =>
    cases result with
    | ok a => trivial
    | error e => exact hh e
  | act effect next ih => exact fun s => ⟨(hp s).1, ih s (hp s).2⟩

theorem keeps_ensure {p : Script σ ε α} {last : Script σ ε PUnit} (hp : p.Keeps f) (hl : last.Keeps f) :
    (p.ensure last).Keeps f := by
  induction p with
  | done result => exact keeps_bind hl fun _ => trivial
  | act effect next ih => exact fun s => ⟨(hp s).1, ih s (hp s).2⟩

end Frames

end Script
