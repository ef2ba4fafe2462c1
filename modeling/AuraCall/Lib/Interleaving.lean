import AuraCall.Lib.Indexed
import AuraCall.Lib.Script
import AuraCall.Lib.Transition

/-!
# Scripts side by side

`Threads` are scripts that work on one state; in each step one of them takes its next action, a new one starts, or the
state changes from outside. A script that has crashed takes no more steps.

`Safe I R G Q` is the rely/guarantee rule for one script: as long as the others keep `I` and move the state along `R`,
each of its actions keeps `I` and moves it along `G`, and `Q` holds of its end. `safe_bind` and `safe_orElse` take it
apart along the script, and `Threads.safe_of_reachable` puts the scripts together.
-/

universe u v w x y

namespace Script

variable {σ : Type u} {ε ε' : Type v} {α β : Type w}

/-- The others keep `I` and move along `R`; the script keeps `I` and moves along `G`; `Q` holds of its end. -/
def Safe (I : σ → Prop) (R G : σ → σ → Prop) (Q : Except ε α → σ → Prop) : Script σ ε α → σ → Prop
  | done result, s => Q result s
  | act effect next, s =>
    ∀ s', I s' → R s s' → I (effect s') ∧ G s' (effect s') ∧ (next s').Safe I R G Q (effect s')

section Rules

variable {I : σ → Prop} {R G : σ → σ → Prop} {Q Q' : Except ε α → σ → Prop} {s : σ}

@[simp] theorem safe_pure {a : α} : (pure a : Script σ ε α).Safe I R G Q s ↔ Q (.ok a) s := .rfl

@[simp] theorem safe_perform {action : σ → Except ε α × σ} :
    (perform action).Safe I R G Q s ↔
      ∀ s', I s' → R s s' → I (action s').2 ∧ G s' (action s').2 ∧ Q (action s').1 (action s').2 := .rfl

theorem safe_look {read : σ → Except ε α} (hG : ∀ s, G s s) (hQ : ∀ s', I s' → R s s' → Q (read s') s') :
    (look read).Safe I R G Q s := fun s' hi hr => ⟨hi, hG s', hQ s' hi hr⟩

@[simp] theorem safe_change {effect : σ → σ} {Q : Except ε PUnit → σ → Prop} :
    (change effect).Safe I R G Q s ↔
      ∀ s', I s' → R s s' → I (effect s') ∧ G s' (effect s') ∧ Q (.ok ⟨⟩) (effect s') := .rfl

theorem Safe.imp {p : Script σ ε α} (h : p.Safe I R G Q s) (himp : ∀ r s', Q r s' → Q' r s') :
    p.Safe I R G Q' s := by
  induction p generalizing s with
  | done => exact himp _ _ h
  | act effect next ih => exact fun s' hi hr => ⟨(h s' hi hr).1, (h s' hi hr).2.1, ih s' (h s' hi hr).2.2⟩

/-- **The frame rule**: what no step of the script and of the others takes away is still there at the end. -/
theorem Safe.frame {p : Script σ ε α} {P : σ → Prop} (h : p.Safe I R G Q s) (hs : P s)
    (hR : ∀ {s s'}, R s s' → P s → P s') (hG : ∀ {s s'}, G s s' → P s → P s') :
    p.Safe I R G (fun r s' => Q r s' ∧ P s') s := by
  induction p generalizing s with
  | done => exact ⟨h, hs⟩
  | act effect next ih =>
    intro s' hi hr
    obtain ⟨hi', hg, hnext⟩ := h s' hi hr
    exact ⟨hi', hg, ih s' hnext (hG hg (hR hr hs))⟩

/-- **The rule for a sequence.** -/
theorem safe_bind {p : Script σ ε α} {f : α → Script σ ε β} {Q : Except ε β → σ → Prop} :
    (p >>= f).Safe I R G Q s ↔
      p.Safe I R G (fun r s => match r with | .ok a => (f a).Safe I R G Q s | .error e => Q (.error e) s) s := by
  show (p.bind f).Safe I R G Q s ↔ _
  induction p generalizing s with
  | done result => cases result <;> exact .rfl
  | act effect next ih =>
    exact forall_congr' fun s' => imp_congr_right fun _ => imp_congr_right fun _ =>
      and_congr_right fun _ => and_congr_right fun _ => ih s'

/-- What an end says when it has an answer. -/
def Answers (P : α → σ → Prop) : Except ε α → σ → Prop
  | .ok a, s => P a s
  | .error _, _ => True

/-- A sequence whose parts say something of their answers. -/
theorem safe_answers {p : Script σ ε α} {f : α → Script σ ε β} {P : α → σ → Prop} {P' : β → σ → Prop}
    (h : p.Safe I R G (Answers P) s) (hf : ∀ a s', P a s' → (f a).Safe I R G (Answers P') s') :
    (p >>= f).Safe I R G (Answers P') s :=
  safe_bind.2 (h.imp fun r s' hr => by cases r with
    | ok a => exact hf a s' hr
    | error e => trivial)

/-- **The rule for `try … catch`.** -/
theorem safe_orElse {p : Script σ ε α} {handler : ε → Script σ ε' α} {Q : Except ε' α → σ → Prop} :
    (p.orElse handler).Safe I R G Q s ↔
      p.Safe I R G (fun r s => match r with | .ok a => Q (.ok a) s | .error e => (handler e).Safe I R G Q s) s := by
  induction p generalizing s with
  | done result => cases result <;> exact .rfl
  | act effect next ih =>
    exact forall_congr' fun s' => imp_congr_right fun _ => imp_congr_right fun _ =>
      and_congr_right fun _ => and_congr_right fun _ => ih s'

end Rules

end Script

/-! ## Threads -/

/-- Scripts and the state they work on. -/
structure Threads (σ : Type u) (ε : Type v) (α : Type w) where
  state : σ
  scripts : List (Script σ ε α)

namespace Threads

variable {σ : Type u} {ε : Type v} {α : Type w} {β : Type x} {η : Type y}

/-- A script starts with an input, a script takes its next action, or the state changes from outside. -/
inductive Event (β : Type x) (η : Type y)
  | start (input : β)
  | act (index : Nat)
  | other (event : η)

/-- The script of a call knows its index; `outside` says what can happen to the state besides. -/
def next (call : Nat → β → Script σ ε α) (outside : σ → η → Option σ) (c : Threads σ ε α) :
    Event β η → Option (Threads σ ε α)
  | .start input => some { c with scripts := c.scripts ++ [call c.scripts.length input] }
  | .act index =>
    match c.scripts[index]? with
    | some (.act effect next) => some ⟨effect c.state, c.scripts.modify index fun _ => next c.state⟩
    | _ => none
  | .other event => (outside c.state event).map fun s => { c with state := s }

/-- All interleavings of any number of calls. -/
def system (Init : σ → Prop) (call : Nat → β → Script σ ε α) (outside : σ → η → Option σ) :
    TransitionSystem (Threads σ ε α) (Event β η) :=
  .ofNext (fun c => Init c.state ∧ c.scripts = []) (next call outside)

variable {Init : σ → Prop} {call : Nat → β → Script σ ε α} {outside : σ → η → Option σ} {c : Threads σ ε α}
  {I : σ → Prop} {R G : Nat → σ → σ → Prop} {Q : Nat → β → Except ε α → σ → Prop}

/-- What the calls must be: each keeps its guarantee, which is what the others rely on. When a call starts, the others
have moved on from an initial state. -/
structure Compatible (Init : σ → Prop) (call : Nat → β → Script σ ε α) (outside : σ → η → Option σ) (I : σ → Prop)
    (R G : Nat → σ → σ → Prop) (Q : Nat → β → Except ε α → σ → Prop) : Prop where
  refl : ∀ i s, R i s s
  trans : ∀ {i s s' s''}, R i s s' → R i s' s'' → R i s s''
  init : ∀ s, Init s → I s
  outside : ∀ {s event s'}, I s → outside s event = some s' → I s' ∧ ∀ i, R i s s'
  others : ∀ {i j s s'}, i ≠ j → I s → G i s s' → R j s s'
  call : ∀ i input s₀ s, Init s₀ → R i s₀ s → I s → (call i input).Safe I (R i) (G i) (Q i input) s

/-- The scripts are safe from a state that the others have moved on from; `Started` says with which inputs they may have
started. -/
structure AllSafe (Init I : σ → Prop) (R G : Nat → σ → σ → Prop) (Q : Nat → β → Except ε α → σ → Prop)
    (Started : Nat → β → Prop) (c : Threads σ ε α) : Prop where
  inv : I c.state
  unused : ∃ s₀, Init s₀ ∧ ∀ i, c.scripts.length ≤ i → R i s₀ c.state
  safe : ∀ i p, c.scripts[i]? = some p →
    ∃ input s, Started i input ∧ R i s c.state ∧ p.Safe I (R i) (G i) (Q i input) s

section Parallel

variable {Started : Nat → β → Prop}

theorem allSafe_init (h : Compatible Init call outside I R G Q) (hstate : Init c.state) (hscripts : c.scripts = []) :
    AllSafe Init I R G Q Started c := by
  refine ⟨h.init _ hstate, ⟨_, hstate, fun i _ => h.refl i _⟩, fun i p hp => ?_⟩
  rw [hscripts] at hp
  cases hp

theorem AllSafe.start (h : Compatible Init call outside I R G Q) (hsafe : AllSafe Init I R G Q Started c) {input : β}
    (hstarted : Started c.scripts.length input) :
    AllSafe Init I R G Q Started { c with scripts := c.scripts ++ [call c.scripts.length input] } := by
  obtain ⟨s₀, hinit, hunused⟩ := hsafe.unused
  refine ⟨hsafe.inv, ⟨s₀, hinit, fun i hi => hunused i ?_⟩, fun i p hp => ?_⟩
  · simp only [List.length_append, List.length_singleton] at hi
    omega
  · rcases Indexed.append_cases hp with hp | ⟨rfl, rfl⟩
    · exact hsafe.safe i p hp
    · exact ⟨input, c.state, hstarted, h.refl _ _,
        h.call _ input s₀ c.state hinit (hunused _ (Nat.le_refl _)) hsafe.inv⟩

theorem AllSafe.act (h : Compatible Init call outside I R G Q) (hsafe : AllSafe Init I R G Q Started c) {index : Nat}
    {effect : σ → σ} {rest : σ → Script σ ε α} (hscript : c.scripts[index]? = some (.act effect rest)) :
    AllSafe Init I R G Q Started ⟨effect c.state, c.scripts.modify index fun _ => rest c.state⟩ := by
  obtain ⟨input, s, hstarted, hr, hp⟩ := hsafe.safe index _ hscript
  obtain ⟨hi, hg, hrest⟩ := hp c.state hsafe.inv hr
  obtain ⟨s₀, hinit, hunused⟩ := hsafe.unused
  have hlt : index < c.scripts.length := List.getElem?_eq_some_iff.1 hscript |>.1
  refine ⟨hi, ⟨s₀, hinit, fun i hlen => ?_⟩, fun i p hp => ?_⟩
  · rw [List.length_modify] at hlen
    exact h.trans (hunused i hlen) (h.others (by omega) hsafe.inv hg)
  rcases Indexed.modify_cases hscript hp with ⟨rfl, rfl⟩ | ⟨hne, hp⟩
  · exact ⟨input, _, hstarted, h.refl _ _, hrest⟩
  · obtain ⟨input', s', hstarted', hr', hp'⟩ := hsafe.safe i p hp
    exact ⟨input', s', hstarted', h.trans hr' (h.others hne.symm hsafe.inv hg), hp'⟩

theorem AllSafe.other (h : Compatible Init call outside I R G Q) (hsafe : AllSafe Init I R G Q Started c) {event : η}
    {s : σ} (hs : outside c.state event = some s) : AllSafe Init I R G Q Started { c with state := s } := by
  obtain ⟨hi, hr⟩ := h.outside hsafe.inv hs
  obtain ⟨s₀, hinit, hunused⟩ := hsafe.unused
  refine ⟨hi, ⟨s₀, hinit, fun i hlen => h.trans (hunused i hlen) (hr i)⟩, fun i p hp => ?_⟩
  obtain ⟨input, s', hstarted, hr', hp'⟩ := hsafe.safe i p hp
  exact ⟨input, s', hstarted, h.trans hr' (hr i), hp'⟩

/-- **A step keeps all scripts safe.** -/
theorem AllSafe.step (h : Compatible Init call outside I R G Q) (hsafe : AllSafe Init I R G Q Started c)
    {event : Event β η} {c' : Threads σ ε α} (hstep : next call outside c event = some c')
    (hstarted : ∀ input, event = .start input → Started c.scripts.length input) : AllSafe Init I R G Q Started c' := by
  cases event with
  | start input =>
    cases hstep
    exact hsafe.start h (hstarted input rfl)
  | act index =>
    cases hscript : c.scripts[index]? with
    | none => simp [next, hscript] at hstep
    | some script =>
      cases script with
      | done result => simp [next, hscript] at hstep
      | act effect rest =>
        simp only [next, hscript, Option.some.injEq] at hstep
        subst hstep
        exact hsafe.act h hscript
  | other event =>
    simp only [next, Option.map_eq_some_iff] at hstep
    obtain ⟨s, hs, rfl⟩ := hstep
    exact hsafe.other h hs

end Parallel

/-- **The parallel rule.** -/
theorem safe_of_reachable (h : Compatible Init call outside I R G Q)
    (hc : (system Init call outside).Reachable c) : AllSafe Init I R G Q (fun _ _ => True) c :=
  hc.invariant (fun _ hc => allSafe_init h hc.1 hc.2) fun _ _ _ _ hsafe hstep => hsafe.step h hstep fun _ _ => trivial

/-- **The end of a call**: what it has proved, and how the state may have moved since. -/
theorem end_of_reachable (h : Compatible Init call outside I R G Q) (hc : (system Init call outside).Reachable c)
    {i : Nat} {result : Except ε α} (hi : c.scripts[i]? = some (.done result)) :
    ∃ input s, R i s c.state ∧ Q i input result s := by
  obtain ⟨input, s, -, hend⟩ := (safe_of_reachable h hc).safe i _ hi
  exact ⟨input, s, hend⟩

/-! ### The inputs of a run -/

/-- The input that an event starts a call with. -/
def Event.input : Event β η → Option β
  | start input => some input
  | _ => none

/-- The inputs of the calls of a run. -/
def inputs (events : List (Event β η)) : List β := events.filterMap (·.input)

theorem length_of_next {event : Event β η} {c' : Threads σ ε α} (hstep : next call outside c event = some c') :
    c'.scripts.length = c.scripts.length + (inputs [event]).length := by
  cases event with
  | start input =>
    cases hstep
    exact List.length_append
  | act index =>
    cases hscript : c.scripts[index]? with
    | none => simp [next, hscript] at hstep
    | some script =>
      cases script with
      | done result => simp [next, hscript] at hstep
      | act effect rest =>
        simp only [next, hscript, Option.some.injEq] at hstep
        subst hstep
        exact List.length_modify ..
  | other event =>
    simp only [next, Option.map_eq_some_iff] at hstep
    obtain ⟨s, hs, rfl⟩ := hstep
    rfl

/-- A run from a state whose calls have had the inputs before it. -/
theorem safe_of_run (h : Compatible Init call outside I R G Q) {all : List β} {before events : List (Event β η)}
    {c' : Threads σ ε α} (hrun : (system Init call outside).Run c events c') (hall : all = inputs (before ++ events))
    (hlength : c.scripts.length = (inputs before).length)
    (hsafe : AllSafe Init I R G Q (fun i input => all[i]? = some input) c) :
    AllSafe Init I R G Q (fun i input => all[i]? = some input) c' := by
  induction hrun generalizing before with
  | nil => exact hsafe
  | @cons c c₁ c₂ event events hstep hrun ih =>
    have hall' : all = inputs ((before ++ [event]) ++ events) := by rw [hall, List.append_assoc, List.singleton_append]
    refine ih hall' ?_ (hsafe.step h hstep fun input hevent => ?_)
    · rw [length_of_next hstep, hlength, inputs, inputs, inputs, List.filterMap_append, List.length_append]
    · subst hevent
      rw [hall, inputs, List.filterMap_append, hlength, inputs, List.getElem?_append_right (Nat.le_refl _), Nat.sub_self]
      rfl

/-- **The end of a call of a run**, and what it was asked. -/
theorem end_of_run (h : Compatible Init call outside I R G Q) {events : List (Event β η)} {c' : Threads σ ε α}
    (hstate : Init c.state) (hscripts : c.scripts = []) (hrun : (system Init call outside).Run c events c') {i : Nat}
    {result : Except ε α} (hi : c'.scripts[i]? = some (.done result)) :
    ∃ input s, (inputs events)[i]? = some input ∧ R i s c'.state ∧ Q i input result s := by
  have hall : inputs events = inputs ([] ++ events) := rfl
  have hlength : c.scripts.length = (inputs ([] : List (Event β η))).length := by rw [hscripts]; rfl
  exact (safe_of_run h hrun hall hlength (allSafe_init h hstate hscripts)).safe i _ hi

/-- **An action of a call** keeps its guarantee, and leaves a script that is safe. -/
theorem act_of_reachable (h : Compatible Init call outside I R G Q) (hc : (system Init call outside).Reachable c)
    {index : Nat} {c' : Threads σ ε α} (hstep : next call outside c (.act index) = some c') :
    G index c.state c'.state ∧ ∃ input rest, c'.scripts[index]? = some rest ∧
      rest.Safe I (R index) (G index) (Q index input) c'.state := by
  cases hscript : c.scripts[index]? with
  | none => simp [next, hscript] at hstep
  | some script =>
    cases script with
    | done result => simp [next, hscript] at hstep
    | act effect rest =>
      simp only [next, hscript, Option.some.injEq] at hstep
      subst hstep
      have hsafe := safe_of_reachable h hc
      obtain ⟨input, s, -, hr, hp⟩ := hsafe.safe index _ hscript
      obtain ⟨-, hg, hrest⟩ := hp c.state hsafe.inv hr
      exact ⟨hg, input, rest c.state, Indexed.getElem?_modify_self hscript, hrest⟩

/-- **Where the state can move**: along anything that covers the guarantees and what happens outside. -/
theorem moves_of_run {M : σ → σ → Prop} (h : Compatible Init call outside I R G Q) (hrefl : ∀ s, M s s)
    (htrans : ∀ {s s' s''}, M s s' → M s' s'' → M s s'') (hG : ∀ {i s s'}, G i s s' → M s s')
    (houtside : ∀ {s event s'}, outside s event = some s' → M s s') (hc : (system Init call outside).Reachable c)
    {events : List (Event β η)} {c' : Threads σ ε α} (hrun : (system Init call outside).Run c events c') :
    M c.state c'.state := by
  refine hrun.stable (P := fun c' => M c.state c'.state) (fun c₁ event c₂ hc₁ hm hstep => htrans hm ?_) hc (hrefl _)
  cases event with
  | start input =>
    cases hstep
    exact hrefl _
  | act index => exact hG (act_of_reachable h hc₁ hstep).1
  | other event =>
    simp only [system, TransitionSystem.ofNext, next, Option.map_eq_some_iff] at hstep
    obtain ⟨s, hs, rfl⟩ := hstep
    exact houtside hs

end Threads
