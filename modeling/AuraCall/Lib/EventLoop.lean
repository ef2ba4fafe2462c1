import AuraCall.Lib.Transition

/-!
# Calls that take turns on one event loop

Asynchronous calls over a shared state. A call runs without interruption to its first await (`start`), and from one
await to the next (`resume`) when what it awaits is answered. In between other calls take their turns. A call that has
returned stays in the list as a point from which nothing resumes.

`forall_calls` is the proof rule: an invariant of the shared state, and a fact about the point of every call that each
turn keeps for all calls.
-/

/-- Calls of type `κ`, whose points are of type `π`, over a shared state `σ`; awaits are answered by `α`. -/
structure EventLoop (σ κ π α : Type) where
  start : σ → κ → Option (σ × π)
  resume : σ → π → α → Option (σ × π)

namespace EventLoop

open TransitionSystem

variable {σ κ π α : Type}

/-- The shared state, and the points of the calls in the order the calls were made. -/
structure Config (σ π : Type) where
  shared : σ
  calls : List π
  deriving DecidableEq

/-- A turn: a new call, or the answer to what a call awaits. -/
inductive Turn (κ α : Type)
  | call (call : κ)
  | answer (index : Nat) (answer : α)
  deriving DecidableEq

variable {L : EventLoop σ κ π α}

/-- Take a turn. -/
def turn (L : EventLoop σ κ π α) (c : Config σ π) : Turn κ α → Option (Config σ π)
  | .call call => (L.start c.shared call).map fun (shared, point) => ⟨shared, c.calls ++ [point]⟩
  | .answer index answer =>
    match c.calls.drop index with
    | point :: after =>
      (L.resume c.shared point answer).map fun (shared, point') => ⟨shared, c.calls.take index ++ point' :: after⟩
    | [] => none

/-- The system of turns, from a shared state without calls. -/
def system (L : EventLoop σ κ π α) (Init : σ → Prop) : TransitionSystem (Config σ π) (Turn κ α) :=
  ofNext (fun c => Init c.shared ∧ c.calls = []) L.turn

/-- What a turn does. -/
inductive Takes (L : EventLoop σ κ π α) (c : Config σ π) : Turn κ α → Config σ π → Prop
  | call {call : κ} {shared : σ} {point : π} : L.start c.shared call = some (shared, point) →
      Takes L c (.call call) ⟨shared, c.calls ++ [point]⟩
  | answer {before after : List π} {point point' : π} {answer : α} {shared : σ} :
      c.calls = before ++ point :: after → L.resume c.shared point answer = some (shared, point') →
      Takes L c (.answer before.length answer) ⟨shared, before ++ point' :: after⟩

theorem takes_of_turn {c c' : Config σ π} {t : Turn κ α} (h : L.turn c t = some c') : Takes L c t c' := by
  cases t with
  | call call =>
    obtain ⟨⟨shared, point⟩, hstart, rfl⟩ := Option.map_eq_some_iff.1 h
    exact .call hstart
  | answer index answer =>
    simp only [turn] at h
    split at h
    · rename_i point after hdrop
      obtain ⟨⟨shared, point'⟩, hresume, rfl⟩ := Option.map_eq_some_iff.1 h
      have hsplit : c.calls = c.calls.take index ++ point :: after := by rw [← hdrop, List.take_append_drop]
      have hlength : (c.calls.take index).length = index := by
        have hlt : index < c.calls.length := by
          apply Nat.lt_of_not_le
          intro hle
          rw [List.drop_eq_nil_of_le hle] at hdrop
          cases hdrop
        rw [List.length_take]
        omega
      have htakes := Takes.answer hsplit hresume
      rwa [hlength] at htakes
    · cases h

/-- **The rule for calls.** `I` holds of the shared state and `P` of the point of every call, when each turn that meets the
restriction keeps them: for its own call, and for the others. -/
theorem forall_calls {Init : σ → Prop} {ok : Config σ π → Turn κ α → Prop} {I : σ → Prop} {P : σ → π → Prop}
    (h0 : ∀ s, Init s → I s)
    (hstart : ∀ c call s' p, ok c (.call call) → I c.shared → (∀ q ∈ c.calls, P c.shared q) →
      L.start c.shared call = some (s', p) → I s' ∧ P s' p ∧ ∀ q ∈ c.calls, P s' q)
    (hresume : ∀ c before after p answer s' p', ok c (.answer before.length answer) → I c.shared →
      (∀ q ∈ c.calls, P c.shared q) → c.calls = before ++ p :: after → L.resume c.shared p answer = some (s', p') →
      I s' ∧ P s' p' ∧ ∀ q ∈ before ++ after, P s' q)
    {c : Config σ π} (h : ((L.system Init).restrict ok).Reachable c) : I c.shared ∧ ∀ q ∈ c.calls, P c.shared q := by
  apply h.invariant (I := fun c => I c.shared ∧ ∀ q ∈ c.calls, P c.shared q)
  · rintro c ⟨hinit, hcalls⟩
    refine ⟨h0 _ hinit, ?_⟩
    rw [hcalls]
    exact fun q hq => absurd hq List.not_mem_nil
  · rintro c t c' - ⟨hi, hp⟩ ⟨hok, hturn⟩
    cases takes_of_turn hturn with
    | call hs =>
      obtain ⟨hi', hp', hrest⟩ := hstart _ _ _ _ hok hi hp hs
      refine ⟨hi', ?_⟩
      intro q hq
      rcases List.mem_append.1 hq with hq | hq
      · exact hrest q hq
      · rw [List.mem_singleton.1 hq]
        exact hp'
    | answer hsplit hr =>
      obtain ⟨hi', hp', hrest⟩ := hresume _ _ _ _ _ _ _ hok hi hp hsplit hr
      refine ⟨hi', ?_⟩
      intro q hq
      rcases List.mem_append.1 hq with hq | hq
      · exact hrest q (List.mem_append_left _ hq)
      · rcases List.mem_cons.1 hq with rfl | hq
        · exact hp'
        · exact hrest q (List.mem_append_right _ hq)

end EventLoop
