import Mathlib.Data.List.Nodup

/-!
# Traces in which every event was allowed

A trace is the list of the events of a run so far. In a `Lawful` trace each event was allowed by the events before it;
appending an allowed event keeps it so (`Lawful.push`).

The events of one participant are its `history`: the events of the others are not in it, and what is in it stands in the
trace in the same order.
-/

namespace EventTrace

variable {ε κ : Type} {Allowed : List ε → ε → Prop} {trace : List ε} {event : ε}

/-- Each event was allowed by those before it. -/
def Lawful (Allowed : List ε → ε → Prop) (trace : List ε) : Prop :=
  ∀ before event after, trace = before ++ event :: after → Allowed before event

theorem lawful_nil : Lawful Allowed [] := fun before event after h => by simp at h

theorem Lawful.push (h : Lawful Allowed trace) (ha : Allowed trace event) : Lawful Allowed (trace ++ [event]) := by
  intro before event' after heq
  rcases List.eq_nil_or_concat after with rfl | ⟨after, last, rfl⟩
  · obtain ⟨rfl, hlast⟩ := List.append_inj' heq rfl
    cases hlast
    exact ha
  · rw [List.concat_eq_append, ← List.cons_append, ← List.append_assoc] at heq
    obtain ⟨rfl, _⟩ := List.append_inj' heq rfl
    exact h before event' after rfl

/-- An event in the trace was allowed by some of the others. -/
theorem Lawful.of_mem (h : Lawful Allowed trace) (hm : event ∈ trace) :
    ∃ before after, trace = before ++ event :: after ∧ Allowed before event := by
  obtain ⟨before, after, heq⟩ := List.append_of_mem hm
  exact ⟨before, after, heq, h before event after heq⟩

theorem lawful_iff : Lawful Allowed trace ↔ ∀ i : Fin trace.length, Allowed (trace.take i) (trace.get i) := by
  refine ⟨fun h i => h _ _ (trace.drop (i + 1)) ?_, fun h before event after heq => ?_⟩
  · rw [List.get_eq_getElem, List.getElem_cons_drop, List.take_append_drop]
  · subst heq
    have hevent := h ⟨before.length, by simp⟩
    simpa using hevent

instance [∀ before event, Decidable (Allowed before event)] : Decidable (Lawful Allowed trace) :=
  decidable_of_iff _ lawful_iff.symm

/-- What is allowed only for the first time happens once. -/
theorem Lawful.nodup {tag : ε → Option κ} (h : Lawful Allowed trace)
    (hfresh : ∀ before event key, Allowed before event → tag event = some key → ∀ e ∈ before, tag e ≠ some key) :
    (trace.filterMap tag).Nodup := by
  suffices ∀ done rest : List ε, trace = done ++ rest → (done.filterMap tag).Nodup →
      (trace.filterMap tag).Nodup from this [] trace rfl List.nodup_nil
  intro done rest
  induction rest generalizing done with
  | nil =>
    rintro rfl hd
    simpa using hd
  | cons event rest ih =>
    intro heq hd
    refine ih (done ++ [event]) (by simp [heq]) ?_
    cases htag : tag event with
    | none => simpa [htag] using hd
    | some key =>
      have hnew : key ∉ done.filterMap tag := fun hm => by
        obtain ⟨e, he, hk⟩ := List.mem_filterMap.1 hm
        exact hfresh done event key (h done event rest heq) htag e he hk
      rw [List.filterMap_append]
      refine List.Nodup.append hd (by simp [htag]) fun k hk hk' => hnew ?_
      have hkey : k = key := by simpa [htag] using hk'
      exact hkey ▸ hk

section History

variable [DecidableEq κ] {owner : ε → κ} {k : κ}

/-- The events of one participant. -/
def history (owner : ε → κ) (k : κ) (trace : List ε) : List ε := trace.filter fun event => owner event = k

@[simp] theorem history_nil : history owner k [] = [] := rfl

@[simp] theorem history_append (events : List ε) :
    history owner k (trace ++ events) = history owner k trace ++ history owner k events := List.filter_append ..

theorem history_sublist : (history owner k trace).Sublist trace := List.filter_sublist

theorem mem_history : event ∈ history owner k trace ↔ event ∈ trace ∧ owner event = k := by
  simp [history]

theorem history_own {events : List ε} (h : ∀ event ∈ events, owner event = k) : history owner k events = events :=
  List.filter_eq_self.2 fun event he => decide_eq_true (h event he)

theorem history_others {events : List ε} {k' : κ} (h : ∀ event ∈ events, owner event = k) (hne : k' ≠ k) :
    history owner k' events = [] :=
  List.filter_eq_nil_iff.2 fun event he heq => hne ((of_decide_eq_true heq).symm.trans (h event he))

end History

end EventTrace
