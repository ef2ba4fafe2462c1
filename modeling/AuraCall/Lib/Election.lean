import Mathlib.Data.List.Nodup

/-!
# Elections that are recorded for good

A key can be claimed once: the claim is recorded and the record is never removed. The winner holds the key until it has
acted on it, or has given it up. An election is the record with the winners that have not acted yet and the keys that
were acted on, and `Election.Step` the moves that keep it sound.

`Election.Step.sound` is the invariant rule: nobody acts twice on one key, however many parties there are.
-/

universe u v

/-- The recorded keys, the parties that hold one, and the keys that were acted on. -/
structure Election (ι : Type u) (κ : Type v) where
  recorded : κ → Prop
  holds : ι → κ → Prop
  spent : List κ

namespace Election

variable {ι : Type u} {κ : Type v} {s s' : Election ι κ}

/-- The moves of an election. -/
inductive Step (s s' : Election ι κ) : Prop
  | elect (i : ι) (k : κ) : ¬s.recorded k → s'.recorded k → (∀ l, s.recorded l → s'.recorded l) →
      (∀ j l, s'.holds j l → s.holds j l ∨ (j = i ∧ l = k)) → s'.spent = s.spent → Step s s'
  | keep : (∀ l, s.recorded l → s'.recorded l) → (∀ j l, s'.holds j l → s.holds j l) → s'.spent = s.spent → Step s s'
  | spend (i : ι) (k : κ) : s.holds i k → (∀ l, s.recorded l → s'.recorded l) →
      (∀ j l, s'.holds j l → s.holds j l ∧ j ≠ i) → s'.spent = s.spent ++ [k] → Step s s'

/-- A held key is recorded and has one holder; a key that was acted on is recorded, held by nobody, and listed once. -/
structure Sound (s : Election ι κ) : Prop where
  unique : ∀ i j k, s.holds i k → s.holds j k → i = j
  held : ∀ i k, s.holds i k → s.recorded k
  ended : ∀ k ∈ s.spent, s.recorded k ∧ ∀ i, ¬s.holds i k
  nodup : s.spent.Nodup

/-- An election nobody has taken part in. -/
theorem Sound.of_fresh (h : ∀ i k, ¬s.holds i k) (hs : s.spent = []) : s.Sound where
  unique i _ k hi := absurd hi (h i k)
  held i k hi := absurd hi (h i k)
  ended k hk := by rw [hs] at hk; cases hk
  nodup := hs ▸ List.nodup_nil

/-- **The moves of an election keep it sound.** -/
theorem Step.sound (h : Step s s') (hs : s.Sound) : s'.Sound := by
  cases h with
  | elect i k hfresh hrecorded hmono hholds hspent =>
    -- a holder in the new state is an old one of another key, or the new one
    have hcase : ∀ j l, s'.holds j l → (s.holds j l ∧ l ≠ k) ∨ (j = i ∧ l = k) := fun j l hj =>
      (hholds j l hj).imp_left fun hold => ⟨hold, fun he => hfresh (he ▸ hs.held j l hold)⟩
    refine ⟨?_, ?_, ?_, hspent ▸ hs.nodup⟩
    · intro j j' l hj hj'
      rcases hcase j l hj with ⟨hj, hne⟩ | ⟨rfl, rfl⟩ <;> rcases hcase j' l hj' with ⟨hj', hne'⟩ | ⟨rfl, he⟩
      · exact hs.unique j j' l hj hj'
      · exact absurd he hne
      · exact absurd rfl hne'
      · rfl
    · intro j l hj
      rcases hcase j l hj with ⟨hj, _⟩ | ⟨_, rfl⟩
      · exact hmono l (hs.held j l hj)
      · exact hrecorded
    · intro l hl
      obtain ⟨hrec, hnone⟩ := hs.ended l (hspent ▸ hl)
      refine ⟨hmono l hrec, fun j hj => ?_⟩
      rcases hcase j l hj with ⟨hj, _⟩ | ⟨_, rfl⟩
      · exact hnone j hj
      · exact hfresh hrec
  | keep hmono hholds hspent =>
    exact ⟨fun j j' l hj hj' => hs.unique j j' l (hholds j l hj) (hholds j' l hj'),
      fun j l hj => hmono l (hs.held j l (hholds j l hj)),
      fun l hl => ⟨hmono l (hs.ended l (hspent ▸ hl)).1, fun j hj => (hs.ended l (hspent ▸ hl)).2 j (hholds j l hj)⟩,
      hspent ▸ hs.nodup⟩
  | spend i k hheld hmono hholds hspent =>
    refine ⟨fun j j' l hj hj' => hs.unique j j' l (hholds j l hj).1 (hholds j' l hj').1,
      fun j l hj => hmono l (hs.held j l (hholds j l hj).1), ?_, ?_⟩
    · intro l hl
      rw [hspent] at hl
      rcases List.mem_append.1 hl with hl | hl
      · exact ⟨hmono l (hs.ended l hl).1, fun j hj => (hs.ended l hl).2 j (hholds j l hj).1⟩
      · rw [List.mem_singleton.1 hl]
        -- the only holder of the key has acted on it
        exact ⟨hmono k (hs.held i k hheld), fun j hj => (hholds j k hj).2 (hs.unique j i k (hholds j k hj).1 hheld)⟩
    · rw [hspent]
      exact List.nodup_append_comm.1 (List.nodup_cons.2 ⟨fun hk => (hs.ended k hk).2 i hheld, hs.nodup⟩)

end Election
