/-!
# Exclusive files

A lock kept as a file at one path: a party creates the file only when there is none, and owns it until it gives up its
claim. A slot is the file at the path with the claims of the parties, and `Slot.Step` the moves that keep it exclusive:
creating into an empty slot, giving up claims, and removing a file that nobody is left to own.

`Slot.Step.exclusive` is the invariant rule of a lock protocol: it has to show of each of its steps that it is a move.
-/

universe u v

/-- The file at the path, and which party owns which file. -/
structure Slot (ι : Type u) (φ : Type v) where
  file : Option φ
  owns : ι → φ → Prop

namespace Slot

variable {ι : Type u} {φ : Type v} {s s' : Slot ι φ}

/-- The moves that keep a slot exclusive. -/
inductive Step (s s' : Slot ι φ) : Prop
  | create (i : ι) (f : φ) : s.file = none → s'.file = some f →
      (∀ j g, s'.owns j g → s.owns j g ∨ (j = i ∧ g = f)) → Step s s'
  | leave : s'.file = s.file → (∀ j g, s'.owns j g → s.owns j g) → Step s s'
  | unlink : s'.file = none → (∀ j g, s'.owns j g → s.owns j g ∧ s.file ≠ some g) → Step s s'

/-- Every owner's file is the one at the path, and there is one owner at most. -/
structure Exclusive (s : Slot ι φ) : Prop where
  present : ∀ i f, s.owns i f → s.file = some f
  unique : ∀ i j f g, s.owns i f → s.owns j g → i = j

theorem Exclusive.of_unowned (h : ∀ i f, ¬s.owns i f) : s.Exclusive :=
  ⟨fun i f ho => absurd ho (h i f), fun i _ f _ ho => absurd ho (h i f)⟩

/-- **The moves of a slot keep it exclusive.** -/
theorem Step.exclusive (h : Step s s') (he : s.Exclusive) : s'.Exclusive := by
  cases h with
  | create i f hnone hfile howns =>
    -- the slot was empty, so nobody owned anything
    have hfree : ∀ j g, ¬s.owns j g := fun j g ho => by
      have := he.present j g ho
      rw [hnone] at this
      cases this
    have hself : ∀ j g, s'.owns j g → j = i ∧ g = f := fun j g ho => (howns j g ho).resolve_left (hfree j g)
    exact ⟨fun j g ho => by rw [(hself j g ho).2, hfile],
      fun j k g g' ho ho' => (hself j g ho).1.trans (hself k g' ho').1.symm⟩
  | leave hfile howns =>
    exact ⟨fun j g ho => by rw [hfile, he.present j g (howns j g ho)],
      fun j k g g' ho ho' => he.unique j k g g' (howns j g ho) (howns k g' ho')⟩
  | unlink hfile howns =>
    refine .of_unowned fun j g ho => ?_
    obtain ⟨hold, hne⟩ := howns j g ho
    exact hne (he.present j g hold)

end Slot
