/-!
# Lists as numbered tables

A table that grows at its end and whose entries are changed one at a time: what an entry was before.
-/

universe u

namespace Indexed

variable {α : Type u} {l : List α} {i index : Nat} {a b : α}

/-- An entry after one entry has been changed. -/
theorem modify_cases {f : α → α} (ha : l[index]? = some a) (h : (l.modify index f)[i]? = some b) :
    (i = index ∧ b = f a) ∨ (i ≠ index ∧ l[i]? = some b) := by
  simp only [List.getElem?_modify, Option.map_eq_map] at h
  by_cases hi : index = i
  · subst hi
    simp only [ha, if_true, Option.map_some, Option.some.injEq] at h
    exact .inl ⟨rfl, h.symm⟩
  · simp only [hi, if_false, Option.map_id'] at h
    exact .inr ⟨fun he => hi he.symm, h⟩

/-- An entry after one has been added. -/
theorem append_cases (h : (l ++ [a])[i]? = some b) : l[i]? = some b ∨ (i = l.length ∧ b = a) := by
  rcases Nat.lt_trichotomy i l.length with hi | rfl | hi
  · rw [List.getElem?_append_left hi] at h
    exact .inl h
  · simp only [List.getElem?_concat_length, Option.some.injEq] at h
    exact .inr ⟨rfl, h.symm⟩
  · rw [List.getElem?_eq_none (by simp; omega)] at h
    cases h

/-- An entry that stays, when another one is changed. -/
theorem getElem?_modify_ne {f : α → α} (hne : i ≠ index) (h : l[i]? = some a) : (l.modify index f)[i]? = some a := by
  rw [List.getElem?_modify_ne _ _ hne.symm, h]

/-- The entry that is changed. -/
theorem getElem?_modify_self {f : α → α} (h : l[index]? = some a) : (l.modify index f)[index]? = some (f a) := by
  simp [h]

/-- An entry stays where it is when one is added. -/
theorem getElem?_append (h : l[i]? = some a) : (l ++ [b])[i]? = some a := by
  rw [List.getElem?_append_left (List.getElem?_eq_some_iff.1 h).1]
  exact h

end Indexed
