import Mathlib.Logic.Function.Basic

/-!
# Records as texts

Fields written one after another, each character marked, so that the text says where a field ends: different lists of
fields have different texts. It stands in for a digest or a serialization where only that is asked of it.
-/

namespace FieldText

/-- The characters, each with a mark, and the end. -/
def marked (text : List Char) : List Char := text.flatMap (['+', ·]) ++ ['.']

theorem marked_append_inj {a b x y : List Char} (h : marked a ++ x = marked b ++ y) : a = b ∧ x = y := by
  induction a generalizing b with
  | nil =>
    cases b with
    | nil => simpa [marked] using h
    | cons => simp [marked] at h
  | cons c a ih =>
    cases b with
    | nil => simp [marked] at h
    | cons d b =>
      simp only [marked, List.flatMap_cons, List.cons_append, List.nil_append, List.append_assoc, List.cons.injEq,
        true_and] at h
      obtain ⟨rfl, h⟩ := h
      obtain ⟨hab, hxy⟩ := ih (by simpa [marked] using h)
      exact ⟨congrArg _ hab, hxy⟩

def ofFields (fields : List String) : String := String.ofList (fields.flatMap fun field => marked field.toList)

theorem ofFields_injective : Function.Injective ofFields := by
  intro l m h
  have hlist := String.ofList_injective h
  clear h
  induction l generalizing m with
  | nil =>
    cases m with
    | nil => rfl
    | cons => simp [marked] at hlist
  | cons a l ih =>
    cases m with
    | nil => simp [marked] at hlist
    | cons b m =>
      obtain ⟨hab, hlm⟩ := marked_append_inj hlist
      rw [String.toList_injective hab, ih hlm]

/-- A field that may be missing. -/
def optional (field : Option String) : String := field.elim "" ("=" ++ ·)

theorem optional_injective : Function.Injective optional := by
  intro a b h
  cases a <;> cases b <;> simp_all [optional]

/-- A number as a field. -/
def count (n : Nat) : String := String.ofList (List.replicate n '|')

theorem count_injective : Function.Injective count := by
  intro m n h
  have hlength := congrArg List.length (String.ofList_injective h)
  simpa using hlength

end FieldText
