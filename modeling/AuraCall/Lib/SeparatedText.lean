import Mathlib.Data.List.Basic

/-!
# Texts that say where they end

A text is followed by nothing or by a stop character. Texts without stop characters are told apart, whatever follows
(`token_append_inj`). A list of texts is written with a comma between them and a closing character after them.
-/

namespace SeparatedText

variable {γ : Type} {stop : γ → Bool}

/-- Nothing follows, or a stop character. -/
def Stopped (stop : γ → Bool) (rest : List γ) : Prop := ∀ c ∈ rest.head?, stop c = true

@[simp] theorem stopped_cons {c : γ} {rest : List γ} : Stopped stop (c :: rest) ↔ stop c = true := by
  simp [Stopped]

@[simp] theorem stopped_nil : Stopped stop [] := by
  simp [Stopped]

/-- A text that no stop character stands in. -/
def Token (stop : γ → Bool) (text : List γ) : Prop := ∀ c ∈ text, stop c = false

theorem token_append_inj {s t x y : List γ} (hs : Token stop s) (ht : Token stop t) (hx : Stopped stop x)
    (hy : Stopped stop y) (h : s ++ x = t ++ y) : s = t ∧ x = y := by
  induction s generalizing t with
  | nil =>
    cases t with
    | nil => exact ⟨rfl, h⟩
    | cons d t =>
      rw [List.nil_append] at h
      rw [h, List.cons_append, stopped_cons] at hx
      rw [ht d List.mem_cons_self] at hx
      cases hx
  | cons c s ih =>
    cases t with
    | nil =>
      rw [List.nil_append] at h
      rw [← h, List.cons_append, stopped_cons] at hy
      rw [hs c List.mem_cons_self] at hy
      cases hy
    | cons d t =>
      obtain ⟨rfl, htail⟩ := List.cons.inj h
      obtain ⟨rfl, hxy⟩ := ih (fun e he => hs e (List.mem_cons_of_mem _ he))
        (fun e he => ht e (List.mem_cons_of_mem _ he)) htail
      exact ⟨rfl, hxy⟩

/-! ## Lists of texts -/

/-- The texts, each after a comma, and what closes the list. -/
def followed (comma close : γ) : List (List γ) → List γ
  | [] => [close]
  | text :: texts => comma :: text ++ followed comma close texts

/-- The texts, with commas between them, and what closes the list. -/
def listed (comma close : γ) : List (List γ) → List γ
  | [] => [close]
  | text :: texts => text ++ followed comma close texts

end SeparatedText
