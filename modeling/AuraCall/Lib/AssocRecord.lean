import Mathlib.Data.List.Basic

/-!
# Records as association lists

A record is a list of keys with values, and the first entry of a key counts. `assign` puts updates over a record: an
update gives a key a value, or takes it away.
-/

namespace AssocRecord

variable {κ α β : Type} [DecidableEq κ]

theorem lookup_map (record : List (κ × α)) (f : κ → α → β) (key : κ) :
    (record.map fun entry => (entry.1, f entry.1 entry.2)).lookup key = (record.lookup key).map (f key) := by
  induction record with
  | nil => rfl
  | cons entry rest ih =>
    rw [List.map_cons, List.lookup_cons, List.lookup_cons]
    by_cases h : key = entry.1
    · subst h
      simp
    · simp only [beq_false_of_ne h]
      exact ih

theorem lookup_filter (record : List (κ × α)) (p : κ → Bool) (key : κ) :
    (record.filter fun entry => p entry.1).lookup key = if p key then record.lookup key else none := by
  induction record with
  | nil => simp
  | cons entry rest ih =>
    by_cases hp : p entry.1 = true
    · rw [List.filter_cons_of_pos (p := fun entry : κ × α => p entry.1) hp, List.lookup_cons, List.lookup_cons]
      by_cases h : key = entry.1
      · subst h
        simp [hp]
      · rw [beq_false_of_ne h]
        exact ih
    · rw [List.filter_cons_of_neg (p := fun entry : κ × α => p entry.1) hp, List.lookup_cons]
      by_cases h : key = entry.1
      · subst h
        rw [ih, if_neg hp, if_neg hp]
      · rw [beq_false_of_ne h]
        exact ih

theorem lookup_of_not_mem {record : List (κ × α)} {key : κ} (h : ∀ entry ∈ record, entry.1 ≠ key) :
    record.lookup key = none := by
  rw [List.lookup_eq_none_iff]
  exact fun entry hentry => bne_iff_ne.2 (h entry hentry).symm

/-- What an update makes of a key. -/
def assigned (record : List (κ × α)) (updates : List (κ × Option α)) (key : κ) : Option α :=
  (updates.lookup key).getD (record.lookup key)

/-- The updates over the record; a key that both have keeps its place. -/
def assign (record : List (κ × α)) (updates : List (κ × Option α)) : List (κ × α) :=
  ((record.filter fun entry => (assigned record updates entry.1).isSome).map fun entry =>
    (entry.1, (assigned record updates entry.1).getD entry.2)) ++
  (updates.filter fun entry => (record.lookup entry.1).isNone).filterMap fun entry =>
    (updates.lookup entry.1).join.map fun value => (entry.1, value)

/-- **What is read after an update.** -/
theorem lookup_assign (record : List (κ × α)) (updates : List (κ × Option α)) (key : κ) :
    (assign record updates).lookup key = assigned record updates key := by
  have hnew : ∀ entries : List (κ × Option α), (entries.filterMap fun entry =>
      (updates.lookup entry.1).join.map fun value => (entry.1, value)).lookup key =
        (entries.lookup key).bind fun _ => (updates.lookup key).join := by
    intro entries
    induction entries with
    | nil => rfl
    | cons entry rest ih =>
      rw [List.filterMap_cons, List.lookup_cons]
      by_cases h : key = entry.1
      · subst h
        cases hvalue : (updates.lookup entry.1).join with
        | none =>
          rw [hvalue] at ih
          simp [ih]
        | some value => simp
      · rw [beq_false_of_ne h]
        cases (updates.lookup entry.1).join with
        | none => exact ih
        | some value =>
          simp only [Option.map_some, List.lookup_cons, beq_false_of_ne h]
          exact ih
  unfold assign
  rw [List.lookup_append, lookup_map (record.filter _) fun k value => (assigned record updates k).getD value,
    lookup_filter record fun k => (assigned record updates k).isSome, hnew,
    lookup_filter updates fun k => (record.lookup k).isNone]
  unfold assigned
  cases hrecord : record.lookup key with
  | none => cases hupdate : updates.lookup key <;> simp
  | some old =>
    cases hupdate : updates.lookup key with
    | none => simp
    | some value => cases value <;> simp

end AssocRecord
