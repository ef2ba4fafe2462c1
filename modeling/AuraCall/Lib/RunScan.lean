import Mathlib.Data.List.TakeWhile

/-!
# Scans that stop after a run

A scan goes through a list and counts how many elements in a row have met a condition; one that does not meet it sets the
count back. It stops when the count has come to `n`. `scan_spec` says where: after the shortest prefix that ends with `n`
such elements, or not at all when no prefix does.
-/

universe u

namespace RunScan

variable {α : Type u} {p : α → Bool} {n run : Nat} {list before : List α}

/-- The last `n` elements are there and meet the condition. -/
def EndsWith (p : α → Bool) (n : Nat) (list : List α) : Prop :=
  ∃ tail, tail <:+ list ∧ tail.length = n ∧ ∀ a ∈ tail, p a

/-- How many elements are scanned, with `run` before them that meet the condition, and whether the scan stops there. -/
def scan (p : α → Bool) (n : Nat) : Nat → List α → Nat × Bool
  | _, [] => (0, false)
  | run, a :: rest =>
    if p a then
      if n ≤ run + 1 then (1, true)
      else ((scan p n (run + 1) rest).1 + 1, (scan p n (run + 1) rest).2)
    else ((scan p n 0 rest).1 + 1, (scan p n 0 rest).2)

/-- How many elements at the end meet the condition. -/
def trailing (p : α → Bool) (list : List α) : Nat := (list.reverse.takeWhile p).length

@[simp] theorem trailing_nil : trailing p [] = 0 := rfl

@[simp] theorem trailing_concat (a : α) : trailing p (list ++ [a]) = if p a then trailing p list + 1 else 0 := by
  unfold trailing
  rw [List.reverse_append, List.reverse_singleton, List.singleton_append, List.takeWhile_cons]
  by_cases h : p a
  · rw [if_pos h, if_pos h, List.length_cons]
  · rw [if_neg h, if_neg h, List.length_nil]

theorem endsWith_iff : EndsWith p n list ↔ n ≤ trailing p list := by
  constructor
  · rintro ⟨tail, ⟨first, rfl⟩, rfl, htail⟩
    unfold trailing
    have hall : ∀ a ∈ tail.reverse, p a := fun a ha => htail a (List.mem_reverse.1 ha)
    rw [List.reverse_append, List.takeWhile_append_of_pos hall, List.length_append, List.length_reverse]
    exact Nat.le_add_right _ _
  · intro h
    refine ⟨((list.reverse.takeWhile p).take n).reverse, ?_, ?_, fun a ha => ?_⟩
    · rw [← List.reverse_prefix, List.reverse_reverse]
      exact (List.take_prefix ..).trans (List.takeWhile_prefix p)
    · rw [List.length_reverse, List.length_take]
      exact Nat.min_eq_left h
    · exact List.mem_takeWhile_imp (List.mem_of_mem_take (List.mem_reverse.1 ha))

/-- The next element, after a prefix `before` that the scan has gone through. -/
theorem scan_cons (a : α) (hn : 0 < n) (rest : List α) :
    scan p n (trailing p before) (a :: rest) =
      if n ≤ trailing p (before ++ [a]) then (1, true)
      else ((scan p n (trailing p (before ++ [a])) rest).1 + 1, (scan p n (trailing p (before ++ [a])) rest).2) := by
  rw [scan, trailing_concat]
  by_cases h : p a
  · rw [if_pos h, if_pos h]
  · have hzero : ¬n ≤ 0 := Nat.not_le.2 hn
    rw [if_neg h, if_neg h, if_neg hzero]

/-- A scan that has come so far without stopping goes on to the shortest prefix that ends with `n`. -/
theorem scan_spec (hbefore : ∀ k ≤ before.length, ¬EndsWith p n (before.take k)) :
    (∀ k < before.length + (scan p n (trailing p before) list).1, ¬EndsWith p n ((before ++ list).take k)) ∧
    ((scan p n (trailing p before) list).2 = true ∧
        EndsWith p n ((before ++ list).take (before.length + (scan p n (trailing p before) list).1)) ∨
      (scan p n (trailing p before) list).2 = false ∧
        (scan p n (trailing p before) list).1 = list.length ∧ ¬EndsWith p n (before ++ list)) := by
  induction list generalizing before with
  | nil =>
    rw [List.append_nil]
    refine ⟨fun k hk => hbefore k (Nat.le_of_lt hk), .inr ⟨rfl, rfl, ?_⟩⟩
    simpa only [List.take_length] using hbefore before.length (Nat.le_refl _)
  | cons a rest ih =>
    have hpos : 0 < n := by
      by_contra hzero
      exact hbefore 0 (Nat.zero_le _) (endsWith_iff.2 (by omega))
    have hsplit : before ++ a :: rest = (before ++ [a]) ++ rest := by
      rw [List.append_assoc, List.singleton_append]
    have hlength : (before ++ [a]).length = before.length + 1 := by
      rw [List.length_append, List.length_singleton]
    rw [scan_cons a hpos]
    split
    next hends =>
      refine ⟨fun k hk => ?_, .inl ⟨rfl, ?_⟩⟩
      · have hk' : k ≤ before.length := Nat.lt_succ_iff.1 hk
        rw [List.take_append_of_le_length hk']
        exact hbefore k hk'
      · rw [hsplit, ← hlength, List.take_left, endsWith_iff]
        exact hends
    next hnot =>
      have hnext : ∀ k ≤ (before ++ [a]).length, ¬EndsWith p n ((before ++ [a]).take k) := by
        intro k hk
        rcases Nat.lt_or_ge before.length k with hlt | hle
        · rw [List.take_of_length_le (by omega), endsWith_iff]
          exact hnot
        · rw [List.take_append_of_le_length hle]
          exact hbefore k hle
      have hrest := ih hnext
      rw [← hsplit, hlength] at hrest
      obtain ⟨hshort, hend⟩ := hrest
      dsimp only
      rw [Nat.add_assoc, Nat.add_comm 1] at hshort hend
      refine ⟨hshort, hend.imp_right ?_⟩
      rintro ⟨hstop, hall, hwhole⟩
      exact ⟨hstop, congrArg (· + 1) hall, hwhole⟩

theorem not_endsWith_nil (hn : 0 < n) : ¬EndsWith p n [] := by
  rw [endsWith_iff, trailing_nil]
  exact Nat.not_le.2 hn

/-- **Where a scan from the start stops.** -/
theorem scan_zero_spec (hn : 0 < n) :
    (∀ k < (scan p n 0 list).1, ¬EndsWith p n (list.take k)) ∧
    ((scan p n 0 list).2 = true ∧ EndsWith p n (list.take (scan p n 0 list).1) ∨
      (scan p n 0 list).2 = false ∧ (scan p n 0 list).1 = list.length ∧ ¬EndsWith p n list) := by
  have hstart : ∀ k ≤ ([] : List α).length, ¬EndsWith p n (([] : List α).take k) := by
    intro k _
    rw [List.take_nil]
    exact not_endsWith_nil hn
  have h := @scan_spec _ _ _ list _ hstart
  rwa [trailing_nil, List.length_nil, Nat.zero_add, List.nil_append] at h

end RunScan
