import Mathlib.Data.Finset.Card
import Mathlib.Data.List.Sort

/-!
# Rotation

Turns are given to those that have waited longest. A turn that moves the one at the head behind all that wait leaves one
less waiting (`none_waits`). As many picks as there are turns, each of one that has not been picked while one is left,
pick each once (`picks_perm`).
-/

namespace AuraCall.Rotation

variable {α : Type}

/-- No element comes before the head of the sorted list, in a preorder that the sorting respects. -/
theorem head_insertionSort (le : α → α → Prop) {r : α → α → Prop} [DecidableRel r] (hrefl : ∀ a, le a a)
    (htrans : ∀ a b c, le a b → le b c → le a c) (hr : ∀ a b, r a b → le a b) (hnot : ∀ a b, ¬r a b → le b a) :
    ∀ {l : List α} {head : α} {rest : List α}, l.insertionSort r = head :: rest → ∀ a ∈ l, le head a
  | [], _, _, h, _, ha => absurd ha List.not_mem_nil
  | first :: l, head, rest, h, a, ha => by
    rw [List.insertionSort_cons] at h
    cases hsorted : l.insertionSort r with
    | nil =>
      have hempty : l = [] := List.perm_nil.1 (hsorted ▸ (List.perm_insertionSort r l).symm)
      rw [hsorted, List.orderedInsert_nil] at h
      cases h
      rw [hempty, List.mem_singleton] at ha
      rw [ha]
      exact hrefl _
    | cons least others =>
      have hleast := head_insertionSort le hrefl htrans hr hnot hsorted
      rw [hsorted, List.orderedInsert_cons] at h
      split at h
      · rename_i hbefore
        cases h
        rcases List.mem_cons.1 ha with rfl | ha
        · exact hrefl _
        · exact htrans _ _ _ (hr _ _ hbefore) (hleast a ha)
      · rename_i hbefore
        cases h
        rcases List.mem_cons.1 ha with rfl | ha
        · exact hnot _ _ hbefore
        · exact hleast a ha

/-- What stands in order before all the others stays in front of them. -/
theorem insertionSort_append {r : α → α → Prop} [DecidableRel r] {l : List α} : ∀ {front : List α},
    front.Pairwise r → (∀ a ∈ front, ∀ b ∈ l, r a b) → (front ++ l).insertionSort r = front ++ l.insertionSort r
  | [], _, _ => rfl
  | a :: front, hp, hl => by
    obtain ⟨ha, hp⟩ := List.pairwise_cons.mp hp
    rw [List.cons_append, List.insertionSort_cons,
      insertionSort_append hp fun b hb => hl b (List.mem_cons_of_mem _ hb), List.cons_append]
    have hbefore : ∀ b ∈ front ++ l.insertionSort r, r a b := by
      intro b hb
      rcases List.mem_append.mp hb with hb | hb
      · exact ha b hb
      · exact hl a (List.mem_cons_self ..) b ((List.mem_insertionSort r).mp hb)
    cases hsorted : front ++ l.insertionSort r with
    | nil => rfl
    | cons b rest =>
      rw [hsorted] at hbefore
      exact List.orderedInsert_cons_of_le r rest (hbefore b (List.mem_cons_self ..))

/-- **Every one gets its turn.** Those that wait only become fewer, and each round serves one of them. -/
theorem none_waits [DecidableEq α] {waits : ℕ → α → Prop} {turns : Finset α} {n : ℕ}
    (hstays : ∀ i < n, ∀ a, waits (i + 1) a → waits i a)
    (hserves : ∀ i < n, ∀ a ∈ turns, waits i a → ∃ served ∈ turns, waits i served ∧ ¬waits (i + 1) served)
    (hn : turns.card ≤ n) : ∀ a ∈ turns, ¬waits n a := by
  classical
  have hfewer : ∀ i ≤ n, (turns.filter (waits i)).card ≤ turns.card - i := by
    intro i
    induction i with
    | zero => exact fun _ => Finset.card_filter_le _ _
    | succ i ih =>
      intro hi
      have hsubset : turns.filter (waits (i + 1)) ⊆ turns.filter (waits i) := by
        intro a ha
        obtain ⟨hmem, hwaits⟩ := Finset.mem_filter.1 ha
        exact Finset.mem_filter.2 ⟨hmem, hstays i hi a hwaits⟩
      have hbefore := ih (by omega)
      rcases Finset.eq_empty_or_nonempty (turns.filter (waits i)) with hempty | ⟨a, ha⟩
      · rw [hempty, Finset.subset_empty] at hsubset
        rw [hsubset]
        exact Nat.zero_le _
      · obtain ⟨hmem, hwaits⟩ := Finset.mem_filter.1 ha
        obtain ⟨served, hserved, hwaited, hdone⟩ := hserves i hi a hmem hwaits
        have hlt : (turns.filter (waits (i + 1))).card < (turns.filter (waits i)).card := by
          refine Finset.card_lt_card ⟨hsubset, fun hall => ?_⟩
          exact hdone (Finset.mem_filter.1 (hall (Finset.mem_filter.2 ⟨hserved, hwaited⟩))).2
        omega
  intro a ha hwaits
  have hnone := hfewer n le_rfl
  rw [Nat.sub_eq_zero_of_le hn, Nat.le_zero, Finset.card_eq_zero] at hnone
  exact absurd (Finset.mem_filter.2 ⟨ha, hwaits⟩) (hnone ▸ Finset.notMem_empty a)

/-- Picks among some turns, each of one that none of the earlier picks was, if there is one. -/
def Fresh (turns : List α) : List α → List α → Prop
  | _, [] => True
  | picked, pick :: picks =>
    pick ∈ turns ∧ ((∃ turn ∈ turns, turn ∉ picked) → pick ∉ picked) ∧ Fresh turns (pick :: picked) picks

/-- **Each turn is picked once.** -/
theorem picks_perm {turns : List α} (hn : turns.Nodup) : ∀ {picks picked : List α}, Fresh turns picked picks →
    picked.Nodup → picked ⊆ turns → picked.length + picks.length = turns.length → (picks.reverse ++ picked).Perm turns
  | [], picked, _, hnodup, hsub, hlen => by
    rw [List.reverse_nil, List.nil_append]
    exact (hnodup.subperm hsub).perm_of_length_le (by rw [← hlen, List.length_nil, Nat.add_zero])
  | pick :: picks, picked, h, hnodup, hsub, hlen => by
    obtain ⟨hmem, hfresh, hrest⟩ := h
    rw [List.length_cons] at hlen
    have hleft : ∃ turn ∈ turns, turn ∉ picked := by
      by_contra hall
      push Not at hall
      have := (hn.subperm hall).length_le
      omega
    have hnodup' : (pick :: picked).Nodup := List.nodup_cons.mpr ⟨hfresh hleft, hnodup⟩
    have hsub' : pick :: picked ⊆ turns := List.cons_subset.mpr ⟨hmem, hsub⟩
    rw [List.reverse_cons, List.append_assoc, List.singleton_append]
    exact picks_perm hn hrest hnodup' hsub' (by rw [List.length_cons]; omega)

end AuraCall.Rotation
