import Mathlib.Algebra.BigOperators.Group.List.Basic
import Mathlib.Algebra.Order.BigOperators.Group.List
import Mathlib.Algebra.Order.Field.Rat
import Mathlib.Tactic.Linarith

/-!
# The weight of a window

Entries have a time and a weight, and count while their time is after a cutoff. Of entries in the order of their times,
`release` finds the first one without which, and without those before it, the rest is within a budget: the weight is within
the budget once the cutoff has reached its time, and at no earlier cutoff (`release_spec`).
-/

namespace WeightedWindow

variable {ε : Type} (time weight : ε → ℚ)

/-- The weight of the entries after the cutoff. -/
def weightAfter (cutoff : ℚ) (entries : List ε) : ℚ := ((entries.filter fun e => decide (cutoff < time e)).map weight).sum

/-- The first entry that brings the weight, which starts at `total`, within the budget. -/
def release (budget : ℚ) : ℚ → List ε → Option ε
  | _, [] => none
  | total, e :: entries =>
    if total - weight e ≤ budget then some e else release budget (total - weight e) entries

variable {time weight} {cutoff budget : ℚ} {entries entries' : List ε}

theorem weightAfter_perm (h : entries.Perm entries') :
    weightAfter time weight cutoff entries = weightAfter time weight cutoff entries' :=
  ((h.filter _).map weight).sum_eq

theorem weightAfter_cons (e : ε) (entries : List ε) : weightAfter time weight cutoff (e :: entries) =
    (if cutoff < time e then weight e else 0) + weightAfter time weight cutoff entries := by
  unfold weightAfter
  by_cases h : cutoff < time e <;> simp [h]

/-- Entries that do not count at a cutoff do not count at a later one. -/
theorem weightAfter_filter {first : ℚ} (h : first ≤ cutoff) (entries : List ε) :
    weightAfter time weight cutoff (entries.filter fun e => decide (first < time e)) =
      weightAfter time weight cutoff entries := by
  unfold weightAfter
  rw [List.filter_filter]
  congr 2
  refine List.filter_congr fun e _ => ?_
  by_cases he : cutoff < time e
  · simp [he, h.trans_lt he]
  · simp [he]

theorem weightAfter_filter_le (keep : ε → Bool) (h : ∀ e ∈ entries, 0 ≤ weight e) :
    weightAfter time weight cutoff (entries.filter keep) ≤ weightAfter time weight cutoff entries := by
  induction entries with
  | nil => exact le_refl _
  | cons e entries ih =>
    obtain ⟨he, hrest⟩ := List.forall_mem_cons.1 h
    have hle := ih hrest
    have hterm : 0 ≤ if cutoff < time e then weight e else 0 := by split <;> linarith
    rw [weightAfter_cons]
    by_cases hk : keep e = true
    · rw [List.filter_cons_of_pos hk, weightAfter_cons]
      linarith
    · rw [List.filter_cons_of_neg hk]
      linarith

theorem weightAfter_le_sum (h : ∀ e ∈ entries, 0 ≤ weight e) :
    weightAfter time weight cutoff entries ≤ (entries.map weight).sum := by
  induction entries with
  | nil => exact le_refl _
  | cons e entries ih =>
    obtain ⟨he, hrest⟩ := List.forall_mem_cons.1 h
    have hle := ih hrest
    have hterm : (if cutoff < time e then weight e else 0) ≤ weight e := by split <;> linarith
    rw [weightAfter_cons, List.map_cons, List.sum_cons]
    linarith

theorem weightAfter_eq_sum (h : ∀ e ∈ entries, cutoff < time e) :
    weightAfter time weight cutoff entries = (entries.map weight).sum := by
  unfold weightAfter
  rw [List.filter_eq_self.2 fun e he => decide_eq_true (h e he)]

theorem release_isSome (hbudget : 0 ≤ budget) : ∀ {entries : List ε} {total : ℚ}, total = (entries.map weight).sum →
    entries ≠ [] → ∃ e, release weight budget total entries = some e
  | e :: entries, total, htotal, _ => by
    rw [List.map_cons, List.sum_cons] at htotal
    unfold release
    split
    · exact ⟨e, rfl⟩
    · rename_i hover
      refine release_isSome hbudget (by linarith) ?_
      rintro rfl
      simp at htotal
      exact hover (by linarith)

/-- **The release is sound and minimal.** -/
theorem release_spec : ∀ {entries : List ε} {total : ℚ} {e : ε}, entries.Pairwise (fun a b => time a ≤ time b) →
    (∀ e ∈ entries, 0 ≤ weight e) → total = (entries.map weight).sum → budget < total →
    release weight budget total entries = some e →
    e ∈ entries ∧ weightAfter time weight (time e) entries ≤ budget ∧
      ∀ cutoff < time e, budget < weightAfter time weight cutoff entries
  | first :: entries, total, e, hsorted, hweights, htotal, hover, h => by
    obtain ⟨hfirst, hsorted⟩ := List.pairwise_cons.1 hsorted
    obtain ⟨hw, hweights⟩ := List.forall_mem_cons.1 hweights
    rw [List.map_cons, List.sum_cons] at htotal
    unfold release at h
    split at h
    · rename_i hwithin
      obtain rfl := Option.some.inj h
      refine ⟨List.mem_cons_self, ?_, fun cutoff hcutoff => ?_⟩
      · have hle : weightAfter time weight (time first) entries ≤ (entries.map weight).sum := weightAfter_le_sum hweights
        rw [weightAfter_cons, if_neg (lt_irrefl _)]
        linarith
      · rw [weightAfter_eq_sum fun a ha => ?_, List.map_cons, List.sum_cons]
        · linarith
        · rcases List.mem_cons.1 ha with rfl | ha
          · exact hcutoff
          · exact hcutoff.trans_le (hfirst a ha)
    · rename_i hmore
      obtain ⟨hm, hsound, hminimal⟩ := release_spec hsorted hweights (by linarith) (by linarith) h
      refine ⟨List.mem_cons_of_mem _ hm, ?_, fun cutoff hcutoff => ?_⟩
      · rw [weightAfter_cons, if_neg (not_lt.2 (hfirst e hm))]
        linarith
      · have hlt := hminimal cutoff hcutoff
        have hterm : 0 ≤ if cutoff < time first then weight first else 0 := by split <;> linarith
        rw [weightAfter_cons]
        linarith

end WeightedWindow
