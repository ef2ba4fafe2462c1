import Mathlib.Data.List.Count

/-!
# Choosing the least loaded

Each choice adds one to the load of what is chosen, and goes to one that is least loaded at that moment. In the end whatever
was chosen at all has a load at most one above that of any other (`Greedy.load_le`).
-/

namespace LeastLoaded

variable {ι : Type} [DecidableEq ι] {member : ι → Prop} {base : ι → Nat}

/-- The load after the choices. -/
def load (base : ι → Nat) (chosen : List ι) (i : ι) : Nat := base i + chosen.count i

/-- Every choice is a member, and is least loaded when it is made. -/
def Greedy (member : ι → Prop) (base : ι → Nat) (chosen : List ι) : Prop :=
  ∀ before i after, chosen = before ++ i :: after →
    member i ∧ ∀ j, member j → load base before i ≤ load base before j

theorem Greedy.nil : Greedy member base [] := fun before i after h => by simp at h

theorem Greedy.cons {i : ι} {chosen : List ι} (hi : member i) (hmin : ∀ j, member j → base i ≤ base j)
    (h : Greedy member (fun j => base j + if j = i then 1 else 0) chosen) : Greedy member base (i :: chosen) := by
  intro before k after heq
  cases before with
  | nil =>
    obtain ⟨rfl, -⟩ := List.cons.inj heq
    exact ⟨hi, fun j hj => by simpa [load] using hmin j hj⟩
  | cons first before =>
    obtain ⟨rfl, heq'⟩ := List.cons.inj heq
    obtain ⟨hk, hleast⟩ := h before k after heq'
    refine ⟨hk, fun j hj => ?_⟩
    have hload : ∀ l, load base (i :: before) l = load (fun j => base j + if j = i then 1 else 0) before l := by
      intro l
      by_cases hl : l = i
      · subst hl
        simp [load]
        omega
      · simp [load, hl, Ne.symm hl]
    rw [hload, hload]
    exact hleast j hj

theorem load_append (base : ι → Nat) (chosen chosen' : List ι) (i : ι) :
    load base (chosen ++ chosen') i = load base chosen i + chosen'.count i := by
  rw [load, load, List.count_append, Nat.add_assoc]

/-- **The balance**: what was chosen has a load at most one above that of any other. -/
theorem Greedy.load_le {chosen : List ι} (h : Greedy member base chosen) {i j : ι} (hi : i ∈ chosen) (hj : member j) :
    load base chosen i ≤ load base chosen j + 1 := by
  -- it is least loaded the last time that it is chosen
  obtain ⟨later, earlier, heq, hnot⟩ := List.eq_append_cons_of_mem (List.mem_reverse.2 hi)
  have hsplit : chosen = earlier.reverse ++ i :: later.reverse := by
    rw [← List.reverse_reverse chosen, heq]
    simp
  have hlast : later.reverse.count i = 0 := List.count_eq_zero.2 fun h => hnot (List.mem_reverse.1 h)
  have hmin := (h _ _ _ hsplit).2 j hj
  rw [hsplit, load_append, load_append, List.count_cons_self, hlast]
  omega

end LeastLoaded
