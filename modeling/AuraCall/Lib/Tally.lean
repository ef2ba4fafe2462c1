import Mathlib.Algebra.GroupWithZero.Nat
import Mathlib.Data.List.Nodup
import Mathlib.Data.List.Perm.Basic
import Mathlib.Logic.Function.Basic

/-!
# Tallies

A tally counts events by their keys. The tally of a log is the number of its entries with each key, so that counting
one by one or many at once (`of_append_replicate`) comes to the same, and the counts of all keys add up to the length of
the log (`sum_of`).

`exists_perm_map` takes a permutation of the images back to the things themselves, and `exists_log` takes a log of the
images to a log of the things.
-/

namespace Tally

variable {κ : Type} [DecidableEq κ]

/-- `counts[key] += n`. -/
def add (counts : κ → Nat) (key : κ) (n : Nat) : κ → Nat := Function.update counts key (counts key + n)

/-- The number of entries with each key. -/
def of (log : List κ) : κ → Nat := fun key => log.count key

@[simp] theorem of_nil : of ([] : List κ) = fun _ => 0 := rfl

theorem of_append_replicate (log : List κ) (key : κ) (n : Nat) :
    of (log ++ List.replicate n key) = add (of log) key n := by
  funext other
  unfold of add
  rw [List.count_append, List.count_replicate, Function.update_apply]
  by_cases h : other = key
  · subst h
    simp
  · simp [h, Ne.symm h]

theorem of_append_singleton (log : List κ) (key : κ) : of (log ++ [key]) = add (of log) key 1 :=
  of_append_replicate log key 1

/-- The counts of one more entry. -/
theorem sum_cons (keys : List κ) (key : κ) (log : List κ) :
    (keys.map (of (key :: log))).sum = (keys.map (of log)).sum + keys.count key := by
  induction keys with
  | nil => rfl
  | cons k keys ih =>
    simp only [List.map_cons, List.sum_cons, List.count_cons, ih, of]
    by_cases h : key = k
    · subst h
      simp
      omega
    · simp [h, Ne.symm h]
      omega

/-- **The counts add up.** -/
theorem sum_of {keys log : List κ} (hkeys : keys.Nodup) (h : ∀ key ∈ log, key ∈ keys) :
    (keys.map (of log)).sum = log.length := by
  induction log with
  | nil => simp
  | cons key log ih =>
    have hone := List.count_eq_one_of_mem hkeys (h key List.mem_cons_self)
    have hrest := ih fun other hother => h other (List.mem_cons_of_mem _ hother)
    rw [sum_cons, hone, hrest, List.length_cons]

end Tally

namespace Tally

/-! ## Back from images -/

/-- **A permutation of the images comes from a permutation.** -/
theorem exists_perm_map {α β : Type} {f : α → β} {images : List β} {originals : List α}
    (h : images.Perm (originals.map f)) : ∃ permuted : List α, permuted.Perm originals ∧ permuted.map f = images := by
  generalize hmapped : originals.map f = mapped at h
  induction h generalizing originals with
  | nil => exact ⟨[], by rw [List.map_eq_nil_iff.1 hmapped], rfl⟩
  | cons b _ ih =>
    obtain ⟨a, rest, rfl, rfl, hrest⟩ := List.map_eq_cons_iff.1 hmapped
    obtain ⟨permuted, hperm, hmap⟩ := ih hrest
    exact ⟨a :: permuted, hperm.cons a, by rw [List.map_cons, hmap]⟩
  | swap b b' _ =>
    obtain ⟨a, rest, rfl, rfl, hrest⟩ := List.map_eq_cons_iff.1 hmapped
    obtain ⟨a', rest, rfl, rfl, rfl⟩ := List.map_eq_cons_iff.1 hrest
    exact ⟨a' :: a :: rest, List.Perm.swap a a' rest, rfl⟩
  | trans _ _ ih ih' =>
    obtain ⟨middle, hmiddle, hmap⟩ := ih' hmapped
    obtain ⟨permuted, hperm, hmap'⟩ := ih hmap
    exact ⟨permuted, hperm.trans hmiddle, hmap'⟩

theorem exists_log {α β ι : Type} {f : α → β} {log : List (β × ι)} {originals : List α}
    (h : (log.map (·.1)).Perm (originals.map f)) :
    ∃ lifted : List (α × ι), (lifted.map (·.1)).Perm originals ∧ lifted.map (Prod.map f id) = log := by
  obtain ⟨permuted, hperm, hmap⟩ := exists_perm_map h
  suffices hlift : ∃ lifted : List (α × ι), lifted.map (·.1) = permuted ∧ lifted.map (Prod.map f id) = log by
    obtain ⟨lifted, hfirst, hlog⟩ := hlift
    exact ⟨lifted, hfirst ▸ hperm, hlog⟩
  clear hperm h
  induction log generalizing permuted with
  | nil => exact ⟨[], (List.map_eq_nil_iff.1 hmap).symm, rfl⟩
  | cons entry log ih =>
    obtain ⟨a, rest, rfl, ha, hrest⟩ := List.map_eq_cons_iff.1 hmap
    obtain ⟨lifted, hfirst, hlog⟩ := ih rest hrest
    exact ⟨(a, entry.2) :: lifted, by rw [List.map_cons, hfirst], by rw [List.map_cons, hlog, Prod.map_apply, ha]; rfl⟩

end Tally
