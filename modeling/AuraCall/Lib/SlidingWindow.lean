import Mathlib.Data.List.Basic
import Mathlib.Data.List.Forall2
import Mathlib.Data.List.Induction
import Mathlib.Data.List.Perm.Subperm

/-!
# Limits over sliding windows

A log to which an entry is appended only when fewer than `limit` of the entries before it count at the entry's own
cutoff (`Metered`). Entries may change later, as long as no entry begins to count (`Metered.change`).

When of any two entries of a set the earlier one counts at the cutoff of the later one, the set has at most `limit`
entries (`Metered.countP_le`): all but the last one were counted when the last one was appended. The windows that are
compared with the limit need not be those the cutoffs belong to.

A count of keys counts all entries of a window if no two of them have one key (`Spaced.countP_le`).
-/

namespace SlidingWindow

variable {ε : Type} {limit : Int} {metered : ε → Bool} {cutoff : ε → Int} {counts : Int → ε → Bool} {log : List ε}

/-- Before each metered entry, fewer than `limit` entries count at its cutoff. -/
def Metered (limit : Int) (metered : ε → Bool) (cutoff : ε → Int) (counts : Int → ε → Bool) (log : List ε) : Prop :=
  ∀ earlier entry later, log = earlier ++ entry :: later → metered entry = true →
    (earlier.countP (counts (cutoff entry)) : Int) < limit

theorem Metered.nil : Metered limit metered cutoff counts [] :=
  fun _ _ _ h => absurd h.symm (List.append_ne_nil_of_right_ne_nil _ (List.cons_ne_nil _ _))

/-- Append an entry that has been checked. -/
theorem Metered.append {entry : ε} (h : Metered limit metered cutoff counts log)
    (hentry : metered entry = true → (log.countP (counts (cutoff entry)) : Int) < limit) :
    Metered limit metered cutoff counts (log ++ [entry]) := by
  intro earlier entry' later hsplit hm
  rcases later.eq_nil_or_concat' with rfl | ⟨later, last, rfl⟩
  · obtain ⟨rfl, hlast⟩ := List.append_inj' hsplit rfl
    cases hlast
    exact hentry hm
  · rw [← List.cons_append, ← List.append_assoc] at hsplit
    exact h earlier entry' later (List.append_inj' hsplit rfl).1 hm

theorem Metered.init {entry : ε} (h : Metered limit metered cutoff counts (log ++ [entry])) :
    Metered limit metered cutoff counts log :=
  fun earlier entry' later hsplit hm => h earlier entry' (later ++ [entry]) (by simp [hsplit]) hm

theorem Metered.last {entry : ε} (h : Metered limit metered cutoff counts (log ++ [entry]))
    (hm : metered entry = true) : (log.countP (counts (cutoff entry)) : Int) < limit :=
  h log entry [] rfl hm

/-! ## Changes -/

/-- A count goes down when no entry begins to count. -/
theorem countP_le_of_forall₂ {R : ε → ε → Prop} {p q : ε → Bool} {log' : List ε} (h : List.Forall₂ R log log')
    (hpq : ∀ entry entry', R entry entry' → q entry' = true → p entry = true) : log'.countP q ≤ log.countP p := by
  induction h with
  | nil => exact Nat.le_refl _
  | @cons entry entry' _ _ hr _ ih =>
    simp only [List.countP_cons]
    have hle : (if q entry' = true then 1 else 0) ≤ if p entry = true then 1 else 0 := by
      by_cases hq : q entry' = true
      · simp [hq, hpq _ _ hr hq]
      · simp [hq]
    omega

/-- Changes under which no entry becomes metered, moves its cutoff, or begins to count. -/
theorem Metered.change {R : ε → ε → Prop} {log' : List ε} (h : Metered limit metered cutoff counts log)
    (hall : List.Forall₂ R log log')
    (hm : ∀ entry entry', R entry entry' → metered entry' = true → metered entry = true ∧ cutoff entry' = cutoff entry)
    (hc : ∀ c entry entry', R entry entry' → counts c entry' = true → counts c entry = true) :
    Metered limit metered cutoff counts log' := by
  rintro earlier' entry' later' rfl hm'
  have hearlier := List.forall₂_take_append _ _ _ hall
  obtain ⟨entry, later, hentry, -, hdrop⟩ := List.forall₂_cons_right_iff.1 (List.forall₂_drop_append _ _ _ hall)
  obtain ⟨hmetered, hcutoff⟩ := hm _ _ hentry hm'
  have hcount := countP_le_of_forall₂ hearlier (hc (cutoff entry))
  have hchecked := h _ entry later (hdrop ▸ (List.take_append_drop _ log).symm) hmetered
  rw [hcutoff]
  omega

/-! ## The bound -/

/-- **A set of metered entries, each of which counts at the cutoff of every other one, has at most `limit` entries.** -/
theorem Metered.countP_le {p : ε → Bool} (h : Metered limit metered cutoff counts log) (hlimit : 0 ≤ limit)
    (hmetered : ∀ entry ∈ log, p entry = true → metered entry = true)
    (hcounts : ∀ entry ∈ log, ∀ other ∈ log, p entry = true → p other = true → counts (cutoff entry) other = true) :
    (log.countP p : Int) ≤ limit := by
  induction log using List.reverseRecOn with
  | nil => simpa using hlimit
  | append_singleton log last ih =>
    have hmem : ∀ entry ∈ log, entry ∈ log ++ [last] := fun entry he => List.mem_append_left _ he
    by_cases hp : p last = true
    · -- the others have been counted for the last one
      have hlast := h.last (hmetered last (by simp) hp)
      have hle : log.countP p ≤ log.countP (counts (cutoff last)) :=
        List.countP_mono_left fun other ho hpo => hcounts last (by simp) other (hmem other ho) hp hpo
      simp only [List.countP_append, List.countP_cons, List.countP_nil, hp, if_true]
      omega
    · simp only [List.countP_append, List.countP_cons, List.countP_nil, hp]
      simpa using ih h.init (fun entry he => hmetered entry (hmem entry he)) fun entry he other ho =>
        hcounts entry (hmem entry he) other (hmem other ho)

/-! ## Counting by keys -/

section Keys

variable {κ : Type} {p q : ε → Bool} {key : ε → κ} {time : ε → Int} {window : Int}

/-- An entry of a set comes more than a window after every earlier entry with its key. -/
def Spaced (p : ε → Bool) (key : ε → κ) (time : ε → Int) (window : Int) (log : List ε) : Prop :=
  log.Pairwise fun earlier entry => p entry = true → key earlier = key entry → time earlier < time entry - window

theorem Spaced.append {entry : ε} (h : Spaced p key time window log)
    (hentry : p entry = true → ∀ earlier ∈ log, key earlier = key entry → time earlier < time entry - window) :
    Spaced p key time window (log ++ [entry]) := by
  refine List.pairwise_append.2 ⟨h, List.pairwise_singleton _ _, fun earlier hearlier last hlast => ?_⟩
  rw [List.mem_singleton.1 hlast]
  exact fun hp => hentry hp earlier hearlier

/-- **Within one window, a count of the keys is a count of the entries.** -/
theorem Spaced.countP_le {c : Int} {keys : List κ} (h : Spaced p key time window log)
    (hwithin : ∀ entry ∈ log, q entry = true → p entry = true ∧ c ≤ time entry ∧ time entry ≤ c + window)
    (hkeys : ∀ entry ∈ log, q entry = true → key entry ∈ keys) : log.countP q ≤ keys.length := by
  have hnodup : ((log.filter q).map key).Nodup := by
    rw [List.Nodup, List.pairwise_map]
    refine (List.Pairwise.filter q h).imp_of_mem fun {earlier entry} hearlier hentry hspaced hsame => ?_
    obtain ⟨hm, hq⟩ := List.mem_filter.1 hentry
    obtain ⟨hm', hq'⟩ := List.mem_filter.1 hearlier
    have hlate := hspaced (hwithin entry hm hq).1 hsame
    have hlow := (hwithin earlier hm' hq').2.1
    have hhigh := (hwithin entry hm hq).2.2
    omega
  rw [List.countP_eq_length_filter, ← List.length_map key]
  refine (List.subperm_of_subset hnodup fun k hk => ?_).length_le
  obtain ⟨entry, hentry, rfl⟩ := List.mem_map.1 hk
  obtain ⟨hm, hq⟩ := List.mem_filter.1 hentry
  exact hkeys entry hm hq

end Keys

end SlidingWindow
