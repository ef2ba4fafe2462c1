import Mathlib.Data.List.Basic

/-!
# Counters that are read, stored and taken back

A log of entries, some of which hold a key with a rank: the count of the key that was stored when the entry was
appended. In a ranked log the entries that hold a key have the ranks 1, 2, 3, … in the order of the log.

Appending an entry with the next rank keeps the log ranked (`Ranked.push`). So does taking back the last entry of its
key (`Ranked.retract`), and after that the count is the rank less one. What is counted under a key is bounded by the
rank of its last entry (`Ranked.exists_rank`).
-/

namespace RankedLog

variable {ε κ : Type} [DecidableEq κ] {tag : ε → Option (κ × Nat)} {base : κ → Nat} {log : List ε}

/-- The number of entries that hold the key. -/
def count (tag : ε → Option (κ × Nat)) (key : κ) (log : List ε) : Nat :=
  log.countP fun entry => (tag entry).any fun held => held.1 = key

/-- Every entry that holds a key has the next rank, where the counts before the log are `base`. -/
def Ranked (tag : ε → Option (κ × Nat)) : (κ → Nat) → List ε → Prop
  | _, [] => True
  | base, entry :: log =>
    (∀ key rank, tag entry = some (key, rank) → rank = base key + 1) ∧
      Ranked tag (fun key => base key + count tag key [entry]) log

@[simp] theorem count_nil (key : κ) : count tag key [] = 0 := rfl

@[simp] theorem count_append (key : κ) (log log' : List ε) :
    count tag key (log ++ log') = count tag key log + count tag key log' := List.countP_append

theorem count_cons (key : κ) (entry : ε) (log : List ε) :
    count tag key (entry :: log) = count tag key [entry] + count tag key log := by
  rw [← List.singleton_append, count_append]

theorem count_split (key : κ) (before after : List ε) (entry : ε) :
    count tag key (before ++ entry :: after) = count tag key before + count tag key [entry] + count tag key after := by
  rw [count_append, count_cons key entry after, Nat.add_assoc]

theorem count_free {entry : ε} (h : tag entry = none) (key : κ) : count tag key [entry] = 0 := by
  simp [count, h]

theorem count_held {entry : ε} {held : κ × Nat} (h : tag entry = some held) (key : κ) :
    count tag key [entry] = if held.1 = key then 1 else 0 := by
  by_cases hk : held.1 = key <;> simp [count, h, hk]

theorem count_congr {entry entry' : ε} (h : tag entry' = tag entry) (key : κ) :
    count tag key [entry'] = count tag key [entry] := by
  simp [count, h]

theorem count_eq_zero {key : κ} :
    count tag key log = 0 ↔ ∀ entry ∈ log, ∀ rank, tag entry ≠ some (key, rank) := by
  unfold count
  rw [List.countP_eq_zero]
  constructor
  · intro h entry hm rank he
    apply h entry hm
    simp [he]
  · intro h entry hm hany
    obtain ⟨⟨key', rank⟩, he, hk⟩ := (Option.any_eq_true _ _).1 hany
    have hkey : key' = key := of_decide_eq_true hk
    exact h entry hm rank (hkey ▸ he)

theorem ranked_append : ∀ {log : List ε} {base : κ → Nat} {log' : List ε}, Ranked tag base (log ++ log') ↔
    Ranked tag base log ∧ Ranked tag (fun key => base key + count tag key log) log'
  | [], base, log' => by simp [Ranked]
  | entry :: log, base, log' => by
    have hcounts : (fun key => base key + count tag key (entry :: log)) =
        fun key => base key + count tag key [entry] + count tag key log := by
      funext key
      rw [count_cons, Nat.add_assoc]
    rw [List.cons_append, Ranked, Ranked, ranked_append, hcounts, and_assoc]

/-- The counts before the log matter for the keys it holds only. -/
theorem Ranked.congr : ∀ {log : List ε} {base base' : κ → Nat}, Ranked tag base log →
    (∀ key, count tag key log ≠ 0 → base' key = base key) → Ranked tag base' log
  | [], _, _, _, _ => trivial
  | entry :: log, base, base', ⟨hentry, hlog⟩, hbase => by
    refine ⟨?_, hlog.congr ?_⟩
    · intro key rank he
      have hne : count tag key (entry :: log) ≠ 0 := by
        rw [count_cons, count_held he]
        simp
      rw [hbase key hne]
      exact hentry key rank he
    · intro key hne
      have hne' : count tag key (entry :: log) ≠ 0 := by rw [count_cons]; omega
      show base' key + _ = base key + _
      rw [hbase key hne']

/-- Append an entry with the next rank, or one that holds nothing. -/
theorem Ranked.push (h : Ranked tag base log) {entry : ε}
    (hentry : ∀ key rank, tag entry = some (key, rank) → rank = base key + count tag key log + 1) :
    Ranked tag base (log ++ [entry]) :=
  ranked_append.2 ⟨h, hentry, trivial⟩

section Replace

variable {before after : List ε} {entry entry' : ε}

/-- The rank of an entry is the count before it and one. -/
theorem Ranked.rank (h : Ranked tag base (before ++ entry :: after)) {key : κ} {rank : Nat}
    (he : tag entry = some (key, rank)) : rank = base key + count tag key before + 1 :=
  (ranked_append.1 h).2.1 key rank he

/-- Put an entry that holds the same in the place of an entry. -/
theorem Ranked.replace (h : Ranked tag base (before ++ entry :: after)) (he : tag entry' = tag entry) :
    Ranked tag base (before ++ entry' :: after) := by
  obtain ⟨hbefore, hentry, hafter⟩ := ranked_append.1 h
  refine ranked_append.2 ⟨hbefore, ?_, ?_⟩
  · rw [he]
    exact hentry
  · apply hafter.congr
    intro key _
    rw [count_congr he]

/-- Take back the last entry of its key. -/
theorem Ranked.retract (h : Ranked tag base (before ++ entry :: after)) (he : tag entry' = none)
    (hlast : ∀ key rank, tag entry = some (key, rank) → count tag key after = 0) :
    Ranked tag base (before ++ entry' :: after) := by
  obtain ⟨hbefore, hentry, hafter⟩ := ranked_append.1 h
  refine ranked_append.2 ⟨hbefore, ?_, ?_⟩
  · intro key rank hk
    rw [he] at hk
    cases hk
  · apply hafter.congr
    intro key hne
    -- the entries after it hold other keys, whose counts do not change
    have hfree : count tag key [entry] = 0 := by
      cases hk : tag entry with
      | none => exact count_free hk key
      | some held =>
        rw [count_held hk, if_neg]
        intro hkey
        subst hkey
        exact hne (hlast held.1 held.2 hk)
    rw [count_free he, hfree]

end Replace

/-- Of the entries with property `p`, which all hold the key, some entry has a rank that is not below their number. -/
theorem Ranked.exists_rank (p : ε → Bool) (key : κ) : ∀ {log : List ε} {base : κ → Nat}, Ranked tag base log →
    (∀ entry ∈ log, p entry = true → ∃ rank, tag entry = some (key, rank)) → log.countP p ≠ 0 →
    ∃ entry ∈ log, p entry = true ∧ ∃ rank, tag entry = some (key, rank) ∧ base key + log.countP p ≤ rank
  | [], _, _, _, hne => absurd rfl hne
  | entry :: log, base, ⟨hentry, hlog⟩, hp, hne => by
    have hrest : ∀ e ∈ log, p e = true → ∃ rank, tag e = some (key, rank) :=
      fun e hm => hp e (List.mem_cons_of_mem _ hm)
    by_cases hzero : log.countP p = 0
    · -- it is the first entry
      have hself : p entry = true := by
        by_contra hn
        rw [List.countP_cons_of_neg hn] at hne
        exact hne hzero
      obtain ⟨rank, hrank⟩ := hp entry List.mem_cons_self hself
      refine ⟨entry, List.mem_cons_self, hself, rank, hrank, Nat.le_of_eq ?_⟩
      rw [hentry key rank hrank, List.countP_cons_of_pos hself, hzero]
    · obtain ⟨last, hm, hlast, rank, hrank, hle⟩ := hlog.exists_rank p key hrest hzero
      refine ⟨last, List.mem_cons_of_mem _ hm, hlast, rank, hrank, ?_⟩
      by_cases hself : p entry = true
      · obtain ⟨rank', hrank'⟩ := hp entry List.mem_cons_self hself
        rw [count_held hrank', if_pos rfl] at hle
        rw [List.countP_cons_of_pos hself]
        omega
      · rw [List.countP_cons_of_neg hself]
        omega

/-- Some entry of a key has a rank that is not below the count of the key. -/
theorem Ranked.exists_rank_of_count (h : Ranked tag base log) {key : κ} (hne : count tag key log ≠ 0) :
    ∃ entry ∈ log, ∃ rank, tag entry = some (key, rank) ∧ base key + count tag key log ≤ rank := by
  have hholds : ∀ entry ∈ log, (tag entry).any (fun held => held.1 = key) = true →
      ∃ rank, tag entry = some (key, rank) := by
    intro entry _ hany
    obtain ⟨⟨key', rank⟩, he, hk⟩ := (Option.any_eq_true _ _).1 hany
    have hkey : key' = key := of_decide_eq_true hk
    exact ⟨rank, hkey ▸ he⟩
  obtain ⟨entry, hm, -, rank, hrank, hle⟩ := h.exists_rank _ key hholds hne
  exact ⟨entry, hm, rank, hrank, hle⟩

end RankedLog
