import Mathlib.Data.List.Induction
import Mathlib.Data.List.Sort
import Mathlib.Logic.Function.Basic

/-!
# Filtered views

A view shows what a source gives: filtered, sorted, joined with the latest of its neighbours, and in pages.

- sorting and filtering can be exchanged (`filter_insertionSort`);
- the latest of the elements with a key (`latestBy`) stays the latest when others are taken away (`latest_filter`);
- a filter that is pushed into the source gives the same view exactly when it keeps every element that the view shows, as
  the view shows it (`pushed_perm_iff`, `pushed_eq`);
- the pages that follow one another give the view from the first place on (`follows_iff`).
-/

namespace FilteredView

/-! ## Orders -/

section Orders

variable {α β : Type} {cmp : β → β → Ordering}

theorem transCmp_on [Std.TransCmp cmp] (f : α → β) : Std.TransCmp fun a b => cmp (f a) (f b) where
  eq_swap := fun {_ _} => @Std.OrientedCmp.eq_swap _ cmp _ _ _
  isLE_trans := fun {_ _ _} => @Std.TransCmp.isLE_trans _ cmp _ _ _ _

/-- Whether one may stand before the other, where the order is given by a comparison. -/
theorem total_of_cmp [Std.OrientedCmp cmp] : Std.Total fun a b => cmp a b ≠ .gt :=
  ⟨fun a b => by
    by_contra h
    obtain ⟨hab, hba⟩ := not_or.1 h
    exact Std.OrientedCmp.not_gt_of_gt (not_ne_iff.1 hab) (not_ne_iff.1 hba)⟩

theorem isTrans_of_cmp [Std.TransCmp cmp] : IsTrans β fun a b => cmp a b ≠ .gt :=
  ⟨fun a b c hab hbc => by
    exact Ordering.isLE_iff_ne_gt.1
      (Std.TransCmp.isLE_trans (Ordering.isLE_iff_ne_gt.2 hab) (Ordering.isLE_iff_ne_gt.2 hbc))⟩

end Orders

/-! ## Sorting -/

theorem filter_comm {α : Type} (p q : α → Bool) (l : List α) : (l.filter p).filter q = (l.filter q).filter p := by
  rw [List.filter_filter, List.filter_filter]
  exact List.filter_congr fun a _ => Bool.and_comm _ _

section Sorting

variable {α : Type} {r : α → α → Prop} [DecidableRel r] {p : α → Bool}

theorem orderedInsert_of_forall {a : α} {l : List α} (h : ∀ b ∈ l, r a b) : l.orderedInsert r a = a :: l := by
  cases l with
  | nil => rfl
  | cons b l => exact List.orderedInsert_cons_of_le r l (h b List.mem_cons_self)

theorem filter_orderedInsert [IsTrans α r] (a : α) {l : List α} (hl : l.Pairwise r) :
    (l.orderedInsert r a).filter p = if p a then (l.filter p).orderedInsert r a else l.filter p := by
  induction l with
  | nil => simp [List.filter_cons]
  | cons b l ih =>
    obtain ⟨hb, hl⟩ := List.pairwise_cons.1 hl
    by_cases hab : r a b
    · have hfront : ∀ c ∈ (b :: l).filter p, r a c := by
        intro c hc
        rcases List.mem_cons.1 (List.mem_filter.1 hc).1 with rfl | hc
        · exact hab
        · exact trans_of r hab (hb c hc)
      rw [List.orderedInsert_cons_of_le r l hab, List.filter_cons, orderedInsert_of_forall hfront]
    · rw [List.orderedInsert_cons, if_neg hab, List.filter_cons, ih hl, List.filter_cons]
      by_cases hpb : p b = true
      · simp only [hpb, if_true, List.orderedInsert_cons, if_neg hab]
        split <;> rfl
      · simp only [hpb, Bool.false_eq_true, if_false]

/-- Sorting keeps the order of equal elements, so it does not matter whether the others are left out before or after. -/
theorem filter_insertionSort [Std.Total r] [IsTrans α r] (l : List α) :
    (l.insertionSort r).filter p = (l.filter p).insertionSort r := by
  induction l with
  | nil => rfl
  | cons a l ih =>
    rw [List.insertionSort_cons, filter_orderedInsert a (List.pairwise_insertionSort r l), ih, List.filter_cons]
    split
    · rw [List.insertionSort_cons]
    · rfl

end Sorting

/-! ## The latest -/

section Latest

variable {α κ : Type} (cmp : α → α → Ordering)

/-- The candidate takes the place if there is none yet, or if it is later. -/
def later (current : Option α) (candidate : α) : Option α :=
  match current with
  | none => some candidate
  | some present => if cmp candidate present = .gt then some candidate else some present

def latest (l : List α) : Option α := l.foldl (later cmp) none

/-- The latest for each key, in one pass. -/
def latestBy [DecidableEq κ] (key : α → κ) (l : List α) : κ → Option α :=
  l.foldl (fun found a => Function.update found (key a) (later cmp (found (key a)) a)) fun _ => none

variable {cmp}

theorem latestBy_eq [DecidableEq κ] (key : α → κ) (l : List α) (k : κ) :
    latestBy cmp key l k = latest cmp (l.filter (key · = k)) := by
  have h : ∀ (found : κ → Option α),
      l.foldl (fun found a => Function.update found (key a) (later cmp (found (key a)) a)) found k =
        (l.filter (key · = k)).foldl (later cmp) (found k) := by
    induction l with
    | nil => exact fun _ => rfl
    | cons a l ih =>
      intro found
      rw [List.foldl_cons, ih]
      by_cases hk : key a = k
      · rw [List.filter_cons_of_pos (by simpa using hk), List.foldl_cons, ← hk, Function.update_self]
      · rw [List.filter_cons_of_neg (by simpa using hk), Function.update_of_ne (Ne.symm hk)]
  exact h fun _ => none

@[simp] theorem latest_concat (l : List α) (a : α) : latest cmp (l ++ [a]) = later cmp (latest cmp l) a := by
  rw [latest, List.foldl_append]
  rfl

theorem later_ne_none (current : Option α) (a : α) : later cmp current a ≠ none := by
  unfold later
  split
  · exact Option.some_ne_none _
  · split <;> exact Option.some_ne_none _

@[simp] theorem latest_eq_none {l : List α} : latest cmp l = none ↔ l = [] := by
  induction l using List.reverseRecOn with
  | nil => exact iff_of_true rfl rfl
  | append_singleton l a _ =>
    rw [latest_concat]
    exact iff_of_false (later_ne_none _ _) (List.concat_ne_nil a l ∘ by simp)

/-- An element that is later than all before it, and that none after it is later than. -/
def IsLatest (cmp : α → α → Ordering) (l : List α) (a : α) : Prop :=
  ∃ before after, l = before ++ a :: after ∧ (∀ b ∈ before, cmp a b = .gt) ∧ ∀ b ∈ after, cmp b a ≠ .gt

theorem isLatest_of_latest [Std.TransCmp cmp] {l : List α} {a : α} (h : latest cmp l = some a) : IsLatest cmp l a := by
  induction l using List.reverseRecOn generalizing a with
  | nil => cases h
  | append_singleton l b ih =>
    rw [latest_concat] at h
    cases hl : latest cmp l with
    | none =>
      rw [hl] at h
      cases h
      rw [latest_eq_none] at hl
      exact ⟨[], [], by rw [hl], by simp, by simp⟩
    | some present =>
      obtain ⟨before, after, hsplit, hbefore, hafter⟩ := ih hl
      rw [hl, later] at h
      split at h
      · rename_i hlater
        cases h
        refine ⟨l, [], rfl, fun c hc => ?_, by simp⟩
        rw [hsplit, List.mem_append, List.mem_cons] at hc
        rcases hc with hc | rfl | hc
        · exact Std.TransCmp.gt_trans hlater (hbefore c hc)
        · exact hlater
        · refine Std.TransCmp.gt_of_gt_of_isGE hlater ?_
          rw [Std.OrientedCmp.isGE_iff_isLE, Ordering.isLE_iff_ne_gt]
          exact hafter c hc
      · rename_i hlater
        cases h
        refine ⟨before, after ++ [b], by rw [hsplit]; simp, hbefore, fun c hc => ?_⟩
        rcases List.mem_append.1 hc with hc | hc
        · exact hafter c hc
        · rw [List.mem_singleton.1 hc]
          exact hlater

theorem latest_mem [Std.TransCmp cmp] {l : List α} {a : α} (h : latest cmp l = some a) : a ∈ l := by
  obtain ⟨before, after, rfl, -, -⟩ := isLatest_of_latest h
  exact List.mem_append_right _ List.mem_cons_self

theorem foldl_later_of_forall {a : α} {l : List α} (h : ∀ b ∈ l, cmp b a ≠ .gt) : l.foldl (later cmp) (some a) = some a := by
  induction l with
  | nil => rfl
  | cons b l ih =>
    rw [List.foldl_cons, later, if_neg (h b List.mem_cons_self)]
    exact ih fun c hc => h c (List.mem_cons_of_mem b hc)

theorem latest_of_isLatest [Std.TransCmp cmp] {l : List α} {a : α} (h : IsLatest cmp l a) : latest cmp l = some a := by
  obtain ⟨before, after, rfl, hbefore, hafter⟩ := h
  have htaken : later cmp (latest cmp before) a = some a := by
    cases hl : latest cmp before with
    | none => rfl
    | some b => rw [later, if_pos (hbefore b (latest_mem hl))]
  rw [latest, List.foldl_append, List.foldl_cons]
  exact (congrArg (after.foldl (later cmp)) htaken).trans (foldl_later_of_forall hafter)

/-- The latest stays the latest when others are taken away. -/
theorem latest_filter [Std.TransCmp cmp] {l : List α} {a : α} {p : α → Bool} (h : latest cmp l = some a) (ha : p a) :
    latest cmp (l.filter p) = some a := by
  obtain ⟨before, after, rfl, hbefore, hafter⟩ := isLatest_of_latest h
  refine latest_of_isLatest ⟨before.filter p, after.filter p, ?_, fun b hb => ?_, fun b hb => ?_⟩
  · rw [List.filter_append, List.filter_cons_of_pos ha]
  · exact hbefore b (List.mem_filter.1 hb).1
  · exact hafter b (List.mem_filter.1 hb).1

end Latest

/-! ## Filters that are pushed into the source -/

section Pushed

variable {α ρ : Type} (shows : ρ → Bool) (kept : α → Bool) (full pushed : α → ρ)

/-- What the view shows of an element is kept, and is the same through the filter; and the filter lets it show no more. -/
def PushesHarmlessly (l : List α) : Prop :=
  ∀ a ∈ l, (shows (full a) = true → kept a = true ∧ pushed a = full a) ∧
    (kept a = true → shows (pushed a) = true → pushed a = full a)

variable {shows kept full pushed}

theorem pushed_eq {l : List α} (h : PushesHarmlessly shows kept full pushed l) :
    ((l.filter kept).map pushed).filter shows = (l.map full).filter shows := by
  rw [List.filter_map, List.filter_map, List.filter_filter]
  have hsame : ∀ a ∈ l, ((shows ∘ pushed) a && kept a) = (shows ∘ full) a := by
    intro a ha
    rw [Bool.eq_iff_iff, Bool.and_eq_true]
    constructor
    · rintro ⟨hshown, hkept⟩
      rw [Function.comp_apply, ← (h a ha).2 hkept hshown]
      exact hshown
    · intro hshown
      obtain ⟨hkept, hrow⟩ := (h a ha).1 hshown
      rw [Function.comp_apply, hrow]
      exact ⟨hshown, hkept⟩
  rw [List.filter_congr hsame]
  refine List.map_congr_left fun a ha => ?_
  obtain ⟨ha, hshown⟩ := List.mem_filter.1 ha
  exact ((h a ha).1 hshown).2

theorem of_countP_eq {p q : α → Bool} {l : List α} (h : ∀ a ∈ l, p a = true → q a = true)
    (hcount : l.countP p = l.countP q) : ∀ a ∈ l, q a = true → p a = true := by
  induction l with
  | nil => exact fun a ha => absurd ha List.not_mem_nil
  | cons b l ih =>
    have hrest : ∀ a ∈ l, p a = true → q a = true := fun a ha => h a (List.mem_cons_of_mem b ha)
    have hle := List.countP_mono_left hrest
    have hb := h b List.mem_cons_self
    rw [List.countP_cons, List.countP_cons] at hcount
    intro a ha hq
    rcases List.mem_cons.1 ha with rfl | ha
    · by_contra hp
      rw [if_neg hp, if_pos hq] at hcount
      omega
    · refine ih hrest ?_ a ha hq
      by_cases hp : p b = true
      · rw [if_pos hp, if_pos (hb hp)] at hcount
        omega
      · rw [if_neg hp] at hcount
        split at hcount <;> omega

theorem countP_shown [DecidableEq ρ] {f : α → ρ} {row : ρ} (hrow : shows row = true) (l : List α) :
    ((l.map f).filter shows).countP (· = row) = l.countP (f · = row) := by
  rw [List.countP_filter, List.countP_map]
  refine List.countP_congr fun a _ => ?_
  simp only [Function.comp_apply, Bool.and_eq_true, decide_eq_true_eq, and_iff_left_iff_imp]
  rintro rfl
  exact hrow

/-- If the filter can only give an element the row of another when it changes neither of the two, then no filter that does
harm gives the same rows. -/
theorem pushesHarmlessly_of_perm {l : List α}
    (hrows : ∀ a ∈ l, ∀ b ∈ l, pushed a = full b → pushed a = full a ∧ pushed b = full b)
    (h : (((l.filter kept).map pushed).filter shows).Perm ((l.map full).filter shows)) :
    PushesHarmlessly shows kept full pushed l := by
  classical
  intro a ha
  constructor
  · intro hshown
    have hmem : full a ∈ ((l.filter kept).map pushed).filter shows :=
      h.mem_iff.2 (List.mem_filter.2 ⟨List.mem_map_of_mem ha, hshown⟩)
    obtain ⟨b, hb, hba⟩ := List.mem_map.1 (List.mem_filter.1 hmem).1
    refine ⟨?_, (hrows b (List.mem_filter.1 hb).1 a ha hba).2⟩
    have hcount := h.countP_eq (· = full a)
    rw [countP_shown hshown, countP_shown hshown, List.countP_filter] at hcount
    have hkept := of_countP_eq (fun c hc hkept => ?_) hcount a ha (decide_eq_true rfl)
    · exact (Bool.and_eq_true _ _ ▸ hkept).2
    · rw [Bool.and_eq_true, decide_eq_true_eq] at hkept
      rw [decide_eq_true_eq, ← (hrows c hc a ha hkept.1).1]
      exact hkept.1
  · intro hkept hshown
    have hmem : pushed a ∈ (l.map full).filter shows :=
      h.mem_iff.1 (List.mem_filter.2 ⟨List.mem_map_of_mem (List.mem_filter.2 ⟨ha, hkept⟩), hshown⟩)
    obtain ⟨b, hb, hba⟩ := List.mem_map.1 (List.mem_filter.1 hmem).1
    exact (hrows a ha b hb hba.symm).1

end Pushed

/-! ## Pages -/

section Pages

variable {σ α : Type} (fetch : σ → List α × Option σ)

/-- The pages from a place on, one after the other. -/
inductive Follows : σ → List α → Prop
  | last {place : σ} : (fetch place).2 = none → Follows place (fetch place).1
  | next {place after : σ} {rest : List α} : (fetch place).2 = some after → Follows after rest →
      Follows place ((fetch place).1 ++ rest)

/-- Each page shows at most `limit` rows from the place on, and the next place is where it ends. -/
structure Serves (rows : List α) (limit : Nat) (offset : σ → Nat) : Prop where
  page : ∀ place, (fetch place).1 = (rows.drop (offset place)).take limit
  last : ∀ place, (fetch place).2 = none → rows.length ≤ offset place + (fetch place).1.length
  next : ∀ place after, (fetch place).2 = some after →
    offset place + (fetch place).1.length < rows.length ∧ offset after = offset place + (fetch place).1.length

variable {fetch} {rows : List α} {limit : Nat} {offset : σ → Nat}

theorem Serves.last_page (h : Serves fetch rows limit offset) {place : σ} (hlast : (fetch place).2 = none) :
    (fetch place).1 = rows.drop (offset place) := by
  have hlength := h.last place hlast
  rw [h.page, List.length_take, List.length_drop] at hlength
  rw [h.page, List.take_of_length_le]
  rw [List.length_drop]
  omega

theorem Serves.next_page (h : Serves fetch rows limit offset) {place after : σ} (hnext : (fetch place).2 = some after) :
    (fetch place).1 ++ rows.drop (offset after) = rows.drop (offset place) := by
  obtain ⟨hlt, hafter⟩ := h.next place after hnext
  have hlength : (fetch place).1.length = limit := by
    rw [h.page, List.length_take, List.length_drop] at hlt ⊢
    omega
  rw [hafter, hlength, h.page, ← List.drop_drop]
  exact List.take_append_drop limit _

/-- The pages from a place on are the rows from there on, each once and in order. -/
theorem Serves.follows_iff (h : Serves fetch rows limit offset) (hlimit : 0 < limit) {place : σ} {shown : List α} :
    Follows fetch place shown ↔ shown = rows.drop (offset place) := by
  constructor
  · intro hfollows
    induction hfollows with
    | last hlast => exact h.last_page hlast
    | next hnext _ ih => rw [ih, h.next_page hnext]
  · rintro rfl
    induction hn : rows.length - offset place using Nat.strong_induction_on generalizing place with
    | h n ih =>
      cases hfetch : (fetch place).2 with
      | none =>
        rw [← h.last_page hfetch]
        exact .last hfetch
      | some after =>
        obtain ⟨hlt, hafter⟩ := h.next place after hfetch
        rw [← h.next_page hfetch]
        refine .next hfetch (ih (rows.length - offset after) ?_ rfl)
        rw [h.page, List.length_take, List.length_drop] at hafter
        omega

end Pages

end FilteredView
