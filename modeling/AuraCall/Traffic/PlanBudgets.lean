import AuraCall.Traffic.PlanAccounting
import Mathlib.Algebra.BigOperators.Group.Finset.Basic
import Mathlib.Algebra.Order.BigOperators.Group.Finset
import Mathlib.Algebra.Order.BigOperators.Group.List
import Mathlib.Data.List.Perm.Subperm
import Mathlib.Data.Finset.Dedup

/-!
# The admitted traffic of a plan fits its budgets

Admission compares one counter for each budget key with the limits of all budgets that are open to the work;
reconciliation compares all effects of a phase and kind with the limits of all its budgets, each taken once. The two
agree as long as no budget is drawn on under two budget keys (`DrawsApart`): then the counts of the keys of one phase and
kind are charged to separate shares of its budgets (`sum_shares_le`).
-/

namespace AuraCall.Traffic

open TransitionSystem

/-! ## Shares -/

/-- What keys draw from a list of budgets, when each budget has one key at most that draws on it. -/
theorem sum_shares_le {κ β : Type} (keys : Finset κ) (draws : κ → β → Bool) (units : β → Nat) : ∀ l : List β,
    (∀ b ∈ l, units b ≠ 0 → ∀ k ∈ keys, ∀ k' ∈ keys, draws k b = true → draws k' b = true → k = k') →
    ∑ k ∈ keys, ((l.filter (draws k)).map units).sum ≤ (l.map units).sum
  | [], _ => by simp
  | b :: l, h => by
    have ih := sum_shares_le keys draws units l fun b' hm => h b' (List.mem_cons_of_mem _ hm)
    have hsplit : ∀ k, (((b :: l).filter (draws k)).map units).sum =
        (if draws k b then units b else 0) + ((l.filter (draws k)).map units).sum := by
      intro k
      by_cases hk : draws k b = true <;> simp [hk]
    have hone : ∑ k ∈ keys, (if draws k b then units b else 0) ≤ units b := by
      by_cases hzero : units b = 0
      · simp [hzero]
      · by_cases hsome : ∃ k ∈ keys, draws k b = true
        · obtain ⟨k, hk, hdraws⟩ := hsome
          rw [Finset.sum_eq_single_of_mem k hk, if_pos hdraws]
          intro k' hk' hne
          rw [if_neg]
          intro hdraws'
          exact hne (h b List.mem_cons_self hzero k' hk' k hk hdraws' hdraws)
        · rw [Finset.sum_eq_zero]
          · exact Nat.zero_le _
          · intro k hk
            rw [if_neg]
            intro hdraws
            exact hsome ⟨k, hk, hdraws⟩
    rw [Finset.sum_congr rfl fun k _ => hsplit k, Finset.sum_add_distrib, List.map_cons, List.sum_cons]
    omega

/-! ## The limits as natural numbers -/

/-- The number of actions a budget allows, 0 when it bounds nothing. -/
def TrafficBudget.units (budget : TrafficBudget) : Nat :=
  match budget.allowance with
  | .finite q => ⌊q⌋.toNat
  | _ => 0

/-- A limit that no count exceeds. -/
def Boundless (x : JsNumber) : Prop := x = .nan ∨ x = .infinite false

theorem Boundless.lt_ofNat {x : JsNumber} (h : Boundless x) (n : Nat) : x.lt (.ofNat n) = false := by
  rcases h with rfl | rfl <;> rfl

/-- A limit is a number of actions, or boundless. -/
theorem allowance_cases (budget : TrafficBudget) :
    budget.allowance = .ofNat budget.units ∨ (Boundless budget.allowance ∧ budget.units = 0) := by
  unfold TrafficBudget.units TrafficBudget.allowance
  cases budget.limit with
  | finite q =>
    left
    have hmax : max (0 : ℚ) (⌊q⌋ : ℚ) = ((⌊q⌋.toNat : ℕ) : ℚ) := by
      rw [← Int.cast_natCast (R := ℚ), Int.toNat_eq_max, Int.cast_max, Int.cast_zero, max_comm]
    simp only [JsNumber.floor, JsNumber.atLeast, JsNumber.ofNat, JsNumber.finite.injEq]
    rw [hmax, Int.floor_natCast, Int.toNat_natCast]
  | nan => exact .inr ⟨.inl rfl, rfl⟩
  | infinite negative =>
    cases negative with
    | true => left; simp [JsNumber.floor, JsNumber.atLeast, JsNumber.ofNat]
    | false => exact .inr ⟨.inr rfl, rfl⟩

/-- A sum of limits is a number of actions, or boundless because one of them is. -/
theorem sum_allowances : ∀ (budgets : List TrafficBudget) (n : Nat),
    ((budgets.map TrafficBudget.allowance).foldl JsNumber.add (.ofNat n) =
        .ofNat (n + (budgets.map TrafficBudget.units).sum) ∧
      ∀ budget ∈ budgets, ¬Boundless budget.allowance) ∨
    (Boundless ((budgets.map TrafficBudget.allowance).foldl JsNumber.add (.ofNat n)) ∧
      ∃ budget ∈ budgets, Boundless budget.allowance) := by
  have hstays : ∀ (budgets : List TrafficBudget) (x : JsNumber), Boundless x →
      Boundless ((budgets.map TrafficBudget.allowance).foldl JsNumber.add x) := by
    intro budgets
    induction budgets with
    | nil => exact fun x hx => hx
    | cons budget budgets ih =>
      intro x hx
      apply ih
      rcases hx with rfl | rfl
      · exact .inl rfl
      · rcases allowance_cases budget with h | ⟨h | h, -⟩ <;> rw [h]
        · exact .inr rfl
        · exact .inl rfl
        · exact .inr rfl
  intro budgets
  induction budgets with
  | nil => exact fun n => .inl ⟨rfl, fun budget hb => absurd hb List.not_mem_nil⟩
  | cons budget budgets ih =>
    intro n
    rw [List.map_cons, List.foldl_cons]
    rcases allowance_cases budget with h | ⟨h, -⟩
    · have hfinite : ¬Boundless budget.allowance := by
        rw [h]
        rintro (e | e) <;> cases e
      rw [h, JsNumber.ofNat_add]
      rcases ih (n + budget.units) with ⟨hsum, hall⟩ | ⟨hsum, found, hm, hb⟩
      · left
        refine ⟨?_, ?_⟩
        · rw [hsum, List.map_cons, List.sum_cons, Nat.add_assoc]
        · intro b hm
          rcases List.mem_cons.1 hm with rfl | hm
          · exact hfinite
          · exact hall b hm
      · exact .inr ⟨hsum, found, List.mem_cons_of_mem _ hm, hb⟩
    · right
      refine ⟨hstays budgets _ ?_, budget, List.mem_cons_self, h⟩
      rcases h with h | h <;> rw [h]
      · exact .inl rfl
      · exact .inr rfl

/-- The planned limit is a sum over the budgets of the phase and kind. -/
theorem plannedLimit_filter (budgets : List TrafficBudget) (phase : MirrorTrafficPhase) (kind : TrafficEffectKind) :
    plannedLimit budgets phase kind =
      ((budgets.filter fun budget => phase = .planned budget.phase ∧ kind = budget.kind).map
        TrafficBudget.allowance).foldl .add (.ofNat 0) := by
  rw [List.foldl_map, List.foldl_filter]
  simp [plannedLimit]

/-! ## The condition and its invariant -/

/-- No begin is pending when another one is made. -/
def OneAtATime (s : PlanRun) : PlanCall → Prop
  | .begin _ => ∀ call ∈ s.begins, call.status ≠ .pending
  | _ => True

/-- The work of a begin draws on no bounded budget that a begin under another budget key has drawn on. -/
def DrawsApart (s : PlanRun) : PlanCall → Prop
  | .begin input => ∀ work ∈ trafficWork input, ∀ call ∈ s.begins, call.status ≠ .rejected →
      ∀ reservation ∈ call.reserved, reservation.key ≠ budgetKey s.plan.budgets work →
        ∀ budget ∈ reservation.planned, budget.openTo reservation.work = true → budget.openTo work = true →
          budget.units = 0
  | _ => True

instance (s : PlanRun) (call : PlanCall) : Decidable (OneAtATime s call) := by
  unfold OneAtATime
  split <;> infer_instance

instance (s : PlanRun) (call : PlanCall) : Decidable (DrawsApart s call) := by
  unfold DrawsApart
  split <;> infer_instance

/-- The runs in which begins are made one at a time. -/
def sequentialPlanSystem : TransitionSystem PlanRun PlanCall := trafficPlanSystem.restrict OneAtATime

/-- The runs in which, besides, no budget is drawn on under two keys. -/
def apartPlanSystem : TransitionSystem PlanRun PlanCall :=
  trafficPlanSystem.restrict fun s call => OneAtATime s call ∧ DrawsApart s call

/-- Only the last begin may be pending. -/
def OnePending (begins : List BeginCall) : Prop :=
  ∀ before call after, begins = before ++ call :: after → call.status = .pending → after = []

/-- Two begins that are not rejected draw on no common budget under different keys. -/
def Apart (begins : List BeginCall) : Prop :=
  ∀ call ∈ begins, ∀ call' ∈ begins, call.status ≠ .rejected → call'.status ≠ .rejected →
    ∀ reservation ∈ call.reserved, ∀ reservation' ∈ call'.reserved, reservation.key ≠ reservation'.key →
      ∀ budget ∈ reservation.planned, budget ∈ reservation'.planned → budget.openTo reservation.work = true →
        budget.openTo reservation'.work = true → budget.units = 0

theorem OnePending.push {begins : List BeginCall} (h : ∀ call ∈ begins, call.status ≠ .pending) (last : BeginCall) :
    OnePending (begins ++ [last]) := by
  intro before call after hsplit hpending
  rcases after.eq_nil_or_concat' with rfl | ⟨after, end', rfl⟩
  · rfl
  · rw [← List.cons_append, ← List.append_assoc] at hsplit
    have hinit := (List.append_inj' hsplit rfl).1
    exact absurd hpending (h call (by rw [hinit]; simp))

/-- After the last begin is answered none is pending. -/
theorem OnePending.answer {before : List BeginCall} {call : BeginCall} (h : OnePending (before ++ [call]))
    (accepted : Bool) : ∀ other ∈ before ++ [call.answer accepted], other.status ≠ .pending := by
  intro other hm
  rcases List.mem_append.1 hm with hm | hm
  · intro hpending
    obtain ⟨first, rest, rfl⟩ := List.append_of_mem hm
    have := h first other (rest ++ [call]) (by simp) hpending
    simp at this
  · rw [List.mem_singleton.1 hm]
    cases accepted <;> simp [BeginCall.answer]

/-- Begins made one at a time are apart after a new one that meets the condition. -/
theorem Apart.push {s : PlanRun} (h : Apart s.begins) {input : TrafficActionInput} {work : TrafficWork}
    {key : BudgetKey} {next : Nat} (hwork : trafficWork input = some work)
    (hkey : key = budgetKey s.plan.budgets work) (hdraws : DrawsApart s (.begin input)) :
    Apart (s.begins ++ [⟨input, some ⟨work, s.plan.budgets, key, next⟩, .pending⟩]) := by
  have hnew := hdraws work hwork
  intro call hm call' hm' hlive hlive' reservation hr reservation' hr' hne budget hb hb' hopen hopen'
  rcases List.mem_append.1 hm with hm | hm <;> rcases List.mem_append.1 hm' with hm' | hm'
  · exact h call hm call' hm' hlive hlive' reservation hr reservation' hr' hne budget hb hb' hopen hopen'
  · rw [List.mem_singleton.1 hm'] at hr'
    cases hr'
    exact hnew call hm hlive reservation hr (hkey ▸ hne) budget hb hopen hopen'
  · rw [List.mem_singleton.1 hm] at hr
    cases hr
    exact hnew call' hm' hlive' reservation' hr' (hkey ▸ hne.symm) budget hb' hopen' hopen
  · rw [List.mem_singleton.1 hm] at hr
    rw [List.mem_singleton.1 hm'] at hr'
    cases hr
    cases hr'
    exact absurd rfl hne

/-- Begins that are a part of others, with fewer that are not rejected, stay apart. -/
theorem Apart.mono {begins begins' : List BeginCall} (h : Apart begins)
    (hle : ∀ call ∈ begins', call.status ≠ .rejected → ∀ reservation ∈ call.reserved,
      ∃ call' ∈ begins, call'.status ≠ .rejected ∧ reservation ∈ call'.reserved) : Apart begins' := by
  intro call hm call' hm' hlive hlive' reservation hr reservation' hr'
  obtain ⟨first, hf, hflive, hfr⟩ := hle call hm hlive reservation hr
  obtain ⟨second, hs, hslive, hsr⟩ := hle call' hm' hlive' reservation' hr'
  exact h first hf second hs hflive hslive reservation hfr reservation' hsr

/-- What holds of the runs in which begins are made one at a time and draw apart. -/
structure Separate (s : PlanRun) : Prop where
  consistent : Consistent s
  onePending : OnePending s.begins
  apart : Apart s.begins

/-- When begins are made one at a time, the one that is rejected is the last. -/
theorem OnePending.rollsBackLast {s s' : PlanRun} {call : PlanCall} (h : OnePending s.begins)
    (hstep : PlanEffect s call s') : RollsBackLast s call := by
  cases hstep with
  | extend _ _ hne =>
    unfold RollsBackLast
    split
    · exact absurd rfl (hne _ _)
    · trivial
  | unbudgeted => trivial
  | exceeded => trivial
  | reserve => trivial
  | settle before after call accepted hpending hsplit =>
    cases accepted with
    | true => trivial
    | false =>
      rw [rollsBackLast_iff hsplit, h before call after hsplit hpending]
      intro reservation _
      rfl

theorem Separate.step {s s' : PlanRun} {call : PlanCall} (h : Separate s) (hone : OneAtATime s call)
    (hdraws : DrawsApart s call) (hstep : PlanEffect s call s') : Separate s' := by
  refine ⟨h.consistent.step (h.onePending.rollsBackLast hstep) hstep, ?_, ?_⟩
  · cases hstep with
    | extend => exact h.onePending
    | unbudgeted => exact .push hone _
    | exceeded => exact h.onePending
    | reserve => exact .push hone _
    | settle before after call accepted hpending hsplit =>
      have hafter := h.onePending before call after hsplit hpending
      subst hafter
      have hnone := OnePending.answer (hsplit ▸ h.onePending) accepted
      intro before' other after' hsplit' hpending'
      have hbegins : before ++ [call.answer accepted] = before' ++ other :: after' := hsplit'
      exact absurd hpending' (hnone other (by rw [hbegins]; simp))
  · cases hstep with
    | extend => exact h.apart
    | unbudgeted =>
      refine h.apart.mono ?_
      intro other hm hlive reservation hr
      rcases List.mem_append.1 hm with hm | hm
      · exact ⟨other, hm, hlive, hr⟩
      · rw [List.mem_singleton.1 hm] at hr
        cases hr
    | exceeded => exact h.apart
    | reserve input work key next hwork hkey => exact h.apart.push hwork hkey hdraws
    | settle before after call accepted hpending hsplit =>
      have hcall : call ∈ s.begins := by rw [hsplit]; simp
      have hlive : call.status ≠ .rejected := by rw [hpending]; nofun
      refine h.apart.mono ?_
      intro other hm hother reservation hr
      rw [hsplit]
      rcases List.mem_append.1 hm with hm | hm
      · exact ⟨other, List.mem_append_left _ hm, hother, hr⟩
      · rcases List.mem_cons.1 hm with rfl | hm
        · exact ⟨call, List.mem_append_right _ List.mem_cons_self, hlive, hr⟩
        · exact ⟨other, List.mem_append_right _ (List.mem_cons_of_mem _ hm), hother, hr⟩

theorem separate_of_reachable {s : PlanRun} (h : apartPlanSystem.Reachable s) : Separate s := by
  apply h.invariant
  · rintro s rfl
    refine ⟨.init, ?_, ?_⟩
    · intro before call after hsplit
      cases before <;> cases hsplit
    · exact fun call hm => absurd hm List.not_mem_nil
  · intro s call s' _ hs hstep
    exact hs.step hstep.1.1 hstep.1.2 (step_effect hstep.2)

/-! ## The admitted begins fit -/

/-- The begins of a phase and kind that hold a count. -/
def holdsKind (phase : MirrorTrafficPhase) (kind : TrafficEffectKind) (call : BeginCall) : Bool :=
  call.held.any fun held => held.1.phase = phase && held.1.kind = kind

/-- The budget keys of the begins of a phase and kind. -/
def heldKeys (phase : MirrorTrafficPhase) (kind : TrafficEffectKind) (begins : List BeginCall) : List BudgetKey :=
  (begins.filterMap BeginCall.held).map Prod.fst |>.filter fun key => key.phase = phase && key.kind = kind

theorem held_eq_some {call : BeginCall} {key : BudgetKey} {next : Nat} :
    call.held = some (key, next) ↔ call.status ≠ .rejected ∧
      ∃ reservation ∈ call.reserved, reservation.key = key ∧ reservation.next = next := by
  unfold BeginCall.held
  by_cases hs : call.status = .rejected
  · simp [hs]
  · simp only [hs, ↓reduceIte, Option.map_eq_some_iff, Prod.mk.injEq, ne_eq, not_false_eq_true, true_and,
      Option.mem_def]

/-- The begins of a phase and kind, counted key by key. -/
theorem length_heldKeys (phase : MirrorTrafficPhase) (kind : TrafficEffectKind) (begins : List BeginCall) :
    (heldKeys phase kind begins).length = begins.countP (holdsKind phase kind) := by
  unfold heldKeys
  rw [← List.countP_eq_length_filter, List.countP_map, List.countP_filterMap]
  congr 1
  funext call
  unfold holdsKind
  cases call.held <;> rfl

theorem count_heldKeys {phase : MirrorTrafficPhase} {kind : TrafficEffectKind} {begins : List BeginCall}
    {key : BudgetKey} (hkey : key ∈ heldKeys phase kind begins) :
    (heldKeys phase kind begins).count key = RankedLog.count BeginCall.held key begins := by
  have hkind := (List.mem_filter.1 hkey).2
  unfold heldKeys RankedLog.count List.count
  rw [List.countP_filter, List.countP_map, List.countP_filterMap]
  congr 1
  funext call
  cases call.held with
  | none => rfl
  | some held =>
    by_cases he : held.1 = key
    · subst he
      simpa using hkind
    · simp [he]

/-- A begin that is counted under a key was made for work that the budgets of the phase and kind of the key are for. -/
theorem Reservation.Checked.key_eq {reservation : Reservation} {budgets : List TrafficBudget}
    (h : reservation.Checked budgets) :
    reservation.key.phase = reservation.work.phase ∧ reservation.key.kind = reservation.work.kind := by
  rw [h.key]
  exact ⟨rfl, rfl⟩

/-- Some begin that is not rejected has the key and draws on the budget. -/
def drawnUnder (begins : List BeginCall) (key : BudgetKey) (budget : TrafficBudget) : Bool :=
  begins.any fun call => call.status ≠ .rejected && call.reserved.any fun reservation =>
    reservation.key = key && decide (budget ∈ reservation.planned) && budget.openTo reservation.work

theorem drawnUnder_iff {begins : List BeginCall} {key : BudgetKey} {budget : TrafficBudget} :
    drawnUnder begins key budget = true ↔ ∃ call ∈ begins, call.status ≠ .rejected ∧
      ∃ reservation ∈ call.reserved, reservation.key = key ∧ budget ∈ reservation.planned ∧
        budget.openTo reservation.work = true := by
  simp [drawnUnder, Option.any_eq_true, and_assoc]

/-- What is drawn under a key is at least the count of the key. -/
theorem Consistent.count_le_drawn {s : PlanRun} (hc : Consistent s) {phase : MirrorTrafficPhase}
    {kind : TrafficEffectKind} {budgets : List TrafficBudget}
    (hbudgets : budgets = s.plan.budgets.filter fun budget => phase = .planned budget.phase ∧ kind = budget.kind)
    (hbounded : ∀ budget ∈ budgets, ¬Boundless budget.allowance) {key : BudgetKey} (hphase : key.phase = phase)
    (hkind : key.kind = kind) (hne : RankedLog.count BeginCall.held key s.begins ≠ 0) :
    RankedLog.count BeginCall.held key s.begins ≤
      ((budgets.filter (drawnUnder s.begins key)).map TrafficBudget.units).sum := by
  obtain ⟨call, hm, next, hheld, hle⟩ := hc.ranked.exists_rank_of_count hne
  obtain ⟨hlive, reservation, hr, rfl, rfl⟩ := held_eq_some.1 hheld
  have hchecked := hc.checked call hm reservation hr
  obtain ⟨hp, hk⟩ := hchecked.key_eq
  -- the budgets open to its work are budgets of the phase and kind, drawn under its key
  have hopen : ∀ budget ∈ reservation.planned, budget.openTo reservation.work = true →
      (phase = .planned budget.phase ∧ kind = budget.kind) ∧ drawnUnder s.begins reservation.key budget = true := by
    intro budget hb ho
    have hscope := ho
    simp only [TrafficBudget.openTo, Bool.and_eq_true, decide_eq_true_eq] at hscope
    refine ⟨⟨?_, ?_⟩, drawnUnder_iff.2 ⟨call, hm, hlive, reservation, hr, rfl, hb, ho⟩⟩
    · rw [← hphase, hp]
      exact hscope.1.1.1
    · rw [← hkind, hk]
      exact hscope.1.1.2.symm
  have hsub : (reservation.planned.filter (·.openTo reservation.work)).Sublist
      (budgets.filter (drawnUnder s.begins reservation.key)) := by
    have hfilter : reservation.planned.filter (·.openTo reservation.work) =
        ((reservation.planned.filter fun budget => phase = .planned budget.phase ∧ kind = budget.kind).filter
          (drawnUnder s.begins reservation.key)).filter (·.openTo reservation.work) := by
      rw [List.filter_filter, List.filter_filter]
      apply List.filter_congr
      intro budget hb
      by_cases ho : budget.openTo reservation.work = true
      · obtain ⟨hscope, hdrawn⟩ := hopen budget hb ho
        rw [ho, hdrawn, decide_eq_true hscope]
        rfl
      · rw [Bool.eq_false_iff.2 ho, Bool.false_and, Bool.false_and]
    rw [hfilter, hbudgets]
    exact List.filter_sublist.trans ((hchecked.planned.sublist.filter _).filter _)
  have hlimit := hchecked.limit
  rw [budgetLimit_filter] at hlimit
  rcases sum_allowances (reservation.planned.filter (·.openTo reservation.work)) 0 with ⟨hsum, -⟩ | ⟨-, budget, hb, hn⟩
  · rw [hsum, JsNumber.ofNat_lt, decide_eq_false_iff_not] at hlimit
    have hmono := (hsub.map TrafficBudget.units).sum_le_sum fun _ _ => Nat.zero_le _
    have hcount : RankedLog.count BeginCall.held reservation.key s.begins ≤ reservation.next := by
      rw [Nat.zero_add] at hle
      exact hle
    omega
  · exact absurd hn (hbounded budget (List.mem_filter.1 (hsub.subset hb)).1)

/-- **The admitted begins of a phase and kind fit its budgets.** -/
theorem Separate.holdsKind_le {s : PlanRun} (h : Separate s) (phase : MirrorTrafficPhase) (kind : TrafficEffectKind) :
    (plannedLimit s.plan.budgets phase kind).lt (.ofNat (s.begins.countP (holdsKind phase kind))) = false := by
  rw [plannedLimit_filter]
  generalize hbudgets : (s.plan.budgets.filter fun budget => phase = .planned budget.phase ∧ kind = budget.kind) =
    budgets
  rcases sum_allowances budgets 0 with ⟨hsum, hbounded⟩ | ⟨hboundless, -⟩
  · rw [hsum, JsNumber.ofNat_lt, decide_eq_false_iff_not, Nat.not_lt, Nat.zero_add, ← length_heldKeys,
      ← List.sum_toFinset_count_eq_length]
    calc ∑ key ∈ (heldKeys phase kind s.begins).toFinset, (heldKeys phase kind s.begins).count key
        ≤ ∑ key ∈ (heldKeys phase kind s.begins).toFinset,
            ((budgets.filter (drawnUnder s.begins key)).map TrafficBudget.units).sum := by
          apply Finset.sum_le_sum
          intro key hkey
          have hmem := List.mem_toFinset.1 hkey
          have hscope := (List.mem_filter.1 hmem).2
          simp only [Bool.and_eq_true, decide_eq_true_eq] at hscope
          have hne : RankedLog.count BeginCall.held key s.begins ≠ 0 := by
            rw [← count_heldKeys hmem]
            exact Nat.pos_iff_ne_zero.1 (List.count_pos_iff.2 hmem)
          rw [count_heldKeys hmem]
          exact h.consistent.count_le_drawn hbudgets.symm hbounded hscope.1 hscope.2 hne
      _ ≤ (budgets.map TrafficBudget.units).sum := by
          apply sum_shares_le
          intro budget _ hunits key _ key' _ hdrawn hdrawn'
          obtain ⟨call, hm, hlive, reservation, hr, rfl, hb, ho⟩ := drawnUnder_iff.1 hdrawn
          obtain ⟨call', hm', hlive', reservation', hr', rfl, hb', ho'⟩ := drawnUnder_iff.1 hdrawn'
          by_contra hne
          exact hunits (h.apart call hm call' hm' hlive hlive' reservation hr reservation' hr' hne budget hb hb' ho ho')
  · exact hboundless.lt_ofNat _

/-! ## The reconciliation -/

section Reconciliation

variable {effects : List TrafficEffect} {weight : TrafficEffect → Nat}

/-- The weights of the effects with a key, added up. -/
def weightOf (weight : TrafficEffect → Nat) (effects : List TrafficEffect)
    (key : MirrorTrafficPhase × TrafficEffectKind) : Nat :=
  ((effects.filter fun effect => effect.key = key).map weight).sum

/-- The count that is stored under a key, 0 when there is none. -/
def storedCount (aggregated : KeyedMap TrafficEffect.key) (key : MirrorTrafficPhase × TrafficEffectKind) : JsNumber :=
  ((aggregated.get? key).map TrafficEffect.count).getD (.ofNat 0)

theorem storedCount_addEffect_self (aggregated : KeyedMap TrafficEffect.key) (effect : TrafficEffect) :
    storedCount (addEffect aggregated effect) effect.key = (storedCount aggregated effect.key).add effect.count := by
  have hget := KeyedMap.get?_set_self aggregated
    { effect with count := (storedCount aggregated effect.key).add effect.count }
  have hkey : (addEffect aggregated effect).get? effect.key = some _ := hget
  rw [storedCount, hkey]
  rfl

theorem storedCount_addEffect_of_ne {aggregated : KeyedMap TrafficEffect.key} {effect : TrafficEffect}
    {key : MirrorTrafficPhase × TrafficEffectKind} (h : key ≠ effect.key) :
    storedCount (addEffect aggregated effect) key = storedCount aggregated key := by
  have hget : (addEffect aggregated effect).get? key = aggregated.get? key := KeyedMap.get?_set_of_ne h
  rw [storedCount, hget]
  rfl

/-- The counts of aggregated effects: what was there, and the effects with the key. -/
theorem storedCount_foldl : ∀ {effects : List TrafficEffect} (aggregated : KeyedMap TrafficEffect.key)
    (before : MirrorTrafficPhase × TrafficEffectKind → Nat),
    (∀ effect ∈ effects, effect.count = .ofNat (weight effect)) →
    (∀ key, storedCount aggregated key = .ofNat (before key)) →
    ∀ key, storedCount (effects.foldl addEffect aggregated) key = .ofNat (before key + weightOf weight effects key)
  | [], _, _, _, hbefore, key => hbefore key
  | effect :: effects, aggregated, before, hcount, hbefore, key => by
    have hstep : ∀ key, storedCount (addEffect aggregated effect) key =
        .ofNat (before key + if effect.key = key then weight effect else 0) := by
      intro key
      by_cases hk : effect.key = key
      · subst hk
        rw [storedCount_addEffect_self, hbefore, hcount effect List.mem_cons_self, JsNumber.ofNat_add, if_pos rfl]
      · rw [storedCount_addEffect_of_ne (Ne.symm hk), hbefore, if_neg hk, Nat.add_zero]
    rw [List.foldl_cons, storedCount_foldl _ _ (fun e hm => hcount e (List.mem_cons_of_mem _ hm)) hstep key]
    congr 1
    unfold weightOf
    by_cases hk : effect.key = key
    · simp [hk, Nat.add_assoc]
    · simp [hk]

/-- The aggregate of an effect has the weights of its key for its count. -/
theorem count_of_mem_aggregate (hcount : ∀ effect ∈ effects, effect.count = .ofNat (weight effect))
    {effect : TrafficEffect} (hm : effect ∈ (effects.foldl addEffect (.empty : KeyedMap TrafficEffect.key)).values) :
    effect.count = .ofNat (weightOf weight effects effect.key) := by
  have hsum := storedCount_foldl .empty (fun _ => 0) hcount (fun _ => rfl) effect.key
  rw [storedCount, KeyedMap.get?_self hm, Option.map_some, Option.getD_some, Nat.zero_add] at hsum
  exact hsum

/-- A count is a number of actions already. -/
theorem normalize_of_count {effect : TrafficEffect} {n : Nat} (h : effect.count = .ofNat n) :
    effect.normalize = effect := by
  obtain ⟨phase, kind, count⟩ := effect
  subst h
  simp [TrafficEffect.normalize, JsNumber.floor, JsNumber.atLeast, JsNumber.ofNat]

/-- Effects with different keys are their own aggregates. -/
theorem weightOf_of_nodup {key : MirrorTrafficPhase × TrafficEffectKind} :
    ∀ {effects : List TrafficEffect}, (effects.map TrafficEffect.key).Nodup → ∀ {n : Nat},
      (∀ effect ∈ effects, effect.key = key → weight effect ≤ n) → weightOf weight effects key ≤ n
  | [], _, n, _ => Nat.zero_le n
  | effect :: effects, hnodup, n, hle => by
    obtain ⟨hfresh, hrest⟩ := List.nodup_cons.1 hnodup
    by_cases hk : effect.key = key
    · have hzero : weightOf weight effects key = 0 := by
        have hnone : effects.filter (fun e => e.key = key) = [] := by
          rw [List.filter_eq_nil_iff]
          intro other hm ho
          apply hfresh
          rw [hk, ← of_decide_eq_true ho]
          exact List.mem_map_of_mem hm
        rw [weightOf, hnone]
        rfl
      have hself := hle effect List.mem_cons_self hk
      have hsplit : weightOf weight (effect :: effects) key = weight effect + weightOf weight effects key := by
        simp [weightOf, hk]
      omega
    · have hsplit : weightOf weight (effect :: effects) key = weightOf weight effects key := by
        simp [weightOf, hk]
      rw [hsplit]
      exact weightOf_of_nodup hrest fun e hm => hle e (List.mem_cons_of_mem _ hm)

/-- The completed records of a kind of effect in a phase. -/
def completedOf (mutations : List BrowserMutationRecord) (key : MirrorTrafficPhase × TrafficEffectKind) : Nat :=
  mutations.countP fun mutation => (mutationEffect mutation).any fun effect => effect.key = key

/-- The effects of an observation of mutations only. -/
theorem weightOf_mutations (mutations : List BrowserMutationRecord) (key : MirrorTrafficPhase × TrafficEffectKind) :
    weightOf (fun _ => 1) (mutations.filterMap mutationEffect) key = completedOf mutations key := by
  have hlength : ∀ l : List TrafficEffect, (l.map fun _ => 1).sum = l.length := by
    intro l
    simp
  rw [weightOf, hlength, ← List.countP_eq_length_filter, List.countP_filterMap, completedOf]
  congr 1
  funext mutation
  cases mutationEffect mutation <;> rfl

theorem mutationEffect_count {mutation : BrowserMutationRecord} {effect : TrafficEffect}
    (h : mutationEffect mutation = some effect) : effect.count = .ofNat 1 := by
  unfold mutationEffect at h
  split at h
  · cases h
  · obtain ⟨kind, -, rfl⟩ := Option.map_eq_some_iff.1 h
    rfl

variable {mutations : List BrowserMutationRecord} {budgets : List TrafficBudget}

/-- Counts that are numbers of actions are kept by the normalization. -/
theorem map_normalize (hcount : ∀ effect ∈ effects, effect.count = .ofNat (weight effect)) :
    effects.map TrafficEffect.normalize = effects := by
  have hself : ∀ effect ∈ effects, effect.normalize = id effect := fun effect hm => normalize_of_count (hcount effect hm)
  rw [List.map_congr_left hself, List.map_id]

theorem violation_eq_none {effect : TrafficEffect} {n m : Nat} (hcount : effect.count = .ofNat n) (hle : n ≤ m)
    (hfits : ∀ phase, effect.phase = .planned phase →
      (plannedLimit budgets effect.phase effect.kind).lt (.ofNat m) = false) : effect.violation budgets = none := by
  obtain ⟨phase, kind, count⟩ := effect
  cases phase with
  | unattributed => rfl
  | planned phase =>
    have hlimit : (plannedLimit budgets (.planned phase) kind).lt count = false := by
      by_contra hlt
      have hcount' : count = .ofNat n := hcount
      rw [hcount'] at hlt
      have hm := JsNumber.lt_ofNat_mono (Bool.eq_true_of_not_eq_false hlt) hle
      rw [hfits phase rfl] at hm
      cases hm
    simp only [TrafficEffect.violation, hlimit, Bool.false_eq_true, ↓reduceIte]

/-- Traffic that fits the planned limits of every phase and kind is reconciled without a violation. -/
theorem reconcile_of_fits (hfits : ∀ phase kind, (plannedLimit budgets (.planned phase) kind).lt
      (.ofNat (completedOf mutations (.planned phase, kind))) = false)
    (observedAt : String) (logicalInteractions : JsNumber) (requestKinds : Option (List (String × JsNumber)))
    (warningObserved : Bool) :
    (reconcile budgets (createObservation observedAt logicalInteractions mutations [] requestKinds
      warningObserved)).budgetViolations = [] := by
  -- every entry of the observation counts the records of its key
  have hunit : ∀ effect ∈ mutations.filterMap mutationEffect, effect.count = .ofNat ((fun _ => 1) effect) := by
    intro effect hm
    obtain ⟨mutation, -, he⟩ := List.mem_filterMap.1 hm
    exact mutationEffect_count he
  generalize hobserved : (mutations.filterMap mutationEffect).foldl addEffect (.empty : KeyedMap TrafficEffect.key) =
    observed
  have hcounts : ∀ effect ∈ observed.values, effect.count = .ofNat (completedOf mutations effect.key) := by
    intro effect hm
    rw [← hobserved] at hm
    rw [count_of_mem_aggregate hunit hm, weightOf_mutations]
  have heffects : (createObservation observedAt logicalInteractions mutations [] requestKinds
      warningObserved).effects = observed.values := by
    simp only [createObservation, aggregateEffects, List.map_nil, List.append_nil]
    rw [map_normalize hunit, hobserved]
  simp only [reconcile, heffects, map_normalize hcounts, collectBudgetViolations]
  generalize hgoverned : observed.values.filter (fun effect => effect.phase ≠ .unattributed ∧ effect.kind.controllable) =
    governed
  have hsub : governed.Sublist observed.values := by
    rw [← hgoverned]
    exact List.filter_sublist
  rw [List.filterMap_eq_nil_iff]
  intro effect hm
  -- the entries have different keys, so that adding them up again changes no count
  have hcounts' : ∀ effect ∈ governed, effect.count = .ofNat (completedOf mutations effect.key) :=
    fun effect hm => hcounts effect (hsub.subset hm)
  have hle : weightOf (fun effect => completedOf mutations effect.key) governed effect.key ≤
      completedOf mutations effect.key := by
    apply weightOf_of_nodup ((hsub.map _).nodup observed.nodup)
    intro other _ hk
    rw [hk]
  refine violation_eq_none (count_of_mem_aggregate hcounts' hm) hle ?_
  intro phase hphase
  have hkey : effect.key = (.planned phase, effect.kind) := by rw [TrafficEffect.key, hphase]
  rw [hkey, hphase]
  exact hfits phase effect.kind

end Reconciliation

/-! ## Sequential begins -/

/-- The completed records of a mutation audit are of distinct begins that have resolved. -/
def RecordsOf (s : PlanRun) (mutations : List BrowserMutationRecord) : Prop :=
  ((mutations.filter (·.phase = .complete)).map fun mutation => (mutation.kind, mutation.trafficPhase)).Subperm
    ((s.begins.filter (·.status = .resolved)).map fun call => (call.input.kind, call.input.trafficPhase))

/-- The effect of an action of a kind in a phase. -/
def effectKey (kind : BrowserMutationKind) (phase : Option ProviderTrafficPhase) :
    Option (MirrorTrafficPhase × TrafficEffectKind) := (mutationEffectKind kind).map fun kind => (mirrorPhase phase, kind)

/-- There are no more completed records of an effect than begins that hold a count for it. -/
theorem Consistent.completedOf_le {s : PlanRun} (hc : Consistent s) {mutations : List BrowserMutationRecord}
    (hrecords : RecordsOf s mutations) (phase : MirrorTrafficPhase) (kind : TrafficEffectKind) :
    completedOf mutations (phase, kind) ≤ s.begins.countP (holdsKind phase kind) := by
  have hcount := hrecords.countP_le fun action => effectKey action.1 action.2 = some (phase, kind)
  rw [List.countP_map, List.countP_map, List.countP_filter, List.countP_filter] at hcount
  have hmutations : completedOf mutations (phase, kind) = mutations.countP fun mutation =>
      decide (effectKey mutation.kind mutation.trafficPhase = some (phase, kind)) &&
        decide (mutation.phase = .complete) := by
    unfold completedOf
    congr 1
    funext mutation
    unfold mutationEffect effectKey
    by_cases hp : mutation.phase = .complete
    · cases mutationEffectKind mutation.kind <;> simp [hp, TrafficEffect.key]
    · simp [hp]
  rw [hmutations]
  refine hcount.trans (List.countP_mono_left ?_)
  intro call hm hcall
  simp only [Function.comp_apply, Bool.and_eq_true, decide_eq_true_eq] at hcall
  obtain ⟨heffect, hresolved⟩ := hcall
  unfold effectKey at heffect
  obtain ⟨kind', hkind, he⟩ := Option.map_eq_some_iff.1 heffect
  cases he
  have hwork := hc.work call hm
  rw [trafficWork, hkind, Option.map_some, Option.map_eq_some_iff] at hwork
  obtain ⟨reservation, hr, hwork⟩ := hwork
  obtain ⟨hphase, hkind'⟩ := (hc.checked call hm reservation hr).key_eq
  rw [hwork] at hphase hkind'
  simp [holdsKind, BeginCall.held, hresolved, hr, hphase, hkind']

/-- **Traffic plan budgets.** In every run of freezes, recoveries and begins made one at a time, in which no begin draws on a
bounded budget that a begin under another budget key has drawn on, the admitted begins of every phase and kind fit the
limits of its budgets, and the reconciliation of what they did reports no budget violation. -/
theorem admitted_traffic_reconciles {s : PlanRun} (h : apartPlanSystem.Reachable s) :
    (∀ phase kind, (plannedLimit s.plan.budgets phase kind).lt
      (.ofNat (s.begins.countP (holdsKind phase kind))) = false) ∧
    ∀ mutations, RecordsOf s mutations → ∀ observedAt logicalInteractions requestKinds warningObserved,
      (reconcile s.plan.budgets (createObservation observedAt logicalInteractions mutations [] requestKinds
        warningObserved)).budgetViolations = [] := by
  have hs := separate_of_reachable h
  refine ⟨hs.holdsKind_le, ?_⟩
  intro mutations hrecords observedAt logicalInteractions requestKinds warningObserved
  apply reconcile_of_fits
  intro phase kind
  by_contra hlt
  have hle := hs.consistent.completedOf_le hrecords (.planned phase) kind
  have hover := JsNumber.lt_ofNat_mono (Bool.eq_true_of_not_eq_false hlt) hle
  rw [hs.holdsKind_le] at hover
  cases hover

/-! ## A wildcard budget beside exact ones -/

/-- A page navigation for a work key. -/
def detailVisit (workKey : String) : TrafficActionInput :=
  { kind := .navigate, interactionClass := .conversationRead, source := "mirror:detail", trafficPhase := some .detail,
    workKey := some workKey }

/-- One page navigation for any work, and one for each of two conversations. -/
def mixedBudgets : List TrafficBudget :=
  [{ phase := .detail, kind := .pageNavigate, limit := .ofNat 1 },
    { phase := .detail, kind := .pageNavigate, workKey := some "scope:first", limit := .ofNat 1 },
    { phase := .detail, kind := .pageNavigate, workKey := some "scope:second", limit := .ofNat 1 }]

/-- Each conversation is visited twice. -/
def mixedRun : PlanRun :=
  (execute (fun s call => if decide (OneAtATime s call) then PlanRun.step s call else none) ⟨.new, []⟩
    [.freezePhase .detail mixedBudgets, .begin (detailVisit "scope:first"), .settle 0 true,
      .begin (detailVisit "scope:first"), .settle 1 true, .begin (detailVisit "scope:second"), .settle 2 true,
      .begin (detailVisit "scope:second"), .settle 3 true]).get (by decide +kernel)

/-- The records of the four visits. -/
def mixedRecords : List BrowserMutationRecord :=
  mixedRun.begins.map fun call => completeRecord (startRecord "action" call.input) { outcome := .succeeded }

/-- A wildcard budget is admitted again for every work key with a budget of its own. -/
theorem wildcard_budget_admitted_twice : ¬∀ s, sequentialPlanSystem.Reachable s → ∀ mutations, RecordsOf s mutations →
    ∀ observedAt logicalInteractions requestKinds warningObserved,
      (reconcile s.plan.budgets (createObservation observedAt logicalInteractions mutations [] requestKinds
        warningObserved)).budgetViolations = [] := by
  intro h
  have hreach : sequentialPlanSystem.Reachable mixedRun :=
    reachable_execute_where (fun _ _ h => of_decide_eq_true h) (.init rfl) (Option.some_get _).symm
  have hrecords : RecordsOf mixedRun mixedRecords := by
    have hsame : (mixedRecords.filter (·.phase = .complete)).map (fun mutation => (mutation.kind, mutation.trafficPhase)) =
        (mixedRun.begins.filter (·.status = .resolved)).map fun call => (call.input.kind, call.input.trafficPhase) := by
      decide +kernel
    rw [RecordsOf, hsame]
  have hnone := h mixedRun hreach mixedRecords hrecords "" (.ofNat 4) none false
  revert hnone
  decide +kernel

/-- Exact budgets, and each conversation is visited as often as planned. -/
def exactRun : PlanRun :=
  (execute (fun s call => if decide (OneAtATime s call ∧ DrawsApart s call) then PlanRun.step s call else none) ⟨.new, []⟩
    [.freezePhase .detail (mixedBudgets.drop 1), .begin (detailVisit "scope:first"), .settle 0 true,
      .begin (detailVisit "scope:second"), .settle 1 false, .begin (detailVisit "scope:second"),
      .settle 2 true]).get (by decide +kernel)

/-- Its traffic is reconciled. -/
theorem exact_budgets_reconcile : exactRun.begins.length = 3 ∧
    (∀ phase kind, (plannedLimit exactRun.plan.budgets phase kind).lt
      (.ofNat (exactRun.begins.countP (holdsKind phase kind))) = false) ∧
    ∀ mutations, RecordsOf exactRun mutations → ∀ observedAt logicalInteractions requestKinds warningObserved,
      (reconcile exactRun.plan.budgets (createObservation observedAt logicalInteractions mutations [] requestKinds
        warningObserved)).budgetViolations = [] := by
  refine ⟨by decide +kernel, admitted_traffic_reconciles ?_⟩
  exact reachable_execute_where (fun _ _ h => of_decide_eq_true h) (.init rfl) (Option.some_get _).symm

end AuraCall.Traffic
