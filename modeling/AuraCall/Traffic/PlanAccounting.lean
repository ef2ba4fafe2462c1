import AuraCall.Lib.RankedLog
import AuraCall.Lib.Transition
import AuraCall.Traffic.Plan

/-!
# The counters of a traffic plan under concurrent begins

The calls on one controller, with the awaits of `begin`: a call stores the next count of its budget key, awaits the
governor below it, and when that rejects stores the count it had read. That is right as long as the call is the last of
its key that was not rejected (`RollsBackLast`): then the counters count the begins that have not been rejected, and no
budget admits more than its limit.
-/

namespace AuraCall.Traffic

open TransitionSystem

/-- A count that a call of `begin` has stored: for which work, under which budgets, and where. -/
structure Reservation where
  work : TrafficWork
  planned : List TrafficBudget
  key : BudgetKey
  next : Nat

/-- Where a call of `begin` stands. -/
inductive BeginStatus
  | pending
  | resolved
  | rejected
  deriving DecidableEq

/-- A call of `begin` that has reached the governor below it. -/
structure BeginCall where
  input : TrafficActionInput
  reserved : Option Reservation
  status : BeginStatus

/-- The count a call holds, as long as it is not rejected. -/
def BeginCall.held (call : BeginCall) : Option (BudgetKey × Nat) :=
  if call.status = .rejected then none else call.reserved.map fun reservation => (reservation.key, reservation.next)

/-- The controller and the calls of `begin`, in the order they were made. -/
structure PlanRun where
  plan : TrafficPlan
  begins : List BeginCall

/-- The calls on the controller, and the answers of the governor below it. -/
inductive PlanCall
  | freezePhase (phase : ProviderTrafficPhase) (phaseBudgets : List TrafficBudget)
  | admitRecovery (phase : ProviderTrafficPhase) (kind : TrafficEffectKind) (workKey reason : String)
  | begin (input : TrafficActionInput)
  | settle (index : Nat) (accepted : Bool)

/-- The state after the governor below has answered a call. -/
def BeginCall.answer (call : BeginCall) (accepted : Bool) : BeginCall :=
  { call with status := if accepted then .resolved else .rejected }

/-- The plan after the governor below has answered a call. -/
def TrafficPlan.answer (plan : TrafficPlan) (call : BeginCall) (accepted : Bool) : TrafficPlan :=
  match accepted, call.reserved with
  | false, some reservation => plan.rollback reservation.key reservation.next
  | _, _ => plan

/-- One call, or one answer. A call of `begin` that is over its budget throws before it awaits anything. -/
def PlanRun.step (s : PlanRun) : PlanCall → Option PlanRun
  | .freezePhase phase phaseBudgets => some { s with plan := (s.plan.freezePhase phase phaseBudgets).1 }
  | .admitRecovery phase kind workKey reason => some { s with plan := (s.plan.admitRecovery phase kind workKey reason).1 }
  | .begin input =>
    match trafficWork input with
    | none => some { s with begins := s.begins ++ [⟨input, none, .pending⟩] }
    | some work =>
      match s.plan.reserve work with
      | .error _ => some s
      | .ok (plan, key, next) => some ⟨plan, s.begins ++ [⟨input, some ⟨work, s.plan.budgets, key, next⟩, .pending⟩]⟩
  | .settle index accepted =>
    match s.begins.drop index with
    | call :: after =>
      if call.status = .pending then
        some ⟨s.plan.answer call accepted, s.begins.take index ++ call.answer accepted :: after⟩
      else none
    | [] => none

/-- The runs of one controller. -/
def trafficPlanSystem : TransitionSystem PlanRun PlanCall := ofNext (· = ⟨.new, []⟩) PlanRun.step

/-- What a step does. -/
inductive PlanEffect (s : PlanRun) : PlanCall → PlanRun → Prop
  | extend (call : PlanCall) (plan : TrafficPlan) : (∀ index accepted, call ≠ .settle index accepted) →
      s.plan.budgets <+: plan.budgets →
      plan.admitted = s.plan.admitted → PlanEffect s call { s with plan }
  | unbudgeted (input : TrafficActionInput) : trafficWork input = none →
      PlanEffect s (.begin input) { s with begins := s.begins ++ [⟨input, none, .pending⟩] }
  | exceeded (input : TrafficActionInput) : PlanEffect s (.begin input) s
  | reserve (input : TrafficActionInput) (work : TrafficWork) (key : BudgetKey) (next : Nat) :
      trafficWork input = some work → key = budgetKey s.plan.budgets work → next = s.plan.admitted key + 1 →
      (budgetLimit s.plan.budgets work).lt (.ofNat next) = false →
      PlanEffect s (.begin input)
        ⟨s.plan.setAdmitted key next, s.begins ++ [⟨input, some ⟨work, s.plan.budgets, key, next⟩, .pending⟩]⟩
  | settle (before after : List BeginCall) (call : BeginCall) (accepted : Bool) : call.status = .pending →
      s.begins = before ++ call :: after →
      PlanEffect s (.settle before.length accepted)
        ⟨s.plan.answer call accepted, before ++ call.answer accepted :: after⟩

theorem pushBudgets_extends (phase : ProviderTrafficPhase) : ∀ (phaseBudgets budgets : List TrafficBudget),
    budgets <+: (pushBudgets phase budgets phaseBudgets).1
  | [], budgets => List.prefix_rfl
  | budget :: phaseBudgets, budgets => by
    unfold pushBudgets
    split
    · exact List.prefix_rfl
    · exact (List.prefix_append budgets _).trans (pushBudgets_extends phase phaseBudgets _)

theorem freezePhase_extends (plan : TrafficPlan) (phase : ProviderTrafficPhase) (phaseBudgets : List TrafficBudget) :
    plan.budgets <+: (plan.freezePhase phase phaseBudgets).1.budgets ∧
      (plan.freezePhase phase phaseBudgets).1.admitted = plan.admitted := by
  have hpush := pushBudgets_extends phase phaseBudgets plan.budgets
  unfold TrafficPlan.freezePhase
  split
  · exact ⟨List.prefix_rfl, rfl⟩
  · split <;> rename_i he <;> rw [he] at hpush <;> exact ⟨hpush, rfl⟩

theorem admitRecovery_extends (plan : TrafficPlan) (phase : ProviderTrafficPhase) (kind : TrafficEffectKind)
    (workKey reason : String) :
    plan.budgets <+: (plan.admitRecovery phase kind workKey reason).1.budgets ∧
      (plan.admitRecovery phase kind workKey reason).1.admitted = plan.admitted := by
  unfold TrafficPlan.admitRecovery
  split
  · exact ⟨List.prefix_rfl, rfl⟩
  · split
    · exact ⟨List.prefix_rfl, rfl⟩
    · split
      · exact ⟨List.prefix_rfl, rfl⟩
      · exact ⟨List.prefix_append _ _, rfl⟩

theorem step_effect {s s' : PlanRun} {call : PlanCall} (h : s.step call = some s') : PlanEffect s call s' := by
  cases call with
  | freezePhase phase phaseBudgets =>
    cases h
    have he := freezePhase_extends s.plan phase phaseBudgets
    exact .extend _ _ (fun _ _ => nofun) he.1 he.2
  | admitRecovery phase kind workKey reason =>
    cases h
    have he := admitRecovery_extends s.plan phase kind workKey reason
    exact .extend _ _ (fun _ _ => nofun) he.1 he.2
  | begin input =>
    simp only [PlanRun.step] at h
    split at h
    · rename_i hwork
      cases h
      exact .unbudgeted input hwork
    · rename_i work hwork
      split at h
      · cases h
        exact .exceeded input
      · rename_i plan key next hreserve
        cases h
        unfold TrafficPlan.reserve at hreserve
        dsimp only at hreserve
        split at hreserve
        · cases hreserve
        · rename_i hlimit
          cases hreserve
          exact .reserve input work _ _ hwork rfl rfl (by simpa using hlimit)
  | settle index accepted =>
    simp only [PlanRun.step] at h
    split at h
    · rename_i call after hdrop
      split at h
      · rename_i hpending
        cases h
        have hsplit : s.begins = s.begins.take index ++ call :: after := by
          rw [← hdrop, List.take_append_drop]
        have hlength : (s.begins.take index).length = index := by
          have hlt : index < s.begins.length := by
            apply Nat.lt_of_not_le
            intro hle
            rw [List.drop_eq_nil_of_le hle] at hdrop
            cases hdrop
          rw [List.length_take]
          omega
        have heffect := PlanEffect.settle (s := s) _ after call accepted hpending hsplit
        rwa [hlength] at heffect
      · cases h
    · cases h

/-! ## The invariant -/

/-- The number of begins that hold a count of the key. -/
def PlanRun.heldUnder (s : PlanRun) (key : BudgetKey) : Nat := RankedLog.count BeginCall.held key s.begins

/-- The counters count the begins that have not been rejected. -/
def Accounted (s : PlanRun) : Prop := ∀ key, s.plan.admitted key = s.heldUnder key

/-- What `begin` has checked for a reservation, under the budgets the plan had then. -/
structure Reservation.Checked (reservation : Reservation) (budgets : List TrafficBudget) : Prop where
  planned : reservation.planned <+: budgets
  key : reservation.key = budgetKey reservation.planned reservation.work
  limit : (budgetLimit reservation.planned reservation.work).lt (.ofNat reservation.next) = false

/-- The invariant of the runs that roll back the last begin of a key only. -/
structure Consistent (s : PlanRun) : Prop where
  accounted : Accounted s
  ranked : RankedLog.Ranked BeginCall.held (fun _ => 0) s.begins
  checked : ∀ call ∈ s.begins, ∀ reservation ∈ call.reserved, reservation.Checked s.plan.budgets
  work : ∀ call ∈ s.begins, call.reserved.map Reservation.work = trafficWork call.input

/-- When the governor below rejects a begin, every begin of its budget key that was made after it has been rejected
before. -/
def RollsBackLast (s : PlanRun) : PlanCall → Prop
  | .settle index false => ∀ call ∈ s.begins[index]?, ∀ reservation ∈ call.reserved,
      ∀ later ∈ s.begins.drop (index + 1), ∀ held ∈ later.held, held.1 ≠ reservation.key
  | _ => True

instance (s : PlanRun) (call : PlanCall) : Decidable (RollsBackLast s call) := by
  unfold RollsBackLast
  split <;> infer_instance

section Answer

variable {s : PlanRun} {before after : List BeginCall} {call : BeginCall} {accepted : Bool}

theorem held_of_pending (h : call.status = .pending) :
    call.held = call.reserved.map fun reservation => (reservation.key, reservation.next) := by
  simp [BeginCall.held, h]

/-- A begin that resolves holds what it held. -/
theorem held_answer_true (h : call.status = .pending) : (call.answer true).held = call.held := by
  simp [BeginCall.held, BeginCall.answer, h]

/-- A begin that is rejected holds nothing. -/
theorem held_answer_false (call : BeginCall) : (call.answer false).held = none := by
  simp [BeginCall.held, BeginCall.answer]

/-- The restriction, where the begins are split at the one that is rejected. -/
theorem rollsBackLast_iff (hsplit : s.begins = before ++ call :: after) :
    RollsBackLast s (.settle before.length false) ↔
      ∀ reservation ∈ call.reserved, RankedLog.count BeginCall.held reservation.key after = 0 := by
  have hget : s.begins[before.length]? = some call := by simp [hsplit]
  have hdrop : s.begins.drop (before.length + 1) = after := by simp [hsplit]
  unfold RollsBackLast
  simp only [hget, hdrop, Option.mem_some_iff, forall_eq', RankedLog.count_eq_zero]
  constructor
  · intro h reservation hr later hl rank hheld
    exact h reservation hr later hl _ hheld rfl
  · rintro h reservation hr later hl ⟨key, rank⟩ hheld rfl
    exact h reservation hr later hl rank hheld

/-- **A rollback is right exactly when it rolls back the last begin of its key.** -/
theorem accounted_reject_iff (hc : Consistent s) (hpending : call.status = .pending)
    (hsplit : s.begins = before ++ call :: after) :
    Accounted ⟨s.plan.answer call false, before ++ call.answer false :: after⟩ ↔
      ∀ reservation ∈ call.reserved, RankedLog.count BeginCall.held reservation.key after = 0 := by
  have hranked := hc.ranked
  have hbefore := hc.accounted
  simp only [Accounted, PlanRun.heldUnder, hsplit] at hbefore hranked
  have hfree : ∀ key, RankedLog.count BeginCall.held key [call.answer false] = 0 :=
    RankedLog.count_free (held_answer_false call)
  simp only [Accounted, PlanRun.heldUnder, RankedLog.count_split, hfree]
  simp only [RankedLog.count_split] at hbefore
  cases hreserved : call.reserved with
  | none =>
    -- it holds no count, and nothing is stored
    have hheld : call.held = none := by rw [held_of_pending hpending, hreserved, Option.map_none]
    simp only [RankedLog.count_free hheld] at hbefore
    simp only [TrafficPlan.answer, hreserved, Option.mem_def, reduceCtorEq, false_implies, implies_true, iff_true]
    exact hbefore
  | some reservation =>
    have hheld : call.held = some (reservation.key, reservation.next) := by
      rw [held_of_pending hpending, hreserved, Option.map_some]
    have hnext := hranked.rank hheld
    simp only [TrafficPlan.answer, hreserved, Option.mem_some_iff, forall_eq', TrafficPlan.rollback,
      TrafficPlan.setAdmitted]
    constructor
    · intro h
      have hkey := h reservation.key
      rw [Function.update_self] at hkey
      omega
    · intro h key
      by_cases hkey : key = reservation.key
      · subst hkey
        rw [Function.update_self]
        omega
      · rw [Function.update_of_ne hkey, hbefore key, RankedLog.count_held hheld, if_neg (Ne.symm hkey)]

end Answer

theorem Reservation.Checked.mono {reservation : Reservation} {budgets budgets' : List TrafficBudget}
    (h : reservation.Checked budgets) (hle : budgets <+: budgets') : reservation.Checked budgets' :=
  ⟨h.planned.trans hle, h.key, h.limit⟩

/-- Answers change neither the budgets nor the reservations. -/
theorem answer_budgets (plan : TrafficPlan) (call : BeginCall) (accepted : Bool) :
    (plan.answer call accepted).budgets = plan.budgets := by
  unfold TrafficPlan.answer
  split <;> rfl

theorem mem_answer {before after : List BeginCall} {call other : BeginCall} {accepted : Bool}
    (h : other ∈ before ++ call.answer accepted :: after) :
    ∃ call' ∈ before ++ call :: after, other.reserved = call'.reserved ∧ other.input = call'.input := by
  rcases List.mem_append.1 h with hm | hm
  · exact ⟨other, List.mem_append_left _ hm, rfl, rfl⟩
  · rcases List.mem_cons.1 hm with rfl | hm
    · exact ⟨call, List.mem_append_right _ List.mem_cons_self, rfl, rfl⟩
    · exact ⟨other, List.mem_append_right _ (List.mem_cons_of_mem _ hm), rfl, rfl⟩

theorem Consistent.step {s s' : PlanRun} {call : PlanCall} (hc : Consistent s) (hlast : RollsBackLast s call)
    (h : PlanEffect s call s') : Consistent s' := by
  cases h with
  | extend _ plan _ hbudgets hadmitted =>
    refine ⟨?_, hc.ranked, ?_, hc.work⟩
    · intro key
      show plan.admitted key = _
      rw [hadmitted]
      exact hc.accounted key
    · intro call hm reservation hr
      exact (hc.checked call hm reservation hr).mono hbudgets
  | unbudgeted input hwork =>
    have hheld : (⟨input, none, .pending⟩ : BeginCall).held = none := rfl
    refine ⟨?_, hc.ranked.push ?_, ?_, ?_⟩
    · intro key
      rw [PlanRun.heldUnder, RankedLog.count_append, RankedLog.count_free hheld]
      exact hc.accounted key
    · intro key rank hk
      rw [hheld] at hk
      cases hk
    · intro call hm reservation hr
      rcases List.mem_append.1 hm with hm | hm
      · exact hc.checked call hm reservation hr
      · rw [List.mem_singleton.1 hm] at hr
        cases hr
    · intro call hm
      rcases List.mem_append.1 hm with hm | hm
      · exact hc.work call hm
      · rw [List.mem_singleton.1 hm, hwork]
        rfl
  | exceeded _ => exact hc
  | reserve input work key next hwork hkey hnext hlimit =>
    have hheld : (⟨input, some ⟨work, s.plan.budgets, key, next⟩, .pending⟩ : BeginCall).held = some (key, next) := rfl
    refine ⟨?_, hc.ranked.push ?_, ?_, ?_⟩
    · intro key'
      have hbefore := hc.accounted key'
      rw [PlanRun.heldUnder] at hbefore ⊢
      rw [RankedLog.count_append, RankedLog.count_held hheld]
      by_cases hk : key' = key
      · subst hk
        simp only [TrafficPlan.setAdmitted, Function.update_self, if_pos]
        omega
      · simp only [TrafficPlan.setAdmitted, Function.update_of_ne hk, if_neg (Ne.symm hk)]
        omega
    · intro key' rank hk
      rw [hheld] at hk
      cases hk
      have hbefore := hc.accounted key
      rw [PlanRun.heldUnder] at hbefore
      omega
    · intro call hm reservation hr
      rcases List.mem_append.1 hm with hm | hm
      · exact hc.checked call hm reservation hr
      · rw [List.mem_singleton.1 hm] at hr
        cases hr
        exact ⟨List.prefix_rfl, hkey, hlimit⟩
    · intro call hm
      rcases List.mem_append.1 hm with hm | hm
      · exact hc.work call hm
      · rw [List.mem_singleton.1 hm, hwork]
        rfl
  | settle before after call accepted hpending hsplit =>
    have hranked := hc.ranked
    rw [hsplit] at hranked
    refine ⟨?_, ?_, ?_, ?_⟩
    · cases accepted with
      | true =>
        intro key
        have hbefore := hc.accounted key
        rw [PlanRun.heldUnder, hsplit, RankedLog.count_split] at hbefore
        rw [PlanRun.heldUnder, RankedLog.count_split, RankedLog.count_congr (held_answer_true hpending)]
        exact hbefore
      | false => exact (accounted_reject_iff hc hpending hsplit).2 ((rollsBackLast_iff hsplit).1 hlast)
    · cases accepted with
      | true => exact hranked.replace (held_answer_true hpending)
      | false =>
        refine hranked.retract (held_answer_false call) ?_
        intro key rank hk
        rw [held_of_pending hpending, Option.map_eq_some_iff] at hk
        obtain ⟨reservation, hr, he⟩ := hk
        cases he
        exact (rollsBackLast_iff hsplit).1 hlast reservation hr
    · intro other hm reservation hr
      obtain ⟨call', hm', hreserved, -⟩ := mem_answer hm
      rw [answer_budgets]
      exact hc.checked call' (hsplit ▸ hm') reservation (hreserved ▸ hr)
    · intro other hm
      obtain ⟨call', hm', hreserved, hinput⟩ := mem_answer hm
      rw [hreserved, hinput]
      exact hc.work call' (hsplit ▸ hm')

theorem Consistent.init : Consistent ⟨.new, []⟩ :=
  ⟨fun _ => rfl, trivial, fun _ hm => absurd hm List.not_mem_nil, fun _ hm => absurd hm List.not_mem_nil⟩

theorem consistent_of_reachable {s : PlanRun} (h : (trafficPlanSystem.restrict RollsBackLast).Reachable s) :
    Consistent s := by
  apply h.invariant
  · rintro s rfl
    exact .init
  · intro s call s' _ hc hstep
    exact hc.step hstep.1 (step_effect hstep.2)

/-! ## The limits -/

/-- What tells exact budgets apart. -/
def TrafficBudget.scope (budget : TrafficBudget) :
    ProviderTrafficPhase × TrafficEffectKind × Option String × Option String :=
  (budget.phase, budget.kind, budget.workKey, budget.recoveryReason)

/-- The budgets all have work keys, and no two the same for one phase, kind and recovery reason. -/
structure ExactBudgets (budgets : List TrafficBudget) : Prop where
  exact : ∀ budget ∈ budgets, budget.workKey ≠ none
  distinct : (budgets.map TrafficBudget.scope).Nodup

/-- The budget key of the work an exact budget is open to. -/
def TrafficBudget.key (budget : TrafficBudget) : BudgetKey :=
  { phase := .planned budget.phase
    kind := budget.kind
    work := (if budget.reason = some "" then "*" else budget.workKey.getD "*") ++ ":" ++
      budget.recoveryReason.getD "ordinary" }

/-- The number of begins that have resolved for a budget. -/
def PlanRun.resolvedFor (s : PlanRun) (budget : TrafficBudget) : Nat :=
  s.begins.countP fun call =>
    call.status = .resolved && call.reserved.any fun reservation => budget.openTo reservation.work

/-- The recovery reason that work asks a budget for. -/
def TrafficWork.recoveryReason (work : TrafficWork) : Option String :=
  if work.interactionClass = .providerRecovery then work.reason else none

section Limits

variable {budgets planned : List TrafficBudget} {budget budget' : TrafficBudget} {work : TrafficWork}

theorem scope_of_openTo (hexact : budget.workKey ≠ none) (h : budget.openTo work = true) :
    work.phase = .planned budget.phase ∧ work.kind = budget.kind ∧ work.workKey = budget.workKey ∧
      work.recoveryReason = budget.recoveryReason ∧
      (budget.recoveryReason = none ↔ work.interactionClass ≠ .providerRecovery) := by
  simp only [TrafficBudget.openTo, Bool.and_eq_true, Bool.or_eq_true, decide_eq_true_eq] at h
  obtain ⟨⟨⟨hphase, hkind⟩, hwork⟩, hreason⟩ := h
  refine ⟨hphase, hkind.symm, (hwork.resolve_left hexact).symm, ?_⟩
  unfold TrafficWork.recoveryReason
  cases hr : budget.recoveryReason with
  | none => simp_all
  | some reason => simp_all

/-- Two exact budgets that are open to the same work are the same. -/
theorem ExactBudgets.eq_of_openTo (he : ExactBudgets budgets) (hb : budget ∈ budgets) (hb' : budget' ∈ budgets)
    (h : budget.openTo work = true) (h' : budget'.openTo work = true) : budget' = budget := by
  obtain ⟨hp, hk, hw, hr, -⟩ := scope_of_openTo (he.exact budget hb) h
  obtain ⟨hp', hk', hw', hr', -⟩ := scope_of_openTo (he.exact budget' hb') h'
  refine List.inj_on_of_nodup_map he.distinct hb' hb ?_
  rw [hp, MirrorTrafficPhase.planned.injEq] at hp'
  simp only [TrafficBudget.scope, Prod.mk.injEq]
  exact ⟨hp'.symm, hk'.symm.trans hk, hw'.symm.trans hw, hr'.symm.trans hr⟩

theorem ExactBudgets.of_prefix (he : ExactBudgets budgets) (hle : planned <+: budgets) : ExactBudgets planned :=
  ⟨fun budget hb => he.exact budget (hle.subset hb), (hle.sublist.map _).nodup he.distinct⟩

/-- The limit is a sum over the budgets that are open. -/
theorem budgetLimit_filter (budgets : List TrafficBudget) (work : TrafficWork) :
    budgetLimit budgets work = ((budgets.filter (·.openTo work)).map TrafficBudget.allowance).foldl .add (.ofNat 0) := by
  rw [List.foldl_map, List.foldl_filter]
  rfl

/-- Nothing is admitted that no budget is open to. -/
theorem exists_openTo {next : Nat} (h : (budgetLimit budgets work).lt (.ofNat (next + 1)) = false) :
    ∃ budget ∈ budgets, budget.openTo work = true := by
  by_contra hn
  have hnone : budgets.filter (·.openTo work) = [] := by
    rw [List.filter_eq_nil_iff]
    intro budget hb ho
    exact hn ⟨budget, hb, ho⟩
  rw [budgetLimit_filter, hnone] at h
  simp at h

/-- The limit of work that an exact budget is open to is the allowance of the budget. -/
theorem ExactBudgets.budgetLimit_eq (he : ExactBudgets budgets) (hb : budget ∈ budgets)
    (h : budget.openTo work = true) : budgetLimit budgets work = budget.allowance := by
  have hnodup : (budgets.filter (·.openTo work)).Nodup := (List.Nodup.of_map _ he.distinct).filter _
  have hall : ∀ other ∈ budgets.filter (·.openTo work), other = budget := by
    intro other hm
    rw [List.mem_filter] at hm
    exact he.eq_of_openTo hb hm.1 h hm.2
  have hmem : budget ∈ budgets.filter (·.openTo work) := List.mem_filter.2 ⟨hb, h⟩
  have hsingle : budgets.filter (·.openTo work) = [budget] := by
    cases hl : budgets.filter (·.openTo work) with
    | nil => rw [hl] at hmem; cases hmem
    | cons first rest =>
      rw [hl] at hall hnodup
      have hfirst := hall first List.mem_cons_self
      subst hfirst
      cases rest with
      | nil => rfl
      | cons second rest =>
        have hsecond := hall second (List.mem_cons_of_mem _ List.mem_cons_self)
        subst hsecond
        exact absurd List.mem_cons_self (List.nodup_cons.1 hnodup).1
  rw [budgetLimit_filter, hsingle]
  simp

theorem recoveryReason_eq_none (h : budget.reason = none ∨ budget.reason = some "") : budget.recoveryReason = none := by
  rcases h with h | h <;> simp [TrafficBudget.recoveryReason, h]

theorem recoveryReason_eq_some {reason : String} (h : budget.reason = some reason) (hne : reason ≠ "") :
    budget.recoveryReason = some reason := by
  simp [TrafficBudget.recoveryReason, h, Option.filter, hne]

/-- Work that an exact budget is open to has its work key counted, unless the reason of the budget is empty. -/
theorem ExactBudgets.hasExact_iff (he : ExactBudgets budgets) (hb : budget ∈ budgets)
    (h : budget.openTo work = true) : hasExact budgets work = true ↔ budget.reason ≠ some "" := by
  obtain ⟨hphase, hkind, hwork, hreason, hclass⟩ := scope_of_openTo (he.exact budget hb) h
  simp only [hasExact, List.any_eq_true, Bool.and_eq_true, decide_eq_true_eq]
  constructor
  · rintro ⟨other, hm, ⟨⟨hp, hk⟩, hw⟩, hr⟩ hempty
    -- a budget that is exact for the work has the same scope, but not the empty reason
    have hnone := recoveryReason_eq_none (Or.inr hempty)
    rw [if_neg (hclass.1 hnone)] at hr
    have hother : other.scope = budget.scope := by
      rw [hphase, MirrorTrafficPhase.planned.injEq] at hp
      simp only [TrafficBudget.scope, Prod.mk.injEq]
      exact ⟨hp.symm, hk.trans hkind, hw.trans hwork, (recoveryReason_eq_none (Or.inl hr)).trans hnone.symm⟩
    have heq := List.inj_on_of_nodup_map he.distinct hm hb hother
    subst heq
    rw [hempty] at hr
    cases hr
  · intro hne
    refine ⟨budget, hb, ⟨⟨hphase, hkind.symm⟩, hwork.symm⟩, ?_⟩
    show budget.reason = work.recoveryReason
    rw [hreason]
    cases hr : budget.reason with
    | none => rw [recoveryReason_eq_none (Or.inl hr)]
    | some reason => rw [recoveryReason_eq_some hr fun e => hne (hr.trans (congrArg some e))]

theorem ExactBudgets.budgetKey_eq (he : ExactBudgets budgets) (hb : budget ∈ budgets)
    (h : budget.openTo work = true) : budgetKey budgets work = budget.key := by
  obtain ⟨hphase, hkind, hwork, hreason, hclass⟩ := scope_of_openTo (he.exact budget hb) h
  have hlast : (if work.interactionClass = .providerRecovery then work.reason.getD "missing-reason" else "ordinary") =
      budget.recoveryReason.getD "ordinary" := by
    unfold TrafficWork.recoveryReason at hreason
    cases hr : budget.recoveryReason with
    | none => rw [if_neg (hclass.1 hr)]; rfl
    | some reason =>
      have hrecovery : work.interactionClass = .providerRecovery := by
        by_contra hn
        rw [hclass.2 hn] at hr
        cases hr
      rw [if_pos hrecovery, hr] at hreason
      rw [if_pos hrecovery, hreason]
      rfl
  have hexact := he.hasExact_iff hb h
  unfold budgetKey TrafficBudget.key
  rw [hlast, hphase, hkind, hwork]
  by_cases hempty : budget.reason = some ""
  · have hfalse : hasExact budgets work = false := by
      by_contra hn
      exact hexact.1 (Bool.eq_true_of_not_eq_false hn) hempty
    simp [hfalse, hempty]
  · simp [hexact.2 hempty, hempty]

/-- A limit is not negative. -/
theorem allowance_nonneg (budget : TrafficBudget) : budget.allowance.lt (.ofNat 0) = false := by
  unfold TrafficBudget.allowance
  cases budget.limit with
  | finite q => simp [JsNumber.floor, JsNumber.atLeast, JsNumber.lt, JsNumber.ofNat]
  | nan => rfl
  | infinite negative => cases negative <;> simp [JsNumber.floor, JsNumber.atLeast, JsNumber.lt, JsNumber.ofNat]

end Limits

/-- Under distinct exact budgets, no more begins resolve for a budget than its limit. -/
theorem Consistent.resolvedFor_le {s : PlanRun} (hc : Consistent s) (he : ExactBudgets s.plan.budgets)
    {budget : TrafficBudget} (hb : budget ∈ s.plan.budgets) :
    budget.allowance.lt (.ofNat (s.resolvedFor budget)) = false := by
  have hheld : ∀ call ∈ s.begins, (call.status = .resolved && call.reserved.any fun reservation =>
      budget.openTo reservation.work) = true → ∃ next, call.held = some (budget.key, next) ∧
      ∀ n ≤ next, budget.allowance.lt (.ofNat n) = false := by
    intro call hm hcall
    simp only [Bool.and_eq_true, decide_eq_true_eq, Option.any_eq_true] at hcall
    obtain ⟨hstatus, reservation, hr, hopen⟩ := hcall
    have hheld : call.held = some (reservation.key, reservation.next) := by simp [BeginCall.held, hstatus, hr]
    obtain ⟨hplanned, hkey, hlimit⟩ := hc.checked call hm reservation hr
    have hexact := he.of_prefix hplanned
    -- the budget it was admitted under is this one
    have hnext : ∃ n, reservation.next = n + 1 := by
      obtain ⟨before, after, hsplit⟩ := List.append_of_mem hm
      have hranked := hc.ranked
      rw [hsplit] at hranked
      exact ⟨_, hranked.rank hheld⟩
    obtain ⟨n, hn⟩ := hnext
    rw [hn] at hlimit
    obtain ⟨found, hfound, hopen'⟩ := exists_openTo hlimit
    have hsame := he.eq_of_openTo (hplanned.subset hfound) hb hopen' hopen
    subst hsame
    refine ⟨reservation.next, ?_, ?_⟩
    · rw [hheld, hkey, hexact.budgetKey_eq hfound hopen']
    · intro m hle
      rw [← hn, hexact.budgetLimit_eq hfound hopen'] at hlimit
      by_contra hlt
      have := JsNumber.lt_ofNat_mono (Bool.eq_true_of_not_eq_false hlt) hle
      rw [hlimit] at this
      cases this
  by_cases hzero : s.resolvedFor budget = 0
  · rw [hzero]
    exact allowance_nonneg budget
  · obtain ⟨call, hm, hcall, next, hnext, hle⟩ := hc.ranked.exists_rank _ budget.key
      (fun call hm hcall => (hheld call hm hcall).imp fun _ h => h.1) hzero
    obtain ⟨next', hnext', hlimit⟩ := hheld call hm hcall
    rw [hnext] at hnext'
    cases hnext'
    rw [Nat.zero_add] at hle
    exact hlimit _ hle

/-- **Concurrent begins.** In every run in which a rejected begin is the last of its budget key that was not rejected
before, the counters count the begins that are not rejected, and under distinct exact budgets no more begins resolve
for a budget than its limit. The next rejection keeps the counters right exactly when it is such a one. -/
theorem concurrent_begins_within_budget {s : PlanRun} (h : (trafficPlanSystem.restrict RollsBackLast).Reachable s) :
    Accounted s ∧
    (ExactBudgets s.plan.budgets →
      ∀ budget ∈ s.plan.budgets, budget.allowance.lt (.ofNat (s.resolvedFor budget)) = false) ∧
    ∀ index s', trafficPlanSystem.Step s (.settle index false) s' →
      (Accounted s' ↔ RollsBackLast s (.settle index false)) := by
  have hc := consistent_of_reachable h
  refine ⟨hc.accounted, fun he budget hb => hc.resolvedFor_le he hb, ?_⟩
  intro index s' hstep
  cases step_effect hstep with
  | extend _ _ hne => exact absurd rfl (hne index false)
  | settle before after call _ hpending hsplit =>
    rw [rollsBackLast_iff hsplit]
    exact accounted_reject_iff hc hpending hsplit

/-! ## Overlapping begins on one budget -/

/-- One page navigation of a conversation. -/
def conversationVisit : TrafficActionInput :=
  { kind := .navigate, interactionClass := .conversationRead, source := "mirror:detail", trafficPhase := some .detail,
    workKey := some "scope:conversation" }

/-- Two page navigations are planned. -/
def conversationBudget : TrafficBudget :=
  { phase := .detail, kind := .pageNavigate, workKey := some "scope:conversation", limit := .ofNat 2 }

/-- Two begins overlap, and the first is rejected while the second is pending. -/
def overlappedRun : PlanRun :=
  (execute PlanRun.step ⟨.new, []⟩
    [.freezePhase .detail [conversationBudget], .begin conversationVisit, .begin conversationVisit, .settle 0 false,
      .begin conversationVisit, .begin conversationVisit, .settle 1 true, .settle 2 true, .settle 3 true]).get
    (by decide +kernel)

/-- Three begins resolve under a limit of two. -/
theorem overlapping_begins_exceed_limit : ¬∀ s, trafficPlanSystem.Reachable s → ExactBudgets s.plan.budgets →
    Accounted s ∧ ∀ budget ∈ s.plan.budgets, budget.allowance.lt (.ofNat (s.resolvedFor budget)) = false := by
  intro h
  have hreach : trafficPlanSystem.Reachable overlappedRun := reachable_execute (.init rfl) (Option.some_get _).symm
  have hbudgets : overlappedRun.plan.budgets = [conversationBudget] := by decide +kernel
  have hexact : ExactBudgets overlappedRun.plan.budgets := by
    rw [hbudgets]
    exact ⟨by decide +kernel, by decide +kernel⟩
  have hexceeded : conversationBudget.allowance.lt (.ofNat (overlappedRun.resolvedFor conversationBudget)) = true := by
    decide +kernel
  have hlimit := (h overlappedRun hreach hexact).2 conversationBudget (by rw [hbudgets]; exact List.mem_cons_self)
  rw [hexceeded] at hlimit
  cases hlimit

/-- Two begins overlap, and the second is rejected. -/
def rolledBackRun : PlanRun :=
  (execute (fun s call => if decide (RollsBackLast s call) then PlanRun.step s call else none) ⟨.new, []⟩
    [.freezePhase .detail [conversationBudget], .begin conversationVisit, .begin conversationVisit, .settle 1 false,
      .begin conversationVisit, .settle 2 true, .settle 0 true]).get (by decide +kernel)

/-- The limit holds in it, with both of the begins that resolve counted. -/
theorem rolled_back_within_budget : rolledBackRun.resolvedFor conversationBudget = 2 ∧ Accounted rolledBackRun ∧
    (ExactBudgets rolledBackRun.plan.budgets → ∀ budget ∈ rolledBackRun.plan.budgets,
      budget.allowance.lt (.ofNat (rolledBackRun.resolvedFor budget)) = false) ∧
    ∀ index s', trafficPlanSystem.Step rolledBackRun (.settle index false) s' →
      (Accounted s' ↔ RollsBackLast rolledBackRun (.settle index false)) := by
  refine ⟨by decide +kernel, concurrent_begins_within_budget ?_⟩
  exact reachable_execute_where (fun _ _ h => of_decide_eq_true h) (.init rfl) (Option.some_get _).symm

end AuraCall.Traffic
