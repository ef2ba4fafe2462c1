import AuraCall.Traffic.Governor

/-!
# No grant after a warning

`begin` and `checkWarning` look at the observed warning when they are called, and not again after their awaits. So a
warning that is observed stops the calls that are made after it; a `begin` or a backend admission that is under way then
is still granted. Nothing is granted after a warning exactly when no grant is under way at the turn that observes it
(`ObservesAlone`).
-/

namespace AuraCall.Traffic

open TransitionSystem EventLoop

variable {κ : Type} {input : GovernorInput}

/-- The call has passed its check of the warning and may still be granted. -/
def CallPoint.awaitsGrant (s : GovernorState κ) : CallPoint κ → Bool
  | .beginLease _ | .pacing _ | .startAudit _ _ | .admitting _ => true
  | .check (.admission _) (.lease _) | .check (.admission _) .probe | .checked _ => s.backendRequestState.isNone
  | _ => false

/-- When a warning is observed, no other call is under way to a grant. -/
def ObservesAlone (c : Config (GovernorState κ) (CallPoint κ)) : Turn (TrafficCall κ) TrafficAnswer → Prop
  | .answer index (.warned _) => ∀ point ∈ c.calls.eraseIdx index, point.awaitsGrant c.shared = false
  | _ => True

instance (c : Config (GovernorState κ) (CallPoint κ)) (t : Turn (TrafficCall κ) TrafficAnswer) :
    Decidable (ObservesAlone c t) := by
  unfold ObservesAlone
  split <;> infer_instance

/-- What has been granted. -/
def GovernorState.grants (s : GovernorState κ) : List (Nat × TrafficActionInput) × List String := (s.granted, s.admitted)

/-! ## What a turn grants -/

theorem checkWarning_awaits {s : GovernorState κ} (h : s.observedWarning ≠ none) (s' : GovernorState κ)
    (caller : CheckCaller) (context : Option κ) : (s.checkWarning caller context).awaitsGrant s' = false := by
  unfold GovernorState.checkWarning
  split
  · rfl
  · contradiction

/-- A call that is made after a warning was observed is not under way to a grant. -/
theorem start_stopped {s s' : GovernorState κ} {call : TrafficCall κ} {point : CallPoint κ}
    (hs : s.start input call = some (s', point)) (h : s.observedWarning ≠ none) :
    s'.observedWarning ≠ none ∧ point.awaitsGrant s' = false := by
  obtain ⟨warning, hw⟩ := Option.ne_none_iff_exists'.1 h
  cases call with
  | begin action aborted =>
    simp only [GovernorState.start, hw] at hs
    cases hs
    exact ⟨h, rfl⟩
  | settle id details probeContext =>
    simp only [GovernorState.start] at hs
    split at hs
    · cases hs
    · split at hs <;> cases hs <;> exact ⟨h, rfl⟩
  | checkWarning context =>
    cases hs
    exact ⟨h, checkWarning_awaits h _ _ _⟩
  | admitBackendRequest requestKey probeContext =>
    simp only [GovernorState.start] at hs
    split at hs <;> cases hs
    exact ⟨h, checkWarning_awaits h _ _ _⟩

/-- No call is granted as it is made, and none changes the state of the backend. -/
theorem start_frame {s s' : GovernorState κ} {call : TrafficCall κ} {point : CallPoint κ}
    (hs : s.start input call = some (s', point)) :
    s'.grants = s.grants ∧ s'.backendRequestState = s.backendRequestState ∧
      s'.observedWarning = s.observedWarning := by
  cases call with
  | begin action aborted =>
    simp only [GovernorState.start] at hs
    split at hs <;> cases hs <;> exact ⟨rfl, rfl, rfl⟩
  | settle id details probeContext =>
    simp only [GovernorState.start] at hs
    split at hs
    · cases hs
    · split at hs <;> cases hs <;> exact ⟨rfl, rfl, rfl⟩
  | checkWarning context => cases hs; exact ⟨rfl, rfl, rfl⟩
  | admitBackendRequest requestKey probeContext =>
    simp only [GovernorState.start] at hs
    split at hs <;> cases hs
    exact ⟨rfl, rfl, rfl⟩

/-- What a turn of a call does to the governor. -/
inductive ResumeEffect (s : GovernorState κ) (point : CallPoint κ) : TrafficAnswer → GovernorState κ → CallPoint κ → Prop
  | frame (answer : TrafficAnswer) (s' : GovernorState κ) (point' : CallPoint κ) :
      (∀ warning, answer ≠ .warned warning) → s'.grants = s.grants →
      s'.observedWarning = s.observedWarning → (s.backendRequestState ≠ none → s'.backendRequestState ≠ none) →
      (point'.awaitsGrant s' = true → point.awaitsGrant s = true) → ResumeEffect s point answer s' point'
  | grant (answer : TrafficAnswer) (s' : GovernorState κ) :
      (∀ warning, answer ≠ .warned warning) → point.awaitsGrant s = true →
      s'.observedWarning = s.observedWarning → s'.backendRequestState = s.backendRequestState →
      ResumeEffect s point answer s' .resolved
  | observe (warning : TrafficWarning) (point' : CallPoint κ) : point'.awaitsGrant s = false →
      ResumeEffect s point (.warned warning) { s with observedWarning := some warning } point'

theorem backendRejected_state {s : GovernorState κ} (error : TrafficError) :
    (s.backendRejected error).grants = s.grants ∧ (s.backendRejected error).observedWarning = s.observedWarning ∧
      (s.backendRequestState ≠ none → (s.backendRejected error).backendRequestState ≠ none) := by
  unfold GovernorState.backendRejected
  split
  · refine ⟨rfl, rfl, fun _ => ?_⟩
    simp [GovernorState.backendRequestState]
  · split
    · refine ⟨rfl, rfl, fun _ => ?_⟩
      simp [GovernorState.backendRequestState]
    · exact ⟨rfl, rfl, id⟩

theorem continued_awaits {s : GovernorState κ} {caller : CheckCaller} {point : CheckPoint κ} (s' : GovernorState κ)
    (hs : s'.backendRequestState = s.backendRequestState) (hp : ∀ warning, point ≠ .persist warning)
    (h : (caller.continued : CallPoint κ).awaitsGrant s' = true) : (CallPoint.check caller point).awaitsGrant s = true := by
  cases caller with
  | itself => cases h
  | settle => cases h
  | admission requestKey =>
    have hnone : s.backendRequestState.isNone = true := hs ▸ h
    cases point with
    | lease context => exact hnone
    | probe => exact hnone
    | persist warning => exact absurd rfl (hp warning)

theorem continueCheck_effect {s s' : GovernorState κ} {caller : CheckCaller} {point : CheckPoint κ}
    {answer : TrafficAnswer} {point' : CallPoint κ}
    (h : s.continueCheck input caller point answer = some (s', point')) :
    ResumeEffect s (.check caller point) answer s' point' := by
  cases answer with
  | error error =>
    have hs : some (s, .rejected error) = some (s', point') := by cases point <;> exact h
    cases hs
    exact .frame _ _ _ (fun _ => nofun) rfl rfl id (fun h => nomatch h)
  | aborted => cases point <;> cases h
  | ok =>
    cases point with
    | lease context =>
      simp only [GovernorState.continueCheck] at h
      cases h
      refine .frame _ _ _ (fun _ => nofun) rfl rfl id ?_
      intro hawaits
      split at hawaits
      · cases caller with
        | admission requestKey => exact hawaits
        | itself => cases hawaits
        | settle => cases hawaits
      · exact continued_awaits { s with lastProbeContext := context.or s.lastProbeContext } rfl
          (fun _ => nofun) hawaits
    | probe =>
      cases h
      exact .frame _ _ _ (fun _ => nofun) rfl rfl id (continued_awaits _ rfl fun _ => nofun)
    | persist warning =>
      cases h
      exact .frame _ _ _ (fun _ => nofun) rfl rfl id (fun h => nomatch h)
  | warned warning =>
    cases point with
    | lease context => cases h
    | probe =>
      simp only [GovernorState.continueCheck] at h
      cases h
      refine .observe warning _ ?_
      split
      · cases caller <;> rfl
      · rfl
    | persist _ => cases h

/-- What every turn of a call does. -/
theorem resume_effect {s s' : GovernorState κ} {point : CallPoint κ} {answer : TrafficAnswer} {point' : CallPoint κ}
    (h : s.resume input point answer = some (s', point')) : ResumeEffect s point answer s' point' := by
  have hrejected : ∀ error, (∀ warning, answer ≠ .warned warning) →
      some (s, CallPoint.rejected error) = some (s', point') → ResumeEffect s point answer s' point' := by
    intro error hanswer he
    cases he
    exact .frame _ _ _ hanswer rfl rfl id (fun h => nomatch h)
  cases point with
  | check caller point => exact continueCheck_effect h
  | beginLease action =>
    cases answer with
    | ok => cases h; exact .frame _ _ _ (fun _ => nofun) rfl rfl id (fun _ => rfl)
    | error error => exact hrejected error (fun _ => nofun) h
    | aborted => cases h
    | warned _ => cases h
  | pacing action =>
    cases answer with
    | ok => cases h; exact .frame _ _ _ (fun _ => nofun) rfl rfl id (fun _ => rfl)
    | aborted => exact hrejected _ (fun _ => nofun) h
    | error error => exact hrejected error (fun _ => nofun) h
    | warned _ => cases h
  | startAudit id action =>
    cases answer with
    | ok => cases h; exact .grant _ _ (fun _ => nofun) rfl rfl rfl
    | error error => exact hrejected error (fun _ => nofun) h
    | aborted => cases h
    | warned _ => cases h
  | completeAudit action details probeContext =>
    cases answer with
    | ok => cases h; exact .frame _ _ _ (fun _ => nofun) rfl rfl id (fun h => nomatch h)
    | error error => exact hrejected error (fun _ => nofun) h
    | aborted => cases h
    | warned _ => cases h
  | settleInteraction probeContext =>
    cases answer with
    | ok =>
      cases h
      refine .frame _ _ _ (fun _ => nofun) rfl rfl id ?_
      intro hawaits
      unfold GovernorState.checkWarning at hawaits
      split at hawaits <;> cases hawaits
    | error error => exact hrejected error (fun _ => nofun) h
    | aborted => cases h
    | warned _ => cases h
  | checked requestKey =>
    cases answer with
    | ok =>
      simp only [GovernorState.resume] at h
      split at h
      · exact hrejected _ (fun _ => nofun) h
      · rename_i hstate
        cases h
        refine .frame _ _ _ (fun _ => nofun) rfl rfl id (fun _ => ?_)
        simp [CallPoint.awaitsGrant, hstate]
    | error error => cases h
    | aborted => cases h
    | warned _ => cases h
  | admitting requestKey =>
    cases answer with
    | ok => cases h; exact .grant _ _ (fun _ => nofun) rfl rfl rfl
    | error error =>
      cases h
      obtain ⟨hg, ho, hb⟩ := backendRejected_state (s := s) error
      exact .frame _ _ _ (fun _ => nofun) hg ho hb (fun h => nomatch h)
    | aborted => cases h
    | warned _ => cases h
  | resolved => cases answer <;> cases h
  | rejected error => cases answer <;> cases h

/-! ## After the warning -/

/-- A warning has been observed, and no call is under way to a grant. -/
structure Stopped (c : Config (GovernorState κ) (CallPoint κ)) : Prop where
  observed : c.shared.observedWarning ≠ none
  awaits : ∀ point ∈ c.calls, point.awaitsGrant c.shared = false

/-- A call that was not under way to a grant is not when the backend has failed since. -/
theorem awaitsGrant_mono {s s' : GovernorState κ} (hs : s.backendRequestState ≠ none → s'.backendRequestState ≠ none)
    {point : CallPoint κ} (h : point.awaitsGrant s = false) : point.awaitsGrant s' = false := by
  have hstate : s.backendRequestState.isNone = false → s'.backendRequestState.isNone = false := by
    simpa [Option.isNone_eq_false_iff, Option.isSome_iff_ne_none] using hs
  cases point with
  | check caller point =>
    cases caller with
    | admission requestKey =>
      cases point with
      | lease context => exact hstate h
      | probe => exact hstate h
      | persist warning => rfl
    | itself => rfl
    | settle => rfl
  | checked requestKey => exact hstate h
  | _ => exact h

theorem Stopped.turn {c c' : Config (GovernorState κ) (CallPoint κ)} {t : Turn (TrafficCall κ) TrafficAnswer}
    (h : Stopped c) (ht : Takes (trafficGovernor κ input) c t c') : Stopped c' ∧ c'.shared.grants = c.shared.grants := by
  cases ht with
  | call hs =>
    obtain ⟨ho, hp⟩ := start_stopped hs h.observed
    obtain ⟨hg, hb, -⟩ := start_frame hs
    refine ⟨⟨ho, ?_⟩, hg⟩
    intro point hm
    rcases List.mem_append.1 hm with hm | hm
    · exact awaitsGrant_mono (fun hn => hb ▸ hn) (h.awaits point hm)
    · rw [List.mem_singleton.1 hm]
      exact hp
  | @answer before after point point' answer shared hsplit hr =>
    have hpoint := h.awaits point (by rw [hsplit]; simp)
    have hothers : ∀ s' : GovernorState κ, (c.shared.backendRequestState ≠ none → s'.backendRequestState ≠ none) →
        point'.awaitsGrant s' = false → ∀ q ∈ before ++ point' :: after, q.awaitsGrant s' = false := by
      intro s' hs' hp q hm
      rcases List.mem_append.1 hm with hm | hm
      · exact awaitsGrant_mono hs' (h.awaits q (by rw [hsplit]; simp [hm]))
      · rcases List.mem_cons.1 hm with rfl | hm
        · exact hp
        · exact awaitsGrant_mono hs' (h.awaits q (by rw [hsplit]; simp [hm]))
    cases resume_effect hr with
    | frame _ _ _ _ hg ho hb hp =>
      refine ⟨⟨?_, hothers shared hb ?_⟩, hg⟩
      · show shared.observedWarning ≠ none
        rw [ho]
        exact h.observed
      · by_contra hn
        rw [hp (Bool.eq_true_of_not_eq_false hn)] at hpoint
        cases hpoint
    | grant _ _ _ hp =>
      rw [hp] at hpoint
      cases hpoint
    | observe warning _ hp =>
      exact ⟨⟨Option.some_ne_none _, hothers _ id hp⟩, rfl⟩

theorem Stopped.run {c c' : Config (GovernorState κ) (CallPoint κ)} {ts : List (Turn (TrafficCall κ) TrafficAnswer)}
    (h : Stopped c) (hrun : (governorSystem κ input).Run c ts c') : c'.shared.grants = c.shared.grants := by
  induction hrun with
  | nil => rfl
  | cons ht _ ih =>
    obtain ⟨hstopped, hgrants⟩ := h.turn (takes_of_turn ht)
    exact (ih hstopped).trans hgrants

theorem eraseIdx_split (before after : List (CallPoint κ)) (point : CallPoint κ) :
    (before ++ point :: after).eraseIdx before.length = before ++ after := by
  rw [List.eraseIdx_append_of_length_le (Nat.le_refl _), Nat.sub_self, List.eraseIdx_zero, List.tail_cons]

/-- **The turn that observes a warning alone stops the grants.** -/
theorem stopped_of_observesAlone {c c' : Config (GovernorState κ) (CallPoint κ)}
    {t : Turn (TrafficCall κ) TrafficAnswer} (h : c.shared.observedWarning ≠ none → Stopped c) (hok : ObservesAlone c t)
    (ht : Takes (trafficGovernor κ input) c t c') (hw : c'.shared.observedWarning ≠ none) : Stopped c' := by
  by_cases hobserved : c.shared.observedWarning = none
  · cases ht with
    | call hs =>
      -- a call observes nothing as it is made
      exact absurd ((start_frame hs).2.2.trans hobserved) hw
    | @answer before after point point' answer shared hsplit hr =>
      cases resume_effect hr with
      | frame _ _ _ _ _ ho => exact absurd (ho.trans hobserved) hw
      | grant _ _ _ _ ho => exact absurd (ho.trans hobserved) hw
      | observe warning _ hp =>
        refine ⟨hw, ?_⟩
        have halone : ∀ q ∈ before ++ after, q.awaitsGrant c.shared = false := by
          intro q hq
          apply hok q
          rw [hsplit, eraseIdx_split]
          exact hq
        have hstate : c.shared.backendRequestState ≠ none →
            ({ c.shared with observedWarning := some warning } : GovernorState κ).backendRequestState ≠ none := id
        intro q hm
        rcases List.mem_append.1 hm with hm | hm
        · exact awaitsGrant_mono hstate
            (halone q (List.mem_append_left _ hm))
        · rcases List.mem_cons.1 hm with rfl | hm
          · exact awaitsGrant_mono hstate hp
          · exact awaitsGrant_mono hstate
              (halone q (List.mem_append_right _ hm))
  · exact ((h hobserved).turn ht).1

theorem stopped_of_reachable {c : Config (GovernorState κ) (CallPoint κ)}
    (h : ((governorSystem κ input).restrict ObservesAlone).Reachable c) (hw : c.shared.observedWarning ≠ none) :
    Stopped c := by
  have hstop : c.shared.observedWarning ≠ none → Stopped c := by
    apply h.invariant (I := fun c => c.shared.observedWarning ≠ none → Stopped c)
    · rintro c ⟨hinit, -⟩ hobserved
      rw [hinit] at hobserved
      exact absurd rfl hobserved
    · rintro c t c' - ih ⟨hok, ht⟩ hobserved
      exact stopped_of_observesAlone ih hok (takes_of_turn ht) hobserved
  exact hstop hw

/-! ## A grant under way -/

/-- Some run from the configuration grants something. -/
def MayGrant (input : GovernorInput) (c : Config (GovernorState κ) (CallPoint κ)) : Prop :=
  ∃ ts c', (governorSystem κ input).Run c ts c' ∧ c'.shared.grants ≠ c.shared.grants

section

variable {s s' : GovernorState κ} {before after : List (CallPoint κ)} {point point' : CallPoint κ}

/-- One turn of a call. -/
theorem step_resume {answer : TrafficAnswer} (h : s.resume input point answer = some (s', point')) :
    (governorSystem κ input).Step ⟨s, before ++ point :: after⟩ (.answer before.length answer)
      ⟨s', before ++ point' :: after⟩ := by
  have hresume : (trafficGovernor κ input).resume s point answer = some (s', point') := h
  show EventLoop.turn _ _ _ = _
  simp only [EventLoop.turn, List.drop_left, hresume, Option.map_some, List.take_left]

/-- A turn that changes no grant, before a run that does. -/
theorem MayGrant.cons (answer : TrafficAnswer) (h : s.resume input point answer = some (s', point'))
    (hg : s'.grants = s.grants) (hmay : MayGrant input ⟨s', before ++ point' :: after⟩) :
    MayGrant input ⟨s, before ++ point :: after⟩ := by
  obtain ⟨ts, c', hrun, hne⟩ := hmay
  exact ⟨_, c', .cons (step_resume h) hrun, fun he => hne (he.trans hg.symm)⟩

theorem MayGrant.now (answer : TrafficAnswer) (h : s.resume input point answer = some (s', point'))
    (hg : s'.grants ≠ s.grants) : MayGrant input ⟨s, before ++ point :: after⟩ :=
  ⟨_, _, .cons (step_resume h) (.nil _), hg⟩

theorem mayGrant_startAudit (id : Nat) (action : TrafficActionInput) :
    MayGrant input ⟨s, before ++ .startAudit id action :: after⟩ := by
  apply MayGrant.now .ok rfl
  simp [GovernorState.grants]

theorem mayGrant_pacing (action : TrafficActionInput) : MayGrant input ⟨s, before ++ .pacing action :: after⟩ :=
  .cons .ok rfl rfl (mayGrant_startAudit s.created action)

theorem mayGrant_admitting (requestKey : String) : MayGrant input ⟨s, before ++ .admitting requestKey :: after⟩ := by
  apply MayGrant.now .ok rfl
  simp [GovernorState.grants]

theorem mayGrant_checked (requestKey : String) (h : s.backendRequestState.isNone = true) :
    MayGrant input ⟨s, before ++ .checked requestKey :: after⟩ := by
  have hresume : s.resume input (.checked requestKey) .ok = some (s, .admitting requestKey) := by
    simp [GovernorState.resume, Option.isNone_iff_eq_none.1 h]
  exact .cons .ok hresume rfl (mayGrant_admitting requestKey)

/-- Every call that is under way to a grant may be granted. -/
theorem mayGrant_of_awaits (input : GovernorInput) (before after : List (CallPoint κ))
    (h : point.awaitsGrant s = true) : MayGrant input ⟨s, before ++ point :: after⟩ := by
  cases point with
  | beginLease action => exact .cons .ok rfl rfl (mayGrant_pacing action)
  | pacing action => exact mayGrant_pacing action
  | startAudit id action => exact mayGrant_startAudit id action
  | admitting requestKey => exact mayGrant_admitting requestKey
  | checked requestKey => exact mayGrant_checked requestKey h
  | check caller point =>
    cases caller with
    | itself => cases h
    | settle => cases h
    | admission requestKey =>
      have hprobe : ∀ s : GovernorState κ, s.backendRequestState.isNone = true →
          MayGrant input ⟨s, before ++ .check (.admission requestKey) .probe :: after⟩ :=
        fun s hs => .cons .ok rfl rfl (mayGrant_checked requestKey hs)
      cases point with
      | persist warning => cases h
      | probe => exact hprobe s h
      | lease context =>
        have hresume : s.resume input (.check (.admission requestKey) (.lease context)) .ok = some
            ({ s with lastProbeContext := context.or s.lastProbeContext },
              if input.probeWarning then .check (.admission requestKey) .probe else .checked requestKey) := rfl
        refine .cons .ok hresume rfl ?_
        split
        · exact hprobe _ h
        · exact mayGrant_checked requestKey h
  | _ => cases h

end

/-! ## The traffic stop -/

/-- **Traffic stop.** In every run in which a warning is observed only while no other begin or backend admission is under
way to a grant, nothing is granted after a warning has been observed, whatever turns follow; and the next turn keeps
this exactly when it is such a turn. -/
theorem nothing_granted_after_warning {c : Config (GovernorState κ) (CallPoint κ)}
    (h : ((governorSystem κ input).restrict ObservesAlone).Reachable c) :
    (c.shared.observedWarning ≠ none →
      ∀ ts c', (governorSystem κ input).Run c ts c' → c'.shared.grants = c.shared.grants) ∧
    ∀ t c', (governorSystem κ input).Step c t c' → c'.shared.observedWarning ≠ none →
      ((∀ ts c'', (governorSystem κ input).Run c' ts c'' → c''.shared.grants = c'.shared.grants) ↔
        ObservesAlone c t) := by
  refine ⟨fun hw ts c' hrun => (stopped_of_reachable h hw).run hrun, ?_⟩
  intro t c' hstep hw
  constructor
  · intro hgrants
    cases takes_of_turn hstep with
    | call => trivial
    | @answer before after point point' answer shared hsplit hr =>
      unfold ObservesAlone
      split
      · rename_i index warning heq
        cases heq
        rw [hsplit, eraseIdx_split]
        intro q hq
        -- a call that is under way is still granted
        by_contra hawaits
        cases resume_effect hr with
        | frame _ _ _ hanswer => exact hanswer warning rfl
        | grant _ _ hanswer => exact hanswer warning rfl
        | observe _ _ _ =>
          have hstill : q.awaitsGrant { c.shared with observedWarning := some warning } = true := by
            by_contra hn
            exact hawaits (awaitsGrant_mono (s := { c.shared with observedWarning := some warning }) id
              (Bool.eq_false_iff.2 hn))
          have hmem : q ∈ before ++ point' :: after := by
            rcases List.mem_append.1 hq with hq | hq
            · exact List.mem_append_left _ hq
            · exact List.mem_append_right _ (List.mem_cons_of_mem _ hq)
          obtain ⟨first, rest, hfirst⟩ := List.append_of_mem hmem
          obtain ⟨ts, c'', hrun, hne⟩ := mayGrant_of_awaits input first rest hstill
          rw [hfirst] at hgrants
          exact hne (hgrants ts c'' hrun)
      · trivial
  · intro hok ts c'' hrun
    exact (stopped_of_observesAlone (stopped_of_reachable h) hok (takes_of_turn hstep) hw).run hrun

/-! ## A warning during a begin -/

/-- A governor with a probe, persistence and backend admission. -/
def fullInput : GovernorInput := ⟨true, true, true⟩

/-- The provider shows a rate limit. -/
def rateLimited : TrafficWarning := ⟨.rateLimit, "provider rate limit", none⟩

/-- A click that is begun. -/
def click : TrafficActionInput :=
  { kind := .inPageClick, interactionClass := .generic, source := "conversation:list" }

/-- A begin awaits the mutation audit while another call observes a rate limit. -/
def warnedDuringBegin : Config (GovernorState Unit) (CallPoint Unit) :=
  (execute (trafficGovernor Unit fullInput).turn ⟨{}, []⟩
    [.call (.begin click false), .answer 0 .ok, .answer 0 .ok, .call (.checkWarning none), .answer 1 .ok,
      .answer 1 (.warned rateLimited)]).get (by decide +kernel)

/-- The begin is granted after the warning. -/
theorem begin_granted_after_warning : ¬∀ c, (governorSystem Unit fullInput).Reachable c →
    c.shared.observedWarning ≠ none →
      ∀ ts c', (governorSystem Unit fullInput).Run c ts c' → c'.shared.grants = c.shared.grants := by
  intro h
  have hreach : (governorSystem Unit fullInput).Reachable warnedDuringBegin :=
    reachable_execute (.init ⟨rfl, rfl⟩) (Option.some_get _).symm
  have hstep : (governorSystem Unit fullInput).Step warnedDuringBegin (.answer 0 .ok)
      (((trafficGovernor Unit fullInput).turn warnedDuringBegin (.answer 0 .ok)).get (by decide +kernel)) :=
    (Option.some_get _).symm
  have hgrants := h warnedDuringBegin hreach (by decide +kernel) _ _ (.cons hstep (.nil _))
  revert hgrants
  decide +kernel

/-- A click is granted, and the warning is observed as it is settled. -/
def warnedAtSettle : Config (GovernorState Unit) (CallPoint Unit) :=
  (execute (fun c t => if decide (ObservesAlone c t) then (trafficGovernor Unit fullInput).turn c t else none) ⟨{}, []⟩
    [.call (.begin click false), .answer 0 .ok, .answer 0 .ok, .answer 0 .ok,
      .call (.settle 0 { outcome := .succeeded } none), .answer 1 .ok, .answer 1 .ok, .answer 1 .ok,
      .answer 1 (.warned rateLimited)]).get (by decide +kernel)

/-- Nothing is granted after it. -/
theorem settle_warning_stops_grants : warnedAtSettle.shared.observedWarning = some rateLimited ∧
    ((warnedAtSettle.shared.observedWarning ≠ none →
      ∀ ts c', (governorSystem Unit fullInput).Run warnedAtSettle ts c' →
        c'.shared.grants = warnedAtSettle.shared.grants) ∧
    ∀ t c', (governorSystem Unit fullInput).Step warnedAtSettle t c' → c'.shared.observedWarning ≠ none →
      ((∀ ts c'', (governorSystem Unit fullInput).Run c' ts c'' → c''.shared.grants = c'.shared.grants) ↔
        ObservesAlone warnedAtSettle t)) := by
  refine ⟨by decide +kernel, nothing_granted_after_warning ?_⟩
  exact reachable_execute_where (fun _ _ h => of_decide_eq_true h) (.init ⟨rfl, rfl⟩) (Option.some_get _).symm

end AuraCall.Traffic
