import AuraCall.AccountMirror.DedicatedTab
import AuraCall.TabLease.ExpiryBound

/-!
# The rollback of a dedicated tab

A target that the call has created is to be closed or leased afterwards, and one that it has adopted is not to be closed
by its rollback (`RollbackKept`).

Once the target is leased the lease stays, in one state or another, until the target is closed. Before that the call has
to close what it has created, and does so after a failed settlement and a refused reservation only: an error of the
reservation leaves the target behind, as does a close that fails (`CreatedTargetSecured`). The rollback of a lease whose
provisioning was refused closes the target whether the call has created it or not (`AdoptedTargetSpared`).
`dedicated_tab_rollback_iff` says that nothing else goes wrong.
-/

namespace AuraCall.AccountMirror

open Script TabLease

/-! ## The property -/

/-- A lease that is not released holds the target. -/
def TargetHeld (table : CaseTable) (scope : TabLeaseScope) (targetId : String) (registry : Registry) : Prop :=
  ∃ normalized, normalizeScope table scope = .ok normalized ∧
    ∃ lease ∈ registry.leases, Holds lease (.target normalized.managedBrowserProfile normalized.service targetId)

/-- **The rollback.** -/
structure RollbackKept (table : CaseTable) (scope : TabLeaseScope) (s : TabWork) : Prop where
  created : ∀ id, s.created = some id → id ∈ s.closed ∨ TargetHeld table scope id s.registry
  adopted : ∀ id, s.adopted = some id → id ∉ s.rolledBack

section Conditions

variable (table : CaseTable) (host : TabHost) (input : DedicatedBrowserTabInput) (workload : TabLeaseWorkload)
  (plan : TabPlan) (registry : Registry)

/-- The reservation is carried out, whether the call says so or not. -/
def ReservationStored : Prop :=
  (∀ stop, host.registryAnswer .reserved ≠ .stopped stop) ∧
    ∃ lease, (reserve table (host.options .reserved) (reservationOf host input workload plan) registry).1 = .ok lease

def ReservationRefused : Prop :=
  (∃ conflict, host.registryAnswer .reserved = .stopped (.refused conflict)) ∨
    host.registryAnswer .reserved = .decided ∧ ∃ conflict,
      (reserve table (host.options .reserved) (reservationOf host input workload plan) registry).1 =
        .error (.refused conflict)

/-- The target has an identifier and a URL. -/
def TargetNamed : Prop := trim plan.target.targetId ≠ "" ∧ trim plan.target.url ≠ ""

/-- Between the reservation and the provisioning, the absolute expiry of a lease that is not exempt has passed. -/
def ExpiredMeanwhile : Prop :=
  workload.isLiveFollow = false ∧ ∃ absoluteTtlMs,
    (normalizeTtl input.absoluteTtlMs "absoluteTtlMs" : Checked Int) = .ok absoluteTtlMs ∧
      (host.now .reserved).ms + absoluteTtlMs < (host.now .provisioned).ms

def ProvisioningRefused : Prop :=
  (∃ conflict, host.registryAnswer .provisioned = .stopped (.refused conflict)) ∨
    host.registryAnswer .provisioned = .decided ∧ ExpiredMeanwhile host input workload

/-- **When a created target is closed or leased.** -/
def CreatedTargetSecured : Prop :=
  TargetHeld table input.scope plan.target.targetId registry ∨
    match settlement host plan with
    | .error _ => (host.closeAnswer .unsettledClosed).closes = true
    | .ok _ => TargetNamed plan ∧ (ReservationStored table host input workload plan registry ∨
        ReservationRefused table host input workload plan registry ∧ (host.closeAnswer .refusedClosed).closes = true)

/-- **When an adopted target is not closed.** -/
def AdoptedTargetSpared : Prop :=
  ¬(TargetNamed plan ∧ host.registryAnswer .reserved = .decided ∧
    ReservationStored table host input workload plan registry ∧ ProvisioningRefused host input workload ∧
    host.registryAnswer .provisioningLost = .decided ∧ (host.closeAnswer .lostClosed).closes = true)

end Conditions

/-! ## The registry -/

section Registry

variable {table : CaseTable} {options : RegistryOptions} {scope : TabLeaseScope} {id : String} {registry : Registry}
  {lease new : BrowserTabLease}

theorem TargetHeld.of_leases {registry' : Registry} (h : TargetHeld table scope id registry)
    (hleases : registry'.leases = registry.leases) : TargetHeld table scope id registry' := by
  obtain ⟨normalized, hn, held, hm, hholds⟩ := h
  exact ⟨normalized, hn, held, hleases ▸ hm, hholds⟩

/-- An operation on a lease that does not release it leaves the target held. -/
theorem TargetHeld.rewrite {operation : LeaseOperation} (h : TargetHeld table scope id registry)
    (hmove : operation.move = .use ∨ operation.move = .idle ∨ operation.move = .lose) :
    TargetHeld table scope id (storeLease registry (operation.rewrite table options registry)) := by
  cases hr : operation.rewrite table options registry with
  | error stop => exact h
  | ok new =>
    obtain ⟨normalized, hn, held, hm, hfenced, hnames⟩ := h
    obtain ⟨old, -, hs⟩ := rewrite_successor hr
    refine ⟨normalized, hn, ?_⟩
    by_cases hid : held.leaseId = new.leaseId
    · obtain rfl := KeyedMap.eq_of_key hm hs.mem (hid.trans hs.leaseId)
      obtain ⟨hprofile, hservice, -⟩ := sameOwnershipScope_eq_true.1 hs.scope
      obtain ⟨h₁, h₂, h₃⟩ := hnames
      exact ⟨new, KeyedMap.mem_set_self _ _, hs.lifecycle.fenced_target hmove, hprofile.trans h₁, hservice.trans h₂,
        hs.targetId.trans h₃⟩
    · exact ⟨held, KeyedMap.mem_set_of_ne hm hid, hfenced, hnames⟩

theorem reserve_stored {input : ReserveTabLeaseInput} (h : (reserve table options input registry).1 = .ok new) :
    normalizeScope table input.scope = .ok new.scope ∧ new.targetId = trim input.targetId ∧ new.state = .active ∧
      new.ownerOperationId.isSome = true ∧ isTabLeaseTtlExempt new = input.workload.isLiveFollow ∧
        ∃ nowMs absoluteTtlMs, input.now.parse = some nowMs ∧
          (normalizeTtl input.absoluteTtlMs "absoluteTtlMs" : Checked Int) = .ok absoluteTtlMs ∧
            new.absoluteExpiresAt.parse = some (nowMs + absoluteTtlMs) := by
  unfold reserve at h
  split at h
  · rename_i normalized hnormalized
    simp only [reservedLease, bind_eq_ok, pure_eq_ok] at h
    obtain ⟨_, -, _, -, _, -, _, -, idle, -, absolute, habsolute, rfl⟩ := h
    simp only [normalizeReserveInput, bind_eq_ok, throwIf_eq_ok, pure_eq_ok, requireNonEmpty_eq_ok,
      parseTimestamp_eq_ok] at hnormalized
    obtain ⟨_, -, absoluteTtlMs, httl, _, -, nowMs, hnow, scope, hscope, _, ⟨-, rfl⟩, workload, hworkload, _, -, _, -,
      _, -, rfl⟩ := hnormalized
    refine ⟨hscope, rfl, rfl, rfl, ?_, nowMs, absoluteTtlMs, hnow, httl, toISOString_eq_ok habsolute⟩
    rw [← normalizeWorkload_isLiveFollow hworkload]
    refine (isTabLeaseTtlExempt_of_retention rfl).trans ?_
    cases workload <;> rfl
  · cases h

end Registry

/-! ## Single calls -/

section Calls

variable {α : Type} {table : CaseTable} {host : TabHost} {place : TabCall} {I : TabWork → Prop} {s : TabWork}

/-- **The rule for a call of the registry.** -/
theorem callRegistry_holds {operation : RegistryOptions → Registry → Checked α × Registry}
    {Q : Except TabError (Except TabLeaseConflict α) → TabWork → Prop} (hI : I s)
    (hdecided : host.registryAnswer place = .decided →
      let out := operation (host.options place) s.registry
      I { s with registry := out.2 } ∧ Q (registryResult out.1) { s with registry := out.2 })
    (hstopped : ∀ stop, host.registryAnswer place = .stopped stop → Q (registryResult (.error stop)) s)
    (hfailed : ∀ message, host.registryAnswer place = .failedAfterwards message →
      let out := operation (host.options place) s.registry
      I { s with registry := out.2 } ∧ Q (.error { message }) { s with registry := out.2 }) :
    (callRegistry host place operation).Holds I Q s := by
  unfold callRegistry
  rw [holds_perform]
  refine ⟨hI, ?_⟩
  cases ha : host.registryAnswer place with
  | decided => exact hdecided ha
  | stopped stop => exact ⟨hI, hstopped stop ha⟩
  | failedAfterwards message => exact hfailed message ha

/-- **The rule for a close.** -/
theorem closeTarget_holds {rollback : Bool} {id : String} {Q : Except TabError PUnit → TabWork → Prop} (hI : I s)
    (hclosed : (host.closeAnswer place).closes = true → I (s.close rollback id) ∧ ∀ r, Q r (s.close rollback id))
    (hopen : (host.closeAnswer place).closes = false → ∀ e, Q (.error e) s) :
    (closeTarget host place rollback id).Holds I Q s := by
  unfold closeTarget
  rw [holds_perform]
  refine ⟨hI, ?_⟩
  cases ha : host.closeAnswer place with
  | closed =>
    obtain ⟨hI', hQ⟩ := hclosed (by rw [ha]; rfl)
    exact ⟨hI', hQ _⟩
  | failed message => exact ⟨hI, hopen (by rw [ha]; rfl) _⟩
  | failedAfterwards message =>
    obtain ⟨hI', hQ⟩ := hclosed (by rw [ha]; rfl)
    exact ⟨hI', hQ _⟩

/-- What the call has obtained, and what its rollback has closed. -/
def TabWork.custody (s : TabWork) : Option String × Option String × List String := (s.created, s.adopted, s.rolledBack)

theorem keeps_callRegistry {operation : RegistryOptions → Registry → Checked α × Registry} :
    (callRegistry host place operation).Keeps TabWork.custody := by
  refine keeps_perform fun s => ?_
  cases host.registryAnswer place <;> rfl

theorem keeps_rewriteLease {operation : LeaseOperation} :
    (rewriteLease host place table operation).Keeps TabWork.custody := keeps_callRegistry

theorem keeps_closeTarget {id : String} : (closeTarget host place false id).Keeps TabWork.custody := by
  refine keeps_perform fun s => ?_
  cases host.closeAnswer place <;> rfl

theorem keeps_fail {message : String} : (fail message : TabScript α).Keeps TabWork.custody := keeps_throw

theorem keeps_answered {answer : Except String α} : (answered answer).Keeps TabWork.custody := by
  cases answer <;> exact trivial

theorem keeps_accepted {message : String} {answer : Except TabLeaseConflict α} :
    (accepted message answer).Keeps TabWork.custody := by
  cases answer <;> exact trivial

end Calls

/-! ## A leased target -/

/-- A target is closed, or a lease holds it. -/
def Secured (table : CaseTable) (scope : TabLeaseScope) (id : String) (s : TabWork) : Prop :=
  id ∈ s.closed ∨ TargetHeld table scope id s.registry

section Secured

variable {table : CaseTable} {host : TabHost} {input : DedicatedBrowserTabInput} {scope : TabLeaseScope} {id : String}
  {place : TabCall} {s : TabWork} {plan : TabPlan} {lease : BrowserTabLease}

theorem Secured.close (h : Secured table scope id s) (rollback : Bool) (targetId : String) :
    Secured table scope id (s.close rollback targetId) := h.imp_left (List.mem_cons_of_mem targetId)

/-- A call that rewrites a lease, of a target that is closed or that the call does not release. -/
theorem rewriteLease_secured {operation : LeaseOperation} (h : Secured table scope id s)
    (hkept : id ∈ s.closed ∨ operation.move = .use ∨ operation.move = .idle ∨ operation.move = .lose) :
    (rewriteLease host place table operation).Holds (Secured table scope id) (fun _ s' => s'.closed = s.closed) s := by
  have hafter : Secured table scope id { s with
      registry := storeLease s.registry (operation.rewrite table (host.options place) s.registry) } := by
    rcases h with hclosed | hheld
    · exact .inl hclosed
    · rcases hkept with hclosed | hmove
      · exact .inl hclosed
      · exact .inr (hheld.rewrite hmove)
  exact callRegistry_holds h (fun _ => ⟨hafter, rfl⟩) (fun _ _ => rfl) fun _ _ => ⟨hafter, rfl⟩

theorem closeTarget_secured (h : Secured table scope id s) (rollback : Bool) (targetId : String) :
    (closeTarget host place rollback targetId).Holds (Secured table scope id)
      (fun r s' => r = .ok ⟨⟩ → targetId ∈ s'.closed) s :=
  closeTarget_holds h (fun _ => ⟨h.close rollback targetId, fun _ _ => List.mem_cons_self⟩) fun _ _ hr => nomatch hr

theorem confirmRetirement_keeps (url : String) :
    ∀ confirmations, (confirmColdStartTargetRetirement url confirmations).Keeps fun s => s
  | [] => keeps_throw
  | inspection :: rest => by
    unfold confirmColdStartTargetRetirement
    refine keeps_bind ?_ fun current => ?_
    · cases inspection <;> exact trivial
    · cases current with
      | none => exact keeps_pure
      | some seen =>
        dsimp only
        split
        · exact keeps_throw
        · exact confirmRetirement_keeps url rest

theorem closeStartupTarget_secured (h : Secured table scope id s) (retirement : BrowserTarget) :
    (closeStartupTarget host retirement).Holds (Secured table scope id) (fun _ _ => True) s := by
  unfold closeStartupTarget
  rw [holds_bind]
  cases host.inspectRetirement retirement.targetId with
  | error message => exact ⟨h, h, trivial⟩
  | ok current =>
    refine ⟨h, ?_⟩
    cases current with
    | none => exact ⟨h, trivial⟩
    | some url =>
      dsimp only
      split
      · exact ⟨h, trivial⟩
      · rw [holds_bind]
        refine (closeTarget_secured h false retirement.targetId).imp fun r s' h' _ => ?_
        cases r with
        | error e => exact ⟨h', trivial⟩
        | ok _ =>
          exact ((confirmRetirement_keeps retirement.url host.confirmations).always fun s'' hs => hs ▸ h').imp
            fun _ _ _ _ => trivial

theorem retireStartupTarget_secured (h : Secured table scope id s) :
    (retireStartupTarget table host plan lease).Holds (Secured table scope id) (fun _ _ => True) s := by
  unfold retireStartupTarget
  cases plan.retirement with
  | none => exact ⟨h, trivial⟩
  | some retirement =>
    dsimp only
    rw [holds_orElse]
    refine (closeStartupTarget_secured h retirement).imp fun r s' h' _ => ?_
    cases r with
    | ok _ => trivial
    | error e =>
      dsimp only
      rw [holds_bind]
      refine (rewriteLease_secured h' (.inr (.inr (.inl rfl)))).imp fun r' s'' h'' _ => ?_
      cases r' with
      | error e' => exact ⟨h'', trivial⟩
      | ok retained => cases retained <;> exact ⟨h'', trivial⟩

/-- The rollback of a lease releases it once its target is closed. -/
theorem rollBackLease_secured {accountingError : String} (h : Secured table scope plan.target.targetId s) :
    (rollBackLease table host plan lease accountingError).Holds (Secured table scope plan.target.targetId)
      (fun _ _ => True) s := by
  unfold rollBackLease
  rw [holds_bind]
  refine (rewriteLease_secured h (.inr (.inr (.inr rfl)))).imp fun r s₁ h₁ _ => ?_
  cases r with
  | error e => exact ⟨h₁, trivial⟩
  | ok lost =>
    cases lost with
    | error conflict => exact ⟨h₁, trivial⟩
    | ok lost =>
      dsimp only
      rw [holds_bind, holds_orElse]
      refine (closeTarget_secured h₁ true plan.target.targetId).imp fun r s₂ h₂ hclosed => ?_
      cases r with
      | error e => exact ⟨h₂, h₂, trivial⟩
      | ok _ =>
        dsimp only
        rw [holds_bind]
        refine (rewriteLease_secured h₂ (.inl (hclosed rfl))).imp fun r s₃ h₃ _ => ?_
        cases r with
        | error e => exact ⟨h₃, trivial⟩
        | ok released => cases released <;> exact ⟨h₃, trivial⟩

/-- **A leased target stays leased until it is closed.** -/
theorem provisionLease_secured (h : Secured table scope plan.target.targetId s) :
    (provisionLease table host input plan lease).Holds (Secured table scope plan.target.targetId)
      (fun _ _ => True) s := by
  unfold provisionLease
  rw [holds_bind]
  refine (rewriteLease_secured h (.inr (.inl rfl))).imp fun r s' h' _ => ?_
  cases r with
  | error e => exact ⟨h', trivial⟩
  | ok provisioned =>
    cases provisioned with
    | error conflict => exact rollBackLease_secured h'
    | ok provisioned =>
      dsimp only
      rw [holds_bind]
      refine (retireStartupTarget_secured h').imp fun r s'' h'' _ => ?_
      cases r <;> exact ⟨h'', trivial⟩

end Secured

/-! ## A created target -/

section Created

variable {table : CaseTable} {host : TabHost} {input : DedicatedBrowserTabInput} {workload : TabLeaseWorkload}
  {plan : TabPlan} {s : TabWork}

theorem holds_requireText {value name : String} {I : TabWork → Prop} {Q : Except TabError String → TabWork → Prop} :
    (requireText value name).Holds I Q s ↔ I s ∧ if trim value = "" then
      Q (.error { message := name ++ " must not be empty." }) s else Q (.ok (trim value)) s := by
  unfold requireText
  by_cases h : trim value = ""
  · rw [if_pos h, if_pos h]
    rfl
  · rw [if_neg h, if_neg h]
    rfl

/-- A target without an identifier or a URL is not reserved. -/
theorem reserveTarget_holds {Q : Except TabError (Except TabLeaseConflict BrowserTabLease) → TabWork → Prop}
    (hunnamed : ¬TargetNamed plan → ∀ e, Q (.error e) s)
    (hnamed : TargetNamed plan → (callRegistry host .reserved fun options =>
      reserve table options (reservationOf host input workload plan)).Holds (fun _ => True) Q s) :
    (reserveTarget table host input workload plan).Holds (fun _ => True) Q s := by
  unfold reserveTarget
  rw [holds_bind, holds_discard, holds_requireText]
  refine ⟨trivial, ?_⟩
  rcases eq_or_ne (trim plan.target.targetId) "" with hid | hid
  · rw [if_pos hid]
    exact ⟨trivial, hunnamed (fun h => h.1 hid) _⟩
  · rw [if_neg hid]
    dsimp only [Except.map]
    rw [holds_bind, holds_discard, holds_requireText]
    refine ⟨trivial, ?_⟩
    rcases eq_or_ne (trim plan.target.url) "" with hurl | hurl
    · rw [if_pos hurl]
      exact ⟨trivial, hunnamed (fun h => h.2 hurl) _⟩
    · rw [if_neg hurl]
      exact hnamed ⟨hid, hurl⟩

theorem reserve_held {options : RegistryOptions} {registry : Registry} {lease : BrowserTabLease}
    (h : (reserve table options (reservationOf host input workload plan) registry).1 = .ok lease) :
    TargetHeld table input.scope plan.target.targetId
      (reserve table options (reservationOf host input workload plan) registry).2 := by
  obtain ⟨hscope, htarget, hstate, -⟩ := reserve_stored h
  refine ⟨lease.scope, hscope, lease, ?_, by rw [hstate]; rfl, rfl, rfl, ?_⟩
  · rw [KeyedMap.mem_def, (reserve_leases_of_ok h).2]
    exact KeyedMap.mem_set_self _ _
  · rw [htarget]
    simp [reservationOf, plan.target.trimmed]

theorem secured_iff_held (hclosed : s.closed = []) {id : String} :
    Secured table input.scope id s ↔ TargetHeld table input.scope id s.registry := by
  simp [Secured, hclosed]

theorem held_of_error {options : RegistryOptions} {registry : Registry} {stop : Stop TabLeaseConflict} {id : String}
    (h : (reserve table options (reservationOf host input workload plan) registry).1 = .error stop) :
    TargetHeld table input.scope id (reserve table options (reservationOf host input workload plan) registry).2 ↔
      TargetHeld table input.scope id registry :=
  ⟨fun hheld => hheld.of_leases (reserve_leases_of_error h).symm,
    fun hheld => hheld.of_leases (reserve_leases_of_error h)⟩

/-- A refused reservation of a created target: the target is closed, or stays. -/
theorem refuseTarget_created {conflict : TabLeaseConflict} (hcreated : plan.created = true) (hclosed : s.closed = []) :
    (refuseTarget host plan conflict).Holds (fun _ => True)
      (fun _ s' => Secured table input.scope plan.target.targetId s' ↔
        TargetHeld table input.scope plan.target.targetId s.registry ∨ (host.closeAnswer .refusedClosed).closes = true)
      s := by
  unfold refuseTarget
  rw [if_pos hcreated, holds_bind]
  refine closeTarget_holds trivial (fun hc => ⟨trivial, fun r => ?_⟩) fun hopen e => ?_
  · have hdone : Secured table input.scope plan.target.targetId (s.close true plan.target.targetId) :=
      .inl List.mem_cons_self
    cases r <;> exact ⟨trivial, fun _ => .inr hc, fun _ => hdone⟩
  · refine ⟨trivial, (secured_iff_held hclosed).trans ?_⟩
    simp [hopen]

/-- **A created target** is closed or leased exactly under its condition. -/
theorem provisionTarget_created (hcreated : plan.created = true) (hclosed : s.closed = []) :
    (provisionTarget table host input workload plan).Holds (fun _ => True)
      (fun _ s' => Secured table input.scope plan.target.targetId s' ↔
        CreatedTargetSecured table host input workload plan s.registry) s := by
  unfold provisionTarget settleTarget CreatedTargetSecured
  rw [holds_bind]
  cases hsettled : settlement host plan with
  | error message =>
    dsimp only
    rw [holds_bind]
    refine closeTarget_holds trivial (fun hc => ⟨trivial, fun r => ?_⟩) fun hopen e => ?_
    · have hdone : Secured table input.scope plan.target.targetId (s.close true plan.target.targetId) :=
        .inl List.mem_cons_self
      cases r <;> exact ⟨trivial, trivial, fun _ => .inr hc, fun _ => hdone⟩
    · refine ⟨trivial, trivial, (secured_iff_held hclosed).trans ?_⟩
      simp [hopen]
  | ok _ =>
    refine ⟨trivial, ?_⟩
    dsimp only
    rw [holds_bind]
    refine reserveTarget_holds (fun hunnamed e => ⟨trivial, (secured_iff_held hclosed).trans ?_⟩) fun hnamed => ?_
    · simp [hunnamed]
    refine callRegistry_holds trivial (fun hdecided => ⟨trivial, ?_⟩) (fun stop hstopped => ?_) fun message hfailed =>
      ⟨trivial, trivial, ?_⟩
    · -- the registry decides
      cases hr : (reserve table (host.options .reserved) (reservationOf host input workload plan) s.registry).1 with
      | ok lease =>
        have hstored : ReservationStored table host input workload plan s.registry :=
          ⟨fun stop hstop => (nomatch hdecided.symm.trans hstop), lease, hr⟩
        refine ((provisionLease_secured (.inr (reserve_held hr))).imp fun _ _ hdone _ => ?_).mono fun _ _ => trivial
        exact ⟨fun _ => .inr ⟨hnamed, .inl hstored⟩, fun _ => hdone⟩
      | error stop =>
        have hunstored : ¬ReservationStored table host input workload plan s.registry := by
          rintro ⟨-, lease, hok⟩
          rw [hr] at hok
          cases hok
        cases stop with
        | refused conflict =>
          have hrefused : ReservationRefused table host input workload plan s.registry := .inr ⟨hdecided, conflict, hr⟩
          refine (refuseTarget_created hcreated (by exact hclosed)).imp fun _ _ _ hiff =>
            hiff.trans ((or_congr_left (held_of_error hr)).trans ?_)
          simp [hnamed, hunstored, hrefused]
        | thrown message =>
          have hunrefused : ¬ReservationRefused table host input workload plan s.registry := by
            rintro (⟨conflict, hstop⟩ | ⟨-, conflict, herror⟩)
            · rw [hdecided] at hstop
              cases hstop
            · rw [hr] at herror
              cases herror
          refine ⟨trivial, (secured_iff_held (by exact hclosed)).trans ((held_of_error hr).trans ?_)⟩
          simp [hunstored, hunrefused]
    · -- the registry is stopped
      have hunstored : ¬ReservationStored table host input workload plan s.registry := fun h => h.1 stop hstopped
      cases stop with
      | refused conflict =>
        have hrefused : ReservationRefused table host input workload plan s.registry := .inl ⟨conflict, hstopped⟩
        refine (refuseTarget_created hcreated (by exact hclosed)).imp fun _ _ _ hiff => hiff.trans ?_
        simp [hnamed, hunstored, hrefused]
      | thrown message =>
        have hunrefused : ¬ReservationRefused table host input workload plan s.registry := by
          rintro (⟨conflict, hstop⟩ | ⟨hdecided, -⟩)
          · rw [hstopped] at hstop
            cases hstop
          · rw [hstopped] at hdecided
            cases hdecided
        refine ⟨trivial, (secured_iff_held (by exact hclosed)).trans ?_⟩
        simp [hunstored, hunrefused]
    · -- the registry fails after it has decided
      have hunrefused : ¬ReservationRefused table host input workload plan s.registry := by
        rintro (⟨conflict, hstop⟩ | ⟨hdecided, -⟩)
        · rw [hfailed] at hstop
          cases hstop
        · rw [hfailed] at hdecided
          cases hdecided
      cases hr : (reserve table (host.options .reserved) (reservationOf host input workload plan) s.registry).1 with
      | ok lease =>
        have hstored : ReservationStored table host input workload plan s.registry :=
          ⟨fun stop hstop => (nomatch hfailed.symm.trans hstop), lease, hr⟩
        exact ⟨fun _ => .inr ⟨hnamed, .inl hstored⟩, fun _ => .inr (reserve_held hr)⟩
      | error stop =>
        have hunstored : ¬ReservationStored table host input workload plan s.registry := by
          rintro ⟨-, lease, hok⟩
          rw [hr] at hok
          cases hok
        refine (secured_iff_held (by exact hclosed)).trans ((held_of_error hr).trans ?_)
        simp [hunstored, hunrefused]

end Created

/-! ## An adopted target -/

section Adopted

variable {table : CaseTable} {host : TabHost} {input : DedicatedBrowserTabInput} {workload : TabLeaseWorkload}
  {plan : TabPlan} {s : TabWork} {lease : BrowserTabLease}

theorem IsoTime.parse_at (time : IsoTime) : (DateString.at time.ms).parse = some time.ms := if_pos time.valid

/-- A lease as it was reserved. -/
structure Unused (registry : Registry) (lease : BrowserTabLease) : Prop where
  stored : registry.leases.get? lease.leaseId = some lease
  active : lease.state = .active
  owned : lease.ownerOperationId.isSome = true

theorem Unused.claimed {registry : Registry} (h : Unused registry lease) :
    claimedLease (claimOf lease) registry = .ok lease := by
  rw [claimedLease_eq_ok]
  refine ⟨h.stored, rfl, ?_⟩
  obtain ⟨owner, howner⟩ := Option.isSome_iff_exists.1 h.owned
  simp [claimOf, howner]

/-- The call refuses. -/
def Refuses {α : Type} (result : Checked α) : Prop := ∃ conflict, result = .error (.refused conflict)

theorem refuses_bind {α β : Type} {result : Checked α} {rest : α → Checked β} :
    Refuses (result >>= rest) ↔ Refuses result ∨ ∃ a, result = .ok a ∧ Refuses (rest a) := by
  cases result <;> simp [Refuses, Bind.bind, Except.bind]

theorem refuses_ok {α : Type} {a : α} : ¬Refuses (.ok a : Checked α) := fun ⟨_, h⟩ => nomatch h

theorem refuses_refuseIf {condition : Bool} {conflict : TabLeaseConflict} :
    Refuses (refuseIf condition conflict) ↔ condition = true := by
  cases condition <;> simp [Refuses, refuseIf]

theorem not_refuses_toISOString {ms : Int} : ¬Refuses (toISOString ms : Checked DateString) := by
  unfold toISOString
  split <;> rintro ⟨_, h⟩ <;> cases h

theorem not_refuses_renewedIdleExpiry {existing : BrowserTabLease} {nowMs absoluteMs : Int} {idleTtlMs : JsNumber} :
    ¬Refuses (renewedIdleExpiry existing nowMs absoluteMs idleTtlMs) := by
  unfold renewedIdleExpiry
  rw [refuses_bind]
  rintro (⟨_, h⟩ | ⟨ttl, -, h⟩)
  · simp only [normalizeTtl, normalizePositiveInteger] at h
    split at h
    · split at h <;> cases h
    · cases h
  · exact not_refuses_toISOString h

/-- The provisioning of a reserved lease is refused exactly when it is not exempt and has expired. -/
theorem recordTargetAction_refuses {registry : Registry} (h : Unused registry lease) (action : BrowserTabTargetAction)
    (time : IsoTime) (idleTtlMs : JsNumber) {absoluteMs : Int}
    (habsolute : lease.absoluteExpiresAt.parse = some absoluteMs) :
    Refuses (recordTargetAction ⟨claimOf lease, action, .at time.ms, idleTtlMs⟩ registry) ↔
      isTabLeaseTtlExempt lease = false ∧ absoluteMs < time.ms := by
  have hoccurred : (parseTimestamp (.at time.ms) "occurredAt" : Checked Int) = .ok time.ms :=
    parseTimestamp_eq_ok.2 (IsoTime.parse_at time)
  have hexpires : (parseTimestamp lease.absoluteExpiresAt "absoluteExpiresAt" : Checked Int) = .ok absoluteMs :=
    parseTimestamp_eq_ok.2 habsolute
  simp only [recordTargetAction, refuses_bind, h.claimed, hoccurred, hexpires, refuses_ok, refuses_refuseIf, h.active,
    not_refuses_toISOString, not_refuses_renewedIdleExpiry, pure, Except.pure, Except.ok.injEq, exists_eq_left',
    bne_self_eq_false, Bool.false_eq_true, refuseIf_eq_ok, false_or, and_false, exists_false, or_false, true_and,
    exists_const, Bool.and_eq_true, decide_eq_true_eq, Bool.not_eq_true']
  exact and_comm

theorem markLost_carriedOut {registry : Registry} (h : Unused registry lease) (time : IsoTime)
    (reason : TabLeaseLossReason) :
    ∃ lost, markLost ⟨lease.leaseId, lease.revision, .at time.ms, reason⟩ registry = .ok lost := by
  have hfenced : fencedLease lease.leaseId lease.revision registry = .ok lease := fencedLease_eq_ok.2 ⟨h.stored, rfl⟩
  have hnow : (parseTimestamp (.at time.ms) "now" : Checked Int) = .ok time.ms :=
    parseTimestamp_eq_ok.2 (IsoTime.parse_at time)
  have hdate : (toISOString time.ms : Checked DateString) = .ok (.at time.ms) := if_pos time.valid
  simp only [markLost, bind_eq_ok, hfenced, hnow, hdate, h.active, refuseIf_eq_ok, pure_eq_ok, Except.ok.injEq,
    exists_eq_left']
  exact ⟨_, ⟨⟩, rfl, rfl⟩

theorem closeStartupTarget_keeps (retirement : BrowserTarget) :
    (closeStartupTarget host retirement).Keeps TabWork.custody := by
  unfold closeStartupTarget
  refine keeps_bind keeps_answered fun current => ?_
  cases current with
  | none => exact keeps_pure
  | some url =>
    dsimp only
    split
    · exact keeps_fail
    · exact keeps_bind keeps_closeTarget fun _ =>
        (confirmRetirement_keeps retirement.url host.confirmations).imp fun _ _ h => congrArg _ h

theorem retireStartupTarget_keeps : (retireStartupTarget table host plan lease).Keeps TabWork.custody := by
  unfold retireStartupTarget
  cases plan.retirement with
  | none => exact keeps_pure
  | some retirement =>
    refine keeps_orElse (closeStartupTarget_keeps retirement) fun error => ?_
    refine keeps_bind keeps_rewriteLease fun retained => ?_
    cases retained <;> exact keeps_throw

theorem spares_of_keeps {α : Type} {p : TabScript α} (hp : p.Keeps TabWork.custody) (hnone : s.rolledBack = []) :
    p.Holds (fun _ => True) (fun _ s' => s'.rolledBack = []) s :=
  (hp.always fun _ _ => trivial).imp fun _ _ _ h => (congrArg (·.2.2) h).trans hnone

/-- The rollback of a lease closes its target, unless it cannot fence the lease or close the target. -/
theorem rollBackLease_adopted {accountingError : String} (hunused : Unused s.registry lease)
    (hnone : s.rolledBack = []) :
    (rollBackLease table host plan lease accountingError).Holds (fun _ => True)
      (fun _ s' => plan.target.targetId ∉ s'.rolledBack ↔
        ¬(host.registryAnswer .provisioningLost = .decided ∧ (host.closeAnswer .lostClosed).closes = true)) s := by
  unfold rollBackLease
  rw [holds_bind]
  refine callRegistry_holds trivial (fun hdecided => ⟨trivial, ?_⟩) (fun stop hstopped => ?_) fun message hfailed =>
    ⟨trivial, trivial, ?_⟩
  · obtain ⟨lost, hlost⟩ := markLost_carriedOut hunused (host.now .provisioningLost) .provisioningFailed
    have hresult : LeaseOperation.rewrite table (host.options .provisioningLost) (.markLost
        ⟨lease.leaseId, lease.revision, timeAt host .provisioningLost, .provisioningFailed⟩) s.registry = .ok lost := hlost
    rw [hresult]
    dsimp only [registryResult, settled, Except.mapError]
    rw [holds_bind, holds_orElse]
    refine closeTarget_holds trivial (fun hclosed => ⟨trivial, fun r => ?_⟩) fun hopen e => ?_
    · have hdone : host.registryAnswer .provisioningLost = .decided ∧ (host.closeAnswer .lostClosed).closes = true :=
        ⟨hdecided, hclosed⟩
      cases r with
      | error e => exact ⟨trivial, trivial, fun h => absurd List.mem_cons_self h, fun h => absurd hdone h⟩
      | ok _ =>
        dsimp only
        rw [holds_bind]
        refine (keeps_rewriteLease.always fun _ _ => trivial).imp fun r s' _ hkept => ?_
        have hrolled : plan.target.targetId ∈ s'.rolledBack := by
          rw [show s'.rolledBack = _ from congrArg (·.2.2) hkept]
          exact List.mem_cons_self
        have hiff : plan.target.targetId ∉ s'.rolledBack ↔
            ¬(host.registryAnswer .provisioningLost = .decided ∧ (host.closeAnswer .lostClosed).closes = true) :=
          ⟨fun h => absurd hrolled h, fun h => absurd hdone h⟩
        cases r with
        | error e => exact ⟨trivial, hiff⟩
        | ok released => cases released <;> exact ⟨trivial, hiff⟩
    · refine ⟨trivial, trivial, ?_⟩
      simp [hnone, hopen]
  · cases stop with
    | refused conflict => exact ⟨trivial, by simp [hnone, hstopped]⟩
    | thrown message => exact ⟨trivial, by simp [hnone, hstopped]⟩
  · simp [hnone, hfailed]

/-- A lease whose provisioning is refused is rolled back, and no other. -/
theorem provisionLease_adopted (hunused : Unused s.registry lease) (hnone : s.rolledBack = []) {absoluteMs : Int}
    (habsolute : lease.absoluteExpiresAt.parse = some absoluteMs)
    (hexpired : isTabLeaseTtlExempt lease = false ∧ absoluteMs < (host.now .provisioned).ms ↔
      ExpiredMeanwhile host input workload) :
    (provisionLease table host input plan lease).Holds (fun _ => True)
      (fun _ s' => plan.target.targetId ∉ s'.rolledBack ↔ ¬(ProvisioningRefused host input workload ∧
        host.registryAnswer .provisioningLost = .decided ∧ (host.closeAnswer .lostClosed).closes = true)) s := by
  have hrefuses := (recordTargetAction_refuses hunused (if plan.created then .targetCreated else .adopted)
    (host.now .provisioned) input.idleTtlMs habsolute).trans hexpired
  unfold provisionLease
  rw [holds_bind]
  refine callRegistry_holds trivial (fun hdecided => ⟨trivial, ?_⟩) (fun stop hstopped => ?_) fun message hfailed =>
    ⟨trivial, trivial, ?_⟩
  · have hiff : ProvisioningRefused host input workload ↔ ExpiredMeanwhile host input workload := by
      simp [ProvisioningRefused, hdecided]
    cases hr : LeaseOperation.rewrite table (host.options .provisioned) (.recordTargetAction ⟨claimOf lease,
        if plan.created then .targetCreated else .adopted, timeAt host .provisioned, input.idleTtlMs⟩) s.registry with
    | ok provisioned =>
      have hnot : ¬ExpiredMeanwhile host input workload := fun h => by
        obtain ⟨conflict, herror⟩ := hrefuses.2 h
        exact nomatch hr.symm.trans herror
      dsimp only [registryResult, settled, Except.mapError]
      rw [holds_bind]
      refine (spares_of_keeps retireStartupTarget_keeps (by exact hnone)).imp fun r s' _ hspared => ?_
      cases r <;> exact ⟨trivial, by simp [hspared, hiff, hnot]⟩
    | error stop =>
      cases stop with
      | refused conflict =>
        have hexpired : ExpiredMeanwhile host input workload := hrefuses.1 ⟨conflict, hr⟩
        refine (rollBackLease_adopted hunused hnone).imp fun _ _ _ h => h.trans ?_
        simp [hiff, hexpired]
      | thrown message =>
        have hnot : ¬ExpiredMeanwhile host input workload := fun h => by
          obtain ⟨conflict, herror⟩ := hrefuses.2 h
          exact nomatch hr.symm.trans herror
        exact ⟨trivial, by simp [hnone, hiff, hnot]⟩
  · cases stop with
    | refused conflict =>
      have hrefused : ProvisioningRefused host input workload := .inl ⟨conflict, hstopped⟩
      refine (rollBackLease_adopted hunused hnone).imp fun _ _ _ h => h.trans ?_
      simp [hrefused]
    | thrown message => exact ⟨trivial, by simp [hnone, hstopped, ProvisioningRefused]⟩
  · simp [hnone, hfailed, ProvisioningRefused]

/-- **An adopted target** is spared exactly under its condition. -/
theorem provisionTarget_adopted (hadopted : plan.created = false) (hnone : s.rolledBack = []) :
    (provisionTarget table host input workload plan).Holds (fun _ => True)
      (fun _ s' => plan.target.targetId ∉ s'.rolledBack ↔ AdoptedTargetSpared table host input workload plan s.registry)
      s := by
  unfold provisionTarget settleTarget settlement AdoptedTargetSpared
  rw [holds_bind, hadopted]
  refine ⟨trivial, ?_⟩
  dsimp only
  rw [holds_bind]
  refine reserveTarget_holds (fun hunnamed e => ⟨trivial, by simp [hnone, hunnamed]⟩) fun hnamed => ?_
  refine callRegistry_holds trivial (fun hdecided => ⟨trivial, ?_⟩) (fun stop hstopped => ?_) fun message hfailed =>
    ⟨trivial, trivial, by simp [hnone, hfailed]⟩
  · cases hr : (reserve table (host.options .reserved) (reservationOf host input workload plan) s.registry).1 with
    | ok lease =>
      have hstored : ReservationStored table host input workload plan s.registry :=
        ⟨fun stop hstop => (nomatch hdecided.symm.trans hstop), lease, hr⟩
      obtain ⟨-, -, hactive, howned, hexempt, nowMs, absoluteTtlMs, hnow, httl, habsolute⟩ := reserve_stored hr
      have hunused : Unused (reserve table (host.options .reserved) (reservationOf host input workload plan)
          s.registry).2 lease := by
        refine ⟨?_, hactive, howned⟩
        rw [(reserve_leases_of_ok hr).2]
        exact KeyedMap.get?_set_self _ _
      have hreserved : nowMs = (host.now .reserved).ms :=
        Option.some.inj (hnow.symm.trans (IsoTime.parse_at (host.now .reserved)))
      have hexpired : isTabLeaseTtlExempt lease = false ∧ nowMs + absoluteTtlMs < (host.now .provisioned).ms ↔
          ExpiredMeanwhile host input workload := by
        rw [hexempt, hreserved]
        refine and_congr_right fun _ => ⟨fun hlt => ⟨absoluteTtlMs, httl, hlt⟩, ?_⟩
        rintro ⟨ttl, httl', hlt⟩
        cases httl.symm.trans httl'
        exact hlt
      refine (provisionLease_adopted hunused (by exact hnone) habsolute hexpired).imp fun _ _ _ h => h.trans ?_
      simp [hnamed, hdecided, hstored]
    | error stop =>
      have hunstored : ¬ReservationStored table host input workload plan s.registry := by
        rintro ⟨-, lease, hok⟩
        exact nomatch hr.symm.trans hok
      cases stop with
      | refused conflict =>
        dsimp only [registryResult, settled, Except.mapError]
        unfold refuseTarget
        rw [hadopted, if_neg Bool.false_ne_true]
        exact ⟨trivial, by simp [hnone, hunstored]⟩
      | thrown message => exact ⟨trivial, by simp [hnone, hunstored]⟩
  · have hunstored : ¬ReservationStored table host input workload plan s.registry := fun h => h.1 stop hstopped
    cases stop with
    | refused conflict =>
      dsimp only [registryResult, settled, Except.mapError]
      unfold refuseTarget
      rw [hadopted, if_neg Bool.false_ne_true]
      exact ⟨trivial, by simp [hnone, hunstored]⟩
    | thrown message => exact ⟨trivial, by simp [hnone, hunstored]⟩

end Adopted

/-! ## The way to the target -/

section Obtain

variable {table : CaseTable} {host : TabHost} {input : DedicatedBrowserTabInput} {workload : TabLeaseWorkload}
  {s : TabWork}

theorem keeps_readRegistry {α : Type} {place : TabCall} {read : RegistryOptions → Registry → Checked α} :
    (readRegistry host place read).Keeps TabWork.custody := keeps_look

theorem keeps_discard {α : Type} {p : TabScript α} (hp : p.Keeps TabWork.custody) :
    (discard p).Keeps TabWork.custody := keeps_bind hp fun _ => keeps_pure

theorem releaseAbsentLeases_keeps : ∀ (leases : List BrowserTabLease) (n : Nat),
    (releaseAbsentLeases table host n leases).Keeps TabWork.custody
  | [], _ => keeps_pure
  | lease :: rest, n => by
    unfold releaseAbsentLeases
    split
    · exact releaseAbsentLeases_keeps rest (n + 1)
    · have hfence : (fenceAbsentLease table host n lease).Keeps TabWork.custody := by
        unfold fenceAbsentLease
        split
        · exact keeps_pure
        · exact keeps_rewriteLease
      refine keeps_bind hfence fun _ => keeps_bind keeps_accepted fun _ => keeps_bind keeps_rewriteLease fun _ => ?_
      exact keeps_bind (keeps_discard keeps_accepted) fun _ => releaseAbsentLeases_keeps rest (n + 1)

theorem releaseAbsentBrowserTabLeases_keeps (absent : Bool) :
    (releaseAbsentBrowserTabLeases table host input absent).Keeps TabWork.custody := by
  unfold releaseAbsentBrowserTabLeases
  split
  · exact keeps_bind keeps_readRegistry fun leases => releaseAbsentLeases_keeps leases 0
  · exact keeps_pure

theorem findExisting_keeps : (findExisting table host input workload).Keeps TabWork.custody := by
  refine keeps_bind keeps_readRegistry fun ofProcess => ?_
  cases ofProcess with
  | none => exact keeps_readRegistry
  | some lease => exact keeps_pure

theorem releaseMissingCrawler_keeps (lease : BrowserTabLease) :
    (releaseMissingCrawler table host lease).Keeps TabWork.custody :=
  keeps_bind keeps_rewriteLease fun _ => keeps_bind keeps_accepted fun _ => keeps_bind keeps_rewriteLease fun _ =>
    keeps_discard keeps_accepted

theorem assertEndpoint_keeps (endpoint : LiveFollowBrowserEndpoint) :
    (assertEndpoint input endpoint).Keeps TabWork.custody := by
  unfold assertEndpoint
  split
  · exact keeps_fail
  split
  · exact keeps_fail
  · exact keeps_pure

-- the comparisons of texts are not to be evaluated
attribute [local irreducible] assertEndpoint

theorem replaceStale_keeps (existing : BrowserTabLease) :
    (replaceStale table host input existing).Keeps TabWork.custody := by
  unfold replaceStale
  split
  · exact keeps_fail
  · refine keeps_bind keeps_rewriteLease fun _ => keeps_bind keeps_accepted fun _ => ?_
    split
    · exact keeps_fail
    · exact keeps_bind keeps_closeTarget fun _ => keeps_bind keeps_rewriteLease fun _ => keeps_discard keeps_accepted

theorem startEndpoint_keeps : (startEndpoint table host input).Keeps TabWork.custody := by
  unfold startEndpoint
  split
  · exact keeps_fail
  · refine keeps_bind keeps_callRegistry fun _ => keeps_bind keeps_accepted fun control => ?_
    cases control with
    | profileControlActive _ => exact keeps_fail
    | tabLeasesActive _ => exact keeps_fail
    | acquired control =>
      refine keeps_bind keeps_callRegistry fun _ => keeps_bind keeps_accepted fun released =>
        keeps_bind keeps_answered fun _ => ?_
      cases released with
      | true => exact keeps_pure
      | false => exact keeps_fail

theorem selectExistingTarget_keeps : (selectExistingTarget table host input).Keeps TabWork.custody := by
  unfold selectExistingTarget
  split
  · exact keeps_fail
  · refine keeps_bind keeps_readRegistry fun leases => keeps_bind keeps_answered fun targets => ?_
    dsimp only
    split
    · exact keeps_fail
    · exact keeps_fail
    · split
      · exact keeps_pure
      · exact keeps_bind keeps_rewriteLease fun _ => keeps_bind (keeps_discard keeps_accepted) fun _ => keeps_pure

theorem prepareColdStartTarget_keeps : (prepareColdStartTarget host input).Keeps TabWork.custody := by
  unfold prepareColdStartTarget
  split
  · split
    · exact keeps_fail
    split
    · exact keeps_fail
    · exact keeps_pure
  split
  · exact keeps_pure
  · refine keeps_bind keeps_readRegistry fun leases => keeps_bind keeps_answered fun targets => ?_
    dsimp only
    split
    · exact keeps_fail
    · exact keeps_pure
    · exact keeps_fail
    · exact keeps_pure

theorem browserAbsent_keeps (found : Option LiveFollowBrowserEndpoint) :
    (browserAbsent host found).Keeps TabWork.custody := by
  unfold browserAbsent
  split
  · exact keeps_answered
  · exact keeps_pure

/-- A script that keeps the custody, and what follows it. -/
theorem holds_bind_of_keeps {α β : Type} {p : TabScript α} {f : α → TabScript β}
    {Q : Except TabError β → TabWork → Prop} (hp : p.Keeps TabWork.custody)
    {custody : Option String × Option String × List String} (hs : s.custody = custody) (herror : ∀ e s', s'.custody = custody → Q (.error e) s')
    (hf : ∀ a s', s'.custody = custody → (f a).Holds (fun _ => True) Q s') :
    (p >>= f).Holds (fun _ => True) Q s := by
  rw [holds_bind]
  refine (hp.always fun _ _ => trivial).imp fun r s' _ hkept => ?_
  cases r with
  | error e => exact ⟨trivial, herror e s' (hkept.trans hs)⟩
  | ok a => exact hf a s' (hkept.trans hs)

/-- What the call has obtained: a target that it has created or adopted, with nothing closed since, or a leased tab or
an error, with nothing to roll back. -/
def Obtained : Except TabError ObtainedTarget → TabWork → Prop
  | .ok (.planned plan), s => s.closed = [] ∧
    s.custody = if plan.created then (some plan.target.targetId, none, []) else (none, some plan.target.targetId, [])
  | _, s => s.created = none ∧ s.rolledBack = []

theorem obtained_error {e : TabError} (hs : s.custody = (none, none, [])) : Obtained (.error e) s :=
  ⟨congrArg (·.1) hs, congrArg (·.2.2) hs⟩

theorem openPlannedPreLeaseTarget_holds {Q : Except TabError BrowserTarget → TabWork → Prop}
    (hs : s.custody = (none, none, [])) (herror : ∀ e s', s'.custody = (none, none, []) → Q (.error e) s')
    (hopened : ∀ target s', s'.closed = [] → s'.custody = (some target.targetId, none, []) → Q (.ok target) s') :
    (openPlannedPreLeaseTarget host input).Holds (fun _ => True) Q s := by
  unfold openPlannedPreLeaseTarget
  refine holds_bind_of_keeps keeps_answered hs herror fun _ s₁ hs₁ => ?_
  split
  · rename_i target _
    refine ⟨trivial, trivial, hopened target _ rfl ?_⟩
    obtain ⟨-, hrest⟩ := Prod.mk.inj hs₁
    exact congrArg (some target.targetId, ·) hrest
  · refine holds_bind_of_keeps keeps_answered hs₁ herror fun _ s₂ hs₂ => ?_
    exact ⟨trivial, herror _ s₂ hs₂⟩

theorem createTarget_obtained {endpoint : LiveFollowBrowserEndpoint} {retirement : Option BrowserTarget}
    (hs : s.custody = (none, none, [])) :
    (createTarget host input endpoint retirement).Holds (fun _ => True) Obtained s := by
  unfold createTarget
  rw [holds_bind]
  exact openPlannedPreLeaseTarget_holds hs (fun e s₁ hs₁ => ⟨trivial, obtained_error hs₁⟩) fun target s₁ hnone hs₁ =>
    ⟨trivial, hnone, hs₁⟩

theorem adoptTarget_obtained {endpoint : LiveFollowBrowserEndpoint} {target : BrowserTarget}
    (hs : s.custody = (none, none, [])) : (adoptTarget endpoint target).Holds (fun _ => True) Obtained s := by
  obtain ⟨hcreated, hrest⟩ := Prod.mk.inj hs
  obtain ⟨-, hrolled⟩ := Prod.mk.inj hrest
  refine ⟨trivial, trivial, rfl, ?_⟩
  simp [TabWork.custody, hcreated, hrolled]

theorem planTarget_obtained (found : Option LiveFollowBrowserEndpoint) (hs : s.custody = (none, none, [])) :
    (planTarget table host input found).Holds (fun _ => True) Obtained s := by
  have herror : ∀ e s', TabWork.custody s' = (none, none, []) → Obtained (.error e) s' := fun _ _ => obtained_error
  have hendpoint : (liveEndpoint table host input found).Keeps TabWork.custody := by
    cases found with
    | some endpoint => exact keeps_pure
    | none => exact startEndpoint_keeps
  have hcold : (coldStartTarget host input found).Keeps TabWork.custody := by
    cases found with
    | some endpoint => exact keeps_pure
    | none => exact prepareColdStartTarget_keeps
  unfold planTarget
  refine holds_bind_of_keeps hendpoint hs herror fun endpoint s₁ hs₁ => ?_
  refine holds_bind_of_keeps (assertEndpoint_keeps endpoint) hs₁ herror fun _ s₂ hs₂ => ?_
  split
  · refine holds_bind_of_keeps selectExistingTarget_keeps hs₂ herror fun selected s₃ hs₃ => ?_
    exact adoptTarget_obtained hs₃
  · refine holds_bind_of_keeps hcold hs₂ herror fun coldStart s₃ hs₃ => ?_
    split
    · exact adoptTarget_obtained hs₃
    · exact createTarget_obtained hs₃

theorem adoptExisting_holds {endpoint : LiveFollowBrowserEndpoint} {existing : BrowserTabLease} {unloaded : Bool}
    (hs : s.custody = (none, none, [])) :
    (adoptExisting table host input workload endpoint existing unloaded).Holds (fun _ => True)
      (fun _ s' => s'.created = none ∧ s'.rolledBack = []) s := by
  unfold adoptExisting
  rw [holds_bind, holds_change]
  refine ⟨trivial, trivial, ?_⟩
  refine (Keeps.always (f := TabWork.custody) ?_ fun _ _ => trivial).imp fun r s' _ hkept => ?_
  · refine keeps_bind keeps_rewriteLease fun _ => keeps_bind keeps_accepted fun _ => ?_
    exact keeps_bind keeps_rewriteLease fun _ => keeps_bind keeps_accepted fun _ => keeps_pure
  · exact ⟨(congrArg (·.1) hkept).trans (congrArg (·.1) hs), (congrArg (·.2.2) hkept).trans (congrArg (·.2.2) hs)⟩

/-- The existing tab: when it is not taken, nothing is. -/
theorem settleExisting_holds {found : Option LiveFollowBrowserEndpoint} {absent : Bool}
    {existing : Option BrowserTabLease} (hs : s.custody = (none, none, [])) :
    (settleExisting table host input workload found absent existing).Holds (fun _ => True)
      (fun r s' => (s'.created = none ∧ s'.rolledBack = []) ∧ (r = .ok none → s'.custody = (none, none, []))) s := by
  have hkept : ∀ (r : Except TabError (Option LiveFollowCrawlerTab)) (s' : TabWork), s'.custody = (none, none, []) →
      (s'.created = none ∧ s'.rolledBack = []) ∧ (r = .ok none → s'.custody = (none, none, [])) :=
    fun _ s' hs' => ⟨⟨congrArg (·.1) hs', congrArg (·.2.2) hs'⟩, fun _ => hs'⟩
  have hkeeps : ∀ {p : TabScript (Option LiveFollowCrawlerTab)} {s : TabWork}, p.Keeps TabWork.custody →
      s.custody = (none, none, []) → p.Holds (fun _ => True)
        (fun r s' => (s'.created = none ∧ s'.rolledBack = []) ∧ (r = .ok none → s'.custody = (none, none, []))) s :=
    fun hp hs => (hp.always fun _ _ => trivial).imp fun r s' _ h => hkept r s' (h.trans hs)
  have hmissing : ∀ lease, (do
      releaseMissingCrawler table host lease
      return none : TabScript (Option LiveFollowCrawlerTab)).Keeps TabWork.custody :=
    fun lease => keeps_bind (releaseMissingCrawler_keeps lease) fun _ => keeps_pure
  unfold settleExisting
  cases existing with
  | none => exact ⟨trivial, hkept _ s hs⟩
  | some lease =>
    dsimp only
    split
    · exact hkeeps (hmissing lease) hs
    unfold visitExisting
    split
    · exact hkeeps keeps_fail hs
    split
    · exact hkeeps keeps_fail hs
    · rename_i endpoint
      have herror : ∀ (e : TabError) (s' : TabWork), s'.custody = (none, none, []) → _ :=
        fun e s' hs' => hkept (.error e) s' hs'
      refine holds_bind_of_keeps (assertEndpoint_keeps endpoint) hs herror fun _ s₁ hs₁ => ?_
      refine holds_bind_of_keeps keeps_answered hs₁ herror fun inspected s₂ hs₂ => ?_
      cases inspected with
      | none => exact hkeeps (hmissing lease) hs₂
      | some url =>
        dsimp only
        split
        · rw [holds_bind]
          refine (adoptExisting_holds hs₂).imp fun r s₃ _ h₃ => ?_
          cases r with
          | error e => exact ⟨trivial, h₃, fun h => nomatch h⟩
          | ok tab => exact ⟨trivial, h₃, fun h => nomatch h⟩
        · exact hkeeps (keeps_bind (replaceStale_keeps lease) fun _ => keeps_pure) hs₂

theorem obtainTarget_obtained (hs : s.custody = (none, none, [])) :
    (obtainTarget table host input workload).Holds (fun _ => True) Obtained s := by
  have herror : ∀ e s', TabWork.custody s' = (none, none, []) → Obtained (.error e) s' := fun _ _ => obtained_error
  unfold obtainTarget
  refine holds_bind_of_keeps keeps_answered hs herror fun found s₁ hs₁ => ?_
  refine holds_bind_of_keeps (browserAbsent_keeps found) hs₁ herror fun absent s₂ hs₂ => ?_
  refine holds_bind_of_keeps (releaseAbsentBrowserTabLeases_keeps absent) hs₂ herror fun _ s₃ hs₃ => ?_
  refine holds_bind_of_keeps findExisting_keeps hs₃ herror fun existing s₄ hs₄ => ?_
  rw [holds_bind]
  refine (settleExisting_holds hs₄).imp fun r s₅ _ ⟨hkept, hnone⟩ => ?_
  cases r with
  | error e => exact ⟨trivial, hkept⟩
  | ok tab =>
    cases tab with
    | some tab => exact ⟨trivial, hkept⟩
    | none => exact planTarget_obtained found (hnone rfl)

end Obtain

/-! ## The whole call -/

section Call

variable (table : CaseTable) (host : TabHost) (input : DedicatedBrowserTabInput) (workload : TabLeaseWorkload)

/-- What the rollback needs of a target, when it is obtained. -/
def TargetSafe (plan : TabPlan) (registry : Registry) : Prop :=
  if plan.created then CreatedTargetSecured table host input workload plan registry
  else AdoptedTargetSpared table host input workload plan registry

/-- What the call has obtained. -/
def TabWork.obtained (s : TabWork) : Option String × Option String := (s.created, s.adopted)

variable {table host input workload}

theorem keeps_obtained {α : Type} {p : TabScript α} (hp : p.Keeps TabWork.custody) : p.Keeps TabWork.obtained :=
  hp.imp fun _ _ h => Prod.ext (congrArg (·.1) h) (congrArg (·.2.1) h)

theorem closeTarget_obtained {place : TabCall} {rollback : Bool} {id : String} :
    (closeTarget host place rollback id).Keeps TabWork.obtained := by
  refine keeps_perform fun s => ?_
  cases host.closeAnswer place <;> rfl

theorem rollBackLease_obtained {plan : TabPlan} {lease : BrowserTabLease} {accountingError : String} :
    (rollBackLease table host plan lease accountingError).Keeps TabWork.obtained := by
  unfold rollBackLease
  refine keeps_bind (keeps_obtained keeps_rewriteLease) fun lost => ?_
  cases lost with
  | error conflict => exact keeps_throw
  | ok lost =>
    refine keeps_bind (keeps_orElse closeTarget_obtained fun _ => keeps_throw) fun _ => ?_
    refine keeps_bind (keeps_obtained keeps_rewriteLease) fun released => ?_
    cases released <;> exact keeps_throw

theorem provisionTarget_obtained (plan : TabPlan) :
    (provisionTarget table host input workload plan).Keeps TabWork.obtained := by
  have hrequired : ∀ value name, (requireText value name).Keeps TabWork.custody := by
    intro value name
    unfold requireText
    split
    · exact keeps_fail
    · exact keeps_pure
  have hsettled : (settleTarget host plan).Keeps TabWork.obtained := by
    unfold settleTarget
    split
    · exact keeps_pure
    · exact keeps_bind closeTarget_obtained fun _ => keeps_throw
  have hrefused : ∀ conflict, (refuseTarget host plan conflict).Keeps TabWork.obtained := by
    intro conflict
    unfold refuseTarget
    split
    · exact keeps_bind closeTarget_obtained fun _ => keeps_throw
    · exact keeps_throw
  have hprovisioned : ∀ lease, (provisionLease table host input plan lease).Keeps TabWork.obtained := by
    intro lease
    unfold provisionLease
    refine keeps_bind (keeps_obtained keeps_rewriteLease) fun provisioned => ?_
    cases provisioned with
    | error conflict => exact rollBackLease_obtained
    | ok provisioned => exact keeps_bind (keeps_obtained retireStartupTarget_keeps) fun _ => keeps_pure
  unfold provisionTarget
  refine keeps_bind hsettled fun _ => keeps_bind ?_ fun reserved => ?_
  · exact keeps_obtained (keeps_bind (keeps_discard (hrequired _ _)) fun _ =>
      keeps_bind (keeps_discard (hrequired _ _)) fun _ => keeps_callRegistry)
  · cases reserved with
    | error conflict => exact hrefused conflict
    | ok lease => exact hprovisioned lease

/-- **From the target on.** -/
theorem provisionTarget_kept {plan : TabPlan} {s : TabWork} (hs : Obtained (.ok (.planned plan)) s) :
    (provisionTarget table host input workload plan).Holds (fun _ => True)
      (fun _ s' => RollbackKept table input.scope s' ↔ TargetSafe table host input workload plan s.registry) s := by
  obtain ⟨hclosed, hcustody⟩ := hs
  cases hcreated : plan.created with
  | true =>
    rw [hcreated, if_pos rfl] at hcustody
    have hobtained : s.obtained = (some plan.target.targetId, none) :=
      Prod.ext (congrArg (·.1) hcustody) (congrArg (·.2.1) hcustody)
    refine ((provisionTarget_obtained plan).holds (provisionTarget_created hcreated hclosed)).imp
      fun _ s' _ ⟨hiff, hkept⟩ => ?_
    obtain ⟨hid, hnone⟩ := Prod.mk.inj (hkept.trans hobtained)
    rw [TargetSafe, if_pos hcreated, ← hiff]
    constructor
    · exact fun h => h.created _ hid
    · refine fun h => ⟨fun id he => ?_, fun id he => ?_⟩
      · cases hid.symm.trans he
        exact h
      · cases hnone.symm.trans he
  | false =>
    rw [hcreated, if_neg Bool.false_ne_true] at hcustody
    have hobtained : s.obtained = (none, some plan.target.targetId) :=
      Prod.ext (congrArg (·.1) hcustody) (congrArg (·.2.1) hcustody)
    refine ((provisionTarget_obtained plan).holds (provisionTarget_adopted hcreated (congrArg (·.2.2) hcustody))).imp
      fun _ s' _ ⟨hiff, hkept⟩ => ?_
    obtain ⟨hnone, hid⟩ := Prod.mk.inj (hkept.trans hobtained)
    rw [TargetSafe, if_neg (by simp [hcreated]), ← hiff]
    constructor
    · exact fun h => h.adopted _ hid
    · refine fun h => ⟨fun id he => ?_, fun id he => ?_⟩
      · cases hnone.symm.trans he
      · cases hid.symm.trans he
        exact h

variable (table host input workload)

/-- **The rollback of a dedicated tab.** Wherever a call fails, whatever the browser and the registry answer: a target
that it has created is closed or leased in the end, and one that it has adopted is not closed by the rollback, exactly
if the target was safe when the call had obtained it. -/
theorem dedicated_tab_rollback_iff (registry : Registry) :
    RollbackKept table input.scope ((acquireDedicatedBrowserTab table host input workload).run { registry }).2 ↔
      ∀ plan, ((obtainTarget table host input workload).run { registry }).1 = .ok (.planned plan) →
        TargetSafe table host input workload plan
          ((obtainTarget table host input workload).run { registry }).2.registry := by
  have hobtain : (obtainTarget table host input workload).Holds (fun _ => True) Obtained { registry } :=
    obtainTarget_obtained rfl
  obtain ⟨-, hobtained⟩ := hobtain.run
  have hnothing : ∀ s : TabWork, s.created = none ∧ s.rolledBack = [] → RollbackKept table input.scope s := by
    rintro s ⟨hcreated, hrolled⟩
    refine ⟨fun id he => ?_, fun id _ => ?_⟩
    · cases hcreated.symm.trans he
    · simp [hrolled]
  refine (Holds.run (I := fun _ => True) (Q := fun _ s' => RollbackKept table input.scope s' ↔ _) ?_).2
  unfold acquireDedicatedBrowserTab
  rw [holds_bind]
  refine holds_of_run (fun _ => trivial) ?_
  cases hr : ((obtainTarget table host input workload).run { registry }).1 with
  | error e =>
    rw [hr] at hobtained
    exact ⟨trivial, fun _ _ h => (nomatch h), fun _ => hnothing _ hobtained⟩
  | ok obtained =>
    rw [hr] at hobtained
    cases obtained with
    | leased tab => exact ⟨trivial, fun _ _ h => (nomatch h), fun _ => hnothing _ hobtained⟩
    | planned plan =>
      refine (provisionTarget_kept hobtained).imp fun _ _ _ hiff => hiff.trans ?_
      refine ⟨fun h plan' he => ?_, fun h => h plan rfl⟩
      cases he
      exact h

end Call

/-! ## A page of the user -/

/-- A page of the browser on the provider's route, with nobody's lease on it. -/
def userPage : BrowserTarget := ⟨"page-1", "https://chatgpt.com/", by decide +kernel⟩

def userInput : DedicatedBrowserTabInput where
  scope := sampleScope
  operationId := "operation"
  targetUrl := "https://chatgpt.com/"
  idleTtlMs := .finite 60000
  absoluteTtlMs := .finite 60000
  requireExistingTarget := true

/-- Every call is carried out, but the computer sleeps for more than a minute before the provisioning. -/
def sleepingHost : TabHost where
  now place := if place = .provisioned then ⟨60001, by decide⟩ else ⟨0, IsoTime.epoch_valid⟩
  options _ := sampleOptions 10 "lease-1"
  registryAnswer _ := .decided
  closeAnswer _ := .closed
  parseUrl _ := some ⟨"chatgpt.com", "https://chatgpt.com", "/"⟩
  resolveExistingEndpoint := .ok (some ⟨"127.0.0.1", 45011, "work"⟩)
  verifyBrowserAbsent := none
  startBrowser := .error "not started"
  inspectExisting _ := .ok none
  listTargets := some (.ok [userPage])
  governor := none
  openTarget _ := .error "not opened"
  inspectRetirement _ := .ok none
  confirmations := []

/-- The call on the page, as it ends. -/
def userPageWork : TabWork :=
  ((acquireDedicatedBrowserTab .lowered sleepingHost userInput (.ephemeral "operation")).run { registry := .empty }).2

/-- The page that was adopted is closed. -/
theorem userPage_rolledBack : ¬RollbackKept .lowered userInput.scope userPageWork := by
  have hcustody : userPageWork.custody = (none, some "page-1", ["page-1"]) := by decide +kernel
  have hrolled : userPageWork.rolledBack = ["page-1"] := congrArg (·.2.2) hcustody
  intro h
  refine h.adopted "page-1" (congrArg (·.2.1) hcustody) ?_
  rw [hrolled]
  exact List.mem_cons_self

end AuraCall.AccountMirror
