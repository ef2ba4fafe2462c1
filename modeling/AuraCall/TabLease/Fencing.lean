import AuraCall.TabLease.System

/-!
# Claims are fences

- the revision of a lease never goes back (`StepEffect.revision_le`), so a claim once overtaken stays stale;
- a call that succeeds with a claim overtakes it (`perform_overtakes`), and no call succeeds with a stale one
  (`Stale.refused`);
- so of all the calls of a run that present one claim, at most one succeeds (`winners_le_one`).
-/

namespace AuraCall.TabLease

variable {table : CaseTable} {registry registry' : Registry} {id : String} {revision : Nat}

/-! ## Stale claims -/

/-- The lease has moved past the revision. -/
def Stale (registry : Registry) (id : String) (revision : Nat) : Prop :=
  ∃ lease, registry.leases.get? id = some lease ∧ revision < lease.revision

/-- Storing the successor of a lease moves its revision on by one and leaves the other leases alone. -/
theorem Successor.get? {move : Move} {old new : BrowserTabLease} (h : Successor registry move old new) :
    (registry.leases.set new).get? old.leaseId = some new ∧
      ∀ other, other ≠ old.leaseId → (registry.leases.set new).get? other = registry.leases.get? other :=
  ⟨h.leaseId ▸ KeyedMap.get?_set_self registry.leases new,
    fun _ hne => KeyedMap.get?_set_of_ne (h.leaseId ▸ hne)⟩

/-- No effect of a call takes a lease away or its revision back. -/
theorem StepEffect.revision_le {operation : Operation} {outcome : Checked Reply} {lease : BrowserTabLease}
    (h : StepEffect registry operation outcome registry') (hg : registry.leases.get? id = some lease) :
    ∃ lease', registry'.leases.get? id = some lease' ∧ lease.revision ≤ lease'.revision := by
  cases h with
  | reserved hr =>
    obtain ⟨hm, rfl⟩ := KeyedMap.get?_eq_some.1 hg
    exact ⟨lease, (KeyedMap.get?_set_of_ne (hr.fresh lease hm)).trans hg, le_rfl⟩
  | @rewritten _ new hr =>
    obtain ⟨old, _, hs⟩ := hr
    obtain ⟨hself, hother⟩ := hs.get?
    by_cases hid : id = old.leaseId
    · subst hid
      have hold : old = lease := Option.some.inj ((KeyedMap.get?_self hs.mem).symm.trans hg)
      exact ⟨new, hself, by rw [hs.revision, hold]; omega⟩
    · exact ⟨lease, (hother id hid).trans hg, le_rfl⟩
  | _ => exact ⟨lease, hg, le_rfl⟩

theorem StepEffect.stale {operation : Operation} {outcome : Checked Reply}
    (h : StepEffect registry operation outcome registry') (hs : Stale registry id revision) :
    Stale registry' id revision := by
  obtain ⟨lease, hg, hlt⟩ := hs
  obtain ⟨lease', hg', hle⟩ := h.revision_le hg
  exact ⟨lease', hg', by omega⟩

/-! ## Calls that present a claim -/

/-- The lease and revision a call presents. -/
def Call.presented (call : Call) : Option (String × Nat) :=
  match call.operation with
  | .lease operation => operation.presented
  | _ => none

/-- What a successful call with a claim on a lease does: the lease was at the revision of the claim and is now at the
next one, and no other lease changed. -/
def Bumped (id : String) (revision : Nat) (registry registry' : Registry) : Prop :=
  ∃ old new, registry.leases.get? id = some old ∧ old.revision = revision ∧
    registry'.leases.get? id = some new ∧ new.revision = revision + 1 ∧
    ∀ other, other ≠ id → registry'.leases.get? other = registry.leases.get? other

theorem Rewrites.bumped {move : Move} {new : BrowserTabLease}
    (h : Rewrites registry move (some (id, revision)) new) :
    Bumped id revision registry (storeLease registry (.ok new)) := by
  obtain ⟨old, hp, hs⟩ := h
  obtain ⟨rfl, rfl⟩ := hp id revision rfl
  obtain ⟨hself, hother⟩ := hs.get?
  exact ⟨old, new, KeyedMap.get?_self hs.mem, rfl, hself, hs.revision, hother⟩

/-- A call with a claim either succeeds and bumps the revision of its lease, or leaves the registry as it was. -/
theorem perform_presented (table : CaseTable) {call : Call} (hp : call.presented = some (id, revision))
    (registry : Registry) :
    ((perform table call registry).1.isOk = true ∧ Bumped id revision registry (perform table call registry).2) ∨
      ((perform table call registry).1.isOk = false ∧ (perform table call registry).2 = registry) := by
  obtain ⟨options, operation⟩ := call
  cases operation with
  | lease operation =>
    simp only [perform]
    cases hr : operation.rewrite table options registry with
    | error stop => exact Or.inr ⟨rfl, rfl⟩
    | ok new =>
      have hrw := rewrite_successor hr
      rw [show operation.presented = some (id, revision) from hp] at hrw
      exact Or.inl ⟨rfl, hrw.bumped⟩
  | _ => cases hp

/-- A call that succeeds with a claim overtakes it. -/
theorem Bumped.stale (h : Bumped id revision registry registry') : Stale registry' id revision := by
  obtain ⟨_, new, _, _, hg, hr, _⟩ := h
  exact ⟨new, hg, by omega⟩

/-- No call succeeds with a stale claim. -/
theorem Stale.refused {call : Call} (hs : Stale registry id revision) (hp : call.presented = some (id, revision)) :
    (perform table call registry).1.isOk = false := by
  rcases perform_presented table hp registry with ⟨_, old, _, hg, hr, _⟩ | ⟨hno, _⟩
  · obtain ⟨lease, hg', hlt⟩ := hs
    have heq : old = lease := Option.some.inj (hg.symm.trans hg')
    subst heq
    omega
  · exact hno

/-! ## Races for one claim -/

/-- How many calls present the claim and succeed. -/
def winners (table : CaseTable) (claim : String × Nat) : List Call → Registry → Nat
  | [], _ => 0
  | call :: calls, registry =>
    (if call.presented = some claim ∧ (perform table call registry).1.isOk = true then 1 else 0) +
      winners table claim calls (perform table call registry).2

theorem winners_of_stale (table : CaseTable) : ∀ (calls : List Call) {registry : Registry},
    Stale registry id revision → winners table (id, revision) calls registry = 0
  | [], _, _ => rfl
  | call :: calls, registry, hs => by
    have hlost : ¬(call.presented = some (id, revision) ∧ (perform table call registry).1.isOk = true) := by
      rintro ⟨hp, hok⟩
      rw [hs.refused hp] at hok
      cases hok
    have hrest := winners_of_stale table calls ((perform_effect table call registry).stale hs)
    simp only [winners, hlost, hrest, ↓reduceIte]

/-- At most one of the calls that present a claim succeeds. -/
theorem winners_le_one (table : CaseTable) (id : String) (revision : Nat) : ∀ (calls : List Call) (registry : Registry),
    winners table (id, revision) calls registry ≤ 1
  | [], _ => by simp [winners]
  | call :: calls, registry => by
    have ih := winners_le_one table id revision calls (perform table call registry).2
    by_cases hwon : call.presented = some (id, revision) ∧ (perform table call registry).1.isOk = true
    · rcases perform_presented table hwon.1 registry with ⟨_, hb⟩ | ⟨hno, _⟩
      · have hrest := winners_of_stale table calls hb.stale
        simp only [winners, hwon, hrest, and_self, ↓reduceIte]
        omega
      · rw [hwon.2] at hno
        cases hno
    · simp only [winners, hwon, ↓reduceIte]
      omega

/-- **A successful call bumps its lease and touches no other, a refused one changes nothing, and of the calls that
present one claim at most one succeeds.** -/
theorem tabLease_fenced (table : CaseTable) (registry : Registry) (id : String) (revision : Nat) :
    (∀ call : Call, call.presented = some (id, revision) →
      ((perform table call registry).1.isOk = true → Bumped id revision registry (perform table call registry).2) ∧
      ((perform table call registry).1.isOk = false → (perform table call registry).2 = registry)) ∧
    ∀ calls, winners table (id, revision) calls registry ≤ 1 := by
  refine ⟨fun call hp => ?_, fun calls => winners_le_one table id revision calls registry⟩
  rcases perform_presented table hp registry with ⟨hok, hb⟩ | ⟨hno, heq⟩
  · exact ⟨fun _ => hb, fun h => absurd (hok.symm.trans h) (by decide)⟩
  · exact ⟨fun h => absurd (hno.symm.trans h) (by decide), fun _ => heq⟩

/-- The owner of the first lease of the sample account sends one heartbeat twice. -/
example :
    let heartbeat : Call := ⟨sampleOptions 10 "lease-3", .lease (.heartbeat {
      claim := ⟨"lease-1", 1, "operation"⟩, now := .at 1000, idleTtlMs := .finite 60000 })⟩
    winners .lowered ("lease-1", 1) [heartbeat, heartbeat] samplePair = 1 := by decide

end AuraCall.TabLease
