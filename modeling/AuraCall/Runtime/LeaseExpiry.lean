import AuraCall.Lib.IsoTimestamp
import AuraCall.Runtime.Lease

/-!
# Which leases expire

`expireExecutionRunLeases` compares the expiry of a lease with the clock as two strings. The runtime writes both in one form,
and then it ends exactly the active leases whose expiry is an instant at or before the clock's (`expired_leases`).
-/

namespace AuraCall.Runtime

open IsoTimestamp

theorem codeUnits_ascii : ∀ {l : List Nat}, (∀ c ∈ l, c < 128) → codeUnits (String.ofList (l.map Char.ofNat)) = l
  | [], _ => rfl
  | c :: l, h => by
    have hc : c < 128 := h c List.mem_cons_self
    have hchar : (Char.ofNat c).toNat = c := by
      rw [Char.ofNat, dif_pos (.inl (by omega))]
      exact UInt32.toNat_ofNatLT
    have hrest := codeUnits_ascii fun d hd => h d (List.mem_cons_of_mem c hd)
    unfold codeUnits at hrest ⊢
    rw [String.toList_ofList] at hrest ⊢
    rw [List.map_cons, List.flatMap_cons, hrest, hchar, if_pos (by omega), List.singleton_append]

/-- In one form the strings are compared as the instants are. -/
theorem notAfter_text {t u : IsoTimestamp} (h : SameForm t u) : notAfter t.text u.text = true ↔ t.instant ≤ u.instant := by
  rw [notAfter, decide_eq_true_iff, text, text, codeUnits_ascii fun _ => mem_units_lt, codeUnits_ascii fun _ => mem_units_lt]
  exact units_le_iff h

/-- **The leases that expire** are the active ones whose expiry is at or before the clock; the others are as before. -/
theorem expired_leases (bundle : ExecutionRunRecordBundle) (now : IsoTimestamp) (expiry : ExecutionRunLease → IsoTimestamp)
    (h : ∀ lease ∈ bundle.leases, lease.status = .active →
      lease.expiresAt = (expiry lease).text ∧ SameForm (expiry lease) now) :
    ∃ f, (expireExecutionRunLeases bundle now.text).bundle.leases = bundle.leases.map f ∧
      ∀ lease ∈ bundle.leases,
        (lease.status = .active ∧ (expiry lease).instant ≤ now.instant →
          f lease = { lease with
            status := .expired, releasedAt := some now.text, releaseReason := some "lease expired" } ∧
          lease.id ∈ (expireExecutionRunLeases bundle now.text).expiredLeaseIds) ∧
        (¬(lease.status = .active ∧ (expiry lease).instant ≤ now.instant) → f lease = lease) := by
  have hexpired : ∀ lease ∈ bundle.leases, leaseExpired now.text lease = true ↔
      lease.status = .active ∧ (expiry lease).instant ≤ now.instant := by
    intro lease hm
    rw [leaseExpired, Bool.and_eq_true, beq_iff_eq]
    refine and_congr_right fun ha => ?_
    obtain ⟨htext, hform⟩ := h lease hm ha
    rw [htext, notAfter_text hform]
  have hleases : (expireExecutionRunLeases bundle now.text).bundle.leases = bundle.leases.map (expireLease now.text) ∧
      (expireExecutionRunLeases bundle now.text).expiredLeaseIds =
        (bundle.leases.filter (leaseExpired now.text)).map (·.id) := by
    rcases expireExecutionRunLeases_cases bundle now.text with ⟨hnone, he⟩ | ⟨events, hb, hids⟩
    · rw [he]
      have hsame : bundle.leases.map (expireLease now.text) = bundle.leases.map id :=
        List.map_congr_left fun lease hm => by rw [expireLease, hnone lease hm]; rfl
      have hfilter : bundle.leases.filter (leaseExpired now.text) = [] :=
        List.filter_eq_nil_iff.2 fun lease hm => by rw [hnone lease hm]; exact Bool.false_ne_true
      rw [hsame, List.map_id, hfilter]
      exact ⟨rfl, rfl⟩
    · exact ⟨by rw [hb, withLeases_leases], hids⟩
  refine ⟨expireLease now.text, hleases.1, fun lease hm => ⟨fun hpast => ⟨?_, ?_⟩, fun hpast => ?_⟩⟩
  · rw [expireLease, if_pos ((hexpired lease hm).2 hpast)]
  · rw [hleases.2]
    exact List.mem_map_of_mem (List.mem_filter.2 ⟨hm, (hexpired lease hm).2 hpast⟩)
  · rw [expireLease, if_neg fun he => hpast ((hexpired lease hm).1 he)]

/-! ## Other forms -/

/-- A run with an active lease that expires then. -/
def leasedUntil (expiresAt : String) : ExecutionRunRecordBundle where
  run := ⟨"run", .direct, .running, "t0", "t0", [], .failFast⟩
  steps := []
  handoffs := []
  localActionRequests := []
  sharedState := ⟨.active, [], [], [], [], "t0"⟩
  events := []
  leases := [⟨"lease", "run", "owner", .active, "t0", "t0", expiresAt, none, none⟩]

/-- The first hour of a year. -/
def firstHour (year minute second precision fraction : Nat) (zone : IsoZone) (hy : year < 10000) (hm : minute < 60)
    (hs : second < 60) (hf : fraction < 10 ^ precision) : IsoTimestamp where
  year := year
  month := 1
  day := 1
  hour := 0
  minute := minute
  second := second
  precision := precision
  fraction := fraction
  zone := zone
  date := ⟨hy, by decide, by cases h : isLeap year <;> decide⟩
  hour_lt := by decide
  minute_lt := hm
  second_lt := hs
  fraction_lt := hf

/-- Half past midnight, two hours east. -/
def eastern : IsoTimestamp :=
  firstHour 2026 30 0 3 0 (.offset false 2 0) (by decide) (by decide) (by decide) (by decide)

def midnight : IsoTimestamp := firstHour 2026 0 0 3 0 .utc (by decide) (by decide) (by decide) (by decide)

/-- Midnight, without a fraction. -/
def wholeSecond : IsoTimestamp := firstHour 2026 0 0 0 0 .utc (by decide) (by decide) (by decide) (by decide)

def halfSecond : IsoTimestamp := firstHour 2026 0 0 3 500 .utc (by decide) (by decide) (by decide) (by decide)

theorem lease_at_midnight_expires :
    "lease" ∈ (expireExecutionRunLeases (leasedUntil midnight.text) halfSecond.text).expiredLeaseIds := by
  obtain ⟨f, -, hf⟩ := expired_leases (leasedUntil midnight.text) halfSecond (fun _ => midnight)
    (by intro lease hm _; rw [List.mem_singleton.1 hm]; exact ⟨rfl, rfl, rfl⟩)
  exact ((hf _ List.mem_cons_self).1 ⟨rfl, by decide +kernel⟩).2

/-- **An offset or another precision keeps a lease that is over.** -/
theorem other_forms_kept :
    eastern.text = "2026-01-01T00:30:00.000+02:00" ∧ midnight.text = "2026-01-01T00:00:00.000Z" ∧
    eastern.instant ≤ midnight.instant ∧
    (expireExecutionRunLeases (leasedUntil eastern.text) midnight.text).expiredLeaseIds = [] ∧
    wholeSecond.text = "2026-01-01T00:00:00Z" ∧ halfSecond.text = "2026-01-01T00:00:00.500Z" ∧
    wholeSecond.instant ≤ halfSecond.instant ∧
    (expireExecutionRunLeases (leasedUntil wholeSecond.text) halfSecond.text).expiredLeaseIds = [] := by
  refine ⟨by decide +kernel, by decide +kernel, by decide +kernel, by decide +kernel, by decide +kernel, by decide +kernel,
    by decide +kernel, by decide +kernel⟩

end AuraCall.Runtime
