import AuraCall.Desktop.Pool

/-!
# The pool of native desktops after a crash

A granted assignment is recorded or its acquisition is not completed, and an assignment that is released as it is
recorded has a release that is not completed; a release is only submitted while the pool has more than its least number
of assignments. These hold between any two actions (`PoolConsistent`), so they hold wherever a call stops.

A selection that ends has completed the acquisition, and a maintenance that is not deferred the releases too. Neither
does the other's part: a maintenance is deferred by an acquisition that is not completed, and a selection leaves the
releases (`selection_leaves_released`).
-/

namespace AuraCall.Desktop

open Script

section Invariant

variable {π : Type} (provider : PoolProvider π) (policy : PoolPolicy) (host : PoolHost)

/-- The number of assignments of the pool. -/
def reserved (s : PoolState π) : Nat := (provider.assignments s.provider).length

/-- The least number of assignments that maintenance leaves. -/
def leastReserved : Nat := max 1 policy.minimum

/-- What holds between any two actions. -/
structure PoolConsistent (s : PoolState π) : Prop where
  named : ∀ desktop ∈ s.desktops, desktop.desktopName = desktopNameOf desktop.assignment
  identity : ∀ desktop ∈ s.desktops,
    desktop.assignment.desktopId = provider.desktopOf desktop.assignment.assignmentId
  recorded : ∀ key id, provider.Granted s.provider key id →
    (∃ assignment ∈ provider.assignments s.provider, assignment.assignmentId = id) →
      (∃ desktop ∈ s.desktops, desktop.assignment.assignmentId = id) ∨ s.acquisition = some key
  forgotten : ∀ key assignment, provider.Released s.provider key assignment →
    ∀ desktop ∈ s.desktops, desktop.assignment = assignment → ∃ release ∈ s.releases, release.key = key
  submitted : ∀ release ∈ s.releases, release.desktop.desktopName = desktopNameOf release.desktop.assignment ∧
    ∀ assignment, provider.Released s.provider release.key assignment → assignment = release.desktop.assignment
  drawnKeys : ∀ key, ((∃ assignment, provider.Released s.provider key assignment) ∨
    ∃ release ∈ s.releases, release.key = key) → ∃ n < s.drawn, key = "auracall-release-" ++ host.randomUUID n
  single : s.releases.values.length ≤ 1
  spare : ∀ release ∈ s.releases, provider.Released s.provider release.key release.desktop.assignment ∨
    leastReserved policy < reserved provider s

variable {provider : PoolProvider π} {policy : PoolPolicy} {host : PoolHost} {s : PoolState π} {key : String}
  {release : PoolRelease} {assignment : RemoteViewAssignment} {desktop : NativeDesktop}

theorem PoolInit.consistent (h : PoolInit provider s) : PoolConsistent provider policy host s where
  named desktop hm := absurd (h.desktops ▸ hm) (KeyedMap.not_mem_empty desktop)
  identity desktop hm := absurd (h.desktops ▸ hm) (KeyedMap.not_mem_empty desktop)
  recorded key id hg := absurd hg (h.granted key id)
  forgotten key assignment hr := absurd hr (h.released key assignment)
  submitted release hm := absurd (h.releases ▸ hm) (KeyedMap.not_mem_empty release)
  drawnKeys key hk := by
    rcases hk with ⟨assignment, hr⟩ | ⟨release, hm, -⟩
    · exact absurd hr (h.released key assignment)
    · exact absurd (h.releases ▸ hm) (KeyedMap.not_mem_empty release)
  single := by
    rw [h.releases]
    exact Nat.zero_le 1
  spare release hm := absurd (h.releases ▸ hm) (KeyedMap.not_mem_empty release)

theorem desktopNameOf_inj {a b : RemoteViewAssignment} (h : desktopNameOf a = desktopNameOf b) :
    a.desktopId = b.desktopId := by
  simpa [desktopNameOf] using h

theorem PoolProvider.eq_of_desktop {p : π} {a b : RemoteViewAssignment} (ha : a ∈ provider.assignments p)
    (hb : b ∈ provider.assignments p) (h : a.desktopId = b.desktopId) : a = b :=
  List.inj_on_of_nodup_map (provider.distinct p).2 ha hb h

/-- A pool that keeps the identifiers of another is no smaller. -/
theorem PoolProvider.length_le {p p' : π}
    (h : ∀ a ∈ provider.assignments p, ∃ b ∈ provider.assignments p', b.assignmentId = a.assignmentId) :
    (provider.assignments p).length ≤ (provider.assignments p').length := by
  have hsub : (provider.assignments p).map (·.assignmentId) ⊆ (provider.assignments p').map (·.assignmentId) := by
    intro id hm
    obtain ⟨a, ha, rfl⟩ := List.mem_map.1 hm
    obtain ⟨b, hb, he⟩ := h a ha
    exact he ▸ List.mem_map_of_mem hb
  simpa using (provider.distinct p).1.length_le_of_subset hsub

/-- One identifier takes at most one assignment out of the pool. -/
theorem PoolProvider.length_filter (p : π) (id : String) : (provider.assignments p).length ≤
    ((provider.assignments p).filter fun b => b.assignmentId ≠ id).length + 1 := by
  have hnodup := (provider.distinct p).1
  have hcount : (provider.assignments p).countP (fun b => b.assignmentId = id) ≤ 1 := by
    have := List.nodup_iff_count_le_one.1 hnodup id
    rw [List.count_eq_countP, List.countP_map] at this
    refine le_trans (le_of_eq (List.countP_congr fun b _ => ?_)) this
    simp
  have hsplit := List.length_eq_countP_add_countP (fun b : RemoteViewAssignment => decide (b.assignmentId = id))
    (l := provider.assignments p)
  have hrest : (provider.assignments p).countP (fun b => decide ¬(decide (b.assignmentId = id) = true)) =
      ((provider.assignments p).filter fun b => b.assignmentId ≠ id).length := by
    rw [List.countP_eq_length_filter]
    simp
  omega

/-! ## One request -/

theorem PoolProvider.mem_of_release {p : π} {retirement : RemoteViewRetirement} {b : RemoteViewAssignment}
    (h : b ∈ provider.assignments (provider.releaseIdle p assignment retirement key).2) :
    b ∈ provider.assignments p := by
  rcases @PoolProvider.release_assignments π provider p assignment retirement key with hsame | ⟨hfilter, -⟩
  · exact hsame ▸ h
  · exact (List.mem_filter.1 (hfilter ▸ h)).1

/-- A release takes at most one assignment, and none that is gone or that it does not release. -/
theorem release_reserved (provider : PoolProvider π) (s : PoolState π) (assignment : RemoteViewAssignment)
    (retirement : RemoteViewRetirement) (key : String) :
    let p' := (provider.releaseIdle s.provider assignment retirement key).2
    (provider.assignments p').length = reserved provider s ∨
      reserved provider s ≤ (provider.assignments p').length + 1 ∧ provider.Released p' key assignment ∧
        ¬provider.Released s.provider key assignment := by
  dsimp only
  rcases @PoolProvider.release_assignments π provider s.provider assignment retirement key with
    hsame | ⟨hfilter, hreleased⟩
  · exact .inl (by rw [hsame, reserved])
  · by_cases hbefore : provider.Released s.provider key assignment
    · refine .inl ?_
      rw [hfilter, reserved, List.filter_eq_self.2]
      exact fun b hb => decide_eq_true (provider.released_gone hbefore hb)
    · refine .inr ⟨?_, hreleased, hbefore⟩
      rw [hfilter]
      exact provider.length_filter s.provider assignment.assignmentId

/-! ## Single actions -/

/-- An acquisition that is asked for while its key is kept. -/
theorem PoolConsistent.acquire (h : PoolConsistent provider policy host s) (hk : s.acquisition = some key) :
    PoolConsistent provider policy host { s with provider := (provider.acquire s.provider key).2 } where
  named := h.named
  identity := h.identity
  recorded key' id hg := by
    rintro ⟨a, ha, rfl⟩
    rcases provider.acquire_granted hg with hold | rfl
    · rcases provider.acquire_new ha with hin | hnew
      · exact h.recorded key' a.assignmentId hold ⟨a, hin, rfl⟩
      · rw [provider.granted_key hg hnew]
        exact .inr hk
    · exact .inr hk
  forgotten key' a hr := h.forgotten key' a (provider.acquire_released.1 hr)
  submitted release hm :=
    ⟨(h.submitted release hm).1, fun a hr => (h.submitted release hm).2 a (provider.acquire_released.1 hr)⟩
  drawnKeys key' hk' := by
    refine h.drawnKeys key' ?_
    rcases hk' with ⟨a, hr⟩ | hrelease
    · exact .inl ⟨a, provider.acquire_released.1 hr⟩
    · exact .inr hrelease
  single := h.single
  spare release hm := by
    rcases h.spare release hm with hr | hlt
    · exact .inl (provider.acquire_released.2 hr)
    · exact .inr (lt_of_lt_of_le hlt (provider.length_le fun a ha => ⟨a, provider.acquire_keeps ha, rfl⟩))

/-- There is one release to carry out. -/
theorem PoolConsistent.only {release' : PoolRelease} (h : PoolConsistent provider policy host s)
    (hm : release ∈ s.releases) (hm' : release' ∈ s.releases) : release = release' := by
  have hle := h.single
  rw [KeyedMap.mem_def] at hm hm'
  cases hl : s.releases.values with
  | nil =>
    rw [hl] at hm
    cases hm
  | cons first rest =>
    rw [hl, List.length_cons] at hle
    have hrest : rest = [] := List.length_eq_zero_iff.1 (by omega)
    rw [hl, hrest, List.mem_singleton] at hm hm'
    rw [hm, hm']

/-- A release that is asked for while it is kept. -/
theorem PoolConsistent.carryOut (h : PoolConsistent provider policy host s) (hm : release ∈ s.releases) :
    PoolConsistent provider policy host { s with
      provider := (provider.releaseIdle s.provider release.desktop.assignment release.retirement release.key).2 } where
  named := h.named
  identity := h.identity
  recorded key' id hg := by
    rintro ⟨a, ha, rfl⟩
    exact h.recorded key' a.assignmentId (provider.release_granted.1 hg) ⟨a, provider.mem_of_release ha, rfl⟩
  forgotten key' a hr := by
    rcases provider.release_released hr with hold | ⟨rfl, rfl⟩
    · exact h.forgotten key' a hold
    · exact fun _ _ _ => ⟨release, hm, rfl⟩
  submitted release' hm' := by
    refine ⟨(h.submitted release' hm').1, fun a hr => ?_⟩
    rcases provider.release_released hr with hold | ⟨hkey, rfl⟩
    · exact (h.submitted release' hm').2 a hold
    · rw [KeyedMap.eq_of_key hm' hm hkey]
  drawnKeys key' hk' := by
    refine h.drawnKeys key' ?_
    rcases hk' with ⟨a, hr⟩ | hrelease
    · rcases provider.release_released hr with hold | ⟨rfl, -⟩
      · exact .inl ⟨a, hold⟩
      · exact .inr ⟨release, hm, rfl⟩
    · exact .inr hrelease
  single := h.single
  spare release' hm' := by
    obtain rfl := h.only hm hm'
    rcases h.spare release hm with hr | hlt
    · exact .inl (provider.release_keeps hr)
    · rcases release_reserved provider s release.desktop.assignment release.retirement release.key with
        hsame | ⟨-, hreleased, -⟩
      · exact .inr (by rw [reserved, hsame]; exact hlt)
      · exact .inl hreleased

/-- A desktop that is recorded with an assignment of the pool, under the name of the assignment. -/
theorem PoolConsistent.record (h : PoolConsistent provider policy host s) (desktop : NativeDesktop)
    (hm : assignment ∈ provider.assignments s.provider) (hname : desktop.desktopName = desktopNameOf assignment)
    (ha : desktop.assignment = assignment) :
    PoolConsistent provider policy host { s with desktops := s.desktops.set desktop } where
  named d hd := by
    rcases KeyedMap.mem_set.1 hd with rfl | ⟨hd, -⟩
    · rw [hname, ha]
    · exact h.named d hd
  identity d hd := by
    rcases KeyedMap.mem_set.1 hd with rfl | ⟨hd, -⟩
    · rw [ha]
      exact (provider.identity hm).1
    · exact h.identity d hd
  recorded key' id hg := by
    rintro ⟨a, hin, rfl⟩
    rcases h.recorded key' a.assignmentId hg ⟨a, hin, rfl⟩ with ⟨d, hd, hid⟩ | hk
    · refine .inl ?_
      by_cases hsame : d.desktopName = desktop.desktopName
      · -- the record gives way to one of the same assignment
        have hdesktop : a.desktopId = assignment.desktopId := by
          rw [(provider.identity hin).1, ← hid, ← h.identity d hd]
          exact desktopNameOf_inj ((h.named d hd).symm.trans (hsame.trans hname))
        exact ⟨desktop, KeyedMap.mem_set_self _ _, by rw [ha, provider.eq_of_desktop hin hm hdesktop]⟩
      · exact ⟨d, KeyedMap.mem_set_of_ne hd hsame, hid⟩
    · exact .inr hk
  forgotten key' a hr d hd hda := by
    rcases KeyedMap.mem_set.1 hd with rfl | ⟨hd, -⟩
    · rw [ha] at hda
      exact absurd (congrArg (·.assignmentId) hda) (provider.released_gone hr hm)
    · exact h.forgotten key' a hr d hd hda
  submitted := h.submitted
  drawnKeys := h.drawnKeys
  single := h.single
  spare := h.spare

/-- A desktop that is removed from the records after its release. -/
theorem PoolConsistent.forget (h : PoolConsistent provider policy host s)
    (hr : provider.Released s.provider key desktop.assignment) :
    PoolConsistent provider policy host (s.forget desktop) := by
  unfold PoolState.forget
  split
  · rename_i hany
    obtain ⟨old, hg, hsame⟩ := (Option.any_eq_true _ _).1 hany
    have hold := KeyedMap.get?_eq_some.1 hg
    rw [beq_iff_eq] at hsame
    exact {
      named := fun d hd => h.named d (KeyedMap.mem_delete.1 hd).1
      identity := fun d hd => h.identity d (KeyedMap.mem_delete.1 hd).1
      recorded := by
        rintro key' id hg' ⟨a, hin, rfl⟩
        rcases h.recorded key' a.assignmentId hg' ⟨a, hin, rfl⟩ with ⟨d, hd, hid⟩ | hk
        · refine .inl ⟨d, KeyedMap.mem_delete.2 ⟨hd, fun hname => ?_⟩, hid⟩
          have hd' : d = old := KeyedMap.eq_of_key hd hold.1 (hname.trans hold.2.symm)
          rw [hd', hsame] at hid
          exact provider.released_gone hr hin hid.symm
        · exact .inr hk
      forgotten := fun key' a hr' d hd => h.forgotten key' a hr' d (KeyedMap.mem_delete.1 hd).1
      submitted := h.submitted
      drawnKeys := h.drawnKeys
      single := h.single
      spare := h.spare }
  · exact h

/-- No record is left of a desktop that is removed. -/
theorem PoolConsistent.not_mem_forget (h : PoolConsistent provider policy host s)
    (hname : desktop.desktopName = desktopNameOf desktop.assignment) :
    ∀ d ∈ (s.forget desktop).desktops, d.assignment ≠ desktop.assignment := by
  intro d hd heq
  unfold PoolState.forget at hd
  have hin : d ∈ s.desktops := by
    split at hd
    · exact (KeyedMap.mem_delete.1 hd).1
    · exact hd
  have hsame : d.desktopName = desktop.desktopName := by
    rw [h.named d hin, hname, heq]
  have hany : (s.desktops.get? desktop.desktopName).any (·.assignment == desktop.assignment) = true := by
    rw [← hsame, KeyedMap.get?_self hin]
    simp [heq]
  rw [if_pos hany] at hd
  exact (KeyedMap.mem_delete.1 hd).2 hsame

/-- An acquisition is completed once what it was granted is recorded. -/
theorem PoolConsistent.completeAcquisition (h : PoolConsistent provider policy host s) (hk : s.acquisition = some key)
    (hrecorded : ∀ id, provider.Granted s.provider key id →
      ∃ desktop ∈ s.desktops, desktop.assignment.assignmentId = id) :
    PoolConsistent provider policy host { s with acquisition := none } where
  named := h.named
  identity := h.identity
  recorded key' id hg hin := by
    rcases h.recorded key' id hg hin with hd | hk'
    · exact .inl hd
    · rw [hk] at hk'
      cases hk'
      exact .inl (hrecorded id hg)
  forgotten := h.forgotten
  submitted := h.submitted
  drawnKeys := h.drawnKeys
  single := h.single
  spare := h.spare

/-- A new key for an acquisition. -/
theorem PoolConsistent.draw (h : PoolConsistent provider policy host s) (hk : s.acquisition = none) :
    PoolConsistent provider policy host { s with acquisition := some key, drawn := s.drawn + 1 } where
  named := h.named
  identity := h.identity
  recorded key' id hg hin := by
    rcases h.recorded key' id hg hin with hd | hk'
    · exact .inl hd
    · rw [hk] at hk'
      cases hk'
  forgotten := h.forgotten
  submitted := h.submitted
  drawnKeys key' hk' := by
    obtain ⟨n, hn, he⟩ := h.drawnKeys key' hk'
    exact ⟨n, Nat.lt_succ_of_lt hn, he⟩
  single := h.single
  spare := h.spare

/-- Nothing was released under a key that is new. -/
theorem PoolConsistent.fresh (h : PoolConsistent provider policy host s) (assignment : RemoteViewAssignment) :
    ¬provider.Released s.provider ("auracall-release-" ++ host.randomUUID s.drawn) assignment := by
  intro hr
  obtain ⟨n, hn, he⟩ := h.drawnKeys _ (.inl ⟨assignment, hr⟩)
  have hsame : host.randomUUID s.drawn = host.randomUUID n := by simpa using he
  have := host.randomUUID_injective hsame
  omega

/-- A release is recorded while more than the least number of assignments is left, and no other release is. -/
theorem PoolConsistent.recordRelease (h : PoolConsistent provider policy host s) (hnone : s.releases.values = [])
    (hname : release.desktop.desktopName = desktopNameOf release.desktop.assignment)
    (hkey : release.key = "auracall-release-" ++ host.randomUUID s.drawn)
    (hspare : leastReserved policy < reserved provider s) : PoolConsistent provider policy host
      { s with releases := s.releases.set release, drawn := s.drawn + 1 } := by
  have hvalues : (s.releases.set release).values = [release] := by
    rw [KeyedMap.values_set_of_fresh, hnone]
    · rfl
    · intro other hm
      rw [KeyedMap.mem_def, hnone] at hm
      cases hm
  have honly : ∀ r ∈ s.releases.set release, r = release := by
    intro r hm
    rw [KeyedMap.mem_def, hvalues] at hm
    exact List.mem_singleton.1 hm
  exact {
    named := h.named
    identity := h.identity
    recorded := h.recorded
    forgotten := by
      intro key' a hr d hd hda
      obtain ⟨r, hm, -⟩ := h.forgotten key' a hr d hd hda
      rw [KeyedMap.mem_def, hnone] at hm
      cases hm
    submitted := by
      intro r hm
      rw [honly r hm]
      exact ⟨hname, fun a hr => absurd (hkey ▸ hr) (h.fresh a)⟩
    drawnKeys := by
      rintro key' (hr | ⟨r, hm, rfl⟩)
      · obtain ⟨n, hn, he⟩ := h.drawnKeys key' (.inl hr)
        exact ⟨n, Nat.lt_succ_of_lt hn, he⟩
      · rw [honly r hm]
        exact ⟨s.drawn, Nat.lt_succ_self _, hkey⟩
    single := by rw [hvalues]; exact le_refl 1
    spare := fun _ _ => .inr hspare }

/-- A release is completed once no record is left of what it has released. -/
theorem PoolConsistent.completeRelease (h : PoolConsistent provider policy host s)
    (hgone : ∀ assignment, provider.Released s.provider key assignment →
      ∀ desktop ∈ s.desktops, desktop.assignment ≠ assignment) :
    PoolConsistent provider policy host { s with releases := s.releases.delete key } where
  named := h.named
  identity := h.identity
  recorded := h.recorded
  forgotten key' a hr d hd hda := by
    obtain ⟨r, hm, hkey⟩ := h.forgotten key' a hr d hd hda
    refine ⟨r, KeyedMap.mem_delete.2 ⟨hm, fun hsame => ?_⟩, hkey⟩
    obtain rfl : key' = key := hkey.symm.trans hsame
    exact hgone a hr d hd hda
  submitted r hm := h.submitted r (KeyedMap.mem_delete.1 hm).1
  drawnKeys key' hk' := by
    refine h.drawnKeys key' ?_
    rcases hk' with hr | ⟨r, hm, he⟩
    · exact .inl hr
    · exact .inr ⟨r, (KeyedMap.mem_delete.1 hm).1, he⟩
  single := le_trans (List.length_filter_le _ _) h.single
  spare r hm := h.spare r (KeyedMap.mem_delete.1 hm).1

theorem PoolConsistent.change {pool : π} (h : PoolConsistent provider policy host s)
    (hc : PoolChange provider s.provider pool) : PoolConsistent provider policy host { s with provider := pool } where
  named := h.named
  identity := h.identity
  recorded key' id hg := by
    rintro ⟨b, hb, rfl⟩
    have hg' := (hc.granted key' b.assignmentId).1 hg
    rcases hc.others b hb with ⟨a, ha, he⟩ | hnone
    · exact h.recorded key' b.assignmentId hg' ⟨a, ha, he⟩
    · exact absurd hg (hnone key')
  forgotten key' a hr := h.forgotten key' a ((hc.released key' a).1 hr)
  submitted r hm := ⟨(h.submitted r hm).1, fun a hr => (h.submitted r hm).2 a ((hc.released _ a).1 hr)⟩
  drawnKeys key' hk' := by
    refine h.drawnKeys key' ?_
    rcases hk' with ⟨a, hr⟩ | hrelease
    · exact .inl ⟨a, (hc.released key' a).1 hr⟩
    · exact .inr hrelease
  single := h.single
  spare r hm := by
    rcases h.spare r hm with hr | hlt
    · exact .inl ((hc.released _ _).2 hr)
    · exact .inr (lt_of_lt_of_le hlt (provider.length_le hc.keeps))

/-! ## Calls -/

/-- What holds wherever a call stops that is not to leave fewer assignments than `least`. -/
def Safe (provider : PoolProvider π) (policy : PoolPolicy) (host : PoolHost) (least : Nat) (s : PoolState π) : Prop :=
  PoolConsistent provider policy host s ∧ least ≤ reserved provider s

variable {least : Nat} {seen : PoolObservations}

theorem Safe.acquire (h : Safe provider policy host least s) (hk : s.acquisition = some key) :
    Safe provider policy host least { s with provider := (provider.acquire s.provider key).2 } :=
  ⟨h.1.acquire hk, h.2.trans (provider.length_le fun a ha => ⟨a, provider.acquire_keeps ha, rfl⟩)⟩

/-- A release that is carried out leaves the least number. -/
theorem Safe.carryOut (h : Safe provider policy host least s) (hleast : least ≤ leastReserved policy)
    (hm : release ∈ s.releases) : Safe provider policy host least { s with
      provider := (provider.releaseIdle s.provider release.desktop.assignment release.retirement release.key).2 } := by
  refine ⟨h.1.carryOut hm, ?_⟩
  have hle := h.2
  rcases release_reserved provider s release.desktop.assignment release.retirement release.key with
    hsame | ⟨hone, -, hbefore⟩
  · rw [reserved, hsame]
    exact hle
  · rcases h.1.spare release hm with hr | hlt
    · exact absurd hr hbefore
    · simp only [reserved] at hlt hone ⊢
      omega

/-- An acquisition whose key is kept ends with its assignment recorded and the key gone. -/
theorem acquireDesktop_holds (h : Safe provider policy host least s) (hk : s.acquisition = some key) :
    (acquireDesktop provider key).Holds (Safe provider policy host least)
      (fun result s' => ∀ assignment, result = .ok assignment → s'.acquisition = none ∧ s'.releases = s.releases ∧
        assignment ∈ provider.assignments s'.provider) s := by
  have hacquired := h.acquire hk
  simp only [acquireDesktop, requestAcquisition, recordDesktop, completePoolAcquisition, holds_bind, holds_perform]
  refine ⟨h, hacquired, ?_⟩
  cases hreply : (provider.acquire s.provider key).1 with
  | none => exact ⟨hacquired, fun _ he => by cases he⟩
  | some assignment =>
    obtain ⟨hin, hgranted⟩ := provider.acquire_reply hreply
    have hrecorded := hacquired.1.record ⟨desktopNameOf assignment, assignment⟩ hin rfl rfl
    simp only [holds_change, holds_pure]
    refine ⟨hacquired, ⟨hrecorded, hacquired.2⟩, ⟨hrecorded, hacquired.2⟩, ?_⟩
    have hcompleted := hrecorded.completeAcquisition hk fun id hg =>
      ⟨⟨desktopNameOf assignment, assignment⟩, KeyedMap.mem_set_self _ _, provider.granted_unique hgranted hg⟩
    refine ⟨⟨hcompleted, hacquired.2⟩, ⟨hcompleted, hacquired.2⟩, fun _ he => ?_⟩
    cases he
    exact ⟨trivial, trivial, hin⟩

theorem acquireAnother_holds (h : Safe provider policy host least s) (hnone : s.acquisition = none) :
    (acquireAnother provider host).Holds (Safe provider policy host least)
      (fun result s' => ∀ assignment, result = .ok assignment → s'.acquisition = none ∧ s'.releases = s.releases ∧
        assignment ∈ provider.assignments s'.provider) s := by
  have hdrawn : Safe provider policy host least { s with
      acquisition := some ("auracall-pool-" ++ host.randomUUID s.drawn), drawn := s.drawn + 1 } :=
    ⟨h.1.draw hnone, h.2⟩
  simp only [acquireAnother, poolAcquisition, holds_bind, holds_perform, hnone]
  exact ⟨h, hdrawn, acquireDesktop_holds hdrawn rfl⟩

theorem mem_leastCrowded {observed : List (RemoteViewAssignment × Nat)}
    (h : leastCrowded host observed = some assignment) :
    ∃ count, (assignment, count) ∈ observed := by
  obtain ⟨pair, hhead, rfl⟩ := Option.map_eq_some_iff.1 h
  exact ⟨pair.2, (List.mem_insertionSort _).1 (List.mem_of_mem_head? hhead)⟩

theorem chooseAssignment_holds (h : Safe provider policy host least s) (hnone : s.acquisition = none) :
    (chooseAssignment provider policy host seen (provider.assignments s.provider)).Holds
      (Safe provider policy host least)
      (fun result s' => ∀ assignment, result = .ok assignment → s'.acquisition = none ∧
        assignment ∈ provider.assignments s'.provider) s := by
  unfold chooseAssignment
  dsimp only
  have hobserved : ∀ {assignment count}, (assignment, count) ∈ (provider.assignments s.provider).map
      (fun assignment => (assignment, seen.surveyWindows assignment)) → assignment ∈ provider.assignments s.provider := by
    intro assignment count hm
    obtain ⟨a, ha, he⟩ := List.mem_map.1 hm
    cases he
    exact ha
  split
  · rename_i free hfree
    refine ⟨h, fun _ he => ?_⟩
    cases he
    exact ⟨hnone, hobserved (List.mem_of_find?_eq_some hfree)⟩
  · split
    · refine (acquireAnother_holds h hnone).imp fun result s' _ hq assignment he => ?_
      exact ⟨(hq assignment he).1, (hq assignment he).2.2⟩
    · split
      · rename_i assignment hleast
        obtain ⟨count, hm⟩ := mem_leastCrowded hleast
        refine ⟨h, fun _ he => ?_⟩
        cases he
        exact ⟨hnone, hobserved hm⟩
      · exact ⟨h, fun _ he => by cases he⟩

theorem PoolConsistent.retainedName (h : PoolConsistent provider policy host s)
    (hm : assignment ∈ provider.assignments s.provider) (hr : retainedDesktop s.desktops assignment = some desktop) :
    desktop.desktopName = desktopNameOf assignment := by
  have hin : desktop ∈ s.desktops := List.mem_of_find?_eq_some hr
  have hsame := List.find?_some hr
  simp only [Bool.and_eq_true, beq_iff_eq] at hsame
  rw [h.named desktop hin, desktopNameOf, desktopNameOf, h.identity desktop hin, hsame.1, (provider.identity hm).1]

theorem settleDesktop_holds (h : Safe provider policy host least s) (hnone : s.acquisition = none)
    (hm : assignment ∈ provider.assignments s.provider) :
    (settleDesktop assignment).Holds (Safe provider policy host least) (fun _ s' => s'.acquisition = none) s := by
  have hname : ((retainedDesktop s.desktops assignment).map (·.desktopName)).getD (desktopNameOf assignment) =
      desktopNameOf assignment := by
    cases hr : retainedDesktop s.desktops assignment with
    | none => rfl
    | some desktop => exact h.1.retainedName hm hr
  have hrecorded := h.1.record ⟨((retainedDesktop s.desktops assignment).map (·.desktopName)).getD
    (desktopNameOf assignment), assignment⟩ hm hname rfl
  simp only [settleDesktop, recordDesktop, holds_bind, holds_look, holds_change, holds_pure]
  exact ⟨h, h, h, ⟨hrecorded, h.2⟩, ⟨hrecorded, h.2⟩, hnone⟩

/-- **A selection**: wherever it stops the pool is consistent, and at its end the acquisition is completed. -/
theorem selectPoolDesktop_holds (h : Safe provider policy host least s) :
    (selectPoolDesktop provider policy host seen).Holds (Safe provider policy host least)
      (fun result s' => ∀ desktop, result = .ok desktop → s'.acquisition = none) s := by
  have hrest : ∀ {s : PoolState π}, Safe provider policy host least s → s.acquisition = none →
      (do
        let assignments ← poolState provider
        let assignment ← chooseAssignment provider policy host seen assignments
        settleDesktop assignment : Script (PoolState π) PoolError NativeDesktop).Holds (Safe provider policy host least)
          (fun result s' => ∀ desktop, result = .ok desktop → s'.acquisition = none) s := by
    intro s h hnone
    simp only [poolState, holds_bind, holds_look]
    refine ⟨h, h, (chooseAssignment_holds h hnone).imp fun result s' h' hq => ?_⟩
    cases result with
    | error e => exact ⟨h', fun _ he => by cases he⟩
    | ok assignment =>
      obtain ⟨hnone', hm⟩ := hq assignment rfl
      exact (settleDesktop_holds h' hnone' hm).imp fun _ _ _ hq _ _ => hq
  unfold selectPoolDesktop pendingPoolAcquisition
  rw [holds_bind, holds_look]
  refine ⟨h, h, ?_⟩
  cases hk : s.acquisition with
  | none => exact hrest h hk
  | some key =>
    dsimp only
    rw [holds_bind, holds_discard]
    refine (acquireDesktop_holds h hk).imp fun result s' h' hq => ?_
    cases result with
    | error e => exact ⟨h', fun _ he => by cases he⟩
    | ok assignment => exact hrest h' (hq assignment rfl).1

/-- A recorded release that is submitted: at its end it is completed, and the pool has lost at most one assignment. -/
theorem submitRelease_holds (h : Safe provider policy host least s) (hleast : least ≤ leastReserved policy)
    (hm : release ∈ s.releases) : (submitRelease provider release).Holds (Safe provider policy host least)
      (fun result s' => ∀ reply, result = .ok reply → s'.acquisition = s.acquisition ∧
        s'.releases = s.releases.delete release.key ∧ reserved provider s ≤ reserved provider s' + 1 ∧
          (reply = .retained → reserved provider s ≤ reserved provider s')) s := by
  have hcarried := h.carryOut hleast hm
  have hcount := release_reserved provider s release.desktop.assignment release.retirement release.key
  obtain ⟨hname, hsubmitted⟩ := hcarried.1.submitted release hm
  unfold submitRelease requestRelease
  split
  · exact ⟨h, fun _ he => by cases he⟩
  · simp only [holds_bind, holds_perform]
    refine ⟨h, hcarried, ?_⟩
    cases hreply : (provider.releaseIdle s.provider release.desktop.assignment release.retirement release.key).1 with
    | none => exact ⟨hcarried, fun _ he => by cases he⟩
    | some reply =>
      cases reply with
      | released =>
        have hforgotten := hcarried.1.forget (provider.release_reply hreply)
        have hcompleted := hforgotten.completeRelease fun a hr => by
          rw [PoolState.forget_provider] at hr
          rw [hsubmitted a hr]
          exact hcarried.1.not_mem_forget hname
        have hle : least ≤ reserved provider (PoolState.forget release.desktop { s with provider :=
            (provider.releaseIdle s.provider release.desktop.assignment release.retirement release.key).2 }) := by
          rw [reserved, PoolState.forget_provider]
          exact hcarried.2
        simp only [forgetDesktop, completePoolRelease]
        refine ⟨hcarried, ⟨hforgotten, hle⟩, ⟨hcompleted, hle⟩, fun _ he => ?_⟩
        cases he
        refine ⟨PoolState.forget_acquisition _ _, ?_, ?_, fun he => by cases he⟩
        · exact congrArg (KeyedMap.delete · release.key) (PoolState.forget_releases _ _)
        · simp only [reserved, PoolState.forget_provider] at hcount ⊢
          omega
      | retained =>
        have hcompleted := hcarried.1.completeRelease fun a hr => absurd hr (provider.release_retained hreply)
        simp only [completePoolRelease]
        refine ⟨hcarried, ⟨hcompleted, hcarried.2⟩, fun _ he => ?_⟩
        cases he
        have hsame : reserved provider s ≤ (provider.assignments (provider.releaseIdle s.provider
            release.desktop.assignment release.retirement release.key).2).length := by
          rcases hcount with hsame | ⟨-, hreleased, -⟩
          · exact le_of_eq hsame.symm
          · exact absurd hreleased (provider.release_retained hreply)
        exact ⟨rfl, rfl, Nat.le_succ_of_le hsame, fun _ => hsame⟩

theorem reconcileReleases_holds (hleast : least ≤ leastReserved policy) :
    ∀ (releases : List PoolRelease) {s : PoolState π}, Safe provider policy host least s →
      s.releases.values = releases → (reconcileReleases provider seen releases).Holds (Safe provider policy host least)
        (fun result s' => result = .ok true → s'.acquisition = s.acquisition ∧ s'.releases.values = []) s
  | [], s, h, hvalues => ⟨h, fun _ => ⟨rfl, hvalues⟩⟩
  | release :: rest, s, h, hvalues => by
    unfold reconcileReleases
    split
    · exact ⟨h, fun he => by cases he⟩
    · have hm : release ∈ s.releases := by
        rw [KeyedMap.mem_def, hvalues]
        exact List.mem_cons_self
      rw [holds_bind, holds_discard]
      refine (submitRelease_holds h hleast hm).imp fun result s' h' hq => ?_
      cases result with
      | error e => exact ⟨h', fun he => by cases he⟩
      | ok reply =>
        obtain ⟨hacquisition, hreleases, -, -⟩ := hq reply rfl
        have hrest : s'.releases.values = rest := by
          have hnodup := s.releases.nodup
          rw [hvalues, List.map_cons, List.nodup_cons] at hnodup
          rw [hreleases]
          show s.releases.values.filter (fun other => other.key ≠ release.key) = rest
          rw [hvalues, List.filter_cons_of_neg (by simp)]
          refine List.filter_eq_self.2 fun other hm' => decide_eq_true fun he => hnodup.1 ?_
          exact he ▸ List.mem_map_of_mem hm'
        refine (reconcileReleases_holds hleast rest h' hrest).imp fun _ _ _ hq he => ?_
        obtain ⟨hacquisition', hdone⟩ := hq he
        exact ⟨hacquisition'.trans hacquisition, hdone⟩

theorem surveyIdle_named (h : PoolConsistent provider policy host s) :
    ∀ {assignments : List RemoteViewAssignment} {idle : List NativeDesktop},
      (∀ a ∈ assignments, a ∈ provider.assignments s.provider) → surveyIdle seen s.desktops assignments = some idle →
        ∀ desktop ∈ idle, desktop.desktopName = desktopNameOf desktop.assignment
  | [], idle, _, hs => by
    cases hs
    exact fun desktop hm => absurd hm List.not_mem_nil
  | assignment :: rest, idle, hin, hs => by
    simp only [surveyIdle, Option.bind_eq_bind, Option.bind_eq_some_iff, Option.pure_def, Option.some.injEq] at hs
    obtain ⟨record, hrecord, idle', hidle', rfl⟩ := hs
    have hrest := surveyIdle_named h (fun a ha => hin a (List.mem_cons_of_mem _ ha)) hidle'
    intro desktop hm
    split at hm
    · exact hrest desktop hm
    · rcases List.mem_cons.1 hm with rfl | hm
      · have hname := h.retainedName (hin assignment List.mem_cons_self) hrecord
        exact hname
      · exact hrest desktop hm

/-- Idle desktops are released one by one, while more than the least number remain. -/
theorem scaleIn_holds (hleast : least ≤ leastReserved policy) :
    ∀ (idle : List NativeDesktop) (remaining : Nat) {s : PoolState π}, Safe provider policy host least s →
      (∀ desktop ∈ idle, desktop.desktopName = desktopNameOf desktop.assignment) → s.releases.values = [] →
      remaining ≤ reserved provider s →
        (scaleIn provider policy host seen idle remaining).Holds (Safe provider policy host least)
          (fun result s' => result = .ok ⟨⟩ → s'.acquisition = s.acquisition ∧ s'.releases.values = []) s
  | [], _, s, h, _, hnone, _ => ⟨h, fun _ => ⟨rfl, hnone⟩⟩
  | desktop :: rest, remaining, s, h, hnamed, hnone, hremaining => by
    have hrest : ∀ desktop ∈ rest, desktop.desktopName = desktopNameOf desktop.assignment :=
      fun desktop hm => hnamed desktop (List.mem_cons_of_mem _ hm)
    unfold scaleIn
    split
    · exact ⟨h, fun _ => ⟨rfl, hnone⟩⟩
    rename_i hmore
    split
    · exact scaleIn_holds hleast rest remaining h hrest hnone hremaining
    split
    · exact scaleIn_holds hleast rest remaining h hrest hnone hremaining
    · rename_i retirement _
      have hspare : leastReserved policy < reserved provider s := by
        unfold leastReserved
        omega
      have hrecorded : Safe provider policy host least { s with
          releases := s.releases.set ⟨"auracall-release-" ++ host.randomUUID s.drawn, desktop, retirement⟩
          drawn := s.drawn + 1 } :=
        ⟨h.1.recordRelease hnone (hnamed desktop List.mem_cons_self) rfl hspare, h.2⟩
      simp only [recordPoolRelease, holds_bind, holds_perform]
      refine ⟨h, hrecorded, (submitRelease_holds hrecorded hleast (KeyedMap.mem_set_self _ _)).imp
        fun result s' h' hq => ?_⟩
      cases result with
      | error e => exact ⟨h', fun he => by cases he⟩
      | ok reply =>
        obtain ⟨hacquisition, hreleases, hone, hretained⟩ := hq reply rfl
        have hnone' : s'.releases.values = [] := by
          have hset := KeyedMap.values_set_of_fresh (m := s.releases) (v :=
            ⟨"auracall-release-" ++ host.randomUUID s.drawn, desktop, retirement⟩) fun other hm => by
              rw [KeyedMap.mem_def, hnone] at hm
              cases hm
          rw [hreleases]
          refine List.filter_eq_nil_iff.2 fun other hm => ?_
          rw [hset, hnone, List.nil_append, List.mem_singleton] at hm
          simp [hm]
        have hreserved : reserved provider { s with
            releases := s.releases.set ⟨"auracall-release-" ++ host.randomUUID s.drawn, desktop, retirement⟩
            drawn := s.drawn + 1 } = reserved provider s := rfl
        cases reply with
        | released =>
          refine (scaleIn_holds hleast rest (remaining - 1) h' hrest hnone' (by omega)).imp fun _ _ _ hq he => ?_
          exact ⟨(hq he).1.trans hacquisition, (hq he).2⟩
        | retained =>
          have hkept := hretained rfl
          refine (scaleIn_holds hleast rest remaining h' hrest hnone' (by omega)).imp fun _ _ _ hq he => ?_
          exact ⟨(hq he).1.trans hacquisition, (hq he).2⟩

theorem shrinkPool_holds {idle : List NativeDesktop} (h : Safe provider policy host least s)
    (hleast : least ≤ leastReserved policy)
    (hnamed : ∀ desktop ∈ idle, desktop.desktopName = desktopNameOf desktop.assignment)
    (hdone : s.releases.values = []) :
    (shrinkPool provider policy host seen idle (reserved provider s)).Holds (Safe provider policy host least)
      (fun result s' => result = .ok ⟨⟩ → s'.acquisition = s.acquisition ∧ s'.releases.values = []) s := by
  unfold shrinkPool
  split
  · exact scaleIn_holds hleast _ _ h (fun desktop hm => hnamed desktop (List.mem_of_mem_drop hm)) hdone le_rfl
  · exact ⟨h, fun _ => ⟨rfl, hdone⟩⟩

theorem growPool_holds {idle : List NativeDesktop} {count : Nat} (h : Safe provider policy host least s)
    (hnone : s.acquisition = none) (hdone : s.releases.values = []) :
    (growPool provider policy host idle count).Holds (Safe provider policy host least)
      (fun result s' => result = .ok ⟨⟩ → s'.acquisition = none ∧ s'.releases.values = []) s := by
  unfold growPool
  split
  · rw [holds_discard]
    refine (acquireAnother_holds h hnone).imp fun result s' _ hq he => ?_
    cases result with
    | error e => cases he
    | ok assignment =>
      obtain ⟨hacquisition, hreleases, -⟩ := hq assignment rfl
      exact ⟨hacquisition, hreleases ▸ hdone⟩
  · exact ⟨h, fun _ => ⟨hnone, hdone⟩⟩

/-- **Maintenance**: wherever it stops the pool is consistent and has the least number of assignments, and at its end,
unless it is deferred, the acquisition and the releases are completed. -/
theorem maintainDesktopPool_holds (h : Safe provider policy host least s) (hleast : least ≤ leastReserved policy) :
    (maintainDesktopPool provider policy host seen).Holds (Safe provider policy host least)
      (fun result s' => ∀ verdict, result = .ok verdict → verdict ≠ .deferred →
        s'.acquisition = none ∧ s'.releases.values = []) s := by
  have hdeferred : ∀ {s : PoolState π}, Safe provider policy host least s →
      (pure .deferred : Script (PoolState π) PoolError MaintenanceVerdict).Holds (Safe provider policy host least)
        (fun result s' => ∀ verdict, result = .ok verdict → verdict ≠ .deferred →
          s'.acquisition = none ∧ s'.releases.values = []) s := by
    intro s h
    refine ⟨h, fun _ he hne => ?_⟩
    cases he
    exact absurd rfl hne
  unfold maintainDesktopPool pendingPoolAcquisition
  rw [holds_bind, holds_look]
  refine ⟨h, h, ?_⟩
  dsimp only
  split
  · exact hdeferred h
  rename_i hclear
  have hnone : s.acquisition = none := by
    simp only [Bool.or_eq_true, not_or, Option.not_isSome_iff_eq_none] at hclear
    exact hclear.2
  rw [holds_bind, holds_look]
  refine ⟨h, h, ?_⟩
  dsimp only
  rw [holds_bind]
  refine (reconcileReleases_holds hleast _ h rfl).imp fun result s₁ h₁ hq => ?_
  cases result with
  | error e => exact ⟨h₁, fun _ he => by cases he⟩
  | ok reconciled =>
    cases reconciled with
    | false => exact hdeferred h₁
    | true =>
      obtain ⟨hacquisition, hdone⟩ := hq rfl
      rw [hnone] at hacquisition
      simp only [Bool.not_true, Bool.false_eq_true, if_false]
      unfold poolState
      rw [holds_bind, holds_look]
      refine ⟨h₁, h₁, ?_⟩
      dsimp only
      split
      · exact ⟨h₁, fun _ _ _ => ⟨hacquisition, hdone⟩⟩
      rw [holds_bind, holds_look]
      refine ⟨h₁, h₁, ?_⟩
      dsimp only
      split
      · exact hdeferred h₁
      rename_i idle hidle
      rw [holds_bind]
      refine (shrinkPool_holds h₁ hleast (surveyIdle_named h₁.1 (fun _ ha => ha) hidle) hdone).imp
        fun result s₂ h₂ hq₂ => ?_
      cases result with
      | error e => exact ⟨h₂, fun _ he => by cases he⟩
      | ok _ =>
        obtain ⟨hacquisition₂, hdone₂⟩ := hq₂ rfl
        dsimp only
        rw [holds_bind]
        refine (growPool_holds h₂ (hacquisition₂.trans hacquisition) hdone₂).imp fun result s₃ h₃ hq₃ => ?_
        cases result with
        | error e => exact ⟨h₃, fun _ he => by cases he⟩
        | ok _ => exact ⟨h₃, fun _ _ _ => hq₃ rfl⟩

/-! ## Runs -/

theorem afterCall_safe {α : Type} {call : Script (PoolState π) PoolError α}
    {Q : Except PoolError α → PoolState π → Prop}
    (h : call.Holds (Safe provider policy host least) Q s) (stopped : Option Nat) :
    Safe provider policy host least (afterCall call stopped s) := by
  cases stopped with
  | none => exact h.run.1
  | some n => exact h.after n

theorem PoolConsistent.step {activity : PoolActivity π} {s' : PoolState π} (h : PoolConsistent provider policy host s)
    (hs : PoolStep provider policy host s activity s') : PoolConsistent provider policy host s' := by
  have hsafe : Safe provider policy host 0 s := ⟨h, Nat.zero_le _⟩
  cases hs with
  | select seen stopped => exact (afterCall_safe (selectPoolDesktop_holds hsafe) stopped).1
  | maintain seen stopped => exact (afterCall_safe (maintainDesktopPool_holds hsafe (Nat.zero_le _)) stopped).1
  | lateAcquisition hk => exact h.acquire hk
  | lateRelease hm => exact h.carryOut hm
  | change hc => exact h.change hc

theorem reachable_consistent (h : (desktopPool provider policy host).Reachable s) :
    PoolConsistent provider policy host s :=
  h.invariant (fun _ h => h.consistent) fun _ _ _ _ h hs => h.step hs

/-- Every assignment of the pool that was granted is recorded. -/
def GrantsRecorded (provider : PoolProvider π) (s : PoolState π) : Prop :=
  ∀ key, ∀ assignment ∈ provider.assignments s.provider, provider.Granted s.provider key assignment.assignmentId →
    ∃ desktop ∈ s.desktops, desktop.assignment.assignmentId = assignment.assignmentId

/-- No assignment that was released is recorded as it was released. -/
def ReleasesForgotten (provider : PoolProvider π) (s : PoolState π) : Prop :=
  ∀ key assignment, provider.Released s.provider key assignment →
    ∀ desktop ∈ s.desktops, desktop.assignment ≠ assignment

theorem PoolConsistent.grantsRecorded (h : PoolConsistent provider policy host s) (hnone : s.acquisition = none) :
    GrantsRecorded provider s := by
  intro key assignment hm hg
  rcases h.recorded key assignment.assignmentId hg ⟨assignment, hm, rfl⟩ with hd | hk
  · exact hd
  · rw [hnone] at hk
    cases hk

theorem PoolConsistent.releasesForgotten (h : PoolConsistent provider policy host s) (hdone : s.releases.values = []) :
    ReleasesForgotten provider s := by
  intro key assignment hr desktop hd he
  obtain ⟨release, hm, -⟩ := h.forgotten key assignment hr desktop hd he
  rw [KeyedMap.mem_def, hdone] at hm
  cases hm

/-- **The pool after a crash.** After any run, wherever its calls have stopped: a selection that ends has every granted
assignment recorded; a maintenance that ends and is not deferred also has every released one forgotten; and wherever a
maintenance stops, it has not taken the pool below the least number of assignments. -/
theorem pool_crash_consistent (h : (desktopPool provider policy host).Reachable s) (seen : PoolObservations) :
    (∀ desktop s', (selectPoolDesktop provider policy host seen).run s = (.ok desktop, s') →
        GrantsRecorded provider s') ∧
      (∀ verdict s', (maintainDesktopPool provider policy host seen).run s = (.ok verdict, s') → verdict ≠ .deferred →
        GrantsRecorded provider s' ∧ ReleasesForgotten provider s') ∧
      ∀ stopped, min (reserved provider s) (leastReserved policy) ≤
        reserved provider (afterCall (maintainDesktopPool provider policy host seen) stopped s) := by
  have hconsistent := reachable_consistent h
  have hsafe : Safe provider policy host 0 s := ⟨hconsistent, Nat.zero_le _⟩
  refine ⟨fun desktop s' hrun => ?_, fun verdict s' hrun hne => ?_, fun stopped => ?_⟩
  · have hselect : (selectPoolDesktop provider policy host seen).Holds _ _ s := selectPoolDesktop_holds hsafe
    obtain ⟨⟨hend, -⟩, hq⟩ := hselect.run
    rw [hrun] at hend hq
    exact hend.grantsRecorded (hq desktop rfl)
  · have hmaintain : (maintainDesktopPool provider policy host seen).Holds _ _ s :=
      maintainDesktopPool_holds hsafe (Nat.zero_le _)
    obtain ⟨⟨hend, -⟩, hq⟩ := hmaintain.run
    rw [hrun] at hend hq
    obtain ⟨hnone, hdone⟩ := hq verdict rfl hne
    exact ⟨hend.grantsRecorded hnone, hend.releasesForgotten hdone⟩
  · exact (afterCall_safe (maintainDesktopPool_holds ⟨hconsistent, min_le_left _ _⟩ (min_le_right _ _)) stopped).2

end Invariant

/-! ## A pool of its own -/

/-- A pool that grants under a key the assignment the key names, and remembers what it has released. -/
structure SamplePool where
  keys : List String
  nodup : keys.Nodup
  releases : List (String × RemoteViewAssignment)

namespace SamplePool

def assignmentOf (key : String) : RemoteViewAssignment := ⟨key, key, 1, 1⟩

def assignments (p : SamplePool) : List RemoteViewAssignment :=
  (p.keys.filter fun key => p.releases.all fun entry => entry.2.assignmentId != key).map assignmentOf

def acquire (p : SamplePool) (key : String) : Option RemoteViewAssignment × SamplePool :=
  (if p.releases.all fun entry => entry.2.assignmentId != key then some (assignmentOf key) else none,
    ⟨p.keys.insert key, p.nodup.insert, p.releases⟩)

def releaseIdle (p : SamplePool) (a : RemoteViewAssignment) (key : String) : Option ReleaseResult × SamplePool :=
  if (key, a) ∈ p.releases then (some .released, p)
  else if a ∈ p.assignments then (some .released, { p with releases := (key, a) :: p.releases })
  else (none, p)

theorem mem_assignments {p : SamplePool} {a : RemoteViewAssignment} :
    a ∈ p.assignments ↔ a = assignmentOf a.assignmentId ∧ a.assignmentId ∈ p.keys ∧
      ∀ entry ∈ p.releases, entry.2.assignmentId ≠ a.assignmentId := by
  simp only [assignments, List.mem_map, List.mem_filter, List.all_eq_true, bne_iff_ne]
  constructor
  · rintro ⟨key, hkey, rfl⟩
    exact ⟨rfl, hkey⟩
  · rintro ⟨heq, hkey⟩
    exact ⟨a.assignmentId, hkey, heq.symm⟩

theorem mem_releases {p : SamplePool} {a b : RemoteViewAssignment} {key key' : String} :
    (key', b) ∈ (p.releaseIdle a key).2.releases ↔
      (key', b) ∈ p.releases ∨ (key' = key ∧ b = a) ∧ a ∈ p.assignments := by
  unfold releaseIdle
  split
  · grind
  · split <;> grind

end SamplePool

/-- The sample pool meets what is asked of a provider. -/
def samplePool : PoolProvider SamplePool where
  assignments := SamplePool.assignments
  acquire := SamplePool.acquire
  releaseIdle p a _ key := p.releaseIdle a key
  Granted p key id := id = key ∧ key ∈ p.keys
  Released p key a := (key, a) ∈ p.releases
  desktopOf id := id
  generationOf _ := 1
  identity hm := by
    rw [(SamplePool.mem_assignments.1 hm).1]
    exact ⟨rfl, rfl⟩
  distinct p := by
    have hnodup := p.nodup.filter fun key => p.releases.all fun entry => entry.2.assignmentId != key
    simp only [SamplePool.assignments, List.map_map]
    exact ⟨hnodup.map fun _ _ h => h, hnodup.map fun _ _ h => h⟩
  released_gone hr hm := fun he => (SamplePool.mem_assignments.1 hm).2.2 _ hr he.symm
  granted_unique h h' := h.1.trans h'.1.symm
  granted_key h h' := h.1.symm.trans h'.1
  acquire_granted h := (List.mem_insert_iff.1 h.2).symm.imp (fun hm => ⟨h.1, hm⟩) id
  acquire_keeps hm :=
    have h := SamplePool.mem_assignments.1 hm
    SamplePool.mem_assignments.2 ⟨h.1, List.mem_insert_of_mem h.2.1, h.2.2⟩
  acquire_new hm := by
    obtain ⟨heq, hkey, hkept⟩ := SamplePool.mem_assignments.1 hm
    rcases List.mem_insert_iff.1 hkey with hnew | hold
    · exact .inr ⟨hnew, List.mem_insert_self⟩
    · exact .inl (SamplePool.mem_assignments.2 ⟨heq, hold, hkept⟩)
  acquire_reply h := by
    simp only [SamplePool.acquire, Option.ite_none_right_eq_some, List.all_eq_true, bne_iff_ne] at h
    obtain ⟨hkept, hsome⟩ := h
    cases hsome
    exact ⟨SamplePool.mem_assignments.2 ⟨rfl, List.mem_insert_self, hkept⟩, rfl, List.mem_insert_self⟩
  acquire_released := Iff.rfl
  release_granted := by
    intro p a _ key key' id
    have hkeys : (p.releaseIdle a key).2.keys = p.keys := by
      unfold SamplePool.releaseIdle
      split
      · rfl
      · split <;> rfl
    rw [hkeys]
  release_released h := (SamplePool.mem_releases.1 h).imp_right (·.1)
  release_keeps h := SamplePool.mem_releases.2 (.inl h)
  release_assignments := by
    intro p a _ key
    unfold SamplePool.releaseIdle
    split
    · exact .inl rfl
    · split
      · refine .inr ⟨?_, List.mem_cons_self⟩
        simp only [SamplePool.assignments, List.filter_map, List.filter_filter, List.all_cons]
        refine congrArg _ (List.filter_congr fun key' _ => ?_)
        simp [SamplePool.assignmentOf, bne, Bool.beq_comm, eq_comm, beq_eq_decide]
      · exact .inl rfl
  release_reply := by
    intro p a _ key h
    unfold SamplePool.releaseIdle at h ⊢
    split
    · assumption
    · rename_i hnew
      rw [if_neg hnew] at h
      split
      · exact List.mem_cons_self
      · rename_i hgone
        rw [if_neg hgone] at h
        cases h
  release_retained := by
    intro p a _ key _ h
    unfold SamplePool.releaseIdle at h
    split at h
    · cases h
    · split at h <;> cases h

def sampleHost : PoolHost where
  randomUUID n := String.ofList (List.replicate n 'x')
  localeAtMost a b := a ≤ b
  randomUUID_injective n m h := by
    have hlength := congrArg String.length h
    simpa using hlength

def samplePolicy : PoolPolicy := ⟨1, 3, true⟩

/-- Every desktop has so many windows, and is idle when it has none. -/
def sampleObservations (windows : Nat) : PoolObservations where
  otherOperations := false
  reconcileReferenced _ := false
  surveyReferenced _ := false
  surveyWindows _ := windows
  surveyIdle a := if windows = 0 then some ⟨a.desktopId, a.generation, [], []⟩ else none
  windowsAgain _ := windows
  referencedAgain _ := false
  idleAgain a := if windows = 0 then some ⟨a.desktopId, a.generation, [], []⟩ else none

def sampleEmpty : PoolState SamplePool := ⟨⟨[], List.nodup_nil, []⟩, .empty, none, .empty, 0⟩

/-- The first desktop is acquired, then a second one, as the first is in use. -/
def sampleTwo : PoolState SamplePool :=
  afterCall (selectPoolDesktop samplePool samplePolicy sampleHost (sampleObservations 1)) none
    (afterCall (selectPoolDesktop samplePool samplePolicy sampleHost (sampleObservations 1)) none sampleEmpty)

/-- Both are idle, and maintenance stops when the second one is released. -/
def sampleCrashed : PoolState SamplePool :=
  afterCall (maintainDesktopPool samplePool samplePolicy sampleHost (sampleObservations 0)) (some 6) sampleTwo

theorem reachable_sampleCrashed : (desktopPool samplePool samplePolicy sampleHost).Reachable sampleCrashed := by
  have hempty : PoolInit samplePool sampleEmpty := ⟨rfl, rfl, rfl, fun _ _ h => (nomatch h.2), fun _ _ h => (nomatch h)⟩
  have hone := (TransitionSystem.Reachable.init (T := desktopPool samplePool samplePolicy sampleHost) hempty).step
    (PoolStep.select (sampleObservations 1) none)
  have htwo := hone.step (PoolStep.select (sampleObservations 1) none)
  exact htwo.step (PoolStep.maintain (sampleObservations 0) (some 6))

/-- The next maintenance forgets the desktop that was released. -/
theorem maintain_after_crash :
    GrantsRecorded samplePool
        (afterCall (maintainDesktopPool samplePool samplePolicy sampleHost (sampleObservations 0)) none sampleCrashed) ∧
      ReleasesForgotten samplePool
        (afterCall (maintainDesktopPool samplePool samplePolicy sampleHost (sampleObservations 0)) none sampleCrashed) ∧
      1 ≤ reserved samplePool
        (afterCall (maintainDesktopPool samplePool samplePolicy sampleHost (sampleObservations 0)) (some 4)
          sampleCrashed) := by
  obtain ⟨-, hmaintained, hleast⟩ := pool_crash_consistent reachable_sampleCrashed (sampleObservations 0)
  have hready : ((maintainDesktopPool samplePool samplePolicy sampleHost (sampleObservations 0)).run
      sampleCrashed).1 = .ok .ready := by decide +kernel
  obtain ⟨hgrants, hreleases⟩ := hmaintained .ready _ (Prod.ext hready rfl) (by decide)
  refine ⟨hgrants, hreleases, le_trans ?_ (hleast (some 4))⟩
  decide +kernel

/-- A selection that ends leaves the desktop recorded. -/
theorem selection_leaves_released :
    (desktopPool samplePool samplePolicy sampleHost).Reachable sampleCrashed ∧
      (∃ desktop, ((selectPoolDesktop samplePool samplePolicy sampleHost (sampleObservations 0)).run
        sampleCrashed).1 = .ok desktop) ∧
      ¬ReleasesForgotten samplePool (afterCall
        (selectPoolDesktop samplePool samplePolicy sampleHost (sampleObservations 0)) none sampleCrashed) := by
  refine ⟨reachable_sampleCrashed, ⟨⟨"desktop-auracall-pool-x", SamplePool.assignmentOf "auracall-pool-x"⟩, ?_⟩,
    fun h => ?_⟩
  · decide +kernel
  · refine h "auracall-release-xx" (SamplePool.assignmentOf "auracall-pool-") ?_
      ⟨"desktop-auracall-pool-", SamplePool.assignmentOf "auracall-pool-"⟩ ?_ rfl
    · show (_, _) ∈ SamplePool.releases _
      decide +kernel
    · rw [KeyedMap.mem_def]
      decide +kernel

end AuraCall.Desktop
