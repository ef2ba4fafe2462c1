import AuraCall.Desktop.ControlGrants

/-!
# Recovering a takeover

What a release finds after a crash decides whether it ends the claim (`ControlState.Recoverable`): the lock of the store
must be free, and the receipt must still have its gate, with a free transition, or be gone behind a record of its
release. A take that crashes between writing the receipt and publishing the owner of the gate leaves a receipt that
neither the release nor the take of its token accepts, and so does a release that crashes after it has freed the gate.
-/

namespace AuraCall.Desktop

open Script TransitionSystem

variable {π : Type} {provider : GrantProvider π} {ok : π → Prop} {host : ControlHost} {s s' : ControlState π}
  {caller : Caller} {request : ControlRequest} {browser : NativeBrowser} {receipt : Receipt}

/-! ## What is released and what can be -/

/-- Nothing is left of a claim: no receipt, no human at a gate, no grant that can be used. -/
structure Released (provider : GrantProvider π) (s : ControlState π) : Prop where
  receipt : s.receipt = none
  gates : ∀ d, (s.gates d).directory.isHuman = false
  grants : ∀ entry ∈ s.sent, provider.Terminal s.provider entry.1

/-- There is a record of the release of the token. -/
def ControlState.WasReleased (s : ControlState π) (browserId token : String) : Prop :=
  ∃ receipt, s.released.find? (·.token = token) = some receipt ∧ receipt.browserId = browserId ∧ receipt.revoked = true

/-- The receipt is that of the request and has its gate, whose transition is free; or it is gone behind a record. -/
def ControlState.Claimed (s : ControlState π) (request : ControlRequest) (browser : NativeBrowser) : Prop :=
  match s.receipt with
  | none => s.WasReleased request.browserId request.token
  | some receipt => receipt.token = request.token ∧ receipt.browserId = request.browserId ∧
      s.ControlledBy browser.desktopId receipt.token receipt.binding ∧ s.TransitionFree browser.desktopId

/-- The condition under which a release ends a claim. -/
def ControlState.Recoverable (s : ControlState π) (request : ControlRequest) (browser : NativeBrowser) : Prop :=
  s.LockFree ∧ s.Claimed request browser

/-- What `wasReleased` looks for. -/
theorem wasReleased_iff {browserId token : String} :
    ((s.released.find? (·.token = token)).any fun receipt => receipt.browserId = browserId ∧ receipt.revoked) = true ↔
      s.WasReleased browserId token := by
  unfold ControlState.WasReleased
  cases s.released.find? (·.token = token) <;> simp

theorem ControlInv.released (hi : ControlInv provider host s) (hreceipt : s.receipt = none) : Released provider s where
  receipt := hreceipt
  gates := hi.no_human hreceipt
  grants entry hentry :=
    hi.terminal _ (hi.all_proved (fun r hr => by rw [hreceipt] at hr; cases hr) entry hentry)

theorem claimed_congr (h : beyondLock s' = beyondLock s) : s'.Claimed request browser ↔ s.Claimed request browser := by
  simp only [beyondLock, Prod.mk.injEq] at h
  simp only [ControlState.Claimed, ControlState.WasReleased, ControlState.ControlledBy, ControlState.TransitionFree,
    ControlState.Dead, h]

/-! ## A provider that is reached -/

/-- The first attempt to end the grant succeeds, or it shows that the grant was over. -/
theorem attemptRevocation_reached (hreached : provider.Reached ok) (hok : ok s.provider)
    (hi : ControlInv provider host s) (hr : s.receipt = some receipt) :
    (attemptRevocation provider browser receipt).Holds (fun _ => True) (fun r s' => ∃ attempt, r = .ok attempt ∧
      ok s'.provider ∧ attempt.1.issuanceKey = receipt.issuanceKey ∧
        (attempt.2 = .ok () ∨ provider.Terminal s'.provider receipt.issuanceKey)) s := by
  unfold attemptRevocation
  cases hroute : receipt.routeId.filter (· != "") with
  | some routeId =>
    have hgrant := hi.route receipt hr routeId (Option.eq_some_of_filter_eq_some hroute)
    obtain ⟨hok', hover⟩ := hreached.revoke hok hgrant
    simp only
    rw [holds_bind, revokeEmbed_holds]
    exact ⟨trivial, trivial, trivial, _, rfl, hok', rfl, hover⟩
  | none =>
    simp only
    rw [holds_bind, issueEmbed_holds]
    refine ⟨trivial, trivial, ?_⟩
    have hissue : ok (provider.issueEmbed s.provider browser receipt.issuanceKey).2 ∧ _ := hreached.issue hok
    obtain ⟨hok', ⟨grant, hanswer⟩ | hanswer⟩ := hissue
    · have hgrant := provider.isGrant_of_issue hanswer
      obtain ⟨hok'', hover⟩ := hreached.revoke hok' hgrant
      simp only [hanswer]
      rw [holds_bind, writeReceipt, holds_change]
      refine ⟨trivial, trivial, ?_⟩
      simp only
      rw [holds_bind, revokeEmbed_holds]
      exact ⟨trivial, trivial, trivial, _, rfl, hok'', rfl, hover⟩
    · have hover := provider.terminal_of_unavailable hanswer
      simp only [hanswer]
      exact ⟨trivial, _, rfl, hok', rfl, .inr hover⟩

/-- **A provider that is reached ends the grant.** -/
theorem revokeGrant_reached (hreached : provider.Reached ok) (hok : ok s.provider) (hi : ControlInv provider host s)
    (hr : s.receipt = some receipt) :
    (revokeGrant provider browser receipt).Holds (fun _ => True) (fun r _ => ∃ receipt', r = .ok receipt') s := by
  have hwrite : ∀ (receipt : Receipt) (s : ControlState π),
      (do writeReceipt receipt; pure receipt : ControlScript π Receipt).Holds (fun _ => True)
        (fun r _ => ∃ receipt', r = .ok receipt') s := fun receipt _ => ⟨trivial, trivial, receipt, rfl⟩
  unfold revokeGrant
  split
  · exact ⟨trivial, _, rfl⟩
  · rw [holds_bind]
    refine (attemptRevocation_reached hreached hok hi hr).imp fun r s' _ h => ?_
    obtain ⟨⟨receipt', outcome⟩, rfl, hok', hkey, hover⟩ := h
    simp only at hkey hover ⊢
    rw [holds_bind]
    cases outcome with
    | ok _ => exact ⟨trivial, hwrite _ _⟩
    | error revokeError =>
      have hterminal : provider.Terminal s'.provider receipt'.issuanceKey := by
        rcases hover with h | h
        · cases h
        · exact hkey ▸ h
      unfold proveRevocation
      rw [holds_bind, issueEmbed_holds, hreached.unavailable hok' hterminal]
      exact ⟨trivial, trivial, trivial, hwrite _ _⟩

/-! ## What a release needs -/

/-- A release that has found its receipt ends exactly when the gate is there and its transition is free. -/
theorem releaseClaim_result (hreached : provider.Reached ok) (hok : ok s.provider) (hi : ControlInv provider host s)
    (hboot : caller.process.boot = s.boot) (hr : s.receipt = some receipt) (htoken : receipt.token ≠ "")
    (hbinding : receipt.binding = host.generation browser) :
    (releaseClaim provider host caller browser receipt).Holds (fun _ => True) (fun r _ =>
      match r with
      | .ok _ => s.ControlledBy browser.desktopId receipt.token receipt.binding ∧ s.TransitionFree browser.desktopId
      | .error _ =>
        ¬ (s.ControlledBy browser.desktopId receipt.token receipt.binding ∧ s.TransitionFree browser.desktopId)) s := by
  have hne : host.generation browser ≠ "" := host.generation_ne browser
  unfold releaseClaim
  rw [holds_bind, hbinding]
  refine (assertControl_holds trivial).imp fun r s' _ h => ?_
  obtain ⟨rfl, hasserted⟩ := h
  cases r with
  | error => exact ⟨trivial, fun h => hasserted htoken hne h.1⟩
  | ok _ =>
    have hcontrol : s'.ControlledBy browser.desktopId receipt.token receipt.binding := hbinding ▸ hasserted
    simp only
    rw [holds_bind]
    have hrevoke := ((revokeGrant_holds hi hr hcontrol).mono fun _ _ => trivial).and
      (revokeGrant_reached hreached hok hi hr)
    refine (keeps_revokeGrant.holds hrevoke).imp fun r s₁ _ h₁ => ?_
    obtain ⟨⟨hclaim, receipt', rfl⟩, hframe⟩ := h₁
    simp only [Prod.mk.injEq] at hframe
    obtain ⟨hboot₁, hcrashed, -, hgates⟩ := hframe
    obtain ⟨-, hsame, -⟩ := hclaim receipt' rfl
    simp only
    rw [holds_bind]
    refine ((releaseControl_holds (hboot.trans hboot₁.symm)).mono fun _ _ => trivial).imp fun r s₂ _ h₂ => ?_
    cases r with
    | ok _ =>
      obtain ⟨hfree, -⟩ := h₂
      have hfree' : s'.TransitionFree browser.desktopId := by
        simpa only [ControlState.TransitionFree, ControlState.Dead, hboot₁, hcrashed, hgates] using hfree
      exact ⟨trivial, trivial, trivial, hasserted, hfree'⟩
    | error =>
      obtain ⟨-, hstuck⟩ := h₂
      refine ⟨trivial, fun h => ?_⟩
      refine hstuck (hsame.token ▸ htoken) hne ?_ ?_
      · simpa only [ControlState.TransitionFree, ControlState.Dead, hboot₁, hcrashed, hgates] using h.2
      · simpa only [ControlState.ControlledBy, hgates, hsame.token] using h.1

/-- **What a release needs of the files**, once it has the lock. -/
theorem releaseExclusive_result (hreached : provider.Reached ok) (hok : ok s.provider)
    (hi : ControlInv provider host s) (hboot : caller.process.boot = s.boot) (huuid : host.isUuid request.token = true)
    {browsers : List NativeBrowser} (hready : request.ready = .ok browsers)
    (hbrowser : browsers.filter (·.browserId = request.browserId) = [browser])
    (hbinding : ∀ receipt, s.receipt = some receipt → receipt.token = request.token →
      receipt.browserId = request.browserId → receipt.binding = host.generation browser) :
    (releaseExclusive provider host caller request).Holds (fun _ => True) (fun r s' =>
      match r with
      | .ok _ => s.Claimed request browser ∧ s'.receipt = none
      | .error _ => ¬ s.Claimed request browser) s := by
  unfold releaseExclusive readReceipt selectBrowser
  rw [holds_bind, holds_look]
  refine ⟨trivial, trivial, ?_⟩
  cases hr : s.receipt with
  | none =>
    have hclaimed : s.Claimed request browser ↔ s.WasReleased request.browserId request.token := by
      simp only [ControlState.Claimed, hr]
    simp only
    rw [holds_bind, wasReleased, holds_look, if_pos huuid]
    refine ⟨trivial, trivial, ?_⟩
    simp only
    split
    · rename_i hfound
      exact ⟨trivial, hclaimed.2 (wasReleased_iff.1 hfound), hr⟩
    · rename_i hfound
      rw [holds_bind, holds_ofExcept, hready]
      simp only [hbrowser]
      exact ⟨trivial, trivial, fun h => hfound (wasReleased_iff.2 (hclaimed.1 h))⟩
  | some receipt =>
    simp only
    rw [holds_bind, holds_ofExcept, hready]
    simp only [hbrowser]
    refine ⟨trivial, ?_⟩
    have hclaimed : s.Claimed request browser ↔ receipt.token = request.token ∧ receipt.browserId = request.browserId ∧
        s.ControlledBy browser.desktopId receipt.token receipt.binding ∧ s.TransitionFree browser.desktopId := by
      simp only [ControlState.Claimed, hr]
    rw [hclaimed]
    split
    · rename_i hmatches
      obtain ⟨htoken, hid, hsame⟩ := of_decide_eq_true hmatches
      have hempty : receipt.token ≠ "" := htoken ▸ host.isUuid_ne _ huuid
      refine (((releaseClaim_holds hi hboot hr hsame).mono fun _ _ => trivial).and
        (releaseClaim_result hreached hok hi hboot hr hempty hsame)).imp fun r s' _ h => ?_
      obtain ⟨hgone, hneeds⟩ := h
      cases r with
      | ok _ => exact ⟨⟨htoken, hid, hneeds⟩, (hgone _ rfl).1⟩
      | error _ => exact fun h => hneeds h.2.2
    · rename_i hmatches
      refine ⟨trivial, fun h => hmatches ?_⟩
      exact decide_eq_true ⟨h.1, h.2.1, hbinding receipt hr h.1 h.2.1⟩

/-- What a release leads to. -/
def Recovers (request : ControlRequest) (browser : NativeBrowser) (s : ControlState π) (r : Except ControlError PUnit)
    (s' : ControlState π) : Prop :=
  match r with
  | .ok _ => s.Recoverable request browser ∧ s'.receipt = none
  | .error _ => ¬ s.Recoverable request browser

/-- **A release ends a claim exactly when it can be recovered**: after every sequence of calls and crashes, with the
provider reached and the browser as it was. -/
theorem release_recovers (hreached : provider.Reached ok) (hs : (controlSystem provider host).Reachable s)
    (hok : ok s.provider) (hruns : s.Runs caller.process) (huuid : host.isUuid request.token = true)
    {browsers : List NativeBrowser} (hready : request.ready = .ok browsers)
    (hbrowser : browsers.filter (·.browserId = request.browserId) = [browser])
    (hbinding : ∀ receipt, s.receipt = some receipt → receipt.token = request.token →
      receipt.browserId = request.browserId → receipt.binding = host.generation browser) :
    (((release provider host caller request).run s).1 = .ok ⟨⟩ ∧
        Released provider ((release provider host caller request).run s).2) ↔
      s.Recoverable request browser := by
  have hi := controlInv_reachable hs
  have hresult : (release provider host caller request).Holds (fun _ => True) (Recovers request browser s) s := by
    refine exclusive_holds (fun _ _ _ _ => trivial) (fun r s₁ s₂ hbeyond h => ?_) trivial
      (keeps_releaseExclusive request) (fun hfree s₁ hbeyond => ?_) fun hbusy _ _ _ h => hbusy h.1
    · cases r with
      | ok _ =>
        simp only [beyondLock, Prod.mk.injEq] at hbeyond
        exact ⟨h.1, hbeyond.2.2.1.trans h.2⟩
      | error _ => exact h
    · have hi₁ := hi.congr (grantState_of_beyondLock hbeyond)
      have hsame := hbeyond
      simp only [beyondLock, Prod.mk.injEq] at hsame
      obtain ⟨hboot, -, hreceipt, -, -, hprovider, -⟩ := hsame
      refine (releaseExclusive_result hreached (hprovider ▸ hok) hi₁ (hruns.1.trans hboot.symm) huuid hready hbrowser
        ?_).imp fun r s₂ _ h => ?_
      · rw [hreceipt]
        exact hbinding
      · rw [claimed_congr hbeyond] at h
        cases r with
        | ok _ => exact ⟨⟨hfree, h.1⟩, h.2⟩
        | error _ => exact fun hrecoverable => h hrecoverable.2
  obtain ⟨-, hend⟩ := hresult.run
  cases hrun : ((release provider host caller request).run s).1 with
  | error _ =>
    rw [hrun] at hend
    exact ⟨fun h => absurd h.1 (by simp), fun h => absurd h hend⟩
  | ok _ =>
    rw [hrun] at hend
    refine ⟨fun _ => hend.1, fun _ => ⟨rfl, ?_⟩⟩
    exact (release_holds hi hruns.1 request).run.1.released hend.2

theorem listProvider_reached : listProvider.Reached fun _ => True where
  issue {ended _ key} _ := by
    refine ⟨trivial, ?_⟩
    by_cases hover : key ∈ ended
    · exact .inr (by simp only [listProvider, hover, if_true])
    · exact .inl ⟨⟨"https://view/" ++ key, key⟩, by simp only [listProvider, hover, if_false]⟩
  unavailable {ended _ key} _ h := by
    have hover : key ∈ ended := h
    simp only [listProvider, hover, if_true]
  revoke _ _ := ⟨trivial, .inl rfl⟩

/-- A take crashes after it has asked for the grant; another process releases its claim. -/
theorem askedGrant_recovers :
    ∃ s, (controlSystem listProvider markingHost).Reachable s ∧ s.sent = [("key-1", "office")] ∧
      ((release listProvider markingHost ⟨2, ⟨0, 8⟩⟩ viewerRequest).run s).1 = .ok ⟨⟩ ∧
        Released listProvider ((release listProvider markingHost ⟨2, ⟨0, 8⟩⟩ viewerRequest).run s).2 := by
  have hinit : (controlSystem listProvider markingHost).Reachable (.new []) := .init ⟨[], rfl⟩
  have hs : (controlSystem listProvider markingHost).Reachable
      ((execute (ControlState.next listProvider markingHost) (.new [])
        [.take ⟨1, ⟨0, 7⟩⟩ viewerRequest (some 11)]).get (by decide +kernel)) := reachable_get hinit _
  generalize hstate : (execute _ _ _).get _ = s at hs
  have hreceipt : s.receipt = some ⟨viewerRequest.token, "chrome-1", markingHost.generation officeBrowser, "key-1", none,
      false, some 120000⟩ := by rw [← hstate]; decide +kernel
  have hcontrolled : s.ControlledBy "office" viewerRequest.token (markingHost.generation officeBrowser) :=
    ⟨⟨viewerRequest.token, .human, markingHost.generation officeBrowser, ⟨0, 7⟩⟩, by rw [← hstate]; decide +kernel, rfl,
      rfl, rfl⟩
  have htransition : (s.gates "office").transition = none := by rw [← hstate]; decide +kernel
  refine ⟨s, hs, by rw [← hstate]; decide +kernel, (release_recovers listProvider_reached hs trivial
    (by rw [← hstate]; decide +kernel) (by decide +kernel) rfl (by decide +kernel : _ = [officeBrowser])
    (fun receipt hr _ _ => ?_)).2 ⟨.inr ⟨⟨1, ⟨0, 7⟩⟩, ?_, ?_, ?_⟩, ?_⟩⟩
  · cases hreceipt.symm.trans hr
    rfl
  · rw [← hstate]
    decide +kernel
  · rw [← hstate]
    decide +kernel
  · rw [← hstate]
    decide +kernel
  · unfold ControlState.Claimed
    rw [hreceipt]
    refine ⟨rfl, rfl, hcontrolled, ?_⟩
    unfold ControlState.TransitionFree
    rw [show officeBrowser.desktopId = "office" from rfl, htransition]
    trivial

/-- A take crashes when it has written its receipt and not yet made the gate: then its token cannot be released. -/
theorem abandoned_receipt :
    ¬ ∀ s, (∃ crash, s = (ControlState.new []).perform ⟨1, ⟨0, 7⟩⟩
        (take listProvider markingHost ⟨1, ⟨0, 7⟩⟩ viewerRequest) (some crash)) → s.receipt.isSome = true →
      ((release listProvider markingHost ⟨2, ⟨0, 8⟩⟩ viewerRequest).run s).1 = .ok ⟨⟩ ∧
        Released listProvider ((release listProvider markingHost ⟨2, ⟨0, 8⟩⟩ viewerRequest).run s).2 := by
  intro h
  have hreleased := (h _ ⟨4, rfl⟩ (by decide +kernel)).2.receipt
  exact absurd hreleased (by decide +kernel)

end AuraCall.Desktop
