import AuraCall.Desktop.ControlSteps
import AuraCall.Lib.FieldText

/-!
# No grant without the gate

A control grant that was asked for and is not proved to be over belongs to the receipt that is there, and the human of
that receipt has the gate. This holds between any two actions of `take` and `release` (`ControlInv`), whatever the
provider answers and wherever a call crashes; so it holds of every state of every sequence of calls.
-/

namespace AuraCall.Desktop

open Script TransitionSystem

variable {π : Type} {provider : GrantProvider π} {host : ControlHost} {s s' : ControlState π} {caller : Caller}
  {d : String}

/-! ## The invariant -/

/-- Grants that are not proved to be over are those of the receipt, under its gate; proofs are right; and a human who has
a gate has the receipt of its desktop. -/
structure ControlInv (provider : GrantProvider π) (host : ControlHost) (s : ControlState π) : Prop where
  held : ∀ entry ∈ s.sent, entry.1 ∈ s.proved ∨ ∃ receipt, s.receipt = some receipt ∧ receipt.issuanceKey = entry.1 ∧
    s.ControlledBy entry.2 receipt.token receipt.binding
  terminal : ∀ key ∈ s.proved, provider.Terminal s.provider key
  route : ∀ receipt, s.receipt = some receipt → ∀ routeId, receipt.routeId = some routeId →
    provider.IsGrant s.provider receipt.issuanceKey routeId
  revoked : ∀ receipt, s.receipt = some receipt → receipt.revoked = true → receipt.issuanceKey ∈ s.proved
  human : ∀ d owner, (s.gates d).directory = .published owner → owner.role = .human →
    ∃ receipt, s.receipt = some receipt ∧ receipt.token = owner.id ∧ receipt.binding = owner.binding ∧
      ∃ browser, owner.binding = host.generation browser ∧ browser.desktopId = d

/-- What the invariant looks at. -/
def grantState (s : ControlState π) :=
  (s.receipt, (fun d => (s.gates d).directory), s.provider, s.sent, s.proved)

theorem ControlInv.congr (hi : ControlInv provider host s) (h : grantState s' = grantState s) :
    ControlInv provider host s' := by
  simp only [grantState, Prod.mk.injEq] at h
  obtain ⟨hreceipt, hdirectory, hprovider, hsent, hproved⟩ := h
  have hgate : ∀ d, (s'.gates d).directory = (s.gates d).directory := congrFun hdirectory
  refine ⟨?_, ?_, ?_, ?_, ?_⟩
  · simp only [hsent, hproved, hreceipt, ControlState.ControlledBy, hgate]
    exact hi.held
  · rw [hproved, hprovider]
    exact hi.terminal
  · rw [hreceipt, hprovider]
    exact hi.route
  · rw [hreceipt, hproved]
    exact hi.revoked
  · simp only [hgate, hreceipt]
    exact hi.human

theorem grantState_of_beyondLock (h : beyondLock s' = beyondLock s) : grantState s' = grantState s := by
  simp only [beyondLock, Prod.mk.injEq] at h
  simp only [grantState, h]

/-- What stays when only one gate changes. -/
structure Beside (d : String) (s s' : ControlState π) : Prop where
  receipt : s'.receipt = s.receipt
  released : s'.released = s.released
  provider : s'.provider = s.provider
  sent : s'.sent = s.sent
  proved : s'.proved = s.proved
  directory : ∀ d', d' ≠ d → (s'.gates d').directory = (s.gates d').directory

theorem beside_of_besideGate (h : besideGate d s' = besideGate d s) : Beside d s s' := by
  simp only [besideGate, Prod.mk.injEq] at h
  obtain ⟨-, -, -, -, hreceipt, hreleased, hdirectory, hprovider, hsent, hproved⟩ := h
  refine ⟨hreceipt, hreleased, hprovider, hsent, hproved, fun d' hne => ?_⟩
  have hsame := congrFun hdirectory d'
  simpa [hne] using hsame

/-! ## The invariant at each action -/

/-- With the grant of the receipt proved to be over, all grants are. -/
theorem ControlInv.all_proved (hi : ControlInv provider host s)
    (h : ∀ receipt, s.receipt = some receipt → receipt.issuanceKey ∈ s.proved) :
    ∀ entry ∈ s.sent, entry.1 ∈ s.proved := by
  intro entry hentry
  rcases hi.held entry hentry with hproved | ⟨receipt, hreceipt, hkey, -⟩
  · exact hproved
  · exact hkey ▸ h receipt hreceipt

theorem ControlInv.no_human (hi : ControlInv provider host s) (hreceipt : s.receipt = none) (d : String) :
    (s.gates d).directory.isHuman = false := by
  rw [← Bool.not_eq_true]
  intro hhuman
  cases hdirectory : (s.gates d).directory with
  | absent | unpublished => rw [hdirectory] at hhuman; cases hhuman
  | published owner =>
    rw [hdirectory] at hhuman
    obtain ⟨receipt, hsome, -⟩ := hi.human d owner hdirectory (of_decide_eq_true hhuman)
    rw [hreceipt] at hsome
    cases hsome

/-- A new receipt is written, with a key that was never used. -/
theorem ControlInv.write_new (hi : ControlInv provider host s) (hnone : s.receipt = none) (receipt : Receipt)
    (hroute : receipt.routeId = none) (hrevoked : receipt.revoked = false) :
    ControlInv provider host { s with receipt := some receipt } where
  held entry hentry := .inl (hi.all_proved (fun r hr => by rw [hnone] at hr; cases hr) entry hentry)
  terminal := hi.terminal
  route r hr routeId hid := by
    cases hr
    rw [hroute] at hid
    cases hid
  revoked r hr htrue := by
    cases hr
    rw [hrevoked] at htrue
    cases htrue
  human d owner hdirectory hrole := by
    have hfree := hi.no_human hnone d
    rw [hdirectory] at hfree
    exact absurd hrole (of_decide_eq_false hfree)

/-- The receipt is written again, for the same grant and the same gate. -/
theorem ControlInv.rewrite (hi : ControlInv provider host s) {receipt : Receipt} (hr : s.receipt = some receipt)
    (receipt' : Receipt) (hkey : receipt'.issuanceKey = receipt.issuanceKey) (htoken : receipt'.token = receipt.token)
    (hbinding : receipt'.binding = receipt.binding)
    (hroute : ∀ routeId, receipt'.routeId = some routeId → provider.IsGrant s.provider receipt.issuanceKey routeId)
    (hrevoked : receipt'.revoked = true → receipt.issuanceKey ∈ s.proved) :
    ControlInv provider host { s with receipt := some receipt' } where
  held entry hentry := by
    rcases hi.held entry hentry with hproved | ⟨r, hr', hk, hcontrol⟩
    · exact .inl hproved
    · cases hr.symm.trans hr'
      exact .inr ⟨receipt', rfl, hkey.trans hk, by rw [htoken, hbinding]; exact hcontrol⟩
  terminal := hi.terminal
  route r hr' := by
    cases hr'
    rw [hkey]
    exact hroute
  revoked r hr' := by
    cases hr'
    rw [hkey]
    exact hrevoked
  human d owner hdirectory hrole := by
    obtain ⟨r, hr', hid, hb, hbrowser⟩ := hi.human d owner hdirectory hrole
    cases hr.symm.trans hr'
    exact ⟨receipt', rfl, htoken.trans hid, hbinding.trans hb, hbrowser⟩

/-- The receipt is removed when its grant is over and no human has a gate. -/
theorem ControlInv.remove (hi : ControlInv provider host s)
    (hproved : ∀ entry ∈ s.sent, entry.1 ∈ s.proved) (hfree : ∀ d, (s.gates d).directory.isHuman = false) :
    ControlInv provider host { s with receipt := none } where
  held entry hentry := .inl (hproved entry hentry)
  terminal := hi.terminal
  route := nofun
  revoked := nofun
  human d owner hdirectory hrole := by
    have hnot := hfree d
    rw [hdirectory] at hnot
    exact absurd hrole (of_decide_eq_false hnot)

/-- One gate changes while all grants are over. -/
theorem ControlInv.gate (hi : ControlInv provider host s) (hproved : ∀ entry ∈ s.sent, entry.1 ∈ s.proved)
    (hbeside : Beside d s s')
    (hhuman : ∀ owner, (s'.gates d).directory = .published owner → owner.role = .human →
      ∃ receipt, s.receipt = some receipt ∧ receipt.token = owner.id ∧ receipt.binding = owner.binding ∧
        ∃ browser, owner.binding = host.generation browser ∧ browser.desktopId = d) :
    ControlInv provider host s' where
  held entry hentry := by
    rw [hbeside.sent] at hentry
    rw [hbeside.proved]
    exact .inl (hproved entry hentry)
  terminal := by
    rw [hbeside.proved, hbeside.provider]
    exact hi.terminal
  route := by
    rw [hbeside.receipt, hbeside.provider]
    exact hi.route
  revoked := by
    rw [hbeside.receipt, hbeside.proved]
    exact hi.revoked
  human d' owner hdirectory hrole := by
    rw [hbeside.receipt]
    by_cases hd : d' = d
    · subst hd
      exact hhuman owner hdirectory hrole
    · rw [hbeside.directory d' hd] at hdirectory
      exact hi.human d' owner hdirectory hrole

/-- The state after `issueEmbed`. -/
def issued (provider : GrantProvider π) (browser : NativeBrowser) (key : String) (s : ControlState π) : ControlState π :=
  { s with
    provider := (provider.issueEmbed s.provider browser key).2
    sent := (key, browser.desktopId) :: s.sent
    proved := match (provider.issueEmbed s.provider browser key).1 with
      | .error .unavailable => key :: s.proved
      | _ => s.proved }

theorem issueEmbed_holds {I : ControlState π → Prop} {Q : Except String (Except IssueFailure Grant) → ControlState π → Prop}
    {browser : NativeBrowser} {key : String} :
    (issueEmbed provider browser key).Holds I Q s ↔ I s ∧ I (issued provider browser key s) ∧
      Q (.ok (provider.issueEmbed s.provider browser key).1) (issued provider browser key s) := .rfl

theorem mem_proved_issued {browser : NativeBrowser} {key key' : String} (h : key' ∈ s.proved) :
    key' ∈ (issued provider browser key s).proved := by
  simp only [issued]
  split
  · exact List.mem_cons_of_mem _ h
  · exact h

theorem ControlInv.issue (hi : ControlInv provider host s) {browser : NativeBrowser} {receipt : Receipt}
    (hr : s.receipt = some receipt) (hcontrol : s.ControlledBy browser.desktopId receipt.token receipt.binding) :
    ControlInv provider host (issued provider browser receipt.issuanceKey s) where
  held entry hentry := by
    rcases List.mem_cons.1 hentry with rfl | hentry
    · exact .inr ⟨receipt, hr, rfl, hcontrol⟩
    · exact (hi.held entry hentry).imp_left mem_proved_issued
  terminal key hkey := by
    simp only [issued] at hkey ⊢
    split at hkey
    · rename_i hanswer
      rcases List.mem_cons.1 hkey with rfl | hkey
      · exact provider.terminal_of_unavailable hanswer
      · exact provider.terminal_issue (hi.terminal key hkey)
    · exact provider.terminal_issue (hi.terminal key hkey)
  route r hr' routeId hid := provider.isGrant_issue (hi.route r hr' routeId hid)
  revoked r hr' htrue := mem_proved_issued (hi.revoked r hr' htrue)
  human := hi.human

/-- The state after `revokeEmbed`. -/
def revokedState (provider : GrantProvider π) (key routeId : String) (s : ControlState π) : ControlState π :=
  { s with
    provider := (provider.revokeEmbed s.provider routeId).2
    proved := match (provider.revokeEmbed s.provider routeId).1 with
      | .ok _ => key :: s.proved
      | .error _ => s.proved }

theorem revokeEmbed_holds {I : ControlState π → Prop} {Q : Except String (Except String Unit) → ControlState π → Prop}
    {key routeId : String} :
    (revokeEmbed provider key routeId).Holds I Q s ↔ I s ∧ I (revokedState provider key routeId s) ∧
      Q (.ok (provider.revokeEmbed s.provider routeId).1) (revokedState provider key routeId s) := .rfl

theorem ControlInv.revoke (hi : ControlInv provider host s) {key routeId : String}
    (hroute : provider.IsGrant s.provider key routeId) :
    ControlInv provider host (revokedState provider key routeId s) := by
  have hmono : ∀ {key'}, key' ∈ s.proved → key' ∈ (revokedState provider key routeId s).proved := by
    intro key' h
    simp only [revokedState]
    split
    · exact List.mem_cons_of_mem _ h
    · exact h
  refine ⟨fun entry hentry => (hi.held entry hentry).imp_left hmono, fun key' hkey => ?_,
    fun r hr' route hid => provider.isGrant_revoke (hi.route r hr' route hid),
    fun r hr' htrue => hmono (hi.revoked r hr' htrue), hi.human⟩
  simp only [revokedState] at hkey ⊢
  split at hkey
  · rename_i hanswer
    rcases List.mem_cons.1 hkey with rfl | hkey
    · exact provider.terminal_of_revoke hroute hanswer
    · exact provider.terminal_revoke (hi.terminal key' hkey)
  · exact provider.terminal_revoke (hi.terminal key' hkey)

/-! ## The invariant through a take -/

theorem ControlInv.of_gateNow {p : LockDirectory → Prop} (hi : ControlInv provider host s)
    (hproved : ∀ entry ∈ s.sent, entry.1 ∈ s.proved) (hnow : GateNow s d p s')
    (hhuman : ∀ owner, p (.published owner) → owner.role = .human →
      ∃ receipt, s.receipt = some receipt ∧ receipt.token = owner.id ∧ receipt.binding = owner.binding ∧
        ∃ browser, owner.binding = host.generation browser ∧ browser.desktopId = d) :
    ControlInv provider host s' :=
  hi.gate hproved (beside_of_besideGate hnow.beside) fun owner hdirectory =>
    hhuman owner (hdirectory ▸ hnow.directory)

/-- **The claim**: the receipt is there, and its human has the gate, before a grant is asked for. -/
theorem claimReceipt_holds (hi : ControlInv provider host s) (hboot : caller.process.boot = s.boot)
    (request : ControlRequest) (browser : NativeBrowser) :
    (claimReceipt caller request browser.desktopId (host.generation browser)).Holds (ControlInv provider host)
      (fun r s' => ∀ receipt, r = .ok receipt →
        s'.receipt = some receipt ∧ s'.ControlledBy browser.desktopId receipt.token receipt.binding) s := by
  unfold claimReceipt readReceipt
  rw [holds_bind, holds_look]
  refine ⟨hi, hi, ?_⟩
  cases hr : s.receipt with
  | some receipt =>
    simp only
    split
    · rename_i hmatches
      obtain ⟨htoken, -, hbinding⟩ := of_decide_eq_true hmatches.1
      rw [holds_bind]
      refine (assertControl_holds hi).imp fun r s' _ h => ?_
      obtain ⟨rfl, h⟩ := h
      cases r with
      | error => exact ⟨hi, nofun⟩
      | ok _ =>
        refine ⟨hi, fun _ heq => ?_⟩
        cases heq
        exact ⟨hr, by rw [htoken, hbinding]; exact h⟩
    · exact ⟨hi, nofun⟩
  | none =>
    simp only
    generalize hreceipt : (⟨request.token, request.browserId, host.generation browser, request.issuanceKey, none, false,
      some (request.inactivityTimeoutMs.getD 120000)⟩ : Receipt) = receipt
    have htoken : receipt.token = request.token := by rw [← hreceipt]
    have hbinding : receipt.binding = host.generation browser := by rw [← hreceipt]
    have hnew := hi.write_new hr receipt (by rw [← hreceipt]) (by rw [← hreceipt])
    have hproved : ∀ entry ∈ s.sent, entry.1 ∈ s.proved := hi.all_proved fun r h => by rw [hr] at h; cases h
    have hclaimed : ∀ owner : GateOwner, owner = ⟨request.token, .human, host.generation browser, caller.process⟩ →
        ∃ r, some receipt = some r ∧ r.token = owner.id ∧ r.binding = owner.binding ∧
          ∃ b, owner.binding = host.generation b ∧ b.desktopId = browser.desktopId := by
      rintro owner rfl
      exact ⟨receipt, rfl, htoken, hbinding, browser, rfl, rfl⟩
    rw [holds_bind, writeReceipt, holds_change]
    refine ⟨hi, hnew, ?_⟩
    simp only
    rw [holds_bind, holds_orElse]
    have htake : (takeControl caller browser.desktopId (host.generation browser) request.token).Holds _ _
        { s with receipt := some receipt } := takeControl_holds hboot (hi.no_human hr _)
    refine (htake.mono fun s' hnow => ?_).imp fun r s' _ h => ?_
    · refine hnew.of_gateNow hproved hnow fun owner hcase hrole => ?_
      rcases hcase with hfree | hpublished
      · exact absurd hrole (of_decide_eq_false hfree)
      · cases hpublished
        exact hclaimed _ rfl
    · cases r with
      | error message =>
        -- the claim is taken back: no human has the gate, and no grant was asked for
        have hnow : GateNow _ browser.desktopId (·.isHuman = false) s' := h
        have hinv : ControlInv provider host s' := hnew.of_gateNow hproved hnow fun owner hfree hrole =>
          absurd hrole (of_decide_eq_false hfree)
        have hbeside := beside_of_besideGate hnow.beside
        have hremoved : ControlInv provider host { s' with receipt := none } := by
          refine hinv.remove (by rw [hbeside.sent, hbeside.proved]; exact hproved) fun d => ?_
          by_cases hd : d = browser.desktopId
          · rw [hd]
            exact hnow.directory
          · rw [hbeside.directory d hd]
            exact hi.no_human hr d
        simp only
        rw [holds_bind, removeReceipt, holds_change]
        exact ⟨hinv, hremoved, hremoved, hremoved, nofun⟩
      | ok _ =>
        have hnow : GateNow _ browser.desktopId
          (· = .published ⟨request.token, .human, host.generation browser, caller.process⟩) s' := h
        have hinv : ControlInv provider host s' := hnew.of_gateNow hproved hnow fun owner hpublished _ => by
          cases hpublished
          exact hclaimed _ rfl
        refine ⟨hinv, fun _ heq => ?_⟩
        cases heq
        refine ⟨(beside_of_besideGate hnow.beside).receipt, ?_⟩
        rw [htoken, hbinding]
        exact ⟨_, hnow.directory, rfl, rfl, rfl⟩

theorem takeExclusive_holds (hi : ControlInv provider host s) (hboot : caller.process.boot = s.boot)
    (request : ControlRequest) :
    (takeExclusive provider host caller request).Holds (ControlInv provider host) (fun _ _ => True) s := by
  unfold takeExclusive selectBrowser
  rw [holds_bind, holds_ofExcept]
  refine ⟨hi, ?_⟩
  split
  · rename_i browser _
    rw [holds_bind]
    refine (claimReceipt_holds hi hboot request browser).imp fun r s' hi' h => ?_
    cases r with
    | error => exact ⟨hi', trivial⟩
    | ok receipt =>
      obtain ⟨hr, hcontrol⟩ := h receipt rfl
      have hissued := hi'.issue hr hcontrol
      simp only
      rw [holds_bind, issueEmbed_holds]
      refine ⟨hi', hissued, ?_⟩
      cases hanswer : (provider.issueEmbed s'.provider browser receipt.issuanceKey).1 with
      | error failure => exact ⟨hissued, trivial⟩
      | ok grant =>
        have hgrant := provider.isGrant_of_issue hanswer
        have hwritten := hissued.rewrite hr { receipt with routeId := some grant.routeId } rfl rfl rfl
          (fun routeId hid => by cases hid; exact hgrant) (hissued.revoked receipt hr)
        simp only
        rw [holds_bind, writeReceipt, holds_change]
        exact ⟨hissued, hwritten, hwritten, trivial⟩
  · exact ⟨hi, trivial⟩

/-! ## The invariant through a release -/

/-- A receipt for the same claim. -/
structure SameClaim (receipt receipt' : Receipt) : Prop where
  key : receipt'.issuanceKey = receipt.issuanceKey
  token : receipt'.token = receipt.token
  binding : receipt'.binding = receipt.binding

/-- After the first attempt its outcome says whether the grant is proved to be over. -/
theorem attemptRevocation_holds (hi : ControlInv provider host s) {receipt : Receipt} (hr : s.receipt = some receipt)
    {browser : NativeBrowser} (hcontrol : s.ControlledBy browser.desktopId receipt.token receipt.binding) :
    (attemptRevocation provider browser receipt).Holds (ControlInv provider host)
      (fun r s' => ∀ attempt, r = .ok attempt → s'.receipt = some attempt.1 ∧ SameClaim receipt attempt.1 ∧
        s'.gates = s.gates ∧ (attempt.2 = .ok () → receipt.issuanceKey ∈ s'.proved)) s := by
  have hproved : ∀ {s : ControlState π} {routeId : String},
      (provider.revokeEmbed s.provider routeId).1 = .ok () →
        receipt.issuanceKey ∈ (revokedState provider receipt.issuanceKey routeId s).proved := by
    intro s routeId hanswer
    simp only [revokedState, hanswer]
    exact List.mem_cons_self
  unfold attemptRevocation
  cases hroute : receipt.routeId.filter (· != "") with
  | some routeId =>
    have hgrant := hi.route receipt hr routeId (Option.eq_some_of_filter_eq_some hroute)
    simp only
    rw [holds_bind, revokeEmbed_holds]
    refine ⟨hi, hi.revoke hgrant, hi.revoke hgrant, fun _ heq => ?_⟩
    cases heq
    exact ⟨hr, ⟨rfl, rfl, rfl⟩, rfl, hproved⟩
  | none =>
    have hissued := hi.issue hr hcontrol
    simp only
    rw [holds_bind, issueEmbed_holds]
    refine ⟨hi, hissued, ?_⟩
    cases hanswer : (provider.issueEmbed s.provider browser receipt.issuanceKey).1 with
    | error failure =>
      refine ⟨hissued, fun _ heq => ?_⟩
      cases heq
      exact ⟨hr, ⟨rfl, rfl, rfl⟩, rfl, nofun⟩
    | ok grant =>
      have hgrant := provider.isGrant_of_issue hanswer
      have hwritten := hissued.rewrite hr { receipt with routeId := some grant.routeId } rfl rfl rfl
        (fun routeId hid => by cases hid; exact hgrant) (hissued.revoked receipt hr)
      simp only
      rw [holds_bind, writeReceipt, holds_change]
      refine ⟨hissued, hwritten, ?_⟩
      simp only
      rw [holds_bind, revokeEmbed_holds]
      refine ⟨hwritten, hwritten.revoke hgrant, hwritten.revoke hgrant, fun _ heq => ?_⟩
      cases heq
      exact ⟨rfl, ⟨rfl, rfl, rfl⟩, rfl, hproved⟩

theorem proveRevocation_holds (hi : ControlInv provider host s) {receipt : Receipt} (hr : s.receipt = some receipt)
    {browser : NativeBrowser} (hcontrol : s.ControlledBy browser.desktopId receipt.token receipt.binding)
    {outcome : Except String Unit} (houtcome : outcome = .ok () → receipt.issuanceKey ∈ s.proved) :
    (proveRevocation provider browser receipt outcome).Holds (ControlInv provider host)
      (fun r s' => ∀ u, r = .ok u →
        s'.receipt = some receipt ∧ s'.gates = s.gates ∧ receipt.issuanceKey ∈ s'.proved) s := by
  cases outcome with
  | ok _ => exact ⟨hi, fun _ _ => ⟨hr, rfl, houtcome rfl⟩⟩
  | error revokeError =>
    have hissued := hi.issue hr hcontrol
    unfold proveRevocation
    rw [holds_bind, issueEmbed_holds]
    refine ⟨hi, hissued, ?_⟩
    cases hanswer : (provider.issueEmbed s.provider browser receipt.issuanceKey).1 with
    | ok grant => exact ⟨hissued, nofun⟩
    | error failure =>
      cases failure with
      | other message => exact ⟨hissued, nofun⟩
      | unavailable =>
        refine ⟨hissued, fun _ _ => ⟨hr, rfl, ?_⟩⟩
        simp only [issued, hanswer]
        exact List.mem_cons_self

/-- **The grant of a receipt is over** when `revokeGrant` returns. -/
theorem revokeGrant_holds (hi : ControlInv provider host s) {receipt : Receipt} (hr : s.receipt = some receipt)
    {browser : NativeBrowser} (hcontrol : s.ControlledBy browser.desktopId receipt.token receipt.binding) :
    (revokeGrant provider browser receipt).Holds (ControlInv provider host)
      (fun r s' => ∀ receipt', r = .ok receipt' → s'.receipt = some receipt' ∧ SameClaim receipt receipt' ∧
        s'.gates = s.gates ∧ receipt'.revoked = true) s := by
  unfold revokeGrant
  split
  · rename_i hrevoked
    refine ⟨hi, fun _ heq => ?_⟩
    cases heq
    exact ⟨hr, ⟨rfl, rfl, rfl⟩, rfl, hrevoked⟩
  · rw [holds_bind]
    refine (attemptRevocation_holds hi hr hcontrol).imp fun r s₁ hi₁ h₁ => ?_
    cases r with
    | error => exact ⟨hi₁, nofun⟩
    | ok attempt =>
      obtain ⟨hr₁, hclaim, hgates₁, houtcome⟩ := h₁ attempt rfl
      have hcontrol₁ : s₁.ControlledBy browser.desktopId attempt.1.token attempt.1.binding := by
        unfold ControlState.ControlledBy
        rw [hgates₁, hclaim.token, hclaim.binding]
        exact hcontrol
      simp only
      rw [holds_bind]
      refine (proveRevocation_holds hi₁ hr₁ hcontrol₁ fun h => hclaim.key ▸ houtcome h).imp fun r s₂ hi₂ h₂ => ?_
      cases r with
      | error => exact ⟨hi₂, nofun⟩
      | ok u =>
        obtain ⟨hr₂, hgates₂, hproved⟩ := h₂ u rfl
        have hwritten := hi₂.rewrite hr₂ { attempt.1 with revoked := true } rfl rfl rfl
          (hi₂.route attempt.1 hr₂) fun _ => hproved
        simp only
        rw [holds_bind, writeReceipt, holds_change]
        refine ⟨hi₂, hwritten, hwritten, fun _ heq => ?_⟩
        cases heq
        exact ⟨rfl, ⟨hclaim.key, hclaim.token, hclaim.binding⟩, hgates₂.trans hgates₁, rfl⟩

theorem keeps_issueEmbed {browser : NativeBrowser} {key : String} :
    (issueEmbed provider browser key).Keeps fun s => (s.boot, s.crashed, s.lock, s.gates) := keeps_perform fun _ => rfl

theorem keeps_revokeEmbed {key routeId : String} :
    (revokeEmbed provider key routeId).Keeps fun s => (s.boot, s.crashed, s.lock, s.gates) := keeps_perform fun _ => rfl

/-- The machine and the gates stay while a grant is revoked. -/
theorem keeps_revokeGrant {browser : NativeBrowser} {receipt : Receipt} :
    (revokeGrant provider browser receipt).Keeps fun s => (s.boot, s.crashed, s.lock, s.gates) := by
  have hattempt : (attemptRevocation provider browser receipt).Keeps fun s => (s.boot, s.crashed, s.lock, s.gates) := by
    unfold attemptRevocation
    split
    · exact keeps_bind keeps_revokeEmbed fun _ => trivial
    · refine keeps_bind keeps_issueEmbed fun answer => ?_
      cases answer with
      | error failure => trivial
      | ok grant =>
        exact keeps_bind (keeps_change fun _ => rfl) fun _ => keeps_bind keeps_revokeEmbed fun _ => trivial
  have hprove : ∀ (receipt : Receipt) outcome,
      (proveRevocation provider browser receipt outcome).Keeps fun s => (s.boot, s.crashed, s.lock, s.gates) := by
    intro receipt outcome
    cases outcome with
    | ok _ => trivial
    | error revokeError =>
      refine keeps_bind keeps_issueEmbed fun answer => ?_
      split <;> trivial
  unfold revokeGrant
  split
  · trivial
  · exact keeps_bind hattempt fun attempt => keeps_bind (hprove _ _) fun _ =>
      keeps_bind (keeps_change fun _ => rfl) fun _ => trivial

/-- **The gate is freed after the grant is over**, and the receipt is removed after the gate is free. -/
theorem releaseClaim_holds (hi : ControlInv provider host s) (hboot : caller.process.boot = s.boot) {receipt : Receipt}
    (hr : s.receipt = some receipt) {browser : NativeBrowser} (hbinding : receipt.binding = host.generation browser) :
    (releaseClaim provider host caller browser receipt).Holds (ControlInv provider host)
      (fun r s' => ∀ u, r = .ok u → s'.receipt = none ∧ (s'.gates browser.desktopId).directory = .absent) s := by
  unfold releaseClaim
  rw [holds_bind]
  refine (assertControl_holds hi).imp fun r s' _ h => ?_
  obtain ⟨rfl, hasserted⟩ := h
  cases r with
  | error => exact ⟨hi, nofun⟩
  | ok _ =>
    have hcontrol : s'.ControlledBy browser.desktopId receipt.token receipt.binding := hbinding ▸ hasserted
    simp only
    rw [holds_bind]
    refine (keeps_revokeGrant.holds (revokeGrant_holds hi hr hcontrol)).imp fun r s₁ hi₁ h₁ => ?_
    obtain ⟨h₁, hframe⟩ := h₁
    cases r with
    | error => exact ⟨hi₁, nofun⟩
    | ok receipt' =>
      obtain ⟨hr₁, hclaim, _, hrevoked⟩ := h₁ receipt' rfl
      have hboot₁ : caller.process.boot = s₁.boot := hboot.trans (Prod.mk.inj hframe).1.symm
      have hproved : ∀ entry ∈ s₁.sent, entry.1 ∈ s₁.proved := hi₁.all_proved fun r h => by
        cases hr₁.symm.trans h
        exact hi₁.revoked receipt' hr₁ hrevoked
      simp only
      rw [holds_bind]
      refine ((releaseControl_holds hboot₁).mono fun s₂ hnow => ?_).imp fun r s₂ hi₂ h₂ => ?_
      · refine hi₁.of_gateNow hproved hnow fun owner hcase hrole => ?_
        rcases hcase with hsame | hfree
        · exact hi₁.human _ owner hsame.symm hrole
        · exact absurd hrole (of_decide_eq_false hfree)
      · cases r with
        | error => exact ⟨hi₂, nofun⟩
        | ok _ =>
          obtain ⟨-, -, hnow⟩ := h₂
          have hbeside := beside_of_besideGate hnow.beside
          have hr₂ : s₂.receipt = some receipt' := hbeside.receipt.trans hr₁
          have hproved₂ : ∀ entry ∈ s₂.sent, entry.1 ∈ s₂.proved := by
            rw [hbeside.sent, hbeside.proved]
            exact hproved
          -- a human at another gate would have a receipt for that desktop
          have hfree : ∀ d, (s₂.gates d).directory.isHuman = false := by
            intro d
            cases hdirectory : (s₂.gates d).directory with
            | absent | unpublished => rfl
            | published owner =>
              refine decide_eq_false fun hrole => ?_
              obtain ⟨r, hr, -, hb, browser', hgeneration, rfl⟩ := hi₂.human d owner hdirectory hrole
              cases hr₂.symm.trans hr
              rw [← hb, hclaim.binding, hbinding] at hgeneration
              rw [← host.generation_injective hgeneration, hnow.directory] at hdirectory
              cases hdirectory
          have hreleased : ControlInv provider host
              { s₂ with released := receipt' :: s₂.released.filter (·.token ≠ receipt'.token) } := hi₂.congr rfl
          have hremoved := hreleased.remove hproved₂ hfree
          simp only
          rw [holds_bind, writeReleased, holds_change]
          refine ⟨hi₂, hreleased, ?_⟩
          rw [removeReceipt, holds_change]
          exact ⟨hreleased, hremoved, fun _ _ => ⟨rfl, hnow.directory⟩⟩

theorem releaseExclusive_holds (hi : ControlInv provider host s) (hboot : caller.process.boot = s.boot)
    (request : ControlRequest) :
    (releaseExclusive provider host caller request).Holds (ControlInv provider host) (fun _ _ => True) s := by
  unfold releaseExclusive readReceipt selectBrowser
  rw [holds_bind, holds_look]
  refine ⟨hi, hi, ?_⟩
  cases hr : s.receipt with
  | none =>
    simp only
    rw [holds_bind, wasReleased, holds_look]
    refine ⟨hi, hi, ?_⟩
    split
    · split
      · exact ⟨hi, trivial⟩
      · rw [holds_bind, holds_ofExcept]
        refine ⟨hi, ?_⟩
        split <;> exact ⟨hi, trivial⟩
    · exact ⟨hi, trivial⟩
  | some receipt =>
    simp only
    rw [holds_bind, holds_ofExcept]
    refine ⟨hi, ?_⟩
    split
    · rename_i browser _
      split
      · rename_i hmatches
        exact (releaseClaim_holds hi hboot hr (of_decide_eq_true hmatches).2.2).imp fun _ _ _ _ => trivial
      · exact ⟨hi, trivial⟩
    · exact ⟨hi, trivial⟩

/-! ## Runs -/

theorem keeps_gateTransition {α : Type} {operation : ControlScript π α} (h : operation.Keeps (besideGate d)) :
    (gateTransition caller d operation).Keeps ControlState.lock := by
  have hlock : ∀ {s s' : ControlState π}, besideGate d s' = besideGate d s → s'.lock = s.lock := fun heq => by
    simp only [besideGate, Prod.mk.injEq] at heq
    exact heq.2.2.1
  have hbeyond : ∀ s s' : ControlState π, beyondTransitions s' = beyondTransitions s → s'.lock = s.lock :=
    fun _ _ heq => hlock (besideGate_of_beyondTransitions heq)
  exact keeps_bind ((keeps_acquireTransition 100).imp hbeyond) fun _ =>
    keeps_ensure (h.imp fun _ _ => hlock) (keeps_releaseTransition.imp hbeyond)

theorem keeps_assertControl {τ : Type} {f : ControlState π → τ} {token binding : String} :
    (assertControl d token binding).Keeps f :=
  keeps_bind keeps_look fun _ => by split <;> trivial

theorem keeps_takeExclusive (request : ControlRequest) :
    (takeExclusive provider host caller request).Keeps ControlState.lock := by
  refine keeps_bind keeps_ofExcept fun browser => keeps_bind (keeps_bind keeps_look fun found => ?_) fun receipt =>
    keeps_bind (keeps_perform fun _ => rfl) fun answer => ?_
  · cases found with
    | some receipt =>
      show (ite _ _ _ : ControlScript π Receipt).Keeps _
      split
      · exact keeps_bind keeps_assertControl fun _ => trivial
      · trivial
    | none =>
      exact keeps_bind (keeps_change fun _ => rfl) fun _ =>
        keeps_bind (keeps_orElse (keeps_gateTransition (besideGate_of_keeps (keeps_acquireGate _))) fun _ =>
          keeps_bind (keeps_change fun _ => rfl) fun _ => trivial) fun _ => trivial
  · cases answer with
    | error failure => trivial
    | ok grant => exact keeps_bind (keeps_change fun _ => rfl) fun _ => trivial

theorem keeps_releaseExclusive (request : ControlRequest) :
    (releaseExclusive provider host caller request).Keeps ControlState.lock := by
  refine keeps_bind keeps_look fun found => ?_
  cases found with
  | none =>
    refine keeps_bind keeps_look fun wasReleased => ?_
    split
    · trivial
    · exact keeps_bind keeps_ofExcept fun _ => trivial
  | some receipt =>
    refine keeps_bind keeps_ofExcept fun browser => ?_
    split
    · have hrevoke : (revokeGrant provider browser receipt).Keeps ControlState.lock :=
        keeps_revokeGrant.imp fun _ _ heq => (Prod.mk.inj (Prod.mk.inj (Prod.mk.inj heq).2).2).1
      exact keeps_bind keeps_assertControl fun _ => keeps_bind hrevoke fun _ =>
        keeps_bind (keeps_gateTransition (besideGate_of_keeps keeps_releaseOwner)) fun _ =>
          keeps_bind (keeps_change fun _ => rfl) fun _ => keeps_change fun _ => rfl
    · trivial

/-- The invariant under the lock of the store. -/
theorem exclusive_controlInv {α : Type} {operation : ControlScript π α} (hi : ControlInv provider host s)
    (hboot : caller.process.boot = s.boot) (hlock : operation.Keeps ControlState.lock)
    (hoperation : ∀ {s : ControlState π}, ControlInv provider host s → caller.process.boot = s.boot →
      operation.Holds (ControlInv provider host) (fun _ _ => True) s) :
    (exclusive caller operation).Holds (ControlInv provider host) (fun _ _ => True) s :=
  exclusive_holds (fun _ _ hbeyond h => h.congr (grantState_of_beyondLock hbeyond)) (fun _ _ _ _ _ => trivial) hi hlock
    (fun _ _ hbeyond => hoperation (hi.congr (grantState_of_beyondLock hbeyond))
      (hboot.trans (Prod.mk.inj hbeyond).1.symm))
    fun _ _ _ _ => trivial

theorem take_holds (hi : ControlInv provider host s) (hboot : caller.process.boot = s.boot) (request : ControlRequest) :
    (take provider host caller request).Holds (ControlInv provider host) (fun _ _ => True) s := by
  unfold take
  split
  · rw [holds_orElse]
    refine (exclusive_controlInv hi hboot (keeps_takeExclusive request) fun hi hboot =>
      takeExclusive_holds hi hboot request).imp fun r s' hi' _ => ?_
    cases r with
    | ok _ => trivial
    | error _ => exact ⟨hi', hi', trivial⟩
  · exact ⟨hi, trivial⟩

theorem release_holds (hi : ControlInv provider host s) (hboot : caller.process.boot = s.boot)
    (request : ControlRequest) :
    (release provider host caller request).Holds (ControlInv provider host) (fun _ _ => True) s :=
  exclusive_controlInv hi hboot (keeps_releaseExclusive request) fun hi hboot => releaseExclusive_holds hi hboot request

theorem ControlInv.perform {ε α : Type} {script : Script (ControlState π) ε α}
    (h : script.Holds (ControlInv provider host) (fun _ _ => True) s) (caller : Caller) (crash : Option Nat) :
    ControlInv provider host (s.perform caller script crash) := by
  cases crash with
  | none => exact h.run.1
  | some n => exact (h.after n).congr rfl

/-- Automation changes a gate that no human has. -/
theorem ControlInv.automation (hi : ControlInv provider host s) {directory : LockDirectory}
    (hold : (s.gates d).directory.isHuman = false) (hnew : directory.isHuman = false) :
    ControlInv provider host (s.setGate d fun gate => { gate with directory }) where
  held entry hentry := by
    rcases hi.held entry hentry with hproved | ⟨receipt, hr, hkey, owner, howner, hrole, hid, hbinding⟩
    · exact .inl hproved
    · refine .inr ⟨receipt, hr, hkey, owner, ?_, hrole, hid, hbinding⟩
      have hne : entry.2 ≠ d := by
        rintro rfl
        rw [howner] at hold
        exact of_decide_eq_false hold hrole
      rw [setGate_ne s _ hne]
      exact howner
  terminal := hi.terminal
  route := hi.route
  revoked := hi.revoked
  human d' owner howner hrole := by
    by_cases hd : d' = d
    · rw [hd, directory_setGate] at howner
      rw [howner] at hnew
      exact absurd hrole (of_decide_eq_false hnew)
    · rw [setGate_ne s _ hd] at howner
      exact hi.human d' owner howner hrole

/-- **The invariant over every sequence of calls.** -/
theorem controlInv_reachable (hs : (controlSystem provider host).Reachable s) : ControlInv provider host s := by
  refine hs.invariant ?_ fun s label s' _ hi hstep => ?_
  · rintro _ ⟨p, rfl⟩
    exact ⟨nofun, nofun, nofun, nofun, nofun⟩
  · cases label with
    | take caller request crash =>
      obtain ⟨⟨⟨hboot, -⟩, -⟩, hs'⟩ := Option.ite_none_right_eq_some.1 hstep
      cases hs'
      exact .perform (take_holds hi hboot request) caller crash
    | release caller request crash =>
      obtain ⟨⟨hboot, -⟩, hs'⟩ := Option.ite_none_right_eq_some.1 hstep
      cases hs'
      exact .perform (release_holds hi hboot request) caller crash
    | automation desktopId directory =>
      obtain ⟨⟨hold, hnew⟩, hs'⟩ := Option.ite_none_right_eq_some.1 hstep
      cases hs'
      exact hi.automation hold hnew
    | exit process =>
      cases hstep
      exact hi.congr rfl
    | reboot =>
      cases hstep
      exact hi.congr rfl

/-! ## A provider and a host -/

/-- A provider that keeps the keys of the grants that are over, and whose routes are the keys. -/
def listProvider : GrantProvider (List String) where
  issueEmbed ended _ key := if key ∈ ended then (.error .unavailable, ended) else (.ok ⟨"https://view/" ++ key, key⟩, ended)
  revokeEmbed ended routeId := (.ok (), routeId :: ended)
  Terminal ended key := key ∈ ended
  IsGrant _ key routeId := routeId = key
  terminal_issue h := by split <;> exact h
  terminal_revoke h := List.mem_cons_of_mem _ h
  isGrant_issue h := h
  isGrant_revoke h := h
  isGrant_of_issue {p _ key grant} h := by
    by_cases hover : key ∈ p
    · simp only [hover, if_true] at h
      cases h
    · simp only [hover, if_false] at h
      cases h
      rfl
  terminal_of_unavailable {p _ key} h := by
    by_cases hover : key ∈ p
    · simp only [hover, if_true]
    · simp only [hover, if_false] at h
      cases h
  terminal_of_revoke h _ := by
    rw [h]
    exact List.mem_cons_self

/-- A host that writes the parts of a browser one after the other in place of their digest. -/
def markingHost : ControlHost where
  generation browser := FieldText.ofFields [browser.browserId, browser.desktopId, browser.rest]
  isUuid token := token.length = 36
  generation_injective a b h := by
    have hfields := FieldText.ofFields_injective h
    cases a
    cases b
    simp_all
  generation_ne browser h := by
    have hnil := congrArg String.toList h
    simp [FieldText.ofFields, FieldText.marked] at hnil
  isUuid_ne token h hempty := by
    subst hempty
    cases h

def officeBrowser : NativeBrowser := ⟨"chrome-1", "office", "pid 41"⟩

def viewerRequest : ControlRequest where
  ready := .ok [officeBrowser]
  browserId := "chrome-1"
  token := "0b4c7f4e-5d2a-4c60-9a31-3f5d8e7a1c02"
  issuanceKey := "key-1"
  inactivityTimeoutMs := none

/-! ## Grants and gates -/

/-- **No grant without the gate**: a control grant that was asked for, whatever the provider answered, is proved to be
over and can be used no more, or a human has the gate of its desktop. -/
theorem grant_under_gate (hs : (controlSystem provider host).Reachable s) :
    ∀ entry ∈ s.sent, (entry.1 ∈ s.proved ∧ provider.Terminal s.provider entry.1) ∨
      (s.gates entry.2).directory.isHuman = true := by
  have hi := controlInv_reachable hs
  intro entry hentry
  rcases hi.held entry hentry with hproved | ⟨receipt, -, -, hcontrol⟩
  · exact .inl ⟨hproved, hi.terminal _ hproved⟩
  · exact .inr (controlledBy_isHuman hcontrol)

/-- A viewer takes control of the office desktop. -/
theorem viewed_grant_under_gate :
    ∃ s, (controlSystem listProvider markingHost).Reachable s ∧ ("key-1", "office") ∈ s.sent ∧ "key-1" ∉ s.proved ∧
      ∀ entry ∈ s.sent, (entry.1 ∈ s.proved ∧ listProvider.Terminal s.provider entry.1) ∨
        (s.gates entry.2).directory.isHuman = true := by
  have hinit : (controlSystem listProvider markingHost).Reachable (.new []) := .init ⟨[], rfl⟩
  have hs : (controlSystem listProvider markingHost).Reachable
      ((execute (ControlState.next listProvider markingHost) (.new [])
        [.take ⟨1, ⟨0, 7⟩⟩ viewerRequest none]).get (by decide +kernel)) := reachable_get hinit _
  exact ⟨_, hs, by decide +kernel, by decide +kernel, grant_under_gate hs⟩

end AuraCall.Desktop
