import AuraCall.Lib.FieldText
import AuraCall.Receipts.Publication
import Mathlib.Tactic.SplitIfs

/-!
# Terminal receipts exactly once

Files only come: each action of a publisher or a reconciler leaves every file as it is (`Grows`), which is what the
others rely on. So what a call has read, verified or linked is still there when it returns and ever after: a returned
receipt is the published one, its result is stored under its digest, and a receipt that is reported as emitted was
linked by that publication (`Returned`). As a file is linked once, at most one publication reports it.
-/

namespace AuraCall.Receipts

open Script TransitionSystem

variable {host : ReceiptHost} {config : ReceiptConfig} {s s' : ReceiptState} {α β : Type}

/-! ## Files only come -/

/-- Every file stays as it is. -/
def Grows (s s' : ReceiptState) : Prop := ∀ locator file, s.files locator = some file → s'.files locator = some file

theorem Grows.refl (s : ReceiptState) : Grows s s := fun _ _ h => h

theorem Grows.trans {s'' : ReceiptState} (h : Grows s s') (h' : Grows s' s'') : Grows s s'' :=
  fun locator file hf => h' locator file (h locator file hf)

theorem Grows.of_files (h : s'.files = s.files) : Grows s s' := fun _ _ hf => h ▸ hf

/-- A script among others that leave every file as it is, and that does so itself. -/
abbrev Stays (Q : Except ReceiptFault α → ReceiptState → Prop) (p : ReceiptScript α) (s : ReceiptState) : Prop :=
  p.Safe (fun _ => True) Grows Grows Q s

theorem stays_io {Q : Except ReceiptFault α → ReceiptState → Prop}
    {action : ReceiptState → Except ReceiptFault α × ReceiptState}
    (h : ∀ s', Grows s s' → Grows s' (action s').2 ∧ Q (action s').1 (action s').2)
    (hfault : ∀ code s', Grows s s' → Q (.error (.io code)) s') : Stays Q (io action) s := by
  intro s' _ hs
  cases hf : s'.fault with
  | none =>
    simp only [hf]
    exact ⟨trivial, h s' hs⟩
  | some code =>
    simp only [hf]
    exact ⟨trivial, .refl _, hfault code s' hs⟩

theorem of_error {P : α → Prop} {fault : ReceiptFault} : ∀ a, (.error fault : Except ReceiptFault α) = .ok a → P a :=
  fun _ h => by cases h

/-- What is there once files are there. -/
def Lasting (P : ReceiptState → Prop) : Prop := ∀ {s s'}, Grows s s' → P s → P s'

/-- A script that is run for what it does, not for what it proves. -/
def Kept (p : ReceiptScript α) : Prop := ∀ s, Stays (fun _ _ => True) p s

theorem Kept.bind {p : ReceiptScript α} {f : α → ReceiptScript β} (hp : Kept p) (hf : ∀ a, Kept (f a)) :
    Kept (p >>= f) := fun s => safe_bind.2 <| (hp s).imp fun r s' _ => by
  cases r with
  | ok a => exact hf a s'
  | error => trivial

theorem Kept.orElse {p : ReceiptScript α} {handler : ReceiptFault → ReceiptScript α} (hp : Kept p)
    (hh : ∀ fault, Kept (handler fault)) : Kept (p.orElse handler) := fun s => safe_orElse.2 <| (hp s).imp fun r s' _ => by
  cases r with
  | ok _ => trivial
  | error fault => exact hh fault s'

theorem kept_done {result : Except ReceiptFault α} : Kept (done result) := fun _ => trivial

theorem kept_io {action : ReceiptState → Except ReceiptFault α × ReceiptState}
    (h : ∀ s, (action s).2.files = s.files) : Kept (io action) :=
  fun _ => stays_io (fun s' _ => ⟨.of_files (h s'), trivial⟩) fun _ _ _ => trivial

theorem kept_now : Kept now := fun _ => safe_look Grows.refl fun _ _ _ => trivial

theorem kept_resolveRoot : Kept (resolveRoot config) := kept_io fun _ => rfl

theorem kept_updateLedger {update : ReceiptLedger → ReceiptLedger} : Kept (updateLedger update) :=
  (kept_io fun _ => rfl).bind fun _ => kept_io fun _ => rfl

theorem kept_recordFailure {failure : ReceiptFailure} : Kept (recordFailureBestEffort config failure) :=
  (kept_resolveRoot.bind fun _ => kept_updateLedger).orElse fun _ => kept_done

theorem failOperation_stays {identity : Option EventIdentity} {fault : ReceiptFault} :
    Stays (fun r _ => ∀ operation, r = .ok operation → operation.value? = none)
      (failOperation host config identity fault : ReceiptScript (Operation α)) s := by
  refine safe_bind.2 ((kept_now s).imp fun r s₁ _ => ?_)
  cases r with
  | error => exact of_error
  | ok failedAt =>
    refine safe_bind.2 ((kept_recordFailure s₁).imp fun r s₂ _ => ?_)
    cases r with
    | error => exact of_error
    | ok _ =>
      intro operation heq
      cases heq
      rfl

/-- What lasts is there after a script that is run for what it does. -/
theorem Kept.lasting {p : ReceiptScript α} (hp : Kept p) {P : ReceiptState → Prop} (hP : Lasting P) (h : P s) :
    Stays (fun _ => P) p s :=
  ((hp s).frame h hP hP).imp fun _ _ h => h.2

/-! ## What a call has read or written -/

/-- A result is stored under its digest. -/
def Stored (host : ReceiptHost) (result : ReceiptResult) (s : ReceiptState) : Prop :=
  ∃ file, s.files result.locator = some file ∧ file.text.utf8ByteSize = result.bytes ∧
    digestBuffer host file.text = result.digest

/-- The file at a place has the text. -/
def HasText (locator text : String) (s : ReceiptState) : Prop := ∃ file, s.files locator = some file ∧ file.text = text

theorem lasting_stored {result : ReceiptResult} : Lasting (Stored host result) :=
  fun hs ⟨file, hf, h⟩ => ⟨file, hs _ _ hf, h⟩

theorem lasting_hasText {locator text : String} : Lasting (HasText locator text) :=
  fun hs ⟨file, hf, h⟩ => ⟨file, hs _ _ hf, h⟩

theorem readExistingImmutableFile_stays {locator : String} :
    Stays (fun r s' => ∀ text, r = .ok (some text) → HasText locator text s')
      (readExistingImmutableFile locator) s := by
  refine stays_io (fun s' _ => ⟨.refl _, fun text h => ?_⟩) fun _ _ _ _ h => nomatch h
  cases hf : s'.files locator with
  | none =>
    rw [hf] at h
    cases h
  | some file =>
    rw [hf] at h
    cases h
    exact ⟨file, hf, rfl⟩

theorem digestBuffer_injective : Function.Injective (digestBuffer host) := fun _ _ h =>
  host.sha256_injective (String.append_right_inj _ |>.1 h)

/-- The publication linked the file. -/
def Linked (publication : Publication) (locator : String) (s : ReceiptState) : Prop :=
  ∃ file, s.files locator = some file ∧ file.creator = some publication

theorem lasting_linked {publication : Publication} {locator : String} : Lasting (Linked publication locator) :=
  fun hs ⟨file, hf, h⟩ => ⟨file, hs _ _ hf, h⟩

section Writing

variable {publication : Publication} {locator payload : String}

theorem requireContent_stays {existing : Option String} (h : ∀ text, existing = some text → HasText locator text s) :
    Stays (fun r s' => ∀ created, r = .ok created → created = false ∧ HasText locator payload s')
      (requireContent host payload existing) s := by
  cases existing with
  | none => exact fun _ h => nomatch h
  | some existing =>
    simp only [requireContent]
    split
    · rename_i hsame
      have htext := digestBuffer_injective (of_decide_eq_true hsame).2
      intro created hc
      cases hc
      exact ⟨rfl, htext ▸ h existing rfl⟩
    · exact fun _ h => nomatch h

theorem linkFile_stays :
    Stays (fun r s' => ∀ linked, r = .ok linked → linked = true → HasText locator payload s' ∧
      Linked publication locator s') (linkFile publication locator payload) s := by
  refine stays_io (fun s' _ => ?_) fun _ _ _ _ h => nomatch h
  cases hf : s'.files locator with
  | some file =>
    refine ⟨.refl _, fun linked h htrue => ?_⟩
    cases h
    cases htrue
  | none =>
    refine ⟨fun l file hl => ?_, fun _ _ _ => ?_⟩
    · have hne : l ≠ locator := by
        rintro rfl
        rw [hf] at hl
        cases hl
      simpa only [hne, if_false] using hl
    · exact ⟨⟨⟨payload, some publication⟩, by simp only [if_true], rfl⟩,
        ⟨payload, some publication⟩, by simp only [if_true], rfl⟩

/-- **A file that was written has the content**, and a file that was created was linked by this publication. -/
theorem writeImmutableFile_stays :
    Stays (fun r s' => ∀ created, r = .ok created → HasText locator payload s' ∧
      (created = true → Linked publication locator s')) (writeImmutableFile host publication locator payload) s := by
  have hrequire : ∀ {existing : Option String} {s : ReceiptState},
      (∀ text, existing = some text → HasText locator text s) →
        Stays (fun r s' => ∀ created, r = .ok created → HasText locator payload s' ∧
          (created = true → Linked publication locator s')) (requireContent host payload existing) s := fun h =>
    (requireContent_stays h).imp fun r s' hr created hc => by
      obtain ⟨rfl, htext⟩ := hr created hc
      exact ⟨htext, fun h => nomatch h⟩
  refine safe_bind.2 (readExistingImmutableFile_stays.imp fun r s₁ hr => ?_)
  cases r with
  | error => exact of_error
  | ok existing =>
    cases existing with
    | some existing => exact hrequire fun text h => by cases h; exact hr existing rfl
    | none =>
      refine safe_bind.2 (stays_io (fun s₂ _ => ⟨.refl _, ?_⟩) fun _ _ _ _ h => nomatch h)
      refine safe_bind.2 (linkFile_stays.imp fun r s₃ hr => ?_)
      cases r with
      | error => exact of_error
      | ok linked =>
        cases linked with
        | false =>
          refine safe_bind.2 (readExistingImmutableFile_stays.imp fun r s₄ hr => ?_)
          cases r with
          | error => exact of_error
          | ok raced => exact hrequire fun text h => by cases h; exact hr text rfl
        | true =>
          obtain ⟨htext, hlinked⟩ := hr true rfl rfl
          exact stays_io (fun s₄ hs => ⟨.refl _, fun _ _ =>
            ⟨lasting_hasText hs htext, fun _ => lasting_linked hs hlinked⟩⟩) fun _ _ _ _ h => nomatch h

end Writing

/-! ## What a publication returns -/

section Publishing

variable {publication : Publication} {session : SessionMetadata} {receipt : TerminalSessionReceipt}

/-- The receipt is the one that is published for its event. -/
def PublishedAs (host : ReceiptHost) (receipt : TerminalSessionReceipt) (s : ReceiptState) : Prop :=
  ∃ file, s.files (receiptLocator receipt.identity.eventId) = some file ∧ host.parse file.text = some receipt

/-- The result of a receipt is stored under its digest. -/
def ResultStored (host : ReceiptHost) (result : Option ReceiptResult) (s : ReceiptState) : Prop :=
  ∀ r, result = some r → Stored host r s

/-- What is true of an operation when a publication returns it. -/
structure Returned (host : ReceiptHost) (publication : Publication) (operation : Operation TerminalSessionReceipt)
    (s : ReceiptState) : Prop where
  published : ∀ receipt, operation.value? = some receipt → PublishedAs host receipt s ∧ ResultStored host receipt.result s
  emitted : ∀ receipt, operation = .succeeded receipt →
    Linked publication (receiptLocator receipt.identity.eventId) s

theorem lasting_publishedAs : Lasting (PublishedAs host receipt) :=
  fun hs ⟨file, hf, h⟩ => ⟨file, hs _ _ hf, h⟩

theorem lasting_resultStored {result : Option ReceiptResult} : Lasting (ResultStored host result) :=
  fun hs h r hr => lasting_stored hs (h r hr)

theorem lasting_returned {operation : Operation TerminalSessionReceipt} :
    Lasting (Returned host publication operation) := fun hs h =>
  ⟨fun receipt hr => ⟨lasting_publishedAs hs (h.published receipt hr).1, lasting_resultStored hs (h.published receipt hr).2⟩,
    fun receipt hr => lasting_linked hs (h.emitted receipt hr)⟩

theorem returned_of_none {operation : Operation TerminalSessionReceipt} (h : operation.value? = none) :
    Returned host publication operation s where
  published receipt hr := by
    rw [h] at hr
    cases hr
  emitted receipt hr := by
    rw [hr] at h
    cases h

theorem verifyResult_stays {result : Option ReceiptResult} :
    Stays (fun r s' => r = .ok ⟨⟩ → ResultStored host result s') (verifyResult host result) s := by
  cases result with
  | none => exact fun _ r hr => by cases hr
  | some result =>
    refine safe_bind.2 ?_
    cases resolveContainedPath result.locator with
    | error => exact fun h => by cases h
    | ok _ =>
      refine safe_bind.2 (safe_bind.2 (readExistingImmutableFile_stays.imp fun r s' hr => ?_))
      cases r with
      | error => exact fun h => by cases h
      | ok existing =>
        cases existing with
        | none => exact fun h => by cases h
        | some text =>
          obtain ⟨file, hf, rfl⟩ := hr text rfl
          simp only [safe_pure]
          split
          · rename_i hmatches
            exact fun _ r hr => by
              cases hr
              exact ⟨file, hf, hmatches⟩
          · exact fun h => by cases h

theorem readExistingReceipt_stays {locator : String} :
    Stays (fun r s' => ∀ receipt, r = .ok (some receipt) →
      ∃ file, s'.files locator = some file ∧ host.parse file.text = some receipt) (readExistingReceipt host locator) s := by
  refine safe_bind.2 (readExistingImmutableFile_stays.imp fun r s' hr => ?_)
  cases r with
  | error => exact fun _ h => nomatch h
  | ok existing =>
    cases existing with
    | none => exact fun _ h => nomatch h
    | some text =>
      obtain ⟨file, hf, rfl⟩ := hr text rfl
      simp only
      cases hparse : host.parse file.text with
      | none => exact fun _ h => nomatch h
      | some receipt =>
        intro receipt' h
        cases h
        exact ⟨file, hf, hparse⟩

/-- A receipt with the identity of an event is published for that event. -/
theorem identity_of_assert {identity : EventIdentity} (h : assertReceiptMatchesSession receipt session identity = .ok ()) :
    receipt.identity = identity := by
  have hthrow : ∀ {condition : Bool} {code : String} {next : Unit → Except ReceiptFault Unit},
      (throwUnless condition code >>= next) = .ok () → condition = true := by
    intro condition code next h
    cases condition with
    | true => rfl
    | false => cases h
  unfold assertReceiptMatchesSession assertReceiptIdentity at h
  cases hschema : throwUnless (receipt.schemaVersion = receiptSchemaVersion ∧ receipt.eventKind = receiptEventKind)
      "receipt_schema_mismatch" with
  | error fault =>
    rw [hschema] at h
    cases h
  | ok _ =>
    rw [hschema] at h
    exact of_decide_eq_true (hthrow h)

theorem returnExisting_stays {existing : TerminalSessionReceipt}
    (h : ∃ file, s.files (receiptLocator (createEventIdentity host session.id).eventId) = some file ∧
      host.parse file.text = some existing) :
    Stays (fun r s' => ∀ operation, r = .ok operation → Returned host publication operation s')
      (returnExisting host session existing) s := by
  refine safe_bind.2 ?_
  cases hassert : assertReceiptMatchesSession existing session (createEventIdentity host session.id) with
  | error => exact of_error
  | ok _ =>
    have hpublished : PublishedAs host existing s := by
      unfold PublishedAs
      rw [identity_of_assert hassert]
      exact h
    refine safe_bind.2 ((verifyResult_stays.frame hpublished lasting_publishedAs lasting_publishedAs).imp
      fun r s₁ hr => ?_)
    cases r with
    | error => exact of_error
    | ok _ =>
      obtain ⟨hstored, hpublished⟩ := hr
      have hreturned : Returned host publication (.deduplicated existing) s₁ := by
        refine ⟨fun receipt hreceipt => ?_, fun _ h => nomatch h⟩
        cases hreceipt
        exact ⟨hpublished, hstored rfl⟩
      refine safe_bind.2 ((kept_updateLedger.lasting lasting_returned hreturned).imp fun r s₂ hr => ?_)
      cases r with
      | error => exact of_error
      | ok _ =>
        intro operation heq
        cases heq
        exact hr

/-- A receipt that is built has the identity of its session, and its result is stored. -/
theorem buildReceipt_stays :
    Stays (fun r s' => ∀ receipt, r = .ok receipt →
      receipt.identity = createEventIdentity host session.id ∧ ResultStored host receipt.result s')
      (buildReceipt host session) s := by
  refine safe_bind.2 ?_
  cases checkIntent host session with
  | error => exact of_error
  | ok checked =>
    refine safe_bind.2 (verifyResult_stays.imp fun r s₁ hr => ?_)
    cases r with
    | error => exact of_error
    | ok _ =>
      refine safe_bind.2 (((kept_now s₁).frame (hr rfl) lasting_resultStored lasting_resultStored).imp fun r s₂ hr => ?_)
      cases r with
      | error => exact of_error
      | ok publishedAt =>
        intro receipt heq
        cases heq
        exact ⟨rfl, hr.2⟩

theorem reportWritten_stays {created : Bool} (hpublished : PublishedAs host receipt s)
    (hstored : ResultStored host receipt.result s)
    (hlinked : created = true → Linked publication (receiptLocator receipt.identity.eventId) s) :
    Stays (fun r s' => ∀ operation, r = .ok operation → Returned host publication operation s')
      (reportWritten receipt created) s := by
  have hreturned : Returned host publication (if created then .succeeded receipt else .deduplicated receipt) s := by
    cases created with
    | true =>
      refine ⟨fun r hr => ?_, fun r hr => ?_⟩
      · cases hr
        exact ⟨hpublished, hstored⟩
      · cases hr
        exact hlinked rfl
    | false =>
      refine ⟨fun r hr => ?_, fun _ h => nomatch h⟩
      cases hr
      exact ⟨hpublished, hstored⟩
  refine safe_bind.2 ((kept_updateLedger.lasting lasting_returned hreturned).imp fun r s' hr => ?_)
  cases r with
  | error => exact of_error
  | ok _ =>
    intro operation heq
    cases heq
    exact hr

theorem publishNew_stays :
    Stays (fun r s' => ∀ operation, r = .ok operation → Returned host publication operation s')
      (publishNew host publication session (receiptLocator (createEventIdentity host session.id).eventId)) s := by
  refine safe_bind.2 (buildReceipt_stays.imp fun r s₁ hr => ?_)
  cases r with
  | error => exact of_error
  | ok receipt =>
    obtain ⟨hidentity, hstored⟩ := hr receipt rfl
    have hwrite : Stays (fun r s' => ∀ created, r = .ok (some created) →
        HasText (receiptLocator receipt.identity.eventId) (host.stringify receipt) s' ∧
          (created = true → Linked publication (receiptLocator receipt.identity.eventId) s'))
        (writeReceiptFile host publication (receiptLocator receipt.identity.eventId) receipt) s₁ := by
      refine safe_orElse.2 (safe_bind.2 (writeImmutableFile_stays.imp fun r s₂ hr => ?_))
      cases r with
      | error fault =>
        simp only
        split
        · exact fun _ h => nomatch h
        · exact fun _ h => nomatch h
      | ok created =>
        intro created' heq
        cases heq
        exact hr created rfl
    rw [← hidentity]
    refine safe_bind.2 ((hwrite.frame hstored lasting_resultStored lasting_resultStored).imp fun r s₂ hr => ?_)
    obtain ⟨hwritten, hstored⟩ := hr
    cases r with
    | error => exact of_error
    | ok written =>
      cases written with
      | none =>
        refine safe_bind.2 (readExistingReceipt_stays.imp fun r s₃ hr => ?_)
        cases r with
        | error => exact of_error
        | ok raced =>
          cases raced with
          | none => exact fun _ h => nomatch h
          | some raced => exact returnExisting_stays (hidentity ▸ hr raced rfl)
      | some created =>
        obtain ⟨⟨file, hf, htext⟩, hlinked⟩ := hwritten created rfl
        exact reportWritten_stays ⟨file, hf, by rw [htext, host.parse_stringify]⟩ hstored hlinked

theorem publishAttempt_stays :
    Stays (fun r s' => ∀ operation, r = .ok operation → Returned host publication operation s')
      (publishAttempt host config publication session) s := by
  refine safe_bind.2 ((kept_resolveRoot s).imp fun r s₁ _ => ?_)
  cases r with
  | error => exact of_error
  | ok _ =>
    refine safe_bind.2 ?_
    cases resolveContainedPath (receiptLocator (createEventIdentity host session.id).eventId) with
    | error => exact of_error
    | ok _ =>
      refine safe_bind.2 (readExistingReceipt_stays.imp fun r s₂ hr => ?_)
      cases r with
      | error => exact of_error
      | ok existing =>
        cases existing with
        | some existing => exact returnExisting_stays (hr existing rfl)
        | none => exact publishNew_stays

/-- **A publication** returns the receipt that is published, and reports it as emitted only when it has linked it. -/
theorem publish_stays :
    Stays (fun r s' => ∀ operation, r = .ok operation → Returned host publication operation s')
      (publishTerminalSessionReceipt host config publication session) s := by
  unfold publishTerminalSessionReceipt
  split
  · refine safe_orElse.2 (publishAttempt_stays.imp fun r s₁ hr => ?_)
    cases r with
    | ok operation => exact fun _ heq => by cases heq; exact hr operation rfl
    | error fault =>
      exact failOperation_stays.imp fun r s₂ hr operation heq => returned_of_none (hr operation heq)
  · intro operation heq
    cases heq
    exact returned_of_none rfl

end Publishing

/-! ## Preparing and reconciling -/

section Reconciling

variable {publication : Publication} {session : SessionMetadata} {caller : Nat}

theorem kept_writeImmutableFile {locator payload : String} :
    Kept (writeImmutableFile host publication locator payload) := fun _ =>
  writeImmutableFile_stays.imp fun _ _ _ => trivial

theorem kept_prepare {terminalState : TerminalState} {resultText : Option String} :
    Kept (prepareTerminalSessionReceipt host config publication session terminalState resultText) := by
  unfold prepareTerminalSessionReceipt
  split
  · refine (Kept.bind ?_ fun _ => kept_done).orElse fun _ => fun _ => failOperation_stays.imp fun _ _ _ => trivial
    refine kept_resolveRoot.bind fun _ => Kept.bind ?_ fun _ => kept_done.bind fun _ => kept_now.bind fun _ => kept_done
    cases resultText with
    | none => exact kept_done
    | some text => exact kept_done.bind fun _ => kept_writeImmutableFile.bind fun _ => kept_done
  · exact kept_done

theorem kept_ensureIntent {state : TerminalState} : Kept (ensureIntent host config publication session state) := by
  unfold ensureIntent
  split
  · exact kept_done
  · split
    · exact kept_done
    · refine kept_prepare.bind fun operation => ?_
      cases operation.value? with
      | none => exact kept_done
      | some intent =>
        exact ((kept_io fun _ => rfl).bind fun _ => (kept_io fun _ => rfl).bind fun _ => kept_done).bind fun _ =>
          kept_done

theorem reconcileSession_stays {state : TerminalState} :
    Stays (fun r s' => ∀ operation, r = .ok (some operation) → Returned host publication operation s')
      (reconcileSession host config publication session state) s := by
  refine safe_bind.2 ((kept_ensureIntent s).imp fun r s₁ _ => ?_)
  cases r with
  | error => exact fun _ h => nomatch h
  | ok candidate =>
    cases candidate with
    | none => exact fun _ h => nomatch h
    | some candidate =>
      refine safe_bind.2 (publish_stays.imp fun r s₂ hr => ?_)
      cases r with
      | error => exact fun _ h => nomatch h
      | ok operation => exact fun _ heq => by cases heq; exact hr operation rfl

/-- What the publications of one call have returned. -/
abbrev Publications := List (Option (Operation TerminalSessionReceipt))

/-- How many publications have reported an emission. -/
def emissions (published : Publications) : Nat :=
  published.countP fun operation => match operation with
    | some (.succeeded _) => true
    | _ => false

/-- What is true of a reconciliation, all along its loop. -/
structure Reconciled (host : ReceiptHost) (caller : Nat) (summary : ReconciliationSummary) (published : Publications)
    (s : ReceiptState) : Prop where
  emitted : summary.emitted = emissions published
  returned : ∀ k operation, published[k]? = some (some operation) → Returned host (caller, k) operation s

theorem lasting_reconciled {summary : ReconciliationSummary} {published : Publications} :
    Lasting (Reconciled host caller summary published) := fun hs h =>
  ⟨h.emitted, fun k operation hk => lasting_returned hs (h.returned k operation hk)⟩

/-- One more publication is counted. -/
theorem Reconciled.push {summary : ReconciliationSummary} {published : Publications}
    (h : Reconciled host caller summary published s) {operation : Option (Operation TerminalSessionReceipt)}
    (hreturned : ∀ o, operation = some o → Returned host (caller, published.length) o s) :
    Reconciled host caller (summary.count operation) (published ++ [operation]) s where
  emitted := by
    rw [emissions, List.countP_append, ← emissions, ← h.emitted]
    rcases operation with _ | (_ | _ | _ | _) <;> rfl
  returned k o hk := by
    rcases Indexed.append_cases hk with hk | ⟨rfl, heq⟩
    · exact h.returned k o hk
    · exact hreturned o heq.symm

theorem reconcileSessions_stays {sessions : List SessionMetadata} {summary : ReconciliationSummary}
    {published : Publications} (h : Reconciled host caller summary published s) :
    Stays (fun r s' => ∀ reconciled, r = .ok reconciled → Reconciled host caller reconciled.1 reconciled.2 s')
      (reconcileSessions host config caller sessions summary published) s := by
  induction sessions generalizing summary published s with
  | nil =>
    intro reconciled heq
    cases heq
    exact h
  | cons session rest ih =>
    unfold reconcileSessions
    cases terminalStateFromSession session with
    | none => exact ih ⟨h.emitted, h.returned⟩
    | some state =>
      refine safe_bind.2 ((reconcileSession_stays.frame h lasting_reconciled lasting_reconciled).imp fun r s₁ hr => ?_)
      cases r with
      | error => exact of_error
      | ok operation => exact ih (hr.2.push fun o heq => hr.1 o (congrArg _ heq))

/-- What is true of a reconciliation when it returns. -/
def ReconciledBy (host : ReceiptHost) (caller : Nat) (operation : Operation ReconciliationSummary)
    (published : Publications) (s : ReceiptState) : Prop :=
  (∀ summary, operation = .succeeded summary → summary.emitted = emissions published) ∧
    ∀ k o, published[k]? = some (some o) → Returned host (caller, k) o s

theorem reconcileAttempt_stays {excludeSessionId : Option String} :
    Stays (fun r s' => ∀ reconciled, r = .ok reconciled → ReconciledBy host caller reconciled.1 reconciled.2 s')
      (reconcileAttempt host config caller excludeSessionId) s := by
  have hempty : ∀ {sessions : List SessionMetadata} {startedAt : String} {s : ReceiptState},
      Reconciled host caller ⟨sessions.length, 0, 0, 0, 0, startedAt⟩ [] s :=
    ⟨rfl, fun k o hk => by cases k <;> cases hk⟩
  refine safe_bind.2 ((kept_resolveRoot s).imp fun r s₁ _ => ?_)
  cases r with
  | error => exact of_error
  | ok _ =>
    have hlist : Kept (io fun s => (.ok s.sessions, s)) := kept_io fun _ => rfl
    refine safe_bind.2 ((hlist s₁).imp fun r s₂ _ => ?_)
    cases r with
    | error => exact of_error
    | ok listed =>
      refine safe_bind.2 ((kept_now s₂).imp fun r s₃ _ => ?_)
      cases r with
      | error => exact of_error
      | ok startedAt =>
        refine safe_bind.2 ((reconcileSessions_stays hempty).imp fun r s₄ hr => ?_)
        cases r with
        | error => exact of_error
        | ok reconciled =>
          have hreconciled := hr reconciled rfl
          refine safe_bind.2 ((kept_now.lasting lasting_reconciled hreconciled).imp fun r s₅ hr => ?_)
          cases r with
          | error => exact of_error
          | ok completedAt =>
            refine safe_bind.2 ((kept_updateLedger.lasting lasting_reconciled hr).imp fun r s₆ hr => ?_)
            cases r with
            | error => exact of_error
            | ok _ =>
              intro result heq
              cases heq
              refine ⟨fun summary hsummary => ?_, hr.returned⟩
              cases hsummary
              exact hr.emitted

theorem reconcile_stays {excludeSessionId : Option String} :
    Stays (fun r s' => ∀ reconciled, r = .ok reconciled → ReconciledBy host caller reconciled.1 reconciled.2 s')
      (reconcileTerminalSessionReceipts host config caller excludeSessionId) s := by
  have hnothing : ∀ {operation : Operation ReconciliationSummary} {s : ReceiptState}, operation.value? = none →
      ReconciledBy host caller operation [] s := fun hnone =>
    ⟨fun summary h => (by rw [h] at hnone; cases hnone), fun k o hk => by cases k <;> cases hk⟩
  unfold reconcileTerminalSessionReceipts
  split
  · refine safe_orElse.2 (reconcileAttempt_stays.imp fun r s₁ hr => ?_)
    cases r with
    | ok reconciled => exact fun _ heq => by cases heq; exact hr reconciled rfl
    | error fault =>
      refine safe_bind.2 (failOperation_stays.imp fun r s₂ hr => ?_)
      cases r with
      | error => exact of_error
      | ok operation =>
        intro result heq
        cases heq
        exact hnothing (hr operation rfl)
  · intro result heq
    cases heq
    exact hnothing rfl

end Reconciling

/-! ## All runs -/

/-- What is true of a call when it returns. -/
def CallReturned (host : ReceiptHost) (caller : Nat) (_ : ReceiptCall) (r : Except ReceiptFault CallResult)
    (s : ReceiptState) : Prop :=
  (∀ operation, r = .ok (.published operation) → Returned host (caller, 0) operation s) ∧
    ∀ operation published, r = .ok (.reconciled operation published) → ReconciledBy host caller operation published s

theorem receiptCall_stays (caller : Nat) (input : ReceiptCall) :
    Stays (CallReturned host caller input) (receiptCall host config caller input) s := by
  cases input with
  | prepare session terminalState resultText =>
    refine safe_bind.2 ((kept_prepare s).imp fun r s' _ => ?_)
    cases r <;> exact ⟨(fun _ h => nomatch h), fun _ _ h => nomatch h⟩
  | publish session =>
    refine safe_bind.2 (publish_stays.imp fun r s' hr => ?_)
    cases r with
    | error => exact ⟨(fun _ h => nomatch h), fun _ _ h => nomatch h⟩
    | ok operation => exact ⟨fun _ heq => by cases heq; exact hr operation rfl, fun _ _ h => nomatch h⟩
  | reconcile excludeSessionId =>
    refine safe_bind.2 (reconcile_stays.imp fun r s' hr => ?_)
    cases r with
    | error => exact ⟨(fun _ h => nomatch h), fun _ _ h => nomatch h⟩
    | ok reconciled => exact ⟨(fun _ h => nomatch h), fun _ _ heq => by cases heq; exact hr reconciled rfl⟩

/-- Publishers and reconcilers leave every file as it is, whatever the others do. -/
theorem receipts_compatible :
    Threads.Compatible (fun s => ∀ locator file, s.files locator = some file → file.creator = none)
    (receiptCall host config) disturb (fun _ => True) (fun _ => Grows) (fun _ => Grows) (CallReturned host) where
  refl _ := Grows.refl
  trans := Grows.trans
  init _ _ := trivial
  outside {s event s'} _ h := by
    refine ⟨trivial, fun _ => ?_⟩
    cases event <;> cases h <;> exact .refl _
  others _ _ h := h
  call caller input _ _ _ _ _ := receiptCall_stays caller input

/-- The `k`-th publication of the call has returned the operation. -/
def Reports (c : Threads ReceiptState ReceiptFault CallResult) (caller k : Nat)
    (operation : Operation TerminalSessionReceipt) : Prop :=
  (c.scripts[caller]? = some (.done (.ok (.published operation))) ∧ k = 0) ∨
    ∃ reconciliation published, c.scripts[caller]? = some (.done (.ok (.reconciled reconciliation published))) ∧
      published[k]? = some (some operation)

theorem returned_of_reports {c : Threads ReceiptState ReceiptFault CallResult}
    (hc : (receiptSystem host config).Reachable c) {caller k : Nat} {operation : Operation TerminalSessionReceipt}
    (h : Reports c caller k operation) : Returned host (caller, k) operation c.state := by
  rcases h with ⟨hdone, rfl⟩ | ⟨reconciliation, published, hdone, hk⟩
  · obtain ⟨input, s, hs, hreturned, -⟩ := Threads.end_of_reachable receipts_compatible hc hdone
    exact lasting_returned hs (hreturned operation rfl)
  · obtain ⟨input, s, hs, -, hreturned⟩ := Threads.end_of_reachable receipts_compatible hc hdone
    exact lasting_returned hs ((hreturned reconciliation published rfl).2 k operation hk)

/-- **Terminal receipts exactly once**: at most one publication reports the emission of an event, and a reconciliation
counts those of its own; a returned receipt is the published one, with its result stored under its digest; and what is
published never changes. -/
theorem receipts_exactly_once {c : Threads ReceiptState ReceiptFault CallResult}
    (hc : (receiptSystem host config).Reachable c) :
    (∀ caller k caller' k' receipt receipt', Reports c caller k (.succeeded receipt) →
      Reports c caller' k' (.succeeded receipt') → receipt.identity.eventId = receipt'.identity.eventId →
      (caller, k) = (caller', k')) ∧
    (∀ (caller : Nat) (summary : ReconciliationSummary) (published : Publications),
      c.scripts[caller]? = some (.done (.ok (.reconciled (.succeeded summary) published))) →
      summary.emitted = emissions published) ∧
    (∀ caller k operation receipt, Reports c caller k operation → operation.value? = some receipt →
      PublishedAs host receipt c.state ∧ ResultStored host receipt.result c.state) ∧
    ∀ events c', (receiptSystem host config).Run c events c' → Grows c.state c'.state := by
  refine ⟨fun caller k caller' k' receipt receipt' h h' hsame => ?_, fun caller summary published hdone => ?_,
    fun caller k operation receipt h hvalue => (returned_of_reports hc h).published receipt hvalue,
    fun events c' hrun => ?_⟩
  · obtain ⟨file, hf, hcreator⟩ := (returned_of_reports hc h).emitted receipt rfl
    obtain ⟨file', hf', hcreator'⟩ := (returned_of_reports hc h').emitted receipt' rfl
    rw [← hsame, hf] at hf'
    cases hf'
    exact Option.some.inj (hcreator.symm.trans hcreator')
  · obtain ⟨input, s, -, -, hreconciled⟩ := Threads.end_of_reachable receipts_compatible hc hdone
    exact (hreconciled _ _ rfl).1 summary rfl
  · refine Threads.moves_of_run receipts_compatible Grows.refl Grows.trans id (fun {s event s'} h => ?_) hc hrun
    cases event <;> cases h <;> exact .refl _

/-! ## A session that succeeded -/

/-- Digests of the texts below, and other texts for all other texts. -/
def reviewDigest (text : String) : String :=
  if text = "auracall-session-v1\x002026-03-01-review" then
    "af480eef374781017b712be05af4b6c25d99d75bd7d9fe0dbcaecc9bdf7687a4"
  else if text = "auracall.session.terminal\x00af480eef374781017b712be05af4b6c25d99d75bd7d9fe0dbcaecc9bdf7687a4" then
    "83ab7baa9b0113b9672ebebe45388a271a5a96de8ebbd1a517209d64edc212c3"
  else if text = "Looks good." then "55f1d3e9d8ec557f041cf35d019ef7fdb4d48ebac4c38b1077ace6e0e3f4e334"
  else "digest of " ++ text

theorem reviewDigest_injective : Function.Injective reviewDigest := by
  have hother : ∀ text digest : String, digest.toList.head? ≠ some 'd' → "digest of " ++ text ≠ digest :=
    fun text digest hhead h => hhead (by simp [← h])
  intro a b h
  unfold reviewDigest at h
  split_ifs at h with h1 h2 h3 h4 h5 h6
  all_goals first
    | (exact absurd h (by decide))
    | (exact absurd h (hother _ _ (by decide)))
    | (exact absurd h.symm (hother _ _ (by decide)))
    | (exact String.append_right_inj _ |>.1 h)
    | (subst_vars; rfl)

def stateName : TerminalState → String
  | .succeeded => "succeeded"
  | .error => "error"
  | .cancelled => "cancelled"

def resultFields (result : ReceiptResult) : String :=
  FieldText.ofFields [result.locator, result.digest, FieldText.count result.bytes]

def errorFields (error : ErrorSummary) : String := FieldText.ofFields [error.category, error.code]

/-- The fields of a receipt, one after another. -/
def receiptFields (receipt : TerminalSessionReceipt) : String :=
  FieldText.ofFields [FieldText.count receipt.schemaVersion, receipt.eventKind, receipt.identity.sessionRef,
    receipt.identity.eventId, receipt.identity.idempotencyKey, stateName receipt.terminalState, receipt.terminalAt,
    receipt.persistedAt, receipt.publishedAt, receipt.execution.mode, FieldText.optional receipt.execution.provider,
    FieldText.optional receipt.execution.modelClass, FieldText.optional (receipt.result.map resultFields),
    FieldText.optional (receipt.error.map errorFields)]

theorem receiptFields_injective : Function.Injective receiptFields := by
  have hresult : Function.Injective resultFields := fun a b h => by
    have hfields := FieldText.ofFields_injective h
    cases a
    cases b
    simp_all [FieldText.count_injective.eq_iff]
  have herror : Function.Injective errorFields := fun a b h => by
    have hfields := FieldText.ofFields_injective h
    cases a
    cases b
    simp_all
  have hstate : Function.Injective stateName := fun a b h => by
    cases a <;> cases b <;> first | rfl | (exact absurd h (by decide))
  rintro ⟨_, _, ⟨_, _, _⟩, _, _, _, _, ⟨_, _, _⟩, _, _⟩ ⟨_, _, ⟨_, _, _⟩, _, _, _, _, ⟨_, _, _⟩, _, _⟩ h
  have hfields := FieldText.ofFields_injective h
  simp only [List.cons.injEq, FieldText.count_injective.eq_iff, FieldText.optional_injective.eq_iff, hstate.eq_iff,
    (Option.map_injective hresult).eq_iff, (Option.map_injective herror).eq_iff, and_true] at hfields
  simp only [hfields]

def reviewIdentity : EventIdentity where
  sessionRef := "sha256:af480eef374781017b712be05af4b6c25d99d75bd7d9fe0dbcaecc9bdf7687a4"
  eventId := "evt_83ab7baa9b0113b9672ebebe45388a271a5a96de8ebbd1a517209d64edc212c3"
  idempotencyKey := "sha256:83ab7baa9b0113b9672ebebe45388a271a5a96de8ebbd1a517209d64edc212c3"

def reviewResult : ReceiptResult where
  locator := "results/v1/evt_83ab7baa9b0113b9672ebebe45388a271a5a96de8ebbd1a517209d64edc212c3.txt"
  digest := "sha256:55f1d3e9d8ec557f041cf35d019ef7fdb4d48ebac4c38b1077ace6e0e3f4e334"
  bytes := 11

def reviewSession : SessionMetadata where
  id := "2026-03-01-review"
  status := "completed"
  completedAt := some "2026-03-01T10:00:00.000Z"
  mode := some "api"
  browserTarget := none
  model := some "gpt-5"
  optionsModel := none
  errorCategory := none
  transportReason := none
  terminalReceiptIntent :=
    some ⟨1, "auracall.session.terminal", reviewIdentity, .succeeded, "2026-03-01T10:00:01.000Z", some reviewResult⟩

def reviewReceipt : TerminalSessionReceipt where
  schemaVersion := 1
  eventKind := "auracall.session.terminal"
  identity := reviewIdentity
  terminalState := .succeeded
  terminalAt := "2026-03-01T10:00:00.000Z"
  persistedAt := "2026-03-01T10:00:01.000Z"
  publishedAt := "2026-03-01T10:00:02.000Z"
  execution := ⟨"api", some "openai", some "openai"⟩
  result := some reviewResult
  error := none

noncomputable def reviewHost : ReceiptHost where
  cases := .lowered
  sha256 := reviewDigest
  stringify := receiptFields
  parse := Function.partialInv receiptFields
  sha256_injective := reviewDigest_injective
  parse_stringify := Function.partialInv_left receiptFields_injective

/-- Nothing has happened yet. -/
def ReceiptState.new (clock : String) : ReceiptState := ⟨none, clock, [], fun _ => none, ⟨none, none, none⟩⟩

noncomputable def reviewRun : Option (Threads ReceiptState ReceiptFault CallResult) :=
  execute (Threads.next (receiptCall reviewHost ⟨true, none⟩) disturb) ⟨.new "2026-03-01T10:00:02.000Z", []⟩
    ([.start (.prepare reviewSession .succeeded (some "Looks good."))] ++ List.replicate 6 (.act 0) ++
      [.start (.publish reviewSession)] ++ List.replicate 10 (.act 1))

/-- The receipt that a call of publish has reported as emitted. -/
def emittedReceipt (c : Threads ReceiptState ReceiptFault CallResult) (caller : Nat) : Option TerminalSessionReceipt :=
  match c.scripts[caller]? with
  | some (.done (.ok (.published (.succeeded receipt)))) => some receipt
  | _ => none

theorem reports_of_emittedReceipt {c : Threads ReceiptState ReceiptFault CallResult} {caller : Nat}
    {receipt : TerminalSessionReceipt} (h : emittedReceipt c caller = some receipt) :
    Reports c caller 0 (.succeeded receipt) := by
  unfold emittedReceipt at h
  split at h
  · rename_i hdone
    cases h
    exact .inl ⟨hdone, rfl⟩
  · cases h

/-- The result of the review is stored, and then its receipt is published. -/
theorem review_published : ∃ c, reviewRun = some c ∧ Reports c 1 0 (.succeeded reviewReceipt) ∧
    PublishedAs reviewHost reviewReceipt c.state ∧ ResultStored reviewHost (some reviewResult) c.state := by
  have hinit : (receiptSystem reviewHost ⟨true, none⟩).Reachable ⟨.new "2026-03-01T10:00:02.000Z", []⟩ :=
    .init ⟨nofun, rfl⟩
  have hobserved : reviewRun.bind (emittedReceipt · 1) = some reviewReceipt := by decide +kernel
  obtain ⟨c, hrun, hemitted⟩ := Option.bind_eq_some_iff.1 hobserved
  have hc : (receiptSystem reviewHost ⟨true, none⟩).Reachable c := reachable_execute hinit hrun
  have hreports := reports_of_emittedReceipt hemitted
  exact ⟨c, hrun, hreports, (receipts_exactly_once hc).2.2.1 1 0 _ reviewReceipt hreports rfl⟩

end AuraCall.Receipts
