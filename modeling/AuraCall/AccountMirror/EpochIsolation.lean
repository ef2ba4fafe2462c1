import AuraCall.AccountMirror.CacheHistory

/-!
# Evidence and the epochs after it

An update of evidence sets the work states that it finds, whatever their epoch: it is not told which epoch its work was
planned in. All work states of a document have the epoch of the snapshot that the document comes from, so no update sets
a state of a later epoch (`Isolated`) exactly when each is prompt: the document it reads comes from no snapshot later
than the one of its plan (`evidence_isolated_iff`).
-/

namespace AuraCall.AccountMirror.Frontier

open Script EventTrace

variable {host : FrontierHost}

/-- There was a snapshot of the one epoch, and after it one of the other. -/
def LaterEpoch (trace : List CacheEvent) (later earlier : String) : Prop :=
  later ≠ earlier ∧ ∃ before between after,
    trace = before ++ .snapshot earlier :: between ++ .snapshot later :: after

/-- An update sets no work state of an epoch later than that of its plan. -/
def Isolated (before : List CacheEvent) : CacheEvent → Prop
  | .snapshot _ => True
  | .evidence _ plannedEpoch _ marked _ => ∀ epochId ∈ marked, ¬LaterEpoch before epochId plannedEpoch

/-- An update that has something to set has read a document that comes from no snapshot later than that of its plan. -/
def Prompt (before : List CacheEvent) : CacheEvent → Prop
  | .snapshot _ => True
  | .evidence _ plannedEpoch _ marked read =>
    marked ≠ [] → ∀ epochId, read = some epochId → ¬LaterEpoch before epochId plannedEpoch

theorem isolated_iff_prompt {before : List CacheEvent} {event : CacheEvent} (h : event.Attributed) :
    Isolated before event ↔ Prompt before event := by
  cases event with
  | snapshot => exact .rfl
  | evidence id plannedEpoch availability marked read =>
    constructor
    · intro hisolated hmarked epochId hread
      obtain ⟨first, hfirst⟩ := List.exists_mem_of_ne_nil marked hmarked
      have hsame : epochId = first := Option.some.inj (hread.symm.trans (h first hfirst))
      exact hsame ▸ hisolated first hfirst
    · intro hprompt epochId hepochId
      exact hprompt (List.ne_nil_of_mem hepochId) epochId (h epochId hepochId)

/-- **Evidence is isolated** in a run exactly when every update is prompt. -/
theorem evidence_isolated_iff {c : Threads CacheState Unit PUnit} (h : (cacheSystem host).Reachable c) :
    Lawful Isolated c.state.trace ↔ Lawful Prompt c.state.trace := by
  have hattributed := (soundCache_of_reachable h).attributed
  have hevent : ∀ before event after, c.state.trace = before ++ event :: after →
      (Isolated before event ↔ Prompt before event) := by
    intro before event after heq
    exact isolated_iff_prompt (hattributed event (heq ▸ List.mem_append_right _ List.mem_cons_self))
  constructor
  · intro hisolated before event after heq
    exact (hevent before event after heq).1 (hisolated before event after heq)
  · intro hprompt before event after heq
    exact (hevent before event after heq).2 (hprompt before event after heq)

/-! ## Work on the first version of a conversation -/

/-- The epochs of the samples. -/
def sampleEpoch (day : String) : String := "sha256:chatgptdefaultsha256:account." ++ day ++ "sha256:.."

def firstDay : String := "2026-01-01T00:00:00.000Z"

def secondDay : String := "2026-01-02T00:00:00.000Z"

/-- The evidence comes before the next epoch. -/
theorem prompt_evidence_isolated : ∃ c : Threads CacheState Unit PUnit, (cacheSystem sampleFrontierHost).Reachable c ∧
    c.state.trace = [.snapshot (sampleEpoch firstDay), .evidence "c" (sampleEpoch firstDay) (some .available)
      [sampleEpoch firstDay] (some (sampleEpoch firstDay))] ∧ Lawful Isolated c.state.trace := by
  have hrun : (callsInTurn [.snapshot (sampleRecord firstDay "first") noSupplement,
      .evidence (sampleUpdate (sampleEpoch firstDay) .available) noSupplement]).map (·.state.trace) =
      some [.snapshot (sampleEpoch firstDay), .evidence "c" (sampleEpoch firstDay) (some .available)
        [sampleEpoch firstDay] (some (sampleEpoch firstDay))] := by
    decide +kernel
  obtain ⟨c, hc, htrace⟩ := Option.map_eq_some_iff.1 hrun
  refine ⟨c, callsInTurn_reachable hc, htrace, (evidence_isolated_iff (callsInTurn_reachable hc)).2 ?_⟩
  rw [htrace]
  have hsnapshot : Lawful Prompt [.snapshot (sampleEpoch firstDay)] := lawful_nil.push trivial
  refine hsnapshot.push fun _ epochId hread hlater => ?_
  exact hlater.1 (Option.some.inj hread).symm

/-- **Evidence of work on the first version marks the second one as terminal.** -/
theorem late_evidence_marks_next_epoch : ¬ ∀ (host : FrontierHost) (c : Threads CacheState Unit PUnit),
    (cacheSystem host).Reachable c → Lawful Isolated c.state.trace := by
  intro h
  have hrun : (callsInTurn [.snapshot (sampleRecord firstDay "first") noSupplement,
      .snapshot (sampleRecord secondDay "second") noSupplement,
      .evidence (sampleUpdate (sampleEpoch firstDay) .available) noSupplement]).map (·.state.trace) =
      some [.snapshot (sampleEpoch firstDay), .snapshot (sampleEpoch secondDay),
        .evidence "c" (sampleEpoch firstDay) (some .available) [sampleEpoch secondDay] (some (sampleEpoch secondDay))] := by
    decide +kernel
  obtain ⟨c, hc, htrace⟩ := Option.map_eq_some_iff.1 hrun
  have hisolated := h _ c (callsInTurn_reachable hc) [.snapshot (sampleEpoch firstDay), .snapshot (sampleEpoch secondDay)]
    _ [] htrace (sampleEpoch secondDay) List.mem_cons_self
  exact hisolated ⟨by decide +kernel, [], [], [], rfl⟩

end AuraCall.AccountMirror.Frontier
