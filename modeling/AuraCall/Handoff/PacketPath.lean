import AuraCall.Js.Builtins
import AuraCall.Lib.PosixPath

/-!
# Where a handoff's packet is

`handoff/service.ts`: the directory of a packet, which `prepareCrossServiceHandoffPacket`, `readHandoffStatus` and
`readPreparedHandoffPacket` find in the same way. The id is normalized and resolved in the output root. The characters that
are left let a dot be an id, so the root itself and its parent can be meant; every other id names an
entry of the root (`packets_apart`), the same for ids that are normalized to the same (`packets_apart`).
-/

namespace AuraCall.Handoff

open PosixPath

/-! ## Ids -/

/-- `/[A-Za-z0-9._-]/`. -/
def isIdCharacter (c : Char) : Bool :=
  ('A' ≤ c && c ≤ 'Z') || ('a' ≤ c && c ≤ 'z') || ('0' ≤ c && c ≤ '9') || c == '.' || c == '_' || c == '-'

/-- A character with every other code unit replaced. -/
def idCharacters (c : Char) : List Char :=
  if isIdCharacter c then [c] else if c.toNat ≤ 0xFFFF then ['_'] else ['_', '_']

def normalizeHandoffId (value : String) : Option String :=
  if trim value = "" then none else some (String.ofList ((trim value).toList.flatMap idCharacters))

/-! ## Paths -/

/-- `path.resolve(...paths)`, in the working directory. -/
def pathResolve (cwd : String) (paths : List String) : String :=
  String.ofList (render (resolveSegments cwd.toList (paths.map String.toList)))

/-- The directory of a packet; nothing when the id is not accepted. -/
def packetPath (cwd outputRoot handoffId : String) : Option String :=
  (normalizeHandoffId handoffId).map fun normalizedId => pathResolve cwd [outputRoot, normalizedId]

/-- The path of an entry of a directory. -/
def entryOf (dir name : String) : String := (if dir = "/" then "" else dir) ++ "/" ++ name

section Paths

variable {cwd outputRoot handoffId handoffId' normalizedId normalizedId' : String}

theorem slash_notMem_idCharacters (c : Char) : '/' ∉ idCharacters c := by
  by_cases hc : isIdCharacter c = true
  · have hne : '/' ≠ c := by
      intro heq
      rw [← heq] at hc
      exact absurd hc (by decide)
    rw [idCharacters, if_pos hc, List.mem_singleton]
    exact hne
  · rw [idCharacters, if_neg hc]
    by_cases hone : c.toNat ≤ 0xFFFF
    · rw [if_pos hone]
      decide
    · rw [if_neg hone]
      decide

theorem idCharacters_ne_nil (c : Char) : idCharacters c ≠ [] := by
  unfold idCharacters
  split
  · exact List.cons_ne_nil _ _
  · split <;> exact List.cons_ne_nil _ _

/-- A normalized id is a name, if it is not made of dots. -/
theorem plain_of_normalized (h : normalizeHandoffId handoffId = some normalizedId) (hdot : normalizedId ≠ ".")
    (hdots : normalizedId ≠ "..") : Plain normalizedId.toList := by
  unfold normalizeHandoffId at h
  split at h
  next => cases h
  next hne =>
    have hid := Option.some.inj h
    subst hid
    have htext : ∀ name : String, String.ofList ((trim handoffId).toList.flatMap idCharacters) ≠ name →
        (trim handoffId).toList.flatMap idCharacters ≠ name.toList := by
      intro name hname heq
      exact hname (by rw [heq, String.ofList_toList])
    rw [String.toList_ofList]
    refine ⟨fun hnil => ?_, fun hslash => ?_, htext "." hdot, htext ".." hdots⟩
    · rcases hchars : (trim handoffId).toList with _ | ⟨c, rest⟩
      · exact hne (String.toList_eq_nil_iff.1 hchars)
      · rw [hchars, List.flatMap_cons, List.append_eq_nil_iff] at hnil
        exact idCharacters_ne_nil c hnil.1
    · obtain ⟨c, -, hc⟩ := List.mem_flatMap.1 hslash
      exact slash_notMem_idCharacters c hc

/-- The packet of a plain name is an entry of the root. -/
theorem pathResolve_plain (h : Plain normalizedId.toList) :
    pathResolve cwd [outputRoot, normalizedId] = entryOf (pathResolve cwd [outputRoot]) normalizedId := by
  have hroot : render (resolveSegments cwd.toList [outputRoot.toList]) = ['/'] ↔
      resolveSegments cwd.toList [outputRoot.toList] = [] := render_eq_root resolveSegments_nonempty
  have htext : String.ofList (render (resolveSegments cwd.toList [outputRoot.toList])) = "/" ↔
      render (resolveSegments cwd.toList [outputRoot.toList]) = ['/'] := by
    rw [← String.toList_inj, String.toList_ofList]
    rfl
  rw [pathResolve, pathResolve, List.map_cons, List.map_singleton, resolveSegments_plain _ h, List.map_singleton,
    render_concat, entryOf, ← String.toList_inj]
  by_cases hempty : resolveSegments cwd.toList [outputRoot.toList] = []
  · rw [if_pos (htext.2 (hroot.2 hempty)), hempty]
    simp
  · rw [if_neg fun heq => hempty (hroot.1 (htext.1 heq)), render, if_neg hempty]
    simp

end Paths

/-! ## Packets -/

/-- The id is accepted, and is not made of one dot or two. -/
structure NamesPacket (handoffId normalizedId : String) : Prop where
  normalized : normalizeHandoffId handoffId = some normalizedId
  notDot : normalizedId ≠ "."
  notDots : normalizedId ≠ ".."

theorem NamesPacket.plain {handoffId normalizedId : String} (h : NamesPacket handoffId normalizedId) :
    Plain normalizedId.toList :=
  plain_of_normalized h.normalized h.notDot h.notDots

theorem NamesPacket.packetPath_eq {handoffId normalizedId : String} (h : NamesPacket handoffId normalizedId)
    (cwd outputRoot : String) :
    packetPath cwd outputRoot handoffId = some (entryOf (pathResolve cwd [outputRoot]) normalizedId) := by
  rw [packetPath, h.normalized, Option.map_some, pathResolve_plain h.plain]

/-- **Packets are entries of the root**, which do not lie below one another, and are the same exactly for ids that are
normalized to the same. -/
theorem packets_apart (cwd outputRoot handoffId handoffId' normalizedId normalizedId' : String)
    (h : NamesPacket handoffId normalizedId) (h' : NamesPacket handoffId' normalizedId') :
    ∃ path path', packetPath cwd outputRoot handoffId = some path ∧ packetPath cwd outputRoot handoffId' = some path' ∧
      path = entryOf (pathResolve cwd [outputRoot]) normalizedId ∧ Plain normalizedId.toList ∧
      ¬(path ++ "/").toList <+: path'.toList ∧ (path = path' ↔ normalizedId = normalizedId') := by
  refine ⟨_, _, h.packetPath_eq .., h'.packetPath_eq .., rfl, h.plain, ?_, ?_⟩
  · simp only [entryOf, String.toList_append]
    rw [List.append_assoc, List.prefix_append_right_inj]
    rintro ⟨rest, hrest⟩
    apply h'.plain.whole
    rw [← hrest]
    simp
  · simp only [entryOf, ← String.toList_inj, String.toList_append, List.append_right_inj]

theorem two_packets_apart : ∃ path path', packetPath "/home" "/out" " a b" = some path ∧
    packetPath "/home" "/out" "c" = some path' ∧ path = entryOf (pathResolve "/home" ["/out"]) "a_b" ∧
    Plain "a_b".toList ∧ ¬(path ++ "/").toList <+: path'.toList ∧ (path = path' ↔ "a_b" = "c") :=
  packets_apart "/home" "/out" " a b" "c" "a_b" "c" ⟨by decide +kernel, by decide, by decide⟩
    ⟨by decide +kernel, by decide, by decide⟩

/-- **Other characters are merged**: ids that differ share a packet. -/
theorem merged_ids_share_packet : ¬ ∀ (cwd outputRoot handoffId handoffId' path path' : String),
    packetPath cwd outputRoot handoffId = some path → packetPath cwd outputRoot handoffId' = some path' →
    (∃ name, Plain name.toList ∧ path = entryOf (pathResolve cwd [outputRoot]) name) ∧
      (handoffId ≠ handoffId' → path ≠ path') := by
  intro hall
  have hshared := hall "/home" "/out" "a b" "a_b" "/out/a_b" "/out/a_b" (by decide +kernel) (by decide +kernel)
  exact hshared.2 (by decide) rfl

example : packetPath "/home" "/out/handoffs" ".." = some "/out" := by decide +kernel

end AuraCall.Handoff
