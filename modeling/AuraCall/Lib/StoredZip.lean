import AuraCall.Lib.ByteFields

/-!
# ZIP archives of stored members

The layout of an archive whose members are stored as they are: a local header before each member, the central directory
with a header for each of them, and the end record, which says where the directory is. `read` follows it from the end record:
it takes the directory, and for every header in it the member at its offset, and answers only when all headers agree and the
checks are those of the contents. An archive whose numbers fit into their fields is read back (`read_archive`).
-/

namespace StoredZip

open ByteFields

/-- The values of the fields that say nothing about the contents. -/
structure Settings where
  madeBy : Nat
  needed : Nat
  flags : Nat
  time : Nat
  date : Nat
  attributes : Nat

structure Member where
  name : List UInt8
  content : List UInt8

variable (settings : Settings) (check : List UInt8 → Nat)

/-! ## The layout -/

def localFields (m : Member) : Fields :=
  [(4, 0x04034b50), (2, settings.needed), (2, settings.flags), (2, 0), (2, settings.time), (2, settings.date),
    (4, check m.content), (4, m.content.length), (4, m.content.length), (2, m.name.length), (2, 0)]

def localRecord (m : Member) : List UInt8 := layout (localFields settings check m) ++ (m.name ++ m.content)

def centralFields (offset : Nat) (m : Member) : Fields :=
  [(4, 0x02014b50), (2, settings.madeBy), (2, settings.needed), (2, settings.flags), (2, 0), (2, settings.time),
    (2, settings.date), (4, check m.content), (4, m.content.length), (4, m.content.length), (2, m.name.length), (2, 0),
    (2, 0), (2, 0), (2, 0), (4, settings.attributes), (4, offset)]

def centralRecord (offset : Nat) (m : Member) : List UInt8 :=
  layout (centralFields settings check offset m) ++ m.name

def locals (members : List Member) : List UInt8 := members.flatMap (localRecord settings check)

/-- The directory of members whose records begin at `offset`. -/
def directory : Nat → List Member → List UInt8
  | _, [] => []
  | offset, m :: members =>
    centralRecord settings check offset m ++ directory (offset + (localRecord settings check m).length) members

def endFields (count size offset : Nat) : Fields :=
  [(4, 0x06054b50), (2, 0), (2, 0), (2, count), (2, count), (4, size), (4, offset), (2, 0)]

def endRecord (count size offset : Nat) : List UInt8 := layout (endFields count size offset)

def archive (members : List Member) : List UInt8 :=
  locals settings check members ++ directory settings check 0 members ++
    endRecord members.length (directory settings check 0 members).length (locals settings check members).length

/-- Every number of the members' headers fits, where the records begin at `offset`. -/
def MembersFit : Nat → List Member → Prop
  | _, [] => True
  | offset, m :: members =>
    Fits (localFields settings check m) ∧ Fits (centralFields settings check offset m) ∧
      MembersFit (offset + (localRecord settings check m).length) members

instance decidableMembersFit : ∀ (offset : Nat) (members : List Member),
    Decidable (MembersFit settings check offset members)
  | _, [] => isTrue trivial
  | offset, m :: members =>
    have := decidableMembersFit (offset + (localRecord settings check m).length) members
    inferInstanceAs (Decidable (_ ∧ _ ∧ _))

/-- Every number of the archive fits into its field. -/
structure ArchiveFits (members : List Member) : Prop where
  headersFit : MembersFit settings check 0 members
  endFits : Fits (endFields members.length (directory settings check 0 members).length
    (locals settings check members).length)

/-! ## Reading -/

/-- What a header of the directory says. -/
structure Central where
  name : List UInt8
  check : Nat
  size : Nat
  offset : Nat

/-- The header of the directory at the start of the bytes, and what is after it. -/
def readCentral (bytes : List UInt8) : Option (Central × List UInt8) :=
  match readFields [4, 2, 2, 2, 2, 2, 2, 4, 4, 4, 2, 2, 2, 2, 2, 4, 4] bytes with
  | some ([signature, _, _, _, method, _, _, sum, stored, size, nameLength, extraLength, commentLength, _, _, _, offset],
      rest) =>
    if signature = 0x02014b50 ∧ method = 0 ∧ stored = size ∧ nameLength + extraLength + commentLength ≤ rest.length then
      some (⟨rest.take nameLength, sum, size, offset⟩, rest.drop (nameLength + extraLength + commentLength))
    else none
  | _ => none

def readDirectory : Nat → List UInt8 → Option (List Central × List UInt8)
  | 0, bytes => some ([], bytes)
  | count + 1, bytes => do
    let (header, bytes) ← readCentral bytes
    let (headers, rest) ← readDirectory count bytes
    pure (header :: headers, rest)

/-- The member a header of the directory points to. -/
def readMember (bytes : List UInt8) (header : Central) : Option Member :=
  match readFields [4, 2, 2, 2, 2, 2, 4, 4, 4, 2, 2] (bytes.drop header.offset) with
  | some ([signature, _, _, method, _, _, sum, stored, size, nameLength, extraLength], rest) =>
    let name := rest.take nameLength
    let content := (rest.drop (nameLength + extraLength)).take size
    if signature = 0x04034b50 ∧ method = 0 ∧ sum = header.check ∧ stored = header.size ∧ size = header.size ∧
        name = header.name ∧ content.length = size ∧ check content = sum then
      some ⟨name, content⟩
    else none
  | _ => none

/-- The end record at the start of the bytes, when its comment is all that follows: the number of headers, and the size of
the directory and where it begins. -/
def readEnd (bytes : List UInt8) : Option (Nat × Nat × Nat) :=
  match readFields [4, 2, 2, 2, 2, 4, 4, 2] bytes with
  | some ([signature, disk, directoryDisk, count, total, size, offset, commentLength], rest) =>
    if signature = 0x06054b50 ∧ disk = 0 ∧ directoryDisk = 0 ∧ count = total ∧ rest.length = commentLength then
      some (total, size, offset)
    else none
  | _ => none

/-- The last end record. -/
def findEnd (bytes : List UInt8) : Option (Nat × Nat × Nat) :=
  (List.range (bytes.length - 21)).reverse.findSome? fun start => readEnd (bytes.drop start)

/-- The members of an archive, in the order of its directory. -/
def read (bytes : List UInt8) : Option (List Member) := do
  let (count, size, offset) ← findEnd bytes
  let (headers, rest) ← readDirectory count ((bytes.drop offset).take size)
  if rest.isEmpty then headers.mapM (readMember check bytes) else none

/-! ## Archives are read back -/

variable {settings : Settings} {check : List UInt8 → Nat} {m : Member} {members : List Member} {offset : Nat}

/-- The headers of the directory. -/
def headers (settings : Settings) (check : List UInt8 → Nat) : Nat → List Member → List Central
  | _, [] => []
  | offset, m :: members =>
    ⟨m.name, check m.content, m.content.length, offset⟩ ::
      headers settings check (offset + (localRecord settings check m).length) members

theorem readCentral_record (h : Fits (centralFields settings check offset m)) (rest : List UInt8) :
    readCentral (centralRecord settings check offset m ++ rest) =
      some (⟨m.name, check m.content, m.content.length, offset⟩, rest) := by
  have hread := readFields_layout h (m.name ++ rest)
  rw [readCentral, centralRecord, List.append_assoc]
  rw [show (centralFields settings check offset m).map Prod.fst = [4, 2, 2, 2, 2, 2, 2, 4, 4, 4, 2, 2, 2, 2, 2, 4, 4]
    from rfl] at hread
  rw [hread]
  simp [centralFields]

theorem readDirectory_directory (h : MembersFit settings check offset members) (rest : List UInt8) :
    readDirectory members.length (directory settings check offset members ++ rest) =
      some (headers settings check offset members, rest) := by
  induction members generalizing offset with
  | nil => rfl
  | cons m members ih =>
    obtain ⟨-, hcentral, hmembers⟩ := h
    rw [directory, List.append_assoc, List.length_cons, readDirectory, readCentral_record hcentral]
    simp only [Option.bind_eq_bind, Option.bind_some, ih hmembers]
    rfl

theorem readMember_record (h : Fits (localFields settings check m)) (before rest : List UInt8) :
    readMember check (before ++ (localRecord settings check m ++ rest))
      ⟨m.name, check m.content, m.content.length, before.length⟩ = some m := by
  have hread := readFields_layout h (m.name ++ (m.content ++ rest))
  rw [show (localFields settings check m).map Prod.fst = [4, 2, 2, 2, 2, 2, 4, 4, 4, 2, 2] from rfl] at hread
  rw [readMember, List.drop_left, localRecord, List.append_assoc, List.append_assoc, hread]
  simp [localFields]

theorem mapM_readMember (h : MembersFit settings check offset members) (before rest : List UInt8)
    (hbefore : before.length = offset) :
    (headers settings check offset members).mapM
      (readMember check (before ++ (locals settings check members ++ rest))) = some members := by
  induction members generalizing offset before with
  | nil => rfl
  | cons m members ih =>
    obtain ⟨hlocal, -, hmembers⟩ := h
    have hsplit : before ++ (locals settings check (m :: members) ++ rest) =
        before ++ (localRecord settings check m ++ (locals settings check members ++ rest)) := by
      rw [locals, List.flatMap_cons, List.append_assoc]
      rfl
    have hone := readMember_record hlocal before (locals settings check members ++ rest)
    have hmany := ih hmembers (before ++ localRecord settings check m) (by rw [List.length_append, hbefore])
    rw [List.append_assoc] at hmany
    rw [headers, List.mapM_cons, hsplit, ← hbefore, hone, hbefore, hmany]
    rfl

theorem findEnd_archive (before : List UInt8) {count size offset : Nat} (h : Fits (endFields count size offset)) :
    findEnd (before ++ endRecord count size offset) = some (count, size, offset) := by
  have hlength : (endRecord count size offset).length = 22 := by
    rw [endRecord, length_layout]
    rfl
  have hread := readFields_layout h []
  rw [List.append_nil, show (endFields count size offset).map Prod.fst = [4, 2, 2, 2, 2, 4, 4, 2] from rfl] at hread
  have hlast : readEnd (endRecord count size offset) = some (count, size, offset) := by
    rw [readEnd, endRecord, hread]
    simp [endFields]
  rw [findEnd, List.length_append, hlength, show before.length + 22 - 21 = before.length + 1 by omega, List.range_succ,
    List.reverse_append, List.reverse_singleton, List.singleton_append, List.findSome?_cons, List.drop_left, hlast]

/-- **An archive is read back.** -/
theorem read_archive (h : ArchiveFits settings check members) :
    read check (archive settings check members) = some members := by
  have hdirectory := readDirectory_directory h.headersFit []
  have hmembers := mapM_readMember h.headersFit [] (directory settings check 0 members ++
    endRecord members.length (directory settings check 0 members).length (locals settings check members).length) rfl
  rw [List.append_nil] at hdirectory
  rw [List.nil_append, ← List.append_assoc] at hmembers
  rw [read, archive, findEnd_archive _ h.endFits]
  simp only [Option.bind_eq_bind, Option.bind_some, List.append_assoc, List.drop_left, List.take_left, hdirectory,
    List.isEmpty_nil, if_true]
  rw [← List.append_assoc]
  exact hmembers

end StoredZip
