import AuraCall.Js.Builtins
import AuraCall.Lib.Crc
import AuraCall.Lib.StoredZip
import Mathlib.Data.List.Sort

/-!
# The archive of a handoff's attachments

`buildDeterministicZipBuffer` (`handoff/service.ts`): the selected files as one ZIP archive, in the order of their names.

The headers are written into buffers of zeros, number by number; `Buffer` throws when a number does not fit. So what is
returned is the archive of the files (`buildDeterministicZipBuffer_eq_ok`), with the table-driven check equal to the
bitwise one (`computeCrc32_eq`), and `zip_reads_back` follows from what the layout's reader does with an archive.
-/

namespace AuraCall.Handoff

open ByteFields StoredZip

structure ZipEntry where
  name : String
  filePath : String
  deriving DecidableEq

/-- Why no archive is built: the code throws, `Buffer` refuses a number, or a file cannot be read. -/
inductive ZipError
  | thrown (message : String)
  | outOfRange
  | unreadable (filePath : String)
  deriving DecidableEq

/-! ## Names -/

/-- `value.replace(/\\/g, "/").replace(/^\/+/, "")`. -/
def zipEntryName (value : String) : String :=
  String.ofList ((value.toList.map fun c => if c = '\\' then '/' else c).dropWhile (· = '/'))

/-- A name that stays below the directory it is extracted to. -/
def safeZipEntryName (name : String) : Bool :=
  name != "" && !(name.toList.tails.any fun rest => "../".toList.isPrefixOf rest) && name != ".."

def normalizeZipEntryName (value : String) : Except ZipError String :=
  if safeZipEntryName (zipEntryName value) then .ok (zipEntryName value)
  else .error (.thrown ("Unsafe ZIP entry name: " ++ value))

/-- The names normalized, in the order of the list. -/
def normalizeZipEntries : List ZipEntry → Except ZipError (List ZipEntry)
  | [] => .ok []
  | entry :: entries => do
    let name ← normalizeZipEntryName entry.name
    let rest ← normalizeZipEntries entries
    .ok (⟨name, entry.filePath⟩ :: rest)

/-- `Buffer.from(name, "utf8")`. -/
def utf8 (name : String) : List UInt8 := name.toUTF8.data.toList

/-! ## CRC-32 -/

def crcPolynomial : BitVec 32 := 0xedb88320#32

/-- `CRC32_TABLE`. -/
def crc32Table : List (BitVec 32) :=
  (List.range 256).map fun index =>
    (fun value => if value &&& 1#32 ≠ 0#32 then crcPolynomial ^^^ (value >>> 1) else value >>> 1)^[8]
      (BitVec.ofNat 32 index)

def computeCrc32 (content : List UInt8) : BitVec 32 :=
  content.foldl (fun crc byte =>
    crc32Table.getD ((crc ^^^ byte.toBitVec.setWidth 32) &&& 0xff#32).toNat 0#32 ^^^ (crc >>> 8)) 0xffffffff#32
    ^^^ 0xffffffff#32

/-! ## Headers -/

def writeUInt32LE (value offset : Nat) : Write := ⟨4, value, offset⟩

def writeUInt16LE (value offset : Nat) : Write := ⟨2, value, offset⟩

/-- `Buffer.alloc(size)`, and what is written into it. -/
def headerBuffer (size : Nat) (writes : List Write) : Except ZipError (List UInt8) :=
  match writeAll (zeros size) writes with
  | some buffer => .ok buffer
  | none => .error .outOfRange

def localHeader (crc32 contentLength nameLength : Nat) : Except ZipError (List UInt8) :=
  headerBuffer 30 [
    writeUInt32LE 0x04034b50 0,
    writeUInt16LE 20 4,
    writeUInt16LE 0x0800 6,
    writeUInt16LE 0 8,
    writeUInt16LE 0 10,
    writeUInt16LE 33 12,
    writeUInt32LE crc32 14,
    writeUInt32LE contentLength 18,
    writeUInt32LE contentLength 22,
    writeUInt16LE nameLength 26,
    writeUInt16LE 0 28]

def centralHeader (crc32 contentLength nameLength offset : Nat) : Except ZipError (List UInt8) :=
  headerBuffer 46 [
    writeUInt32LE 0x02014b50 0,
    writeUInt16LE 20 4,
    writeUInt16LE 20 6,
    writeUInt16LE 0x0800 8,
    writeUInt16LE 0 10,
    writeUInt16LE 0 12,
    writeUInt16LE 33 14,
    writeUInt32LE crc32 16,
    writeUInt32LE contentLength 20,
    writeUInt32LE contentLength 24,
    writeUInt16LE nameLength 28,
    writeUInt16LE 0 30,
    writeUInt16LE 0 32,
    writeUInt16LE 0 34,
    writeUInt16LE 0 36,
    writeUInt32LE (0o100644 * 2 ^ 16) 38,
    writeUInt32LE offset 42]

def endOfCentralDirectory (count size offset : Nat) : Except ZipError (List UInt8) :=
  headerBuffer 22 [
    writeUInt32LE 0x06054b50 0,
    writeUInt16LE 0 4,
    writeUInt16LE 0 6,
    writeUInt16LE count 8,
    writeUInt16LE count 10,
    writeUInt32LE size 12,
    writeUInt32LE offset 16,
    writeUInt16LE 0 20]

/-! ## The archive -/

def assertZipUInt32 (value : Nat) (message : String) : Except ZipError Unit :=
  if 0xffffffff < value then .error (.thrown message) else .ok ()

/-- `fs.readFile(filePath)`. -/
def readZipContent (readFile : String → Option (List UInt8)) (filePath : String) : Except ZipError (List UInt8) :=
  match readFile filePath with
  | some content => .ok content
  | none => .error (.unreadable filePath)

/-- What the loop over the entries adds to the local and the central parts, and the offset after it. -/
def zipParts (readFile : String → Option (List UInt8)) :
    Nat → List ZipEntry → Except ZipError (List UInt8 × List UInt8 × Nat)
  | offset, [] => .ok ([], [], offset)
  | offset, entry :: entries => do
    let content ← readZipContent readFile entry.filePath
    let _ ← assertZipUInt32 content.length ("ZIP entry " ++ entry.name ++ " is too large")
    let _ ← assertZipUInt32 offset "ZIP central directory offset is too large"
    let crc32 := (computeCrc32 content).toNat
    let header ← localHeader crc32 content.length (utf8 entry.name).length
    let central ← centralHeader crc32 content.length (utf8 entry.name).length offset
    let (localParts, centralParts, last) ←
      zipParts readFile (offset + (header.length + (utf8 entry.name).length + content.length)) entries
    .ok (header ++ (utf8 entry.name ++ content) ++ localParts, central ++ utf8 entry.name ++ centralParts, last)

variable (readFile : String → Option (List UInt8)) (localeCompare : String → String → Ordering)

/-- `sort((a, b) => a.name.localeCompare(b.name))`. -/
def sortByName (entries : List ZipEntry) : List ZipEntry :=
  entries.insertionSort fun a b => (localeCompare a.name b.name).isLE

def buildDeterministicZipBuffer (entries : List ZipEntry) : Except ZipError (List UInt8) := do
  let normalized ← normalizeZipEntries entries
  let normalizedEntries := sortByName localeCompare normalized
  let (localParts, centralParts, centralDirectoryOffset) ← zipParts readFile 0 normalizedEntries
  let _ ← assertZipUInt32 centralDirectoryOffset "ZIP central directory offset is too large"
  let _ ← assertZipUInt32 centralParts.length "ZIP central directory is too large"
  if 0xffff < normalizedEntries.length then
    .error (.thrown "ZIP attachment packaging supports at most 65535 selected files.")
  else
    let last ← endOfCentralDirectory normalizedEntries.length centralParts.length centralDirectoryOffset
    .ok (localParts ++ centralParts ++ last)

/-! ## The check -/

theorem crcRound_eq (value : BitVec 32) :
    (if value &&& 1#32 ≠ 0#32 then crcPolynomial ^^^ (value >>> 1) else value >>> 1) = Crc.shift crcPolynomial value := by
  have hbit : value &&& 1#32 = (BitVec.ofBool (value.getLsbD 0)).setWidth 32 :=
    BitVec.and_one_eq_setWidth_ofBool_getLsbD
  rw [Crc.shift, hbit]
  cases value.getLsbD 0 <;> rfl

theorem crc32Table_getD (index : BitVec 32) (h : index.toNat < 256) :
    crc32Table.getD index.toNat 0#32 = Crc.shifts crcPolynomial 8 index := by
  rw [crc32Table, List.getD_eq_getElem?_getD, List.getElem?_map, List.getElem?_range h, Option.map_some,
    Option.getD_some, BitVec.ofNat_toNat, BitVec.setWidth_eq, Crc.shifts]
  exact congrArg (fun round : BitVec 32 → BitVec 32 => round^[8] index) (funext crcRound_eq)

/-- **The table computes CRC-32**, bit by bit. -/
theorem computeCrc32_eq (content : List UInt8) : computeCrc32 content = Crc.checksum crcPolynomial content := by
  have hfold : ∀ register : BitVec 32, content.foldl (fun crc byte =>
      crc32Table.getD ((crc ^^^ byte.toBitVec.setWidth 32) &&& 0xff#32).toNat 0#32 ^^^ (crc >>> 8)) register =
        Crc.feed crcPolynomial register content := by
    induction content with
    | nil => exact fun _ => rfl
    | cons byte content ih =>
      intro register
      have hsmall : ((register ^^^ byte.toBitVec.setWidth 32) &&& 255#32).toNat < 256 := by
        rw [BitVec.toNat_and]
        exact Nat.lt_succ_of_le Nat.and_le_right
      rw [List.foldl_cons, ih, Crc.feed_cons, Crc.feed_table byte (by decide), crc32Table_getD _ hsmall]
  rw [computeCrc32, hfold]
  rfl

/-! ## What is built -/

def zipSettings : Settings where
  madeBy := 20
  needed := 20
  flags := 0x0800
  time := 0
  date := 33
  attributes := 0o100644 * 2 ^ 16

/-- CRC-32, as the number that is stored. -/
def crc32 (content : List UInt8) : Nat := (Crc.checksum crcPolynomial content).toNat

/-- The file of an entry, with its name in UTF-8. -/
def memberOf (entry : ZipEntry) : Member := ⟨utf8 entry.name, (readFile entry.filePath).getD []⟩

section Built

variable {readFile} {localeCompare} {offset : Nat} {entries : List ZipEntry}

theorem headerBuffer_eq_ok {n : Nat} {fields : Fields} (hn : n = totalWidth fields) {buffer : List UInt8} :
    headerBuffer n (placed 0 fields) = .ok buffer ↔ Fits fields ∧ buffer = layout fields := by
  rw [headerBuffer, writeAll_zeros hn]
  by_cases hfits : Fits fields
  · simp [hfits, eq_comm]
  · simp [hfits]

theorem localHeader_eq_ok (m : Member) {buffer : List UInt8} :
    localHeader (crc32 m.content) m.content.length m.name.length = .ok buffer ↔
      Fits (localFields zipSettings crc32 m) ∧ buffer = layout (localFields zipSettings crc32 m) :=
  @headerBuffer_eq_ok 30 (localFields zipSettings crc32 m) rfl buffer

theorem centralHeader_eq_ok (m : Member) {buffer : List UInt8} :
    centralHeader (crc32 m.content) m.content.length m.name.length offset = .ok buffer ↔
      Fits (centralFields zipSettings crc32 offset m) ∧
        buffer = layout (centralFields zipSettings crc32 offset m) := by
  have hwrites : centralHeader (crc32 m.content) m.content.length m.name.length offset =
      headerBuffer 46 (placed 0 (centralFields zipSettings crc32 offset m)) := rfl
  have hwidth : 46 = totalWidth (centralFields zipSettings crc32 offset m) := by simp [centralFields, totalWidth]
  rw [hwrites]
  exact headerBuffer_eq_ok hwidth

theorem endOfCentralDirectory_eq_ok {count size : Nat} {buffer : List UInt8} :
    endOfCentralDirectory count size offset = .ok buffer ↔
      Fits (endFields count size offset) ∧ buffer = endRecord count size offset :=
  @headerBuffer_eq_ok 22 (endFields count size offset) rfl buffer

theorem assertZipUInt32_eq_ok {value : Nat} {message : String} {u : Unit} :
    assertZipUInt32 value message = .ok u ↔ value < 256 ^ 4 := by
  have hlt : value < 256 ^ 4 ↔ ¬0xffffffff < value := by omega
  rw [assertZipUInt32, hlt]
  split <;> simp_all

theorem readZipContent_eq_ok {filePath : String} {content : List UInt8} :
    readZipContent readFile filePath = .ok content ↔ readFile filePath = some content := by
  unfold readZipContent
  cases readFile filePath <;> simp

/-- The sizes that are asserted are among the numbers of the headers. -/
theorem sizes_of_fits {m : Member} (h : Fits (centralFields zipSettings crc32 offset m)) :
    m.content.length < 256 ^ 4 ∧ offset < 256 ^ 4 :=
  ⟨h (4, m.content.length) (by simp [centralFields]), h (4, offset) (by simp [centralFields])⟩

theorem length_record (m : Member) :
    (layout (localFields zipSettings crc32 m)).length + m.name.length + m.content.length =
      (localRecord zipSettings crc32 m).length := by
  rw [localRecord, List.length_append, List.length_append, Nat.add_assoc]

/-- **The loop** makes the records and the directory of the files, when they can be read and every number fits. -/
theorem zipParts_eq_ok {parts : List UInt8 × List UInt8 × Nat} :
    zipParts readFile offset entries = .ok parts ↔
      (∀ entry ∈ entries, readFile entry.filePath ≠ none) ∧
      MembersFit zipSettings crc32 offset (entries.map (memberOf readFile)) ∧
      parts = (locals zipSettings crc32 (entries.map (memberOf readFile)),
        directory zipSettings crc32 offset (entries.map (memberOf readFile)),
        offset + (locals zipSettings crc32 (entries.map (memberOf readFile))).length) := by
  induction entries generalizing offset parts with
  | nil => simp [zipParts, MembersFit, directory, locals, eq_comm]
  | cons entry entries ih =>
    rw [zipParts]
    cases hcontent : readFile entry.filePath with
    | none =>
      have hread : readZipContent readFile entry.filePath = .error (.unreadable entry.filePath) := by
        rw [readZipContent, hcontent]
      rw [hread]
      simp [hcontent, bind, Except.bind]
    | some content =>
      have hread : readZipContent readFile entry.filePath = .ok content := readZipContent_eq_ok.2 hcontent
      have hmember : memberOf readFile entry = ⟨utf8 entry.name, content⟩ := by rw [memberOf, hcontent]; rfl
      have hcrc : (computeCrc32 content).toNat = crc32 content := by rw [computeCrc32_eq]; rfl
      have hlocal := @localHeader_eq_ok ⟨utf8 entry.name, content⟩
      have hcentral := @centralHeader_eq_ok offset ⟨utf8 entry.name, content⟩
      dsimp only at hlocal hcentral
      simp only [bind_eq_ok, hread, Except.ok.injEq, exists_eq_left', assertZipUInt32_eq_ok, hcrc, ih,
        hlocal, hcentral, List.map_cons, hmember, MembersFit, directory, locals, List.flatMap_cons,
        List.forall_mem_cons, hcontent]
      have hlength := length_record ⟨utf8 entry.name, content⟩
      dsimp only at hlength
      constructor
      · rintro ⟨-, -, -, -, header, ⟨hlocalFits, rfl⟩, central, ⟨hcentralFits, rfl⟩, _, ⟨hreads, hfits, rfl⟩, hparts⟩
        rw [hlength] at hfits hparts
        refine ⟨⟨Option.some_ne_none content, hreads⟩, ⟨hlocalFits, hcentralFits, hfits⟩, ?_⟩
        rw [← hparts, List.length_append, ← Nat.add_assoc]
        rfl
      · rintro ⟨⟨-, hreads⟩, ⟨hlocalFits, hcentralFits, hfits⟩, rfl⟩
        obtain ⟨hsize, hoffset⟩ := sizes_of_fits hcentralFits
        refine ⟨(), hsize, (), hoffset, _, ⟨hlocalFits, rfl⟩, _, ⟨hcentralFits, rfl⟩, _, ⟨hreads, ?_, rfl⟩, ?_⟩
        · rw [hlength]
          exact hfits
        · rw [hlength, List.length_append, ← Nat.add_assoc]
          rfl

/-- The entries, with their names normalized. -/
def normalized (entries : List ZipEntry) : List ZipEntry := entries.map fun entry => ⟨zipEntryName entry.name, entry.filePath⟩

theorem normalizeZipEntries_eq_ok {result : List ZipEntry} : normalizeZipEntries entries = .ok result ↔
    (∀ entry ∈ entries, safeZipEntryName (zipEntryName entry.name) = true) ∧ result = normalized entries := by
  induction entries generalizing result with
  | nil => exact ⟨fun h => ⟨fun _ hmem => absurd hmem List.not_mem_nil, (Except.ok.inj h).symm⟩,
      fun h => congrArg Except.ok h.2.symm⟩
  | cons entry entries ih =>
    rw [normalizeZipEntries]
    simp only [bind_eq_ok, ih, normalizeZipEntryName, List.forall_mem_cons]
    constructor
    · rintro ⟨_, hname, _, ⟨hrest, rfl⟩, hresult⟩
      split at hname
      next hsafe =>
        cases hname
        exact ⟨⟨hsafe, hrest⟩, (Except.ok.inj hresult).symm⟩
      next => cases hname
    · rintro ⟨⟨hsafe, hrest⟩, rfl⟩
      exact ⟨_, if_pos hsafe, _, ⟨hrest, rfl⟩, rfl⟩

variable (readFile localeCompare) in
/-- The files of the entries, in the order of their names. -/
def zipMembers (entries : List ZipEntry) : List Member :=
  (sortByName localeCompare (normalized entries)).map (memberOf readFile)

/-- An archive of so many members and bytes fits. -/
theorem sizes_of_end {count size : Nat} (h : Fits (endFields count size offset)) :
    count < 256 ^ 2 ∧ size < 256 ^ 4 ∧ offset < 256 ^ 4 :=
  ⟨h (2, count) (by simp [endFields]), h (4, size) (by simp [endFields]), h (4, offset) (by simp [endFields])⟩

/-- **What is built**, and when: the archive of the files, when the names are safe, the files can be read, and every
number fits into its field. -/
theorem buildDeterministicZipBuffer_eq_ok {bytes : List UInt8} :
    buildDeterministicZipBuffer readFile localeCompare entries = .ok bytes ↔
      (∀ entry ∈ entries, safeZipEntryName (zipEntryName entry.name) = true) ∧
      (∀ entry ∈ sortByName localeCompare (normalized entries), readFile entry.filePath ≠ none) ∧
      ArchiveFits zipSettings crc32 (zipMembers readFile localeCompare entries) ∧
      bytes = archive zipSettings crc32 (zipMembers readFile localeCompare entries) := by
  have hcount : (sortByName localeCompare (normalized entries)).length =
      (zipMembers readFile localeCompare entries).length := (List.length_map _).symm
  rw [buildDeterministicZipBuffer]
  simp only [bind_eq_ok, normalizeZipEntries_eq_ok, zipParts_eq_ok, assertZipUInt32_eq_ok, Nat.zero_add]
  constructor
  · rintro ⟨_, ⟨hsafe, rfl⟩, _, ⟨hreads, hfits, rfl⟩, -, -, -, -, hlast⟩
    split at hlast
    · cases hlast
    · simp only [bind_eq_ok, endOfCentralDirectory_eq_ok, hcount] at hlast
      obtain ⟨_, ⟨hend, rfl⟩, hbytes⟩ := hlast
      exact ⟨hsafe, hreads, ⟨hfits, hend⟩, (Except.ok.inj hbytes).symm⟩
  · rintro ⟨hsafe, hreads, hfits, rfl⟩
    obtain ⟨hmany, hsize, hoffset⟩ := sizes_of_end hfits.endFits
    refine ⟨_, ⟨hsafe, rfl⟩, _, ⟨hreads, hfits.headersFit, rfl⟩, (), hoffset, (), hsize, ?_⟩
    rw [hcount, if_neg (by omega), bind_eq_ok]
    exact ⟨_, endOfCentralDirectory_eq_ok.2 ⟨hfits.endFits, rfl⟩, rfl⟩

/-! ## The order of the list -/

theorem pairwise_sortByName [Std.TransCmp localeCompare] (entries : List ZipEntry) :
    (sortByName localeCompare entries).Pairwise fun a b => (localeCompare a.name b.name).isLE := by
  have htotal : Std.Total fun a b : ZipEntry => (localeCompare a.name b.name).isLE = true := ⟨fun a b => by
    rw [@Std.OrientedCmp.eq_swap _ localeCompare _ b.name a.name]
    cases localeCompare a.name b.name <;> simp⟩
  have htrans : IsTrans ZipEntry fun a b => (localeCompare a.name b.name).isLE = true :=
    ⟨fun _ _ _ => Std.TransCmp.isLE_trans⟩
  exact List.pairwise_insertionSort _ entries

/-- **Sorted by distinct names**, a list is the same whatever its order was. -/
theorem sortByName_perm [Std.TransCmp localeCompare] [Std.LawfulEqCmp localeCompare] {entries' : List ZipEntry}
    (h : entries'.Perm entries) (hnames : (entries.map (·.name)).Nodup) :
    sortByName localeCompare entries' = sortByName localeCompare entries := by
  have hperm : (sortByName localeCompare entries').Perm (sortByName localeCompare entries) :=
    (List.perm_insertionSort _ _).trans (h.trans (List.perm_insertionSort _ _).symm)
  refine List.Perm.eq_of_pairwise (fun a b ha hb hab hba => ?_) (pairwise_sortByName entries')
    (pairwise_sortByName entries) hperm
  have hname : a.name = b.name := Std.LawfulEqCmp.eq_of_compare (Std.OrientedCmp.isLE_antisymm hab hba)
  have ha' : a ∈ entries := h.mem_iff.1 ((List.mem_insertionSort _).1 ha)
  exact List.inj_on_of_nodup_map hnames ha' ((List.mem_insertionSort _).1 hb) hname

end Built

/-! ## Reading the archive -/

/-- **The archive is one of the files.** -/
theorem zip_reads_back [Std.TransCmp localeCompare] [Std.LawfulEqCmp localeCompare] (entries : List ZipEntry)
    (hnames : (entries.map fun entry => zipEntryName entry.name).Nodup) (bytes : List UInt8)
    (h : buildDeterministicZipBuffer readFile localeCompare entries = .ok bytes) :
    (∃ files : List (String × List UInt8),
      StoredZip.read crc32 bytes = some (files.map fun file => ⟨utf8 file.1, file.2⟩) ∧
      (files.map fun file => (file.1, some file.2)).Perm
        (entries.map fun entry => (zipEntryName entry.name, readFile entry.filePath))) ∧
    (∃ members, bytes = archive zipSettings crc32 members ∧ ArchiveFits zipSettings crc32 members) ∧
    ∀ entries' : List ZipEntry, entries'.Perm entries →
      buildDeterministicZipBuffer readFile localeCompare entries' = .ok bytes := by
  obtain ⟨hsafe, hreads, hfits, rfl⟩ := buildDeterministicZipBuffer_eq_ok.1 h
  refine ⟨⟨(sortByName localeCompare (normalized entries)).map fun entry =>
    (entry.name, (readFile entry.filePath).getD []), ?_, ?_⟩, ⟨_, rfl, hfits⟩, fun entries' hperm => ?_⟩
  · rw [read_archive hfits, List.map_map]
    rfl
  · have hread : ∀ entry ∈ sortByName localeCompare (normalized entries),
        (entry.name, some ((readFile entry.filePath).getD [])) = (entry.name, readFile entry.filePath) := by
      intro entry hentry
      obtain ⟨content, hcontent⟩ := Option.ne_none_iff_exists'.1 (hreads entry hentry)
      rw [hcontent, Option.getD_some]
    have hsorted := (List.perm_insertionSort (fun a b => (localeCompare a.name b.name).isLE = true)
      (normalized entries)).map fun entry => (entry.name, readFile entry.filePath)
    have hfiles := List.map_congr_left hread
    rw [normalized, List.map_map] at hsorted
    rw [List.map_map]
    exact (List.Perm.of_eq hfiles).trans hsorted
  · have hnormalized : (normalized entries').Perm (normalized entries) := hperm.map _
    have hnames' : ((normalized entries).map (·.name)).Nodup := by
      rw [normalized, List.map_map]
      exact hnames
    have hsame : sortByName localeCompare (normalized entries') = sortByName localeCompare (normalized entries) :=
      sortByName_perm hnormalized hnames'
    have hmembers : zipMembers readFile localeCompare entries' = zipMembers readFile localeCompare entries := by
      rw [zipMembers, hsame, zipMembers]
    rw [buildDeterministicZipBuffer_eq_ok, hsame, hmembers]
    exact ⟨fun entry hentry => hsafe entry (hperm.mem_iff.1 hentry), hreads, hfits, rfl⟩

/-! ## Two files -/

def sampleFiles (filePath : String) : Option (List UInt8) :=
  if filePath = "/tmp/1" then some [104, 105] else if filePath = "/tmp/2" then some [] else none

def sampleEntries : List ZipEntry := [⟨"/selected\\b.txt", "/tmp/1"⟩, ⟨"a.txt", "/tmp/2"⟩]

theorem sampleEntries_built : buildDeterministicZipBuffer sampleFiles compare sampleEntries =
    .ok (archive zipSettings crc32 (zipMembers sampleFiles compare sampleEntries)) :=
  buildDeterministicZipBuffer_eq_ok.2 ⟨by decide +kernel, by decide +kernel, ⟨by decide +kernel, by decide +kernel⟩, rfl⟩

theorem two_files_read_back : ∃ bytes, buildDeterministicZipBuffer sampleFiles compare sampleEntries = .ok bytes ∧
    ∃ files : List (String × List UInt8),
      StoredZip.read crc32 bytes = some (files.map fun file => ⟨utf8 file.1, file.2⟩) ∧
      (files.map fun file => (file.1, some file.2)).Perm
        (sampleEntries.map fun entry => (zipEntryName entry.name, sampleFiles entry.filePath)) :=
  ⟨_, sampleEntries_built, (zip_reads_back sampleFiles compare sampleEntries (by decide +kernel) _ sampleEntries_built).1⟩

end AuraCall.Handoff
