import ComputeRuntime.Ar.RoundTrip
import ComputeRuntime.Library.Outcome

/-! Where the decoder reads. The entries of an archive follow each other as their size fields
say, and the decoder follows them as long as no size makes a sum wrap. -/
namespace ComputeRuntime.Ar

/-- A range that lies in the binary. -/
def ArrayRef.Inside (binary : Buffer UInt8) (ref : ArrayRef) : Prop :=
  binary.begin ≤ ref.begin ∧ ref.begin + ref.size ≤ binary.stop

/-- A name that lies in the binary. The constant stands for the characters that the identifier
of its header starts with. -/
def ArFileEntryHeaderAndData.NameInside (binary : Buffer UInt8)
    (entry : ArFileEntryHeaderAndData) : Prop :=
  match entry.fileName with
  | .text ref => ref.Inside binary
  | .longFileNamesFile =>
    binary.read entry.fullHeader 2 = some SpecialFileNames.longFileNamesFile

structure ArFileEntryHeaderAndData.Inside (binary : Buffer UInt8)
    (entry : ArFileEntryHeaderAndData) : Prop where
  name : entry.NameInside binary
  data : entry.fileData.Inside binary

/-- What was decoded so far lies in the binary. -/
structure Inside (binary : Buffer UInt8) (ret : Ar) : Prop where
  files : ∀ file ∈ ret.files, file.Inside binary
  longFileNamesEntry : ret.longFileNamesEntry = {} ∨ ret.longFileNamesEntry.Inside binary

/-- A field of the header at an address. -/
def fieldAt (binary : Buffer UInt8) (address size : Nat) : List UInt8 :=
  (binary.bytes.drop (address - binary.begin)).take size

def identifierAt (binary : Buffer UInt8) (decodePos : Nat) : List UInt8 :=
  fieldAt binary decodePos 16

def fileSizeAt (binary : Buffer UInt8) (decodePos : Nat) : Nat :=
  readDecimal (fieldAt binary (decodePos + 48) 10)

/-- The entry that the header at an address announces. -/
def fileEntryAt (binary : Buffer UInt8) (decodePos : Nat) : ArFileEntryHeaderAndData :=
  ⟨.text ⟨decodePos, readUnpaddedString (identifierAt binary decodePos)⟩,
    ⟨decodePos + 60, fileSizeAt binary decodePos⟩, decodePos⟩

def nameEntryAt (binary : Buffer UInt8) (decodePos : Nat) (ret : Ar) :
    Result (List UInt8 ⊕ Ar) :=
  nameEntry binary (identifierAt binary decodePos) ret (fileEntryAt binary decodePos)
    (readUnpaddedString (identifierAt binary decodePos))

/-- The text for a member that is too long. -/
def outOfBounds (identifier : List UInt8) : List UInt8 :=
  ascii "Corrupt AR archive - out of bounds data of file entry with idenfitier '" ++
    identifier ++ ascii "'"

/-- The entries of the archive, each with what the entries before it were decoded to. The next one
starts behind the data of one that fits and has a name. -/
inductive EntryAt (binary : Buffer UInt8) : Nat → Ar → Prop where
  | first (archive : isAr binary = true) :
      EntryAt binary (binary.begin + 8) { magic := binary.begin }
  | next {decodePos : Nat} {ret ret' : Ar} (before : EntryAt binary decodePos ret)
      (header : decodePos + 60 ≤ binary.stop)
      (fits : decodePos + 60 + fileSizeAt binary decodePos ≤ binary.stop)
      (named : nameEntryAt binary decodePos ret = .ok (.inr ret')) :
      EntryAt binary
        (decodePos + 60 + fileSizeAt binary decodePos + fileSizeAt binary decodePos % 2) ret'

section Fields

variable {binary : Buffer UInt8} {decodePos address size : Nat} {ret ret' : Ar}

theorem readBytes_eq (low : binary.begin ≤ address) (high : address + size ≤ binary.stop) :
    readBytes binary address size = .ok (fieldAt binary address size) := by
  rw [readBytes, Buffer.read, if_pos ⟨low, high⟩]
  rfl

theorem fieldAt_length (low : binary.begin ≤ address) (high : address + size ≤ binary.stop) :
    (fieldAt binary address size).length = size := by
  rw [Buffer.stop] at high
  rw [fieldAt, List.length_take, List.length_drop]
  omega

theorem readUnpaddedString_le (text : List UInt8) : readUnpaddedString text ≤ text.length :=
  (List.rdropWhile_prefix _ text).length_le

/-- A name of the table ends in what is left of it. -/
theorem scanLongFileName_le {rest : List UInt8} (room : size ≤ rest.length) :
    ∃ count, scanLongFileName rest size = .ok count ∧ count ≤ size := by
  induction rest generalizing size with
  | nil =>
    have none_left : size = 0 := Nat.le_zero.mp room
    subst none_left
    exact ⟨0, rfl, Nat.le_refl _⟩
  | cons character rest ih =>
    cases size with
    | zero => exact ⟨0, rfl, Nat.le_refl _⟩
    | succ size =>
      unfold scanLongFileName
      split
      next => exact ⟨0, rfl, Nat.zero_le _⟩
      next =>
        obtain ⟨count, ran, few⟩ := ih (Nat.le_of_succ_le_succ room)
        rw [ran]
        exact ⟨count + 1, rfl, Nat.succ_le_succ few⟩

/-- A long name lies in the table, or it is empty. -/
theorem readLongFileName_inside {table : ArrayRef}
    (inside : table.size = 0 ∨ table.Inside binary) (offset : Nat) :
    ∃ fileName, readLongFileName binary table offset = .ok fileName ∧
      (fileName.size ≠ 0 → fileName.Inside binary) := by
  unfold readLongFileName
  simp only
  split
  next short =>
    have nonempty : table.size ≠ 0 := by omega
    obtain ⟨low, high⟩ := inside.resolve_left nonempty
    have fits := binary.fits
    have stop : binary.stop = binary.begin + binary.bytes.length := rfl
    have start : add64 table.begin offset = table.begin + offset := Word.add_eq (by omega)
    have rest : binary.rest (table.begin + offset) =
        some (binary.bytes.drop (table.begin + offset - binary.begin)) :=
      if_pos ⟨by omega, by omega⟩
    rw [start, rest]
    have room : table.size - offset ≤
        (binary.bytes.drop (table.begin + offset - binary.begin)).length := by
      rw [List.length_drop]
      omega
    obtain ⟨count, ran, few⟩ := scanLongFileName_le room
    simp only [ran]
    refine ⟨_, rfl, fun _ => ⟨?_, ?_⟩⟩
    · exact Nat.le_trans low (Nat.le_add_right _ _)
    · change table.begin + offset + count ≤ binary.stop
      omega
  next => exact ⟨_, rfl, fun nonempty => absurd rfl nonempty⟩

/-- The table of long names is empty before it is found. -/
theorem Inside.table (inside : ret.Inside binary) :
    ret.longFileNamesEntry.fileData.size = 0 ∨
      ret.longFileNamesEntry.fileData.Inside binary := by
  rcases inside.longFileNamesEntry with none_yet | found
  · left
    rw [none_yet]
  · exact .inr found.data

theorem Inside.concat (inside : ret.Inside binary) {entry : ArFileEntryHeaderAndData}
    (new : entry.Inside binary) :
    Inside binary { ret with files := ret.files ++ [entry] } := by
  constructor
  · intro file member
    rcases List.mem_append.mp member with earlier | last
    · exact inside.files file earlier
    · exact List.mem_singleton.mp last ▸ new
  · exact inside.longFileNamesEntry

/-- The first characters of the identifier, read from the binary. -/
theorem read_identifier (low : binary.begin ≤ decodePos)
    (header : decodePos + 60 ≤ binary.stop) :
    binary.read decodePos 2 = some ((identifierAt binary decodePos).take 2) := by
  rw [Buffer.read, if_pos ⟨low, by omega⟩, identifierAt, fieldAt, List.take_take]
  rfl

/-- Naming an entry whose data is in the binary. -/
theorem nameEntryAt_inside (low : binary.begin ≤ decodePos)
    (header : decodePos + 60 ≤ binary.stop)
    (fits : decodePos + 60 + fileSizeAt binary decodePos ≤ binary.stop)
    (inside : ret.Inside binary) :
    (∃ outErrReason, nameEntryAt binary decodePos ret = .ok (.inl outErrReason)) ∨
    ∃ ret', nameEntryAt binary decodePos ret = .ok (.inr ret') ∧ ret'.Inside binary := by
  have dataInside : (fileEntryAt binary decodePos).fileData.Inside binary :=
    ⟨Nat.le_trans low (Nat.le_add_right _ _), fits⟩
  unfold nameEntryAt nameEntry
  split
  next =>
    split
    next table =>
      refine .inr ⟨_, rfl, inside.files, .inr ⟨?_, dataInside⟩⟩
      exact (read_identifier low header).trans (congrArg Option.some table.symm)
    next => exact .inl ⟨_, rfl⟩
  next =>
    split
    next =>
      obtain ⟨fileName, ran, named⟩ := readLongFileName_inside inside.table
        (readDecimal ((identifierAt binary decodePos).drop 1))
      simp only [ran, bind, Except.bind]
      split
      next => exact .inl ⟨_, rfl⟩
      next nonempty =>
        exact .inr ⟨_, rfl, inside.concat ⟨named nonempty, dataInside⟩⟩
    next =>
      refine .inr ⟨_, rfl, inside.concat ⟨⟨low, ?_⟩, dataInside⟩⟩
      have short := readUnpaddedString_le (identifierAt binary decodePos)
      have length : (identifierAt binary decodePos).length = 16 :=
        fieldAt_length low (by omega)
      change decodePos + readUnpaddedString (identifierAt binary decodePos) ≤ binary.stop
      omega

end Fields

section Rounds

variable {binary : Buffer UInt8} {decodePos : Nat} {ret ret' : Ar} {outWarnings : List UInt8}

/-- The warnings with the one about this header. -/
def warningsAt (binary : Buffer UInt8) (decodePos : Nat) (outWarnings : List UInt8) :
    List UInt8 :=
  if fieldAt binary (decodePos + 58) 2 = arFileEntryTrailingMagic then outWarnings
  else outWarnings ++ ascii "File entry header with identifier '" ++ identifierAt binary decodePos ++
    ascii "' has invalid header trailing string"

theorem readDecimal_lt (text : List UInt8) : readDecimal text < 2 ^ 64 := by
  rw [readDecimal]
  cases text.takeWhile (fun character => character != 0 && character != 32)
    using List.reverseRecOn with
  | nil =>
    rw [List.foldl_nil]
    exact Nat.two_pow_pos 64
  | append_singleton front last =>
    rw [List.foldl_append, List.foldl_cons, List.foldl_nil]
    exact Word.add_lt 64 _ _

/-- The data of the header's file starts at this offset. -/
def dataOffset (binary : Buffer UInt8) (decodePos : Nat) : Nat := decodePos + 60 - binary.begin

/-- A round reads one header. -/
theorem decodeEntry_eq (low : binary.begin ≤ decodePos) (header : decodePos + 60 ≤ binary.stop) :
    decodeEntry binary decodePos ret outWarnings =
      if binary.bytes.length < add64 (fileSizeAt binary decodePos) (dataOffset binary decodePos)
      then .ok (.corrupt (outOfBounds (identifierAt binary decodePos)), outWarnings)
      else nameEntryAt binary decodePos ret >>= fun
        | .inl outErrReason => .ok (.corrupt outErrReason, warningsAt binary decodePos outWarnings)
        | .inr ret => .ok (.next (add64 (add64 (decodePos + 60) (fileSizeAt binary decodePos))
            (fileSizeAt binary decodePos % 2)) ret, warningsAt binary decodePos outWarnings) := by
  have fits := binary.fits
  have stop : binary.stop = binary.begin + binary.bytes.length := rfl
  have sizePos : add64 decodePos 48 = decodePos + 48 := Word.add_eq (by omega)
  have magicPos : add64 decodePos 58 = decodePos + 58 := Word.add_eq (by omega)
  have dataPos : add64 decodePos sizeofArFileEntryHeader = decodePos + 60 :=
    Word.add_eq (by rw [sizeofArFileEntryHeader]; omega)
  have distance : sub64 (decodePos + 60) binary.begin = dataOffset binary decodePos :=
    Word.sub_eq (by omega) (by omega)
  have identifier : readBytes binary decodePos 16 = .ok (identifierAt binary decodePos) :=
    readBytes_eq low (by omega)
  have fileSize : readBytes binary (decodePos + 48) 10 =
      .ok (fieldAt binary (decodePos + 48) 10) := readBytes_eq (by omega) (by omega)
  have magic : readBytes binary (decodePos + 58) 2 =
      .ok (fieldAt binary (decodePos + 58) 2) := readBytes_eq (by omega) (by omega)
  simp only [decodeEntry, identifier, sizePos, fileSize, magicPos, magic, dataPos, distance, bind,
    Except.bind]
  rfl

/-- No sum with the size of this entry wraps. -/
def Unwrapped (binary : Buffer UInt8) (decodePos : Nat) : Prop :=
  fileSizeAt binary decodePos + dataOffset binary decodePos < 2 ^ 64

/-- A size that is written in digits is small. -/
theorem unwrapped_of_digits (low : binary.begin ≤ decodePos)
    (header : decodePos + 60 ≤ binary.stop)
    (digits : ∀ character ∈ (fieldAt binary (decodePos + 48) 10).takeWhile
      (fun character => character != 0 && character != 32), Decimal.IsDigit character) :
    Unwrapped binary decodePos := by
  have length : (fieldAt binary (decodePos + 48) 10).length = 10 :=
    fieldAt_length (by omega) (by omega)
  have short := (List.takeWhile_prefix (fun character => character != 0 && character != 32)
    (l := fieldAt binary (decodePos + 48) 10)).length_le
  have value : fileSizeAt binary decodePos < 10 ^ 10 := by
    rw [fileSizeAt, readDecimal, readDecimal_fold digits (by omega)]
    exact Nat.lt_of_lt_of_le (Decimal.value_lt digits)
      (Nat.pow_le_pow_right (by decide) (by omega))
  have fits := binary.fits
  have stop : binary.stop = binary.begin + binary.bytes.length := rfl
  have offset : dataOffset binary decodePos ≤ binary.bytes.length := by
    rw [dataOffset]
    omega
  rw [Unwrapped]
  omega

theorem decodeEntry_tooLong (low : binary.begin ≤ decodePos)
    (header : decodePos + 60 ≤ binary.stop) (unwrapped : Unwrapped binary decodePos)
    (long : binary.stop < decodePos + 60 + fileSizeAt binary decodePos) :
    decodeEntry binary decodePos ret outWarnings =
      .ok (.corrupt (outOfBounds (identifierAt binary decodePos)), outWarnings) := by
  have stop : binary.stop = binary.begin + binary.bytes.length := rfl
  have offset : dataOffset binary decodePos = decodePos + 60 - binary.begin := rfl
  have sum : add64 (fileSizeAt binary decodePos) (dataOffset binary decodePos) =
      fileSizeAt binary decodePos + dataOffset binary decodePos := Word.add_eq unwrapped
  rw [decodeEntry_eq low header, if_pos (by omega)]

/-- What the round does with the name of an entry whose data fits. -/
theorem decodeEntry_fits (low : binary.begin ≤ decodePos) (header : decodePos + 60 ≤ binary.stop)
    (short : decodePos + 60 + fileSizeAt binary decodePos ≤ binary.stop) :
    decodeEntry binary decodePos ret outWarnings = nameEntryAt binary decodePos ret >>= fun
      | .inl outErrReason => .ok (.corrupt outErrReason, warningsAt binary decodePos outWarnings)
      | .inr ret => .ok (.next (decodePos + 60 + fileSizeAt binary decodePos +
          fileSizeAt binary decodePos % 2) ret, warningsAt binary decodePos outWarnings) := by
  have fits := binary.fits
  have stop : binary.stop = binary.begin + binary.bytes.length := rfl
  have offset : dataOffset binary decodePos = decodePos + 60 - binary.begin := rfl
  have sum : add64 (fileSizeAt binary decodePos) (dataOffset binary decodePos) =
      fileSizeAt binary decodePos + dataOffset binary decodePos := Word.add_eq (by omega)
  have behind : add64 (decodePos + 60) (fileSizeAt binary decodePos) =
      decodePos + 60 + fileSizeAt binary decodePos := Word.add_eq (by omega)
  have even : add64 (decodePos + 60 + fileSizeAt binary decodePos)
      (fileSizeAt binary decodePos % 2) = decodePos + 60 + fileSizeAt binary decodePos +
        fileSizeAt binary decodePos % 2 := Word.add_eq (by omega)
  rw [decodeEntry_eq low header, if_neg (by omega), behind, even]

theorem letter_of_front {front : List UInt8} (long : 21 < front.length)
    (middle back : List UInt8) : (front ++ middle ++ back)[21]? = front[21]? := by
  rw [List.append_assoc, List.getElem?_append_left long]

/-- The texts about a name are not the one about the size. -/
theorem nameEntry_reason {identifier outErrReason : List UInt8}
    {fileEntry : ArFileEntryHeaderAndData} {unpaddedSize : Nat}
    (named : nameEntry binary identifier ret fileEntry unpaddedSize = .ok (.inl outErrReason))
    (other : List UInt8) : outErrReason ≠ outOfBounds other := by
  -- they differ in the first letter behind the dash
  suffices letter : outErrReason[21]? ≠ some 111 by
    rintro rfl
    apply letter
    rw [outOfBounds, letter_of_front (by decide)]
    decide
  unfold nameEntry at named
  split at named
  next =>
    split at named
    next => cases named
    next =>
      cases named
      rw [letter_of_front (by decide)]
      decide
  next =>
    split at named
    next =>
      obtain ⟨fileName, _, named⟩ := Outcome.bind_eq_ok.mp named
      split at named
      next =>
        cases named
        rw [letter_of_front (by decide)]
        decide
      next => cases named
    next => cases named

/-- A size that makes the sum wrap is not found to be too long. -/
theorem decodeEntry_wraps (low : binary.begin ≤ decodePos)
    (header : decodePos + 60 ≤ binary.stop) (wraps : ¬ Unwrapped binary decodePos) :
    decodeEntry binary decodePos ret outWarnings ≠
      .ok (.corrupt (outOfBounds (identifierAt binary decodePos)), outWarnings) := by
  have fits := binary.fits
  have stop : binary.stop = binary.begin + binary.bytes.length := rfl
  have offset : dataOffset binary decodePos = decodePos + 60 - binary.begin := rfl
  have word : fileSizeAt binary decodePos < 2 ^ 64 := readDecimal_lt _
  rw [Unwrapped] at wraps
  have sum : add64 (fileSizeAt binary decodePos) (dataOffset binary decodePos) ≤
      dataOffset binary decodePos := by
    rw [add64, Word.add]
    omega
  rw [decodeEntry_eq low header, if_neg (by omega)]
  intro reported
  obtain ⟨named, ran, reported⟩ := Outcome.bind_eq_ok.mp reported
  cases named with
  | inl outErrReason =>
    simp only [Except.ok.injEq, Prod.mk.injEq, Round.corrupt.injEq] at reported
    exact nameEntry_reason ran _ reported.1
  | inr ret => simp at reported

end Rounds

section Runs

variable {binary : Buffer UInt8} {decodePos : Nat} {ret ret' : Ar} {outWarnings : List UInt8}

theorem length_of_isAr (archive : isAr binary = true) : 8 ≤ binary.bytes.length := by
  have same := congrArg List.length (eq_of_beq archive)
  have magic : arMagic.length = 8 := rfl
  rw [List.length_take] at same
  omega

theorem EntryAt.low (entry : EntryAt binary decodePos ret) : binary.begin + 8 ≤ decodePos := by
  induction entry with
  | first _ => exact Nat.le_refl _
  | next _ _ _ _ ih => omega

/-- The padding behind the last entry may be missing. -/
theorem EntryAt.high (entry : EntryAt binary decodePos ret) : decodePos ≤ binary.stop + 1 := by
  cases entry with
  | first archive =>
    have length := length_of_isAr archive
    rw [Buffer.stop]
    omega
  | next _ _ fits _ => omega

theorem EntryAt.inside (entry : EntryAt binary decodePos ret) : ret.Inside binary := by
  induction entry with
  | first _ =>
    constructor
    · simp
    · exact .inl rfl
  | next before header fits named ih =>
    have low := before.low
    rcases nameEntryAt_inside (by omega) header fits ih with ⟨_, failed⟩ | ⟨_, ran, inside⟩
    · cases failed.symm.trans named
    · cases ran.symm.trans named
      exact inside

theorem loop_guard (high : decodePos ≤ binary.stop + 1) :
    add64 decodePos sizeofArFileEntryHeader ≤ binary.stop ↔ decodePos + 60 ≤ binary.stop := by
  have fits := binary.fits
  have stop : binary.stop = binary.begin + binary.bytes.length := rfl
  have sum : add64 decodePos sizeofArFileEntryHeader = decodePos + 60 :=
    Word.add_eq (by rw [sizeofArFileEntryHeader]; omega)
  rw [sum]

/-- A round with an entry that fits and has a name goes on to the next one. -/
theorem decodeEntries_next (entry : EntryAt binary decodePos ret)
    (header : decodePos + 60 ≤ binary.stop)
    (fits : decodePos + 60 + fileSizeAt binary decodePos ≤ binary.stop)
    (named : nameEntryAt binary decodePos ret = .ok (.inr ret')) (fuel : Nat) :
    decodeEntries binary (fuel + 1) decodePos ret outWarnings =
      decodeEntries binary fuel
        (decodePos + 60 + fileSizeAt binary decodePos + fileSizeAt binary decodePos % 2) ret'
        (warningsAt binary decodePos outWarnings) := by
  have low := entry.low
  rw [decodeEntries, if_pos ((loop_guard entry.high).mpr header),
    decodeEntry_fits (by omega) header fits, named]
  rfl

theorem decodeEntries_corrupt (entry : EntryAt binary decodePos ret)
    (header : decodePos + 60 ≤ binary.stop) {outErrReason after : List UInt8}
    (ran : decodeEntry binary decodePos ret outWarnings =
      .ok (.corrupt outErrReason, after)) (fuel : Nat) :
    decodeEntries binary (fuel + 1) decodePos ret outWarnings =
      .ok (.error outErrReason, after) := by
  rw [decodeEntries, if_pos ((loop_guard entry.high).mpr header), ran]
  rfl

/-- The decoder comes to every entry, with at least a header for each round. -/
theorem EntryAt.reached (entry : EntryAt binary decodePos ret) (outWarnings : List UInt8) :
    ∃ rounds after, binary.begin + 8 + 60 * rounds ≤ decodePos ∧ ∀ fuel,
      decodeAr (fuel + rounds) binary outWarnings =
        decodeEntries binary fuel decodePos ret after := by
  induction entry with
  | first archive =>
    refine ⟨0, outWarnings, Nat.le_refl _, fun fuel => ?_⟩
    have start : add64 binary.begin arMagic.length = binary.begin + 8 := by
      have fits := binary.fits
      exact Word.add_eq (by have magic : arMagic.length = 8 := rfl; omega)
    rw [decodeAr, if_neg (by simp [archive]), start]
    rfl
  | @next decodePos _ _ before header fits named ih =>
    obtain ⟨rounds, after, far, ran⟩ := ih
    refine ⟨rounds + 1, warningsAt binary decodePos after, by omega, fun fuel => ?_⟩
    have order : fuel + (rounds + 1) = fuel + 1 + rounds := by omega
    rw [order, ran, decodeEntries_next before header fits named]

/-- From an entry on, the decoder ends, and what it returns lies in the binary. -/
theorem EntryAt.returns
    (unwrapped : ∀ decodePos ret, EntryAt binary decodePos ret →
      decodePos + 60 ≤ binary.stop → Unwrapped binary decodePos)
    (entry : EntryAt binary decodePos ret) {room : Nat}
    (enough : binary.stop + 1 ≤ decodePos + room) (outWarnings : List UInt8) :
    ∃ outcome, (∀ fuel, room < fuel →
        decodeEntries binary fuel decodePos ret outWarnings = .ok outcome) ∧
      ∀ ar after, outcome = (.ok ar, after) → ar.Inside binary := by
  -- every round but the last takes a header off the room
  induction room using Nat.strong_induction_on generalizing decodePos ret outWarnings with
  | _ room ih =>
    have low := entry.low
    by_cases header : decodePos + 60 ≤ binary.stop
    · by_cases fits : decodePos + 60 + fileSizeAt binary decodePos ≤ binary.stop
      · rcases nameEntryAt_inside (by omega) header fits entry.inside with
          ⟨reason, failed⟩ | ⟨ret', named, _⟩
        · have ran : decodeEntry binary decodePos ret outWarnings =
              .ok (.corrupt reason, warningsAt binary decodePos outWarnings) := by
            rw [decodeEntry_fits (by omega) header fits, failed]
            rfl
          refine ⟨(.error reason, warningsAt binary decodePos outWarnings),
            fun fuel more => ?_, by rintro _ _ ⟨⟩⟩
          obtain ⟨fuel, rfl⟩ := Nat.exists_eq_succ_of_ne_zero (Nat.ne_zero_of_lt more)
          exact decodeEntries_corrupt entry header ran fuel
        · have onward := entry.next header fits named
          obtain ⟨outcome, ends, inside⟩ := ih (room - 60) (by omega) onward (by omega)
            (warningsAt binary decodePos outWarnings)
          refine ⟨outcome, fun fuel more => ?_, inside⟩
          obtain ⟨fuel, rfl⟩ := Nat.exists_eq_succ_of_ne_zero (Nat.ne_zero_of_lt more)
          rw [decodeEntries_next entry header fits named]
          exact ends fuel (by omega)
      · have ran : decodeEntry binary decodePos ret outWarnings =
            .ok (.corrupt (outOfBounds (identifierAt binary decodePos)), outWarnings) :=
          decodeEntry_tooLong (by omega) header (unwrapped _ _ entry header) (by omega)
        refine ⟨(.error (outOfBounds (identifierAt binary decodePos)), outWarnings),
          fun fuel more => ?_, by rintro _ _ ⟨⟩⟩
        obtain ⟨fuel, rfl⟩ := Nat.exists_eq_succ_of_ne_zero (Nat.ne_zero_of_lt more)
        exact decodeEntries_corrupt entry header ran fuel
    · refine ⟨(.ok ret, outWarnings), fun fuel more => ?_, ?_⟩
      · obtain ⟨fuel, rfl⟩ := Nat.exists_eq_succ_of_ne_zero (Nat.ne_zero_of_lt more)
        rw [decodeEntries, if_neg (fun guard => header ((loop_guard entry.high).mp guard))]
      · rintro ar after ⟨⟩
        exact entry.inside

/-- Decoding ends, all it returns lies in the binary, and a member that does not fit is an
error. -/
structure DecodesInside (binary : Buffer UInt8) : Prop where
  returns : ∀ outWarnings, ∃ outcome,
    (∀ fuel, binary.bytes.length ≤ fuel → decodeAr fuel binary outWarnings = .ok outcome) ∧
    ∀ ar after, outcome = (.ok ar, after) → ar.Inside binary
  reports : ∀ decodePos ret, EntryAt binary decodePos ret → decodePos + 60 ≤ binary.stop →
    binary.stop < decodePos + 60 + fileSizeAt binary decodePos → ∀ outWarnings,
      decodeEntry binary decodePos ret outWarnings =
        .ok (.corrupt (outOfBounds (identifierAt binary decodePos)), outWarnings) ∧
      ∀ fuel, binary.bytes.length ≤ fuel → ∃ after, decodeAr fuel binary outWarnings =
        .ok (.error (outOfBounds (identifierAt binary decodePos)), after)

theorem returns_of_unwrapped
    (unwrapped : ∀ decodePos ret, EntryAt binary decodePos ret →
      decodePos + 60 ≤ binary.stop → Unwrapped binary decodePos) (outWarnings : List UInt8) :
    ∃ outcome,
      (∀ fuel, binary.bytes.length ≤ fuel → decodeAr fuel binary outWarnings = .ok outcome) ∧
      ∀ ar after, outcome = (.ok ar, after) → ar.Inside binary := by
  cases archive : isAr binary with
  | false =>
    refine ⟨(.error (ascii "Not an AR archive - mismatched file signature"), outWarnings),
      fun fuel _ => ?_, by rintro _ _ ⟨⟩⟩
    rw [decodeAr, if_pos archive]
  | true =>
    have length := length_of_isAr archive
    have stop : binary.stop = binary.begin + binary.bytes.length := rfl
    have entry := EntryAt.first archive
    have enough : binary.stop + 1 ≤ binary.begin + 8 + (binary.bytes.length - 7) := by omega
    obtain ⟨outcome, ends, inside⟩ := entry.returns unwrapped enough outWarnings
    refine ⟨outcome, fun fuel more => ?_, inside⟩
    have start : add64 binary.begin arMagic.length = binary.begin + 8 := by
      have fits := binary.fits
      exact Word.add_eq (by have magic : arMagic.length = 8 := rfl; omega)
    rw [decodeAr, if_neg (by simp [archive]), start]
    exact ends fuel (by omega)

/-- The decoder stays in the binary exactly when no entry it comes to makes a sum wrap. -/
theorem decodeAr_inside_iff (binary : Buffer UInt8) : DecodesInside binary ↔
    ∀ decodePos ret, EntryAt binary decodePos ret → decodePos + 60 ≤ binary.stop →
      Unwrapped binary decodePos := by
  constructor
  · intro decodes decodePos ret entry header
    by_contra wraps
    have low := entry.low
    have fits := binary.fits
    have stop : binary.stop = binary.begin + binary.bytes.length := rfl
    have offset : dataOffset binary decodePos = decodePos + 60 - binary.begin := rfl
    have long : binary.stop < decodePos + 60 + fileSizeAt binary decodePos := by
      rw [Unwrapped] at wraps
      omega
    exact decodeEntry_wraps (by omega) header wraps
      (decodes.reports decodePos ret entry header long []).1
  · intro unwrapped
    constructor
    · exact returns_of_unwrapped unwrapped
    · intro decodePos ret entry header long outWarnings
      have low := entry.low
      have stop : binary.stop = binary.begin + binary.bytes.length := rfl
      have round : ∀ outWarnings, decodeEntry binary decodePos ret outWarnings =
          .ok (.corrupt (outOfBounds (identifierAt binary decodePos)), outWarnings) :=
        fun outWarnings => decodeEntry_tooLong (by omega) header
          (unwrapped decodePos ret entry header) long
      refine ⟨round outWarnings, fun fuel enough => ?_⟩
      obtain ⟨rounds, after, far, ran⟩ := entry.reached outWarnings
      obtain ⟨rest, rfl⟩ : ∃ rest, fuel = rest + 1 + rounds := ⟨fuel - 1 - rounds, by omega⟩
      exact ⟨after, (ran _).trans (decodeEntries_corrupt entry header (round after) rest)⟩

/-- An archive with one header, whose size field reads as -60. -/
def selfReferring : Buffer UInt8 :=
  ⟨0, arMagic ++ ascii "a" ++ List.replicate 15 32 ++ List.replicate 32 48 ++
    ascii "*0" ++ List.replicate 8 32 ++ arFileEntryTrailingMagic, by decide⟩

theorem decodeEntry_selfReferring (ret : Ar) (outWarnings : List UInt8) :
    decodeEntry selfReferring 8 ret outWarnings =
      .ok (.next 8 { ret with files := ret.files ++ [fileEntryAt selfReferring 8] },
        outWarnings) := by
  have size : fileSizeAt selfReferring 8 = 2 ^ 64 - 60 := by decide
  have unpadded : readUnpaddedString (identifierAt selfReferring 8) = 1 := by decide
  have first : (identifierAt selfReferring 8).head? ≠ some SpecialFileNames.longFileNamePrefix := by
    decide
  have named : nameEntryAt selfReferring 8 ret =
      .ok (.inr { ret with files := ret.files ++ [fileEntryAt selfReferring 8] }) := by
    rw [nameEntryAt, nameEntry, unpadded, if_neg (by decide), if_neg first]
  have warned : warningsAt selfReferring 8 outWarnings = outWarnings := if_pos (by decide)
  have passes : ¬ selfReferring.bytes.length <
      add64 (fileSizeAt selfReferring 8) (dataOffset selfReferring 8) := by
    rw [size]
    decide
  rw [decodeEntry_eq (by decide) (by decide), if_neg passes, named, warned, size]
  rfl

/-- The loop comes back to the same header for ever, and keeps the file each time. -/
theorem decodeAr_selfReferring_never_ends :
    (∀ fuel outWarnings, decodeAr fuel selfReferring outWarnings = .error .outOfFuel) ∧
    ¬ DecodesInside selfReferring := by
  have loops : ∀ fuel ret outWarnings,
      decodeEntries selfReferring fuel 8 ret outWarnings = .error .outOfFuel := by
    intro fuel
    induction fuel with
    | zero =>
      intro ret outWarnings
      rfl
    | succ fuel ih =>
      intro ret outWarnings
      rw [decodeEntries, if_pos (by decide), decodeEntry_selfReferring]
      exact ih _ outWarnings
  have never : ∀ fuel outWarnings,
      decodeAr fuel selfReferring outWarnings = .error .outOfFuel := by
    intro fuel outWarnings
    rw [decodeAr, if_neg (by decide)]
    exact loops fuel _ outWarnings
  constructor
  · exact never
  · intro decodes
    obtain ⟨outcome, ends, _⟩ := decodes.returns []
    cases (never _ []).symm.trans (ends selfReferring.bytes.length (Nat.le_refl _))

end Runs

end ComputeRuntime.Ar
