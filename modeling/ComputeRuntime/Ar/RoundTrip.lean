import ComputeRuntime.Ar.Decoder

/-! What was appended to an archive is decoded from it again. -/
namespace ComputeRuntime.Ar

/-- A name that the padding of the identifier cannot be taken for a part of. -/
structure CleanName (name : List UInt8) : Prop where
  nonempty : name ≠ []
  noNul : 0 ∉ name
  head : ∀ character, name.head? = some character → character ≠ 47 ∧ character ≠ 32
  last : ∀ character, name.getLast? = some character → character ≠ 47 ∧ character ≠ 32

section Fields

variable {name : List UInt8} {size : Nat}

/-- A source that covers the text of a field leaves only spaces behind it. -/
theorem TextField.padded_memcpy_s {width : Nat} {front source : List UInt8}
    (fits : front.length ≤ width) (covers : front.length ≤ source.length)
    (short : source.length ≤ width) : ((padded front fits).memcpy_s source).text =
      source ++ List.replicate (width - source.length) 32 := by
  unfold memcpy_s
  rw [dif_pos short]
  simp only [padded, List.drop_append, List.drop_eq_nil_of_le covers, List.nil_append,
    List.drop_replicate]
  congr 2
  omega

theorem identifier_text (nonempty : name ≠ []) (short : name.length ≤ 15) :
    (entryHeader name size).identifier.text =
      name ++ 47 :: List.replicate (15 - name.length) 32 := by
  have covers : [47].length ≤ name.length := List.length_pos_iff.mpr nonempty
  have spaces : 16 - name.length = (15 - name.length) + 1 := by omega
  change ((TextField.padded [47] (by decide)).memcpy_s name).text.set name.length 47 = _
  rw [TextField.padded_memcpy_s _ covers (by omega), List.set_append_right _ _ (Nat.le_refl _),
    Nat.sub_self, spaces, List.replicate_succ, List.set_cons_zero]

theorem fileSizeInBytes_text (small : size < 10 ^ 10) :
    (entryHeader name size).fileSizeInBytes.text =
      Decimal.text size ++ List.replicate (10 - (Decimal.text size).length) 32 := by
  apply TextField.padded_memcpy_s
  · decide
  · exact Decimal.text_length_pos size
  · exact (Decimal.text_length_le_iff (by decide)).mpr small

theorem isStringPadding_iff {character : UInt8} : isStringPadding character = true ↔
    character = 32 ∨ character = 0 ∨ character = 47 := by
  simp [isStringPadding, or_assoc]

/-- The end of a name is no padding. -/
theorem CleanName.rdropWhile (clean : CleanName name) :
    name.rdropWhile isStringPadding = name := by
  rw [List.rdropWhile_eq_self_iff]
  intro nonempty padding
  have member := List.getLast_mem nonempty
  obtain ⟨noSlash, noSpace⟩ := clean.last _ (List.getLast?_eq_getLast_of_ne_nil nonempty)
  rcases isStringPadding_iff.mp padding with same | same | same
  · exact noSpace same
  · exact clean.noNul (same ▸ member)
  · exact noSlash same

theorem rdropWhile_replicate (name : List UInt8) (count : Nat) :
    (name ++ List.replicate count 32).rdropWhile isStringPadding =
      name.rdropWhile isStringPadding := by
  induction count with
  | zero => simp
  | succ count ih =>
    rw [List.replicate_succ', ← List.append_assoc, List.rdropWhile_concat_pos _ _ _ (by decide), ih]

/-- The name is read back from its field. -/
theorem readUnpaddedString_identifier (clean : CleanName name) (short : name.length ≤ 15) :
    readUnpaddedString (entryHeader name size).identifier.text = name.length := by
  rw [readUnpaddedString, identifier_text clean.nonempty short, List.append_cons,
    rdropWhile_replicate, List.rdropWhile_concat_pos _ _ _ (by decide), clean.rdropWhile]

/-- Reading digits is their value, as long as 64 bits hold it. -/
theorem readDecimal_fold {numeral : List UInt8}
    (digits : ∀ character ∈ numeral, Decimal.IsDigit character) (short : numeral.length ≤ 19) :
    numeral.foldl (fun ret character =>
      add64 (mul64 ret 10) (sub64 (widenChar character) 48)) 0 = Decimal.value numeral := by
  induction numeral using List.reverseRecOn with
  | nil => simp [Decimal.value]
  | append_singleton front last ih =>
    have earlier : ∀ character ∈ front, Decimal.IsDigit character :=
      fun character member => digits character (by simp [member])
    rw [List.length_append, List.length_singleton] at short
    have bound := Decimal.value_lt earlier
    have power := Nat.pow_le_pow_right (n := 10) (by decide) (show front.length ≤ 18 by omega)
    obtain ⟨low, high⟩ := digits last (by simp)
    have widened : widenChar last = last.toNat := if_pos (by omega)
    have digit : sub64 (widenChar last) 48 = last.toNat - 48 := by
      rw [widened]
      exact Word.sub_eq low (by omega)
    rw [List.foldl_append, ih earlier (by omega), List.foldl_cons, List.foldl_nil, digit,
      Decimal.value_concat]
    have product : mul64 (Decimal.value front) 10 = Decimal.value front * 10 :=
      Word.mul_eq (by omega)
    rw [product]
    exact Word.add_eq (by omega)

/-- The size is read back from its field. -/
theorem readDecimal_fileSizeInBytes (small : size < 10 ^ 10) :
    readDecimal (entryHeader name size).fileSizeInBytes.text = size := by
  have short : (Decimal.text size).length ≤ 10 :=
    (Decimal.text_length_le_iff (by decide)).mpr small
  have digits : ∀ character ∈ Decimal.text size, Decimal.IsDigit character :=
    fun character => Decimal.isDigit_of_mem_text
  have taken : (Decimal.text size ++ List.replicate (10 - (Decimal.text size).length) 32).takeWhile
      (fun character => character != 0 && character != 32) = Decimal.text size := by
    rw [List.takeWhile_append_of_pos, List.takeWhile_replicate]
    · simp
    · intro character member
      obtain ⟨low, _⟩ := digits character member
      have nonzero : character ≠ 0 := by
        rintro rfl
        exact absurd low (by decide)
      have noSpace : character ≠ 32 := by
        rintro rfl
        exact absurd low (by decide)
      simp [nonzero, noSpace]
  rw [readDecimal, fileSizeInBytes_text small, taken, readDecimal_fold digits (by omega),
    Decimal.value_text]

end Fields

section Entries

variable {binary : Buffer UInt8} {offset : Nat} {name data more : List UInt8} {ret : Ar}
  {outWarnings : List UInt8}

theorem readBytes_holds {size : Nat} {bytes : List UInt8} (holds : binary.Holds offset bytes)
    (length : bytes.length = size) :
    readBytes binary (binary.begin + offset) size = .ok bytes := by
  subst length
  rw [readBytes, holds.read]

/-- The fields of a header that the decoder looks at. -/
theorem header_fields {header : ArFileEntryHeader}
    (holds : binary.Holds offset (header.bytes ++ data)) :
    readBytes binary (binary.begin + offset) 16 = .ok header.identifier.text ∧
    readBytes binary (binary.begin + (offset + 48)) 10 = .ok header.fileSizeInBytes.text ∧
    readBytes binary (binary.begin + (offset + 58)) 2 = .ok header.trailingMagic.text := by
  let middle := header.fileModificationTimestamp.text ++ header.ownerId.text ++
    header.groupId.text ++ header.fileMode.text
  have split : header.bytes ++ data = header.identifier.text ++ (middle ++
      (header.fileSizeInBytes.text ++ (header.trailingMagic.text ++ data))) := by
    simp [ArFileEntryHeader.bytes, middle]
  have middleLength : middle.length = 32 := by simp [middle, TextField.length_eq]
  rw [split] at holds
  have sizeHolds := holds.right.right
  rw [TextField.length_eq, middleLength] at sizeHolds
  have magicHolds := sizeHolds.right
  rw [TextField.length_eq] at magicHolds
  constructor
  · exact readBytes_holds holds.left header.identifier.length_eq
  constructor
  · exact readBytes_holds sizeHolds.left header.fileSizeInBytes.length_eq
  · exact readBytes_holds magicHolds.left header.trailingMagic.length_eq

/-- The entry the decoder makes of a file at an offset of the binary. -/
def fileAt (binary : Buffer UInt8) (offset : Nat) (name data : List UInt8) :
    ArFileEntryHeaderAndData :=
  ⟨.text ⟨binary.begin + offset, name.length⟩, ⟨binary.begin + (offset + 60), data.length⟩,
    binary.begin + offset⟩

theorem nameEntry_clean (clean : CleanName name) (short : name.length ≤ 15)
    (fileEntry : ArFileEntryHeaderAndData) {size : Nat} :
    nameEntry binary (entryHeader name size).identifier.text ret fileEntry name.length =
      .ok (.inr { ret with files := ret.files ++ [fileEntry] }) := by
  have nonzero : name.length ≠ 0 := (List.length_pos_iff.mpr clean.nonempty).ne'
  have head : (entryHeader name size).identifier.text.head? ≠
      some SpecialFileNames.longFileNamePrefix := by
    rw [identifier_text clean.nonempty short, List.head?_append_of_ne_nil _ clean.nonempty]
    intro slash
    exact (clean.head _ slash).1 rfl
  rw [nameEntry, if_neg nonzero, if_neg head]

/-- One round decodes one file. -/
theorem decodeEntry_file (clean : CleanName name) (short : name.length ≤ 15)
    (small : data.length < 10 ^ 10)
    (holds : binary.Holds offset ((entryHeader name data.length).bytes ++ data)) :
    decodeEntry binary (binary.begin + offset) ret outWarnings =
      .ok (.next (binary.begin + (offset + 60 + data.length + data.length % 2))
        { ret with files := ret.files ++ [fileAt binary offset name data] }, outWarnings) := by
  obtain ⟨identifier, fileSize, magic⟩ := header_fields holds
  have room := holds.length_le
  rw [List.length_append, ArFileEntryHeader.bytes_length, sizeofArFileEntryHeader] at room
  have fits := binary.fits
  have sizePos : add64 (binary.begin + offset) 48 = binary.begin + (offset + 48) :=
    Word.add_eq (by omega)
  have magicPos : add64 (binary.begin + offset) 58 = binary.begin + (offset + 58) :=
    Word.add_eq (by omega)
  have dataPos : add64 (binary.begin + offset) 60 = binary.begin + (offset + 60) :=
    Word.add_eq (by omega)
  have distance : sub64 (binary.begin + (offset + 60)) binary.begin = offset + 60 := by
    rw [sub64, Word.sub_eq (by omega) (by omega), Nat.add_sub_cancel_left]
  have inside : ¬ binary.bytes.length < add64 data.length (offset + 60) := by
    rw [add64, Word.add_eq (by omega)]
    omega
  have behind : add64 (add64 (binary.begin + (offset + 60)) data.length) (data.length % 2) =
      binary.begin + (offset + 60 + data.length + data.length % 2) := by
    have first : add64 (binary.begin + (offset + 60)) data.length =
      binary.begin + (offset + 60) + data.length := Word.add_eq (by omega)
    rw [first]
    exact (Word.add_eq (by omega)).trans (by omega)
  simp only [decodeEntry, identifier, fileSize, magic, sizePos, magicPos, dataPos, distance,
    sizeofArFileEntryHeader, readDecimal_fileSizeInBytes small, inside, if_false, behind,
    readUnpaddedString_identifier clean short, nameEntry_clean clean short, bind, Except.bind]
  rfl

/-- The bytes of a decoded name. -/
def FileName.bytes (binary : Buffer UInt8) : FileName → Option (List UInt8)
  | .text ref => binary.read ref.begin ref.size
  | .longFileNamesFile => some SpecialFileNames.longFileNamesFile

/-- A decoded file with this name and this data. -/
structure IsFile (binary : Buffer UInt8) (entry : ArFileEntryHeaderAndData)
    (name data : List UInt8) : Prop where
  name_eq : entry.fileName.bytes binary = some name
  data_eq : binary.read entry.fileData.begin entry.fileData.size = some data

theorem fileAt_isFile (short : name.length ≤ 15) (nonempty : name ≠ [])
    (holds : binary.Holds offset ((entryHeader name data.length).bytes ++ data)) :
    IsFile binary (fileAt binary offset name data) name data := by
  constructor
  · have front : ∃ rest, (entryHeader name data.length).bytes ++ data = name ++ rest := by
      simp only [ArFileEntryHeader.bytes, identifier_text nonempty short, List.append_assoc]
      exact ⟨_, rfl⟩
    obtain ⟨rest, split⟩ := front
    rw [split] at holds
    exact holds.left.read
  · have after := holds.right.read
    rw [ArFileEntryHeader.bytes_length] at after
    exact after

/-- An entry that aligns the next one: a numbered name and some spaces. -/
def IsPad (binary : Buffer UInt8) (entry : ArFileEntryHeaderAndData) : Prop :=
  ∃ paddingEntry paddingSize, IsFile binary entry
    (ascii "pad_" ++ Decimal.text paddingEntry) (List.replicate paddingSize 32)

/-- The decoded files, without the pad entries, are the appended ones in their order; with
padding their data is aligned, and without there is no pad entry. -/
inductive Decodes (binary : Buffer UInt8) (padTo8Bytes : Bool) :
    List ArFileEntryHeaderAndData → List (List UInt8 × List UInt8) → Prop where
  | nil : Decodes binary padTo8Bytes [] []
  | pad {files : List ArFileEntryHeaderAndData} {appended : List (List UInt8 × List UInt8)}
      {entry : ArFileEntryHeaderAndData} (before : Decodes binary padTo8Bytes files appended)
      (padded : padTo8Bytes = true) (isPad : IsPad binary entry) :
      Decodes binary padTo8Bytes (files ++ [entry]) appended
  | file {files : List ArFileEntryHeaderAndData} {appended : List (List UInt8 × List UInt8)}
      {entry : ArFileEntryHeaderAndData} {name data : List UInt8}
      (before : Decodes binary padTo8Bytes files appended)
      (isFile : IsFile binary entry name data)
      (aligned : padTo8Bytes = true → (entry.fileData.begin - binary.begin) % 8 = 0) :
      Decodes binary padTo8Bytes (files ++ [entry]) (appended ++ [(name, data)])

/-- What the encoder's entries decode to, whatever is behind them. -/
def Readable (encoder : ArEncoder) (appended : List (List UInt8 × List UInt8)) : Prop :=
  ∀ binary, Buffer.Holds binary 0 (arMagic ++ encoder.fileEntries) → ∃ rounds files,
    Decodes binary encoder.padTo8Bytes files appended ∧ ∀ fuel magic outWarnings,
      decodeEntries binary (fuel + rounds) (binary.begin + 8) { magic } outWarnings =
        decodeEntries binary fuel (binary.begin + (8 + encoder.fileEntries.length))
          { magic, files } outWarnings

structure ArEncoder.Inv (encoder : ArEncoder) (appended : List (List UInt8 × List UInt8)) :
    Prop where
  even : encoder.fileEntries.length % 2 = 0
  counter : encoder.paddingEntry < 2 ^ 32
  readable : Readable encoder appended

end Entries

section Runs

variable {encoder after : ArEncoder} {name data : List UInt8}
  {appended now : List (List UInt8 × List UInt8)}

/-- One more entry: it is decoded after the others. -/
theorem Readable.entry (readable : Readable encoder appended) (data : List UInt8)
    (clean : CleanName name) (short : name.length ≤ 15) (small : data.length < 10 ^ 10)
    (same : after.padTo8Bytes = encoder.padTo8Bytes)
    (entries : after.fileEntries = encoder.fileEntries ++
      (entryHeader name data.length).bytes ++ data ++ List.replicate (data.length % 2) 0)
    (decodes : ∀ binary files entry, Decodes binary encoder.padTo8Bytes files appended →
      IsFile binary entry name data →
      entry.fileData.begin = binary.begin + (8 + encoder.fileEntries.length + 60) →
      Decodes binary encoder.padTo8Bytes (files ++ [entry]) now) :
    Readable after now := by
  intro binary holds
  have split : arMagic ++ after.fileEntries = (arMagic ++ encoder.fileEntries) ++
      (((entryHeader name data.length).bytes ++ data) ++ List.replicate (data.length % 2) 0) := by
    rw [entries]
    simp only [List.append_assoc]
  rw [split] at holds
  obtain ⟨rounds, files, files_eq, run⟩ := readable binary holds.left
  have file := holds.right.left
  have start : 0 + (arMagic ++ encoder.fileEntries).length = 8 + encoder.fileEntries.length := by
    simp [arMagic]
    omega
  rw [start] at file
  have isFile := fileAt_isFile short clean.nonempty file
  refine ⟨rounds + 1, files ++ [fileAt binary (8 + encoder.fileEntries.length) name data],
    same ▸ decodes binary files _ files_eq isFile rfl, ?_⟩
  intro fuel magic outWarnings
  have room := file.length_le
  rw [List.length_append, ArFileEntryHeader.bytes_length, sizeofArFileEntryHeader] at room
  have fits := binary.fits
  have more : add64 (binary.begin + (8 + encoder.fileEntries.length)) sizeofArFileEntryHeader ≤
      binary.stop := by
    rw [add64, sizeofArFileEntryHeader, Word.add_eq (by omega), Buffer.stop]
    omega
  have stop : 8 + encoder.fileEntries.length + 60 + data.length + data.length % 2 =
      8 + after.fileEntries.length := by
    rw [entries]
    simp [sizeofArFileEntryHeader]
    omega
  rw [show fuel + (rounds + 1) = (fuel + 1) + rounds by omega, run, decodeEntries, if_pos more,
    decodeEntry_file clean short small file, stop]
  rfl

theorem padName_clean (paddingEntry : Nat) :
    CleanName (ascii "pad_" ++ Decimal.text paddingEntry) := by
  have prefixText : ascii "pad_" = [112, 97, 100, 95] := by decide
  rw [prefixText]
  constructor
  · simp
  · intro member
    rw [List.mem_append] at member
    rcases member with member | member
    · revert member
      decide
    · obtain ⟨low, _⟩ := Decimal.isDigit_of_mem_text member
      exact absurd low (by decide)
  · rintro character ⟨⟩
    decide
  · intro character last
    have nonempty := List.length_pos_iff.mp (Decimal.text_length_pos paddingEntry)
    rw [List.getLast?_append_of_ne_nil _ nonempty] at last
    obtain ⟨low, _⟩ := Decimal.isDigit_of_mem_text (List.mem_of_getLast? last)
    constructor
    · rintro rfl
      exact absurd low (by decide)
    · rintro rfl
      exact absurd low (by decide)

theorem padName_length {paddingEntry : Nat} (counter : paddingEntry < 2 ^ 32) :
    (ascii "pad_" ++ Decimal.text paddingEntry).length ≤ 14 := by
  have digits : (Decimal.text paddingEntry).length ≤ 10 :=
    (Decimal.text_length_le_iff (by decide)).mpr (by omega)
  have front : (ascii "pad_").length = 4 := by decide
  rw [List.length_append]
  omega

/-- Padding moves the data of the next entry to a multiple of 8. -/
theorem ArEncoder.Inv.appendPadding (inv : encoder.Inv appended)
    (needed : encoder.needsPadding = true) :
    ∃ after, encoder.appendPadding = .ok after ∧ after.padTo8Bytes = encoder.padTo8Bytes ∧
      after.Inv appended ∧ (after.fileEntries.length + 60) % 8 = 0 := by
  have short := padName_length inv.counter
  have even := inv.even
  simp only [needsPadding, sizeofArFileEntryHeader, Bool.and_eq_true, bne_iff_ne] at needed
  obtain ⟨padded, misaligned⟩ := needed
  unfold ArEncoder.appendPadding
  simp only
  rw [if_neg (by omega)]
  generalize size : 8 - (encoder.fileEntries.length + 2 * sizeofArFileEntryHeader) % 8 =
    paddingSize
  rw [sizeofArFileEntryHeader] at size
  refine ⟨_, rfl, rfl, ?_, ?_⟩
  · constructor
    · simp [sizeofArFileEntryHeader]
      omega
    · exact Nat.mod_lt _ (by decide)
    · have evenSize : paddingSize % 2 = 0 := by omega
      apply inv.readable.entry (List.replicate paddingSize 32)
        (padName_clean encoder.paddingEntry) (by omega)
      · rw [List.length_replicate]
        omega
      · rfl
      · simp [evenSize]
      · intro binary files entry before isFile _
        exact before.pad padded ⟨_, _, isFile⟩
  · simp [sizeofArFileEntryHeader]
    omega

/-- Whether the encoder takes a name. -/
def accepted (fileName : List UInt8) : Bool := fileName != [] && fileName.length ≤ 15

theorem ArEncoder.appendFileEntry_rejects (encoder : ArEncoder) {fileName : List UInt8}
    (rejected : accepted fileName = false) (fileData : List UInt8) :
    encoder.appendFileEntry fileName fileData = .ok (none, encoder) := by
  simp only [accepted, Bool.and_eq_false_iff, bne_eq_false_iff_eq, decide_eq_false_iff_not]
    at rejected
  unfold ArEncoder.appendFileEntry
  split
  next => rfl
  next short =>
    have empty : fileName = [] := by
      rcases rejected with empty | long
      · exact empty
      · omega
    rw [if_pos empty]

/-- Appending a file under an accepted name fails only when its size has too many digits. -/
theorem ArEncoder.Inv.appendFileEntry (inv : encoder.Inv appended)
    (taken : accepted name = true) (clean : CleanName name) (data : List UInt8) :
    if data.length < 10 ^ 10 then
      ∃ offset after, encoder.appendFileEntry name data = .ok (some offset, after) ∧
        after.padTo8Bytes = encoder.padTo8Bytes ∧ after.Inv (appended ++ [(name, data)])
    else encoder.appendFileEntry name data = .error .unrecoverable := by
  simp only [accepted, Bool.and_eq_true, bne_iff_ne, decide_eq_true_eq] at taken
  obtain ⟨nonempty, short⟩ := taken
  -- the encoder the file is appended to, with the padding if there is any
  have aligned : ∃ middle,
      (if encoder.needsPadding then encoder.appendPadding else .ok encoder) = .ok middle ∧
      middle.padTo8Bytes = encoder.padTo8Bytes ∧ middle.Inv appended ∧
      (middle.padTo8Bytes = true → (middle.fileEntries.length + 60) % 8 = 0) := by
    by_cases needed : encoder.needsPadding = true
    · obtain ⟨middle, padding, same, kept, aligned⟩ := inv.appendPadding needed
      exact ⟨middle, by rw [if_pos needed, padding], same, kept, fun _ => aligned⟩
    · refine ⟨encoder, by rw [if_neg needed], rfl, inv, ?_⟩
      intro padded
      simpa [needsPadding, padded, sizeofArFileEntryHeader] using needed
  obtain ⟨middle, padding, same, kept, aligned⟩ := aligned
  have digits : (Decimal.text data.length).length ≤ 10 ↔ data.length < 10 ^ 10 :=
    Decimal.text_length_le_iff (by decide)
  have result : encoder.appendFileEntry name data =
      if 10 < (Decimal.text data.length).length then .error .unrecoverable
      else .ok (some middle.fileEntries.length, { middle with
        fileEntries := middle.fileEntries ++ (entryHeader name data.length).bytes ++ data ++
          List.replicate (data.length + data.length % 2 - data.length) 0 }) := by
    unfold ArEncoder.appendFileEntry
    rw [if_neg (by omega), if_neg nonempty, padding]
    rfl
  rw [result, ← same]
  split
  next small =>
    rw [if_neg (by omega)]
    refine ⟨_, _, rfl, rfl, ?_⟩
    constructor
    · have even := kept.even
      simp [sizeofArFileEntryHeader]
      omega
    · exact kept.counter
    · apply kept.readable.entry data clean short small
      · rfl
      · simp
      · intro binary files entry before isFile start
        apply before.file isFile
        intro padded
        have multiple := aligned padded
        rw [start]
        omega
  next large => rw [if_pos (by omega)]

/-- A sequence of calls. -/
def ArEncoder.appendAll : List (List UInt8 × List UInt8) → ArEncoder → Result ArEncoder
  | [], encoder => .ok encoder
  | (fileName, fileData) :: calls, encoder =>
    encoder.appendFileEntry fileName fileData >>= fun result => appendAll calls result.2

variable {calls : List (List UInt8 × List UInt8)}

theorem ArEncoder.Inv.appendAll (inv : encoder.Inv appended)
    (clean : ∀ call ∈ calls, accepted call.1 = true → CleanName call.1) :
    (∀ after, ArEncoder.appendAll calls encoder = .ok after →
      after.padTo8Bytes = encoder.padTo8Bytes ∧
      after.Inv (appended ++ calls.filter fun call => accepted call.1)) ∧
    ((∃ after, ArEncoder.appendAll calls encoder = .ok after) ↔
      ∀ call ∈ calls, accepted call.1 = true → call.2.length < 10 ^ 10) := by
  induction calls generalizing encoder appended with
  | nil =>
    constructor
    · rintro after ⟨⟩
      rw [List.filter_nil, List.append_nil]
      exact ⟨rfl, inv⟩
    · simp [ArEncoder.appendAll]
  | cons call calls ih =>
    obtain ⟨fileName, fileData⟩ := call
    have cleanRest : ∀ call ∈ calls, accepted call.1 = true → CleanName call.1 :=
      fun call member => clean call (List.mem_cons_of_mem _ member)
    rw [ArEncoder.appendAll]
    cases taken : accepted fileName with
    | false =>
      rw [encoder.appendFileEntry_rejects taken, List.filter_cons_of_neg (by simp [taken])]
      simpa [bind, Except.bind, taken] using ih inv cleanRest
    | true =>
      have appendedFile := inv.appendFileEntry taken (clean _ (List.mem_cons_self ..) taken)
        fileData
      rw [List.filter_cons_of_pos (by exact taken)]
      split at appendedFile
      next small =>
        obtain ⟨offset, after, returned, same, kept⟩ := appendedFile
        have rest := ih kept cleanRest
        rw [same, List.append_assoc, List.singleton_append] at rest
        have fits : fileData.length < 10000000000 := small
        simpa [returned, bind, Except.bind, taken, fits] using rest
      next large =>
        rw [appendedFile]
        constructor
        · rintro after ⟨⟩
        · constructor
          · rintro ⟨after, ⟨⟩⟩
          · intro small
            exact absurd (small _ (List.mem_cons_self ..) taken) large

theorem ArEncoder.Inv.start (padTo8Bytes : Bool) : ArEncoder.Inv { padTo8Bytes } [] := by
  constructor
  · rfl
  · exact Nat.two_pow_pos 32
  · intro binary _
    exact ⟨0, [], .nil, fun _ _ _ => rfl⟩

/-- A sequence of appended files returns unless a file is too large for its size field; its
archive, wherever it is in memory, then decodes to the appended files, whose data is aligned if
the encoder pads; and the encoder refuses the empty name and the names of more than 15
characters. -/
theorem decodeAr_encode (padTo8Bytes : Bool)
    (clean : ∀ call ∈ calls, accepted call.1 = true → CleanName call.1) :
    ((∃ encoder, ArEncoder.appendAll calls { padTo8Bytes } = .ok encoder) ↔
      ∀ call ∈ calls, accepted call.1 = true → call.2.length < 10 ^ 10) ∧
    (∀ encoder binary outWarnings, ArEncoder.appendAll calls { padTo8Bytes } = .ok encoder →
      Buffer.bytes binary = encoder.encode →
      ∃ rounds files,
        Decodes binary padTo8Bytes files (calls.filter fun call => accepted call.1) ∧
        ∀ fuel, decodeAr (fuel + 1 + rounds) binary outWarnings =
          .ok (.ok { magic := binary.begin, files }, outWarnings)) ∧
    (∀ encoder fileName fileData,
      (∃ after, ArEncoder.appendFileEntry encoder fileName fileData = .ok (none, after)) ↔
        fileName = [] ∨ 15 < fileName.length) := by
  obtain ⟨kept, returns⟩ := (ArEncoder.Inv.start padTo8Bytes).appendAll clean
  refine ⟨returns, ?_, ?_⟩
  · intro encoder binary outWarnings ran encoded
    obtain ⟨same, inv⟩ := kept encoder ran
    rw [List.nil_append] at inv
    have holds : binary.Holds 0 (arMagic ++ encoder.fileEntries) := by
      have whole := binary.holds_whole
      rw [encoded] at whole
      exact whole
    obtain ⟨rounds, files, decodes, run⟩ := inv.readable binary holds
    rw [same] at decodes
    refine ⟨rounds, files, decodes, ?_⟩
    intro fuel
    have fits := binary.fits
    have length : binary.bytes.length = 8 + encoder.fileEntries.length := by
      rw [encoded, ArEncoder.encode, List.length_append]
      rfl
    have magic : isAr binary = true := by
      rw [isAr, encoded, ArEncoder.encode, List.take_left, beq_self_eq_true]
    have start : add64 binary.begin arMagic.length = binary.begin + 8 := Word.add_eq (by
      change _ + 8 < _
      omega)
    have done : ¬ add64 (binary.begin + (8 + encoder.fileEntries.length))
        sizeofArFileEntryHeader ≤ binary.stop := by
      rw [add64, sizeofArFileEntryHeader, Word.add_eq (by omega), Buffer.stop]
      omega
    rw [decodeAr, if_neg (by simp [magic]), start, run, decodeEntries, if_neg done]
  · intro encoder fileName fileData
    constructor
    · rintro ⟨after, refused⟩
      unfold ArEncoder.appendFileEntry at refused
      split at refused
      next long => exact .inr long
      next =>
        split at refused
        next empty => exact .inl empty
        next =>
          obtain ⟨middle, _, rest⟩ := bind_eq_ok.mp refused
          split at rest <;> cases rest
    · intro refused
      refine ⟨encoder, encoder.appendFileEntry_rejects ?_ fileData⟩
      rcases refused with rfl | long
      · rfl
      · simp [accepted]
        omega

theorem decodeAr_encode_twoFiles : ∃ encoder,
    ArEncoder.appendAll [(ascii "ab", [1, 2, 3]), (ascii "c", [])] { padTo8Bytes := true } =
      .ok encoder ∧
    ∀ binary outWarnings, Buffer.bytes binary = encoder.encode → ∃ rounds files,
      Decodes binary true files [(ascii "ab", [1, 2, 3]), (ascii "c", [])] ∧
      ∀ fuel, decodeAr (fuel + 1 + rounds) binary outWarnings =
        .ok (.ok { magic := binary.begin, files }, outWarnings) := by
  have clean : ∀ call ∈ [(ascii "ab", [1, 2, 3]), (ascii "c", ([] : List UInt8))],
      accepted call.1 = true → CleanName call.1 := by
    have first : CleanName (ascii "ab") :=
      ⟨by decide, by decide, by rintro _ ⟨⟩; decide, by rintro _ ⟨⟩; decide⟩
    have second : CleanName (ascii "c") :=
      ⟨by decide, by decide, by rintro _ ⟨⟩; decide, by rintro _ ⟨⟩; decide⟩
    simp [first, second]
  obtain ⟨returns, decodes, _⟩ := decodeAr_encode true clean
  obtain ⟨encoder, ran⟩ := returns.mpr (by simp)
  exact ⟨encoder, ran, fun binary outWarnings => decodes encoder binary outWarnings ran⟩

/-- Some archive has a file of this name. -/
def Decodable (name : List UInt8) : Prop :=
  ∃ binary fuel ar outWarnings, decodeAr fuel binary [] = .ok (.ok ar, outWarnings) ∧
    ∃ entry ∈ ar.files, entry.fileName.bytes binary = some name

/-- A name that fills the whole identifier can be decoded, but the encoder refuses it. -/
theorem fullIdentifier_is_refused : ¬ ∀ name, CleanName name → ∀ encoder fileData,
    (∃ after, ArEncoder.appendFileEntry encoder name fileData = .ok (none, after)) ↔
      ¬ Decodable name := by
  intro decodable
  let header : ArFileEntryHeader := { identifier := ⟨ascii "sixteen_byte_str", by decide⟩ }
  have clean : CleanName (ascii "sixteen_byte_str") :=
    ⟨by decide, by decide, by rintro _ ⟨⟩; decide, by rintro _ ⟨⟩; decide⟩
  apply (decodable _ clean { padTo8Bytes := false } []).mp ⟨_, rfl⟩
  refine ⟨⟨4096, arMagic ++ header.bytes, by decide⟩, 2, ?_⟩
  refine ⟨⟨4096, [⟨.text ⟨4104, 16⟩, ⟨4164, 0⟩, 4104⟩], {}⟩, [], ?_, ?_⟩
  · decide +kernel
  · exact ⟨_, List.mem_singleton_self _, by decide +kernel⟩

end Runs

end ComputeRuntime.Ar
