import ComputeRuntime.Helpers.DebugHelpers
import ComputeRuntime.Library.Decimal

/-! The archive format of fat binaries: a magic, then for each file a header of fixed-width text
fields and the data, padded to an even size. -/
namespace ComputeRuntime.Ar

/-- `!<arch>` and a line feed. -/
def arMagic : List UInt8 := [33, 60, 97, 114, 99, 104, 62, 10]

def arFileEntryTrailingMagic : List UInt8 := [96, 10]

def SpecialFileNames.longFileNamesFile : List UInt8 := [47, 47]

def SpecialFileNames.longFileNamePrefix : UInt8 := 47

def SpecialFileNames.fileNameTerminator : UInt8 := 47

/-- A text field of the header. -/
structure TextField (width : Nat) where
  text : List UInt8
  length_eq : text.length = width

variable {width : Nat}

/-- A text and spaces behind it. -/
def TextField.padded (front : List UInt8) (fits : front.length ≤ width) : TextField width :=
  ⟨front ++ List.replicate (width - front.length) 32, by simp; omega⟩

/-- `memcpy_s` to the front of a field, which refuses a source that is too long. -/
def TextField.memcpy_s (field : TextField width) (source : List UInt8) : TextField width :=
  if fits : source.length ≤ width then
    ⟨source ++ field.text.drop source.length, by simp [field.length_eq]; omega⟩
  else field

def TextField.set (field : TextField width) (index : Nat) (character : UInt8) :
    TextField width :=
  ⟨field.text.set index character, by simp [field.length_eq]⟩

structure ArFileEntryHeader where
  identifier : TextField 16 := .padded [47] (by decide)
  fileModificationTimestamp : TextField 12 := .padded [48] (by decide)
  ownerId : TextField 6 := .padded [48] (by decide)
  groupId : TextField 6 := .padded [48] (by decide)
  fileMode : TextField 8 := .padded [54, 52, 52] (by decide)
  fileSizeInBytes : TextField 10 := .padded [48] (by decide)
  trailingMagic : TextField 2 := ⟨arFileEntryTrailingMagic, rfl⟩

def ArFileEntryHeader.bytes (header : ArFileEntryHeader) : List UInt8 :=
  header.identifier.text ++ header.fileModificationTimestamp.text ++ header.ownerId.text ++
    header.groupId.text ++ header.fileMode.text ++ header.fileSizeInBytes.text ++
    header.trailingMagic.text

def sizeofArFileEntryHeader : Nat := 60

@[simp] theorem ArFileEntryHeader.bytes_length (header : ArFileEntryHeader) :
    header.bytes.length = sizeofArFileEntryHeader := by
  simp [ArFileEntryHeader.bytes, TextField.length_eq, sizeofArFileEntryHeader]

structure ArEncoder where
  fileEntries : List UInt8 := []
  padTo8Bytes : Bool
  paddingEntry : Nat := 0

/-- A header for a name and a size, as both kinds of entries fill it in. -/
def entryHeader (name : List UInt8) (size : Nat) : ArFileEntryHeader :=
  let header : ArFileEntryHeader := {}
  { header with
    identifier := (header.identifier.memcpy_s name).set name.length
      SpecialFileNames.fileNameTerminator
    fileSizeInBytes := header.fileSizeInBytes.memcpy_s (Decimal.text size) }

/-- Whether the data of the next entry would not start at a multiple of 8. -/
def ArEncoder.needsPadding (encoder : ArEncoder) : Bool :=
  encoder.padTo8Bytes && (encoder.fileEntries.length + sizeofArFileEntryHeader) % 8 != 0

/-- The entry that `appendFileEntry` puts before a file to align its data. -/
def ArEncoder.appendPadding (encoder : ArEncoder) : Result ArEncoder :=
  let paddingName := ascii "pad_" ++ Decimal.text encoder.paddingEntry
  let paddingEntry := (encoder.paddingEntry + 1) % 2 ^ 32
  if 16 < paddingName.length then .error .unrecoverable
  else
    let paddingSize := 8 - (encoder.fileEntries.length + 2 * sizeofArFileEntryHeader) % 8
    let paddingHeader := entryHeader paddingName paddingSize
    .ok { encoder with
      paddingEntry
      fileEntries := encoder.fileEntries ++ paddingHeader.bytes ++
        List.replicate paddingSize 32 }

/-- The offset of the new header, or nothing for a name that is refused. -/
def ArEncoder.appendFileEntry (encoder : ArEncoder) (fileName fileData : List UInt8) :
    Result (Option Nat × ArEncoder) :=
  if 16 - 1 < fileName.length then .ok (none, encoder)
  else if fileName = [] then .ok (none, encoder)
  else
    let alignedFileSize := fileData.length + fileData.length % 2
    (if encoder.needsPadding then encoder.appendPadding else .ok encoder) >>= fun encoder =>
      if 10 < (Decimal.text fileData.length).length then .error .unrecoverable
      else
        let header := entryHeader fileName fileData.length
        .ok (some encoder.fileEntries.length, { encoder with
          fileEntries := encoder.fileEntries ++ header.bytes ++ fileData ++
            List.replicate (alignedFileSize - fileData.length) 0 })

def ArEncoder.encode (encoder : ArEncoder) : List UInt8 := arMagic ++ encoder.fileEntries

end ComputeRuntime.Ar
