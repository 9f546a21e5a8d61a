import ComputeRuntime.Ar.Encoder
import ComputeRuntime.Helpers.AlignedMemory
import ComputeRuntime.Library.Buffer
import Mathlib.Data.List.DropRight

/-! Decoding an archive. The decoder computes with the addresses of what it reads; a read outside
the binary ends it. -/
namespace ComputeRuntime.Ar

/-- A range of the binary, by address. -/
structure ArrayRef where
  begin : Nat
  size : Nat
  deriving DecidableEq

/-- A name is a part of the binary, except that of the table of long names. -/
inductive FileName where
  | text (ref : ArrayRef)
  | longFileNamesFile
  deriving DecidableEq

structure ArFileEntryHeaderAndData where
  fileName : FileName := .text ⟨0, 0⟩
  fileData : ArrayRef := ⟨0, 0⟩
  fullHeader : Nat := 0
  deriving DecidableEq

end ComputeRuntime.Ar

structure ComputeRuntime.Ar where
  magic : Nat := 0
  files : List ComputeRuntime.Ar.ArFileEntryHeaderAndData := []
  longFileNamesEntry : ComputeRuntime.Ar.ArFileEntryHeaderAndData := {}
  deriving DecidableEq

namespace ComputeRuntime.Ar

/-- `hasSameMagic` for the archive's. -/
def isAr (binary : Buffer UInt8) : Bool := arMagic == binary.bytes.take arMagic.length

/-- A `char`, which is signed, widened to 64 bits. -/
def widenChar (character : UInt8) : Nat :=
  if character.toNat < 128 then character.toNat else 2 ^ 64 - (256 - character.toNat)

/-- The text is as long as the field it is read from. -/
def readDecimal (decimalAsString : List UInt8) : Nat :=
  (decimalAsString.takeWhile fun character => character != 0 && character != 32).foldl
    (fun ret character => add64 (mul64 ret 10) (sub64 (widenChar character) 48)) 0

def isStringPadding (character : UInt8) : Bool :=
  character == 32 || character == 0 || character == 47

/-- The size of the text without the padding behind it. -/
def readUnpaddedString (paddedString : List UInt8) : Nat :=
  (paddedString.rdropWhile isStringPadding).length

/-- How far the name goes on in the rest of the table, of which `size` bytes are left. -/
def scanLongFileName : List UInt8 → Nat → Result Nat
  | _, 0 => .ok 0
  | [], _ + 1 => .error .outOfBounds
  | character :: rest, size + 1 =>
    if character = SpecialFileNames.fileNameTerminator then .ok 0
    else (scanLongFileName rest size).map (· + 1)

def readLongFileName (binary : Buffer UInt8) (longFileNamesSection : ArrayRef) (offset : Nat) :
    Result ArrayRef :=
  let start := add64 longFileNamesSection.begin offset
  if offset < longFileNamesSection.size then
    match binary.rest start with
    | none => .error .outOfBounds
    | some rest =>
      (scanLongFileName rest (longFileNamesSection.size - offset)).map fun size => ⟨start, size⟩
  else .ok ⟨start, 0⟩

/-- A read at an address. -/
def readBytes (binary : Buffer UInt8) (address size : Nat) : Result (List UInt8) :=
  match binary.read address size with
  | none => .error .outOfBounds
  | some bytes => .ok bytes

/-- What one round of the decoder ends with. -/
inductive Round where
  | corrupt (outErrReason : List UInt8)
  | next (decodePos : Nat) (ret : Ar)
  deriving DecidableEq

/-- The entry of a file whose header has this identifier, which names it or says where in the
table of long names its name starts. -/
def nameEntry (binary : Buffer UInt8) (identifier : List UInt8) (ret : Ar)
    (fileEntry : ArFileEntryHeaderAndData) (unpaddedSize : Nat) : Result (List UInt8 ⊕ Ar) :=
  if unpaddedSize = 0 then
    if SpecialFileNames.longFileNamesFile = identifier.take 2 then
      .ok (.inr { ret with
        longFileNamesEntry := { fileEntry with fileName := .longFileNamesFile } })
    else
      .ok (.inl (ascii "Corrupt AR archive - file entry does not have identifier : '" ++
        identifier ++ ascii "'"))
  else if identifier.head? = some SpecialFileNames.longFileNamePrefix then
    let longFileNamePos := readDecimal (identifier.drop 1)
    readLongFileName binary ret.longFileNamesEntry.fileData longFileNamePos >>= fun fileName =>
      if fileName.size = 0 then
        .ok (.inl (ascii
          "Corrupt AR archive - long file name entry has broken identifier : '" ++
          identifier ++ ascii "'"))
      else .ok (.inr { ret with files := ret.files ++ [{ fileEntry with
        fileName := .text fileName }] })
  else .ok (.inr { ret with files := ret.files ++ [fileEntry] })

/-- The body of the loop. -/
def decodeEntry (binary : Buffer UInt8) (decodePos : Nat) (ret : Ar)
    (outWarnings : List UInt8) : Result (Round × List UInt8) := do
  let identifier ← readBytes binary decodePos 16
  let fileSizeInBytes ← readBytes binary (add64 decodePos 48) 10
  let trailingMagic ← readBytes binary (add64 decodePos 58) 2
  let fileEntryDataPos := add64 decodePos sizeofArFileEntryHeader
  let fileSize := readDecimal fileSizeInBytes
  if binary.bytes.length < add64 fileSize (sub64 fileEntryDataPos binary.begin) then
    .ok (.corrupt (ascii
      "Corrupt AR archive - out of bounds data of file entry with idenfitier '" ++
      identifier ++ ascii "'"), outWarnings)
  else
    let outWarnings :=
      if trailingMagic = arFileEntryTrailingMagic then outWarnings
      else outWarnings ++ ascii "File entry header with identifier '" ++ identifier ++
        ascii "' has invalid header trailing string"
    let unpaddedSize := readUnpaddedString identifier
    let fileEntry : ArFileEntryHeaderAndData :=
      ⟨.text ⟨decodePos, unpaddedSize⟩, ⟨fileEntryDataPos, fileSize⟩, decodePos⟩
    match ← nameEntry binary identifier ret fileEntry unpaddedSize with
    | .inl outErrReason => .ok (.corrupt outErrReason, outWarnings)
    | .inr ret =>
      .ok (.next (add64 (add64 fileEntryDataPos fileSize) (fileSize % 2)) ret, outWarnings)

/-- The loop over the entries, and the text of a failure. -/
def decodeEntries (binary : Buffer UInt8) : Nat → Nat → Ar → List UInt8 →
    Result (Except (List UInt8) Ar × List UInt8)
  | 0, _, _, _ => .error .outOfFuel
  | fuel + 1, decodePos, ret, outWarnings =>
    if add64 decodePos sizeofArFileEntryHeader ≤ binary.stop then
      decodeEntry binary decodePos ret outWarnings >>= fun
        | (.corrupt outErrReason, outWarnings) => .ok (.error outErrReason, outWarnings)
        | (.next decodePos ret, outWarnings) =>
          decodeEntries binary fuel decodePos ret outWarnings
    else .ok (.ok ret, outWarnings)

/-- The archive or the reason why there is none, and the warnings with what was added to them. -/
def decodeAr (fuel : Nat) (binary : Buffer UInt8) (outWarnings : List UInt8) :
    Result (Except (List UInt8) Ar × List UInt8) :=
  if isAr binary = false then
    .ok (.error (ascii "Not an AR archive - mismatched file signature"), outWarnings)
  else
    decodeEntries binary fuel (add64 binary.begin arMagic.length) { magic := binary.begin }
      outWarnings

end ComputeRuntime.Ar
