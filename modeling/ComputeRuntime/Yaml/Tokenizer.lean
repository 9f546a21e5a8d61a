import ComputeRuntime.Helpers.DebugHelpers
import ComputeRuntime.Library.Decimal
import Mathlib.Data.List.DropRight

/-! The tokenizer of the YAML parser. -/
namespace ComputeRuntime.Yaml

/-- The byte of an ASCII character. -/
def byte (character : Char) : UInt8 := UInt8.ofNat character.toNat

def isWhitespace (c : UInt8) : Bool :=
  c == byte ' ' || c == byte '\t' || c == byte '\r' || c == byte '\n'

def isSeparationWhitespace (c : UInt8) : Bool := c == byte ' ' || c == byte '\t'

def isLetter (c : UInt8) : Bool :=
  (byte 'a' ≤ c && c ≤ byte 'z') || (byte 'A' ≤ c && c ≤ byte 'Z')

def isNumber (c : UInt8) : Bool := byte '0' ≤ c && c ≤ byte '9'

def isAlphaNumeric (c : UInt8) : Bool := isLetter c || isNumber c

def isHexDigit (c : UInt8) : Bool :=
  isNumber c || (byte 'a' ≤ c && c ≤ byte 'f') || (byte 'A' ≤ c && c ≤ byte 'F')

def isHexPrefix : List UInt8 → Bool
  | zero :: mark :: _ => zero == byte '0' && (mark == byte 'x' || mark == byte 'X')
  | _ => false

def isNameIdentifierCharacter (c : UInt8) : Bool :=
  isAlphaNumeric c || byte '_' == c || byte '-' == c || byte '.' == c

def isNameIdentifierBeginningCharacter (c : UInt8) : Bool := isLetter c || byte '_' == c

def isSign (c : UInt8) : Bool := byte '+' == c || byte '-' == c

/-- A text, and the memory behind it, where some reads of the parser go. -/
structure Text where
  bytes : List UInt8
  behind : List UInt8
  deriving DecidableEq

namespace Text

variable (text : Text)

/-- What is left of the text from a position on. -/
def rest (pos : Nat) : List UInt8 := text.bytes.drop pos

/-- The character at a position. -/
def charAt (pos : Nat) : Result UInt8 :=
  match (text.bytes ++ text.behind)[pos]? with
  | none => .error .outOfBounds
  | some character => .ok character

/-- The characters of a range. -/
def slice (pos length : Nat) : Result (List UInt8) :=
  if pos + length ≤ (text.bytes ++ text.behind).length then
    .ok (((text.bytes ++ text.behind).drop pos).take length)
  else .error .outOfBounds

def isMatched (pos : Nat) (pattern : List UInt8) : Bool := pattern.isPrefixOf (text.rest pos)

end Text

/-- How many characters the number has that the text starts with; none when a letter follows. -/
def consumeNumber (rest : List UInt8) : Nat :=
  let isHex := isHexPrefix rest
  let body := if isHex then rest.drop 2 else rest
  let digits := body.takeWhile fun c => if isHex then isHexDigit c else isNumber c || c == byte '.'
  let size := (if isHex then 2 else 0) + digits.length
  match rest.drop size with
  | [] => size
  | next :: _ => if isLetter next then 0 else size

/-- How far the text is consumed, which must not be at its end. -/
def consumeNumberOrSign : List UInt8 → Bool → Result Nat
  | [], _ => .error .unrecoverable
  | c :: rest, allowSign =>
    if isNumber c || isHexPrefix (c :: rest) then .ok (consumeNumber (c :: rest))
    else if isSign c && allowSign then
      if rest ≠ [] then (consumeNumberOrSign rest false).map (· + 1) else .ok 1
    else .ok 0

def consumeNameIdentifier : List UInt8 → Nat
  | [] => 0
  | c :: rest =>
    if isNameIdentifierBeginningCharacter c then
      (rest.takeWhile fun c => isNameIdentifierCharacter c || isSeparationWhitespace c).length + 1
    else 0

/-- How far the closing quote is, which no backslash precedes. -/
def findQuote (quote : UInt8) : UInt8 → List UInt8 → Option Nat
  | _, [] => none
  | previous, c :: rest =>
    if quote = c ∧ previous ≠ byte '\\' then some 0 else (findQuote quote c rest).map (· + 1)

/-- Nothing is consumed of an unterminated literal. -/
def consumeStringLiteral : List UInt8 → Nat
  | [] => 0
  | quote :: rest =>
    -- A single or a double quote.
    if quote = 39 ∨ quote = 34 then
      match findQuote quote quote rest with
      | none => 0
      | some size => size + 2
    else 0

inductive TokenType where
  | identifier
  | literalString
  | literalNumber
  | singleCharacter
  | comment
  | fileSectionBeg
  | fileSectionEnd
  | collectionBeg
  | collectionEnd
  deriving DecidableEq

/-- A part of the text. Its length has 32 bits. -/
structure Token where
  pos : Nat
  len : Nat
  type : TokenType
  character0 : UInt8
  deriving DecidableEq

/-- The constructor of a token, which reads the first character. -/
def Token.make (text : Text) (pos length : Nat) (tokType : TokenType) : Result Token :=
  (text.charAt pos).map fun character0 => ⟨pos, length % 2 ^ 32, tokType, character0⟩

/-- The characters of a token. -/
def Token.cstrref (token : Token) (text : Text) : List UInt8 := (text.rest token.pos).take token.len

inductive LineType where
  | empty
  | comment
  | fileSection
  | dictionaryEntry
  | listEntry
  deriving DecidableEq

structure LineTraits where
  hasInlineDataMarkers : Bool := false
  hasDictionaryEntry : Bool := false
  deriving DecidableEq

/-- A line, from its first token to its last one. -/
structure Line where
  lineType : LineType
  indent : Nat
  first : Nat
  last : Nat
  traits : LineTraits
  deriving DecidableEq

structure TokenizerContext where
  pos : Nat := 0
  lineIndent : Nat := 0
  lineBegin : Nat := 0
  lineBeginPos : Nat := 0
  isParsingIdent : Bool := true
  lineTraits : LineTraits := {}
  deriving DecidableEq

/-- What the tokenizer writes, beside where it stands. -/
structure Tokenizer where
  context : TokenizerContext := {}
  outLines : List Line := []
  outTokens : List Token := []
  outWarning : List UInt8 := []
  deriving DecidableEq

def constructYamlError (text : Text) (lineNumber lineBeg parsePos : Nat) (reason : List UInt8) :
    Result (List UInt8) :=
  (text.slice lineBeg (parsePos - lineBeg + 1)).map fun line =>
    ascii "NEO::Yaml : Could not parse line : [" ++ Decimal.text lineNumber ++ ascii "] : [" ++
      line ++ ascii "] <-- parser position on error" ++ ascii ". Reason : " ++ reason ++
      ascii "\n"

/-- How a round of the tokenizer ends: with an error, or ready for the next one. -/
inductive Round where
  | failed (outErrReason : List UInt8) (tokenizer : Tokenizer)
  | next (tokenizer : Tokenizer)
  deriving DecidableEq

namespace Tokenizer

variable (text : Text) (tokenizer : Tokenizer)

/-- The round fails and says why. -/
def fail (lineBeg : Nat) (reason : List UInt8) : Result Round :=
  (constructYamlError text tokenizer.outLines.length lineBeg tokenizer.context.pos reason).map
    fun outErrReason => .failed outErrReason tokenizer

/-- The position moves on. -/
def advance (size : Nat) : Tokenizer :=
  { tokenizer with context := { tokenizer.context with pos := tokenizer.context.pos + size } }

/-- The rest of the line is not indentation. -/
def endIdent : Tokenizer :=
  { tokenizer with context := { tokenizer.context with isParsingIdent := false } }

/-- Pushes a token that starts `offset` characters on. -/
def push (offset length : Nat) (tokType : TokenType) : Result Tokenizer :=
  (Token.make text (tokenizer.context.pos + offset) length tokType).map fun token =>
    { tokenizer with outTokens := tokenizer.outTokens ++ [token] }

/-- The type of a line by its first token, or why it has none. -/
def lineTypeOf (first : Token) : Except (List UInt8) LineType :=
  match first.type with
  | .singleCharacter =>
    if first.character0 = byte '#' then .ok .comment
    else if first.character0 = byte '-' then .ok .listEntry
    else .error (ascii "Unhandled keyword character : " ++ [first.character0])
  | .identifier => .ok .dictionaryEntry
  | .fileSectionBeg | .fileSectionEnd => .ok .fileSection
  | _ => .error (ascii "Internal error - undefined line type")

end Tokenizer

def tokenizeEndLine (text : Text) (tokenizer : Tokenizer) : Result Round := do
  let context := tokenizer.context
  let lineEnd := tokenizer.outTokens.length % 2 ^ 32
  let tokenizer ← tokenizer.push text 0 1 .singleCharacter
  match tokenizer.outTokens[context.lineBegin]? with
  | none => .error .outOfBounds
  | some lineBegToken =>
    match if lineEnd = context.lineBegin then .ok .empty
      else Tokenizer.lineTypeOf lineBegToken with
    | .error reason => tokenizer.fail text lineBegToken.pos reason
    | .ok lineType =>
      .ok (.next { tokenizer with
        outLines := tokenizer.outLines ++ [⟨lineType, context.lineIndent % 2 ^ 16,
          context.lineBegin, lineEnd, context.lineTraits⟩]
        context := {
          pos := context.pos + 1
          lineBegin := tokenizer.outTokens.length % 2 ^ 32
          lineBeginPos := context.pos + 1 } })

/-- The loop over an inline collection, in the text and the memory behind it: `left` characters
of it are in the text. A number may run on behind the text. -/
def scanInlineCollection : Nat → Nat → List UInt8 → Bool → Bool → Result Bool
  | 0, _, _, _, _ => .error .outOfFuel
  | _ + 1, _, [], _, endCollection => .ok endCollection
  | fuel + 1, left, c :: rest, endNum, endCollection =>
    if left = 0 ∨ c = byte '\n' then .ok endCollection
    else if isWhitespace c then scanInlineCollection fuel (left - 1) rest endNum endCollection
    else if endNum = false then
      if isAlphaNumeric c then
        let alphaNum := (c :: rest).takeWhile isAlphaNumeric
        match (c :: rest).dropWhile isAlphaNumeric with
        | [] => .error .outOfBounds
        | behind => scanInlineCollection fuel (left - alphaNum.length) behind true endCollection
      else .ok false
    else if endCollection = false then
      if c = byte ',' then scanInlineCollection fuel (left - 1) rest false endCollection
      else if c = byte ']' then scanInlineCollection fuel (left - 1) rest endNum true
      else .ok false
    else .ok false

def isValidInlineCollectionFormat (text : Text) (context : Nat) : Result Bool :=
  let left := text.bytes.length - (context + 1)
  scanInlineCollection (left + 1) left ((text.bytes ++ text.behind).drop (context + 1)) false false

def inlineCollectionYamlErrorMsg : List UInt8 :=
  ascii "NEO::Yaml : Inline collection is not in valid regex format - " ++
    ascii "^\\[(\\s*(\\d|\\w)+,?)+\\s*\\]\\s*\\n"

namespace Tokenizer

variable (text : Text) (tokenizer : Tokenizer)

/-- A keyword of one character. -/
def keyword (tokType : TokenType) : Result Round :=
  (tokenizer.push text 0 1 tokType).map fun tokenizer => .next (tokenizer.advance 1)

/-- A marker at the start of a line, else what the character means elsewhere. -/
def fileSection (marker : List UInt8) (tokType : TokenType) (otherwise : Result Round) :
    Result Round :=
  if tokenizer.context.isParsingIdent ∧ text.isMatched tokenizer.context.pos marker then
    (tokenizer.push text 0 marker.length tokType).map fun tokenizer =>
      .next (tokenizer.advance marker.length).endIdent
  else otherwise

/-- `#`, with the comment behind it. -/
def comment : Result Round := do
  let tokenizer ← tokenizer.endIdent.push text 0 1 .singleCharacter
  let size := ((text.rest (tokenizer.context.pos + 1)).takeWhile (· != byte '\n')).length
  let tokenizer ← if size ≠ 0 then tokenizer.push text 1 size .comment else .ok tokenizer
  .ok (.next (tokenizer.advance (size + 1)))

/-- A quote, with the string behind it. -/
def stringLiteral : Result Round := do
  let tokenizer := tokenizer.endIdent
  let size := consumeStringLiteral (text.rest tokenizer.context.pos)
  if size = 0 then
    tokenizer.fail text tokenizer.context.lineBeginPos (ascii "Unterminated string")
  else
    let tokenizer ← tokenizer.push text 0 size .literalString
    .ok (.next (tokenizer.advance size))

/-- `-`, which may be the sign of a number. -/
def minus : Result Round := do
  let size ← consumeNumberOrSign (text.rest tokenizer.context.pos) true
  let tokenizer ← if 1 < size then tokenizer.push text 0 size .literalNumber
    else tokenizer.push text 0 1 .singleCharacter
  .ok (.next (tokenizer.advance size).endIdent)

/-- A character that only an inline collection has. -/
def inCollection (tokType : TokenType) : Result Round :=
  if tokenizer.context.lineTraits.hasInlineDataMarkers = false then
    tokenizer.fail text tokenizer.context.lineBeginPos inlineCollectionYamlErrorMsg
  else tokenizer.keyword text tokType

def collectionBeg : Result Round := do
  if (← isValidInlineCollectionFormat text tokenizer.context.pos) = false then
    tokenizer.fail text tokenizer.context.lineBeginPos inlineCollectionYamlErrorMsg
  else
    let lineTraits := { tokenizer.context.lineTraits with hasInlineDataMarkers := true }
    { tokenizer with context := { tokenizer.context with lineTraits } }.keyword text .collectionBeg

def colon : Result Round :=
  let lineTraits := { tokenizer.context.lineTraits with hasDictionaryEntry := true }
  { tokenizer with context := { tokenizer.context with lineTraits } }.endIdent.keyword text
    .singleCharacter

/-- Any other character starts a name or a number. A name ends before the blanks behind it. -/
def nameOrNumber : Result Round := do
  let tokenizer := tokenizer.endIdent
  let rest := text.rest tokenizer.context.pos
  let size := consumeNameIdentifier rest
  if size ≠ 0 then
    let tokenData := (rest.take size).rdropWhile isWhitespace
    let tokenizer ← tokenizer.push text 0 tokenData.length
      (if tokenizer.context.lineTraits.hasDictionaryEntry then .literalString else .identifier)
    .ok (.next (tokenizer.advance size))
  else
    let size ← consumeNumberOrSign rest true
    if size ≠ 0 then
      let tokenizer ← tokenizer.push text 0 size .literalNumber
      .ok (.next (tokenizer.advance size))
    else tokenizer.fail text tokenizer.context.lineBeginPos (ascii "Invalid numeric literal")

/-- A space or a tab, which indents when only such are in front of it. -/
def blank (indent : Nat) (warning : List UInt8) : Tokenizer :=
  if tokenizer.context.isParsingIdent then
    { tokenizer with
      context := { tokenizer.context with
        lineIndent := (tokenizer.context.lineIndent + indent) % 2 ^ 32 }
      outWarning := tokenizer.outWarning ++ warning }
  else tokenizer

/-- The body of the loop. -/
def tokenizeRound (c : UInt8) : Result Round :=
  if c = byte ' ' then .ok (.next ((tokenizer.blank 1 []).advance 1))
  else if c = byte '\t' then
    let warning := ascii "NEO::Yaml : Tabs used as indent at line : " ++
      Decimal.text tokenizer.outLines.length ++ ascii "\n"
    .ok (.next ((tokenizer.blank 4 warning).advance 1))
  else if c = byte '\r' ∨ c = 0 then .ok (.next (tokenizer.advance 1))
  else if c = byte '#' then tokenizer.comment text
  else if c = byte '\n' then tokenizeEndLine text tokenizer
  -- A double or a single quote.
  else if c = 34 ∨ c = 39 then tokenizer.stringLiteral text
  else if c = byte '-' then
    tokenizer.fileSection text (ascii "---") .fileSectionBeg (tokenizer.minus text)
  else if c = byte '.' then
    tokenizer.fileSection text (ascii "...") .fileSectionEnd
      (tokenizer.endIdent.keyword text .singleCharacter)
  else if c = byte '[' then tokenizer.collectionBeg text
  else if c = byte ']' then tokenizer.inCollection text .collectionEnd
  else if c = byte ',' then tokenizer.inCollection text .singleCharacter
  -- An opening or a closing brace.
  else if c = 123 ∨ c = 125 then
    tokenizer.fail text tokenizer.context.lineBeginPos
      (ascii "NEO::Yaml : Inline dictionaries are not supported")
  else if c = byte ':' then tokenizer.colon text
  else tokenizer.nameOrNumber text

end Tokenizer

/-- The loop over the text. -/
def tokenizeRounds (text : Text) : Nat → Tokenizer → Result Round
  | fuel, tokenizer =>
    match (text.rest tokenizer.context.pos).head? with
    | none => .ok (.next tokenizer)
    | some c =>
      match fuel with
      | 0 => .error .outOfFuel
      | fuel + 1 => tokenizer.tokenizeRound text c >>= fun
        | .failed outErrReason tokenizer => .ok (.failed outErrReason tokenizer)
        | .next tokenizer => tokenizeRounds text fuel tokenizer

/-- What the tokenizer returns and writes. -/
structure Tokenized where
  success : Bool
  outErrReason : List UInt8 := []
  tokenizer : Tokenizer
  deriving DecidableEq

/-- The last line ends with the text when no line end is there. Its failure gives a reason, but is
not one of the tokenizer. -/
def tokenizeLastLine (text : Text) (tokenizer : Tokenizer) : Result Tokenized :=
  match tokenizer.outTokens.getLast? with
  | none =>
    let outWarning := tokenizer.outWarning ++ ascii "NEO::Yaml : text tokenized to 0 tokens\n"
    .ok { success := true, tokenizer := { tokenizer with outWarning } }
  | some last =>
    if last.character0 = byte '\n' then .ok { success := true, tokenizer }
    else
      let outWarning := tokenizer.outWarning ++
        ascii "NEO::Yaml : text does not end with newline\n"
      (tokenizeEndLine text { tokenizer with outWarning }).map fun
        | .failed outErrReason tokenizer => { success := true, outErrReason, tokenizer }
        | .next tokenizer => { success := true, tokenizer }

def tokenize (text : Text) : Result Tokenized :=
  if text.bytes = [] then
    let outWarning := ascii "NEO::Yaml : input text is empty\n"
    .ok { success := true, tokenizer := { outWarning } }
  else
    tokenizeRounds text text.bytes.length {} >>= fun
      | .failed outErrReason tokenizer => .ok { success := false, outErrReason, tokenizer }
      | .next tokenizer => tokenizeLastLine text tokenizer

end ComputeRuntime.Yaml
