import ComputeRuntime.Library.Strtoll
import ComputeRuntime.Yaml.Tokenizer

/-! Reading the value of a node as an integer. All types go through one signed 64-bit
conversion. -/
namespace ComputeRuntime.Yaml

/-- No token: the id of a node without a value. -/
def invalidTokenId : Nat := 2 ^ 32 - 1

/-- The token of a node's value. -/
structure Node where
  value : Nat := invalidTokenId
  deriving DecidableEq

structure YamlParser where
  text : Text
  tokens : List Token
  deriving DecidableEq

/-- The conversion of a token's characters, and whether it read all of them. -/
def readNumber (characters : List UInt8) : Bool × ℤ :=
  let nullTerminated := characters ++ [0]
  let (outValue, endPtr) :=
    if 2 < characters.length ∧ isHexPrefix nullTerminated then Strtoll.strtoll nullTerminated 16
    else Strtoll.strtoll nullTerminated 10
  (endPtr.head? == some 0, outValue)

/-- `readValueChecked<int64_t>`: whether the value could be read, and what `outValue` is then. -/
def readValueCheckedInt64 (parser : YamlParser) (node : Node) (outValue : ℤ) : Result (Bool × ℤ) :=
  if node.value = invalidTokenId then .ok (false, outValue)
  else
    match parser.tokens[node.value]? with
    | none => .error .outOfBounds
    | some token =>
      if token.type ≠ .literalNumber then .ok (false, outValue)
      else .ok (readNumber (token.cstrref parser.text))

/-- The integer types that a value is read as. -/
inductive IntegerType where
  | int64
  | int32
  | int16
  | int8
  | uint64
  | uint32
  | uint16
  | uint8
  deriving DecidableEq

namespace IntegerType

def bits : IntegerType → Nat
  | int64 | uint64 => 64
  | int32 | uint32 => 32
  | int16 | uint16 => 16
  | int8 | uint8 => 8

def signed : IntegerType → Bool
  | int64 | int32 | int16 | int8 => true
  | uint64 | uint32 | uint16 | uint8 => false

/-- The least and the greatest value of a type, as `std::numeric_limits` has them. -/
def min (type : IntegerType) : ℤ := if type.signed then -2 ^ (type.bits - 1) else 0

def max (type : IntegerType) : ℤ :=
  if type.signed then 2 ^ (type.bits - 1) - 1 else 2 ^ type.bits - 1

/-- `static_cast`: the value of the type that is the same modulo its size. -/
def cast (type : IntegerType) (value : ℤ) : ℤ :=
  if type.signed then value.bmod (2 ^ type.bits) else value % 2 ^ type.bits

end IntegerType

/-- The signed types of less than 64 bits. -/
def readSigned (type : IntegerType) (parser : YamlParser) (node : Node) : Result (Bool × ℤ) :=
  (readValueCheckedInt64 parser node 0).map fun (validValue, int64V) =>
    (validValue && int64V ≤ type.max && int64V ≥ type.min, type.cast int64V)

def readValueCheckedInt32 := readSigned .int32

def readValueCheckedInt16 := readSigned .int16

def readValueCheckedInt8 := readSigned .int8

def readValueCheckedUint64 (parser : YamlParser) (node : Node) : Result (Bool × ℤ) :=
  (readValueCheckedInt64 parser node 0).map fun (validValue, int64V) =>
    (validValue && int64V ≥ 0, IntegerType.uint64.cast int64V)

/-- The unsigned types of less than 64 bits. -/
def readUnsigned (type : IntegerType) (parser : YamlParser) (node : Node) : Result (Bool × ℤ) :=
  (readValueCheckedUint64 parser node).map fun (validValue, uint64V) =>
    (validValue && uint64V ≤ type.max, type.cast uint64V)

def readValueCheckedUint32 := readUnsigned .uint32

def readValueCheckedUint16 := readUnsigned .uint16

def readValueCheckedUint8 := readUnsigned .uint8

/-- `readValueChecked`, by the type. Only that of 64-bit signed integers may leave `outValue` as it
is. -/
def readValueChecked (type : IntegerType) (parser : YamlParser) (node : Node) (outValue : ℤ) :
    Result (Bool × ℤ) :=
  match type with
  | .int64 => readValueCheckedInt64 parser node outValue
  | .int32 => readValueCheckedInt32 parser node
  | .int16 => readValueCheckedInt16 parser node
  | .int8 => readValueCheckedInt8 parser node
  | .uint64 => readValueCheckedUint64 parser node
  | .uint32 => readValueCheckedUint32 parser node
  | .uint16 => readValueCheckedUint16 parser node
  | .uint8 => readValueCheckedUint8 parser node

end ComputeRuntime.Yaml
