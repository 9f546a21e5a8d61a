import ComputeRuntime.Yaml.Conversion

/-! When reading an integer is exact. The narrow types test the range of what they read, but the
conversion has no result for a number that 64 signed bits do not hold. -/
namespace ComputeRuntime.Yaml

/-- The values of a type. -/
def IntegerType.Contains (type : IntegerType) (value : ℤ) : Prop :=
  type.min ≤ value ∧ value ≤ type.max

/-- The range test behind the conversion. -/
def IntegerType.accepts : IntegerType → ℤ → Bool
  | .int64, _ => true
  | .uint64, value => value ≥ 0
  | type, value => value ≤ type.max && value ≥ type.min

/-- The number that a token stands for. -/
def Token.literal (text : Text) (token : Token) : Option ℤ :=
  if token.type = .literalNumber then literalValue (token.cstrref text) else none

theorem readNumber_bounds (characters : List UInt8) :
    -2 ^ 63 ≤ (readNumber characters).2 ∧ (readNumber characters).2 < 2 ^ 63 := by
  unfold readNumber
  simp only
  split
  next => exact Strtoll.strtoll_bounds _ _
  next => exact Strtoll.strtoll_bounds _ _

/-- A cast keeps the values of its type. -/
theorem cast_of_contains {type : IntegerType} {value : ℤ} (contained : type.Contains value) :
    type.cast value = value := by
  have doubled : ((2 ^ type.bits : ℕ) : ℤ) = 2 * 2 ^ (type.bits - 1) := by cases type <;> rfl
  obtain ⟨low, high⟩ := contained
  unfold IntegerType.min at low
  unfold IntegerType.max at high
  unfold IntegerType.cast
  cases signed : type.signed with
  | true =>
    simp only [signed, if_true] at low high ⊢
    apply Int.bmod_eq_of_le_mul_two
    · omega
    · omega
  | false =>
    simp only [signed, Bool.false_eq_true, if_false] at low high ⊢
    exact Int.emod_eq_of_lt low (by omega)

theorem accepts_of_narrow {type : IntegerType} (narrow : type.bits < 64) (value : ℤ) :
    type.accepts value = true ↔ type.Contains value := by
  unfold IntegerType.Contains
  cases type with
  | int64 | uint64 => exact absurd narrow (Nat.lt_irrefl 64)
  | _ => simp [IntegerType.accepts, and_comm]

/-- What a call returns for a number token. -/
def Returns (type : IntegerType) (read : Bool × ℤ) (call : Result (Bool × ℤ)) : Prop :=
  ∃ written, call = .ok (read.1 && type.accepts read.2, written) ∧
    (type.accepts read.2 = true → written = read.2)

section Calls

variable {parser : YamlParser} {node : Node} {token : Token}
  (valid : node.value ≠ invalidTokenId) (found : parser.tokens[node.value]? = some token)

include valid found

theorem readValueCheckedInt64_number (number : token.type = .literalNumber) (outValue : ℤ) :
    readValueCheckedInt64 parser node outValue =
      .ok (readNumber (token.cstrref parser.text)) := by
  unfold readValueCheckedInt64
  rw [if_neg valid, found]
  exact if_neg (not_not_intro number)

theorem readValueCheckedInt64_other (other : token.type ≠ .literalNumber) (outValue : ℤ) :
    readValueCheckedInt64 parser node outValue = .ok (false, outValue) := by
  unfold readValueCheckedInt64
  rw [if_neg valid, found]
  exact if_pos other

theorem readSigned_number (number : token.type = .literalNumber) {type : IntegerType}
    (narrow : type.bits < 64) :
    Returns type (readNumber (token.cstrref parser.text)) (readSigned type parser node) := by
  refine ⟨type.cast (readNumber (token.cstrref parser.text)).2, ?_, fun accepted => ?_⟩
  · unfold readSigned
    rw [readValueCheckedInt64_number valid found number]
    cases type with
    | int64 | uint64 => exact absurd narrow (Nat.lt_irrefl 64)
    | _ => simp [Except.map, IntegerType.accepts, Bool.and_assoc]
  · exact cast_of_contains ((accepts_of_narrow narrow _).mp accepted)

theorem readValueCheckedUint64_number (number : token.type = .literalNumber) :
    Returns .uint64 (readNumber (token.cstrref parser.text))
      (readValueCheckedUint64 parser node) := by
  have bounds := readNumber_bounds (token.cstrref parser.text)
  refine ⟨IntegerType.uint64.cast (readNumber (token.cstrref parser.text)).2, ?_,
    fun accepted => ?_⟩
  · unfold readValueCheckedUint64
    rw [readValueCheckedInt64_number valid found number]
    rfl
  · have positive : 0 ≤ (readNumber (token.cstrref parser.text)).2 := of_decide_eq_true accepted
    have high : (readNumber (token.cstrref parser.text)).2 ≤ 2 ^ 64 - 1 := by omega
    exact cast_of_contains ⟨positive, high⟩

theorem readUnsigned_number (number : token.type = .literalNumber) {type : IntegerType}
    (narrow : type.bits < 64) (unsigned : type.signed = false) :
    Returns type (readNumber (token.cstrref parser.text)) (readUnsigned type parser node) := by
  obtain ⟨wide, call, same⟩ := readValueCheckedUint64_number valid found number
  generalize readNumber (token.cstrref parser.text) = read at call same ⊢
  have least : type.min = 0 := by
    unfold IntegerType.min
    rw [unsigned, if_neg Bool.false_ne_true]
  refine ⟨type.cast wide, ?_, fun accepted => ?_⟩
  · unfold readUnsigned
    rw [call]
    have tested : (IntegerType.uint64.accepts read.2 && decide (wide ≤ type.max)) =
        type.accepts read.2 := by
      rw [Bool.eq_iff_iff, Bool.and_eq_true, decide_eq_true_iff, accepts_of_narrow narrow,
        IntegerType.Contains, least]
      constructor
      · rintro ⟨positive, high⟩
        rw [same positive] at high
        exact ⟨of_decide_eq_true positive, high⟩
      · rintro ⟨positive, high⟩
        have accepted : IntegerType.uint64.accepts read.2 = true := decide_eq_true positive
        rw [same accepted]
        exact ⟨accepted, high⟩
    rw [← tested, ← Bool.and_assoc]
    rfl
  · have contained := (accepts_of_narrow narrow _).mp accepted
    have positive : IntegerType.uint64.accepts read.2 = true :=
      decide_eq_true (least ▸ contained.1)
    rw [same positive]
    exact cast_of_contains contained

/-- Every type reads what the conversion reads, and tests its range. -/
theorem readValueChecked_number (number : token.type = .literalNumber) (type : IntegerType)
    (outValue : ℤ) : Returns type (readNumber (token.cstrref parser.text))
      (readValueChecked type parser node outValue) := by
  cases type with
  | int64 =>
    refine ⟨(readNumber (token.cstrref parser.text)).2, ?_, fun _ => rfl⟩
    show readValueCheckedInt64 parser node outValue = _
    rw [readValueCheckedInt64_number valid found number, IntegerType.accepts, Bool.and_true]
  | int32 | int16 | int8 => exact readSigned_number valid found number (by decide)
  | uint64 => exact readValueCheckedUint64_number valid found number
  | uint32 | uint16 | uint8 =>
    exact readUnsigned_number valid found number (by decide) rfl

/-- Any other token is no integer. -/
theorem readValueChecked_other (other : token.type ≠ .literalNumber) (type : IntegerType)
    (outValue : ℤ) :
    ∃ written, readValueChecked type parser node outValue = .ok (false, written) := by
  have wide := readValueCheckedInt64_other valid found other 0
  have signed (type : IntegerType) : readSigned type parser node = .ok (false, type.cast 0) := by
    unfold readSigned
    rw [wide]
    rfl
  have unsigned : readValueCheckedUint64 parser node = .ok (false, 0) := by
    unfold readValueCheckedUint64
    rw [wide]
    rfl
  have narrow (type : IntegerType) : readUnsigned type parser node = .ok (false, type.cast 0) := by
    unfold readUnsigned
    rw [unsigned]
    rfl
  cases type with
  | int64 => exact ⟨_, readValueCheckedInt64_other valid found other outValue⟩
  | int32 | int16 | int8 => exact ⟨_, signed _⟩
  | uint64 => exact ⟨_, unsigned⟩
  | uint32 | uint16 | uint8 => exact ⟨_, narrow _⟩

end Calls

/-- The call returns true exactly when the token stands for a number of the type, and writes that
number then. -/
def ReadsExactly (type : IntegerType) (parser : YamlParser) (node : Node) (token : Token)
    (outValue : ℤ) : Prop :=
  ∃ validValue written,
    readValueChecked type parser node outValue = .ok (validValue, written) ∧
    (validValue = true ↔ ∃ value, token.literal parser.text = some value ∧ type.Contains value) ∧
    (validValue = true → token.literal parser.text = some written)

/-- What 64 signed bits hold of a type is enough: a number token is not cut to no characters at
all, and its number is in range when the type is signed and has 64 bits, and below `2 ^ 63` when
it is unsigned and has 64 bits. -/
def Readable (type : IntegerType) (text : Text) (token : Token) : Prop :=
  token.type = .literalNumber → token.cstrref text ≠ [] ∧
    ∀ value, token.literal text = some value →
      (type = .int64 → type.Contains value) ∧ (type = .uint64 → value < 2 ^ 63)

/-- Behind the conversion, the test is that of the type's range when the number is readable. -/
theorem accepts_saturate {type : IntegerType} {value : ℤ}
    (signed : type = .int64 → type.Contains value) (unsigned : type = .uint64 → value < 2 ^ 63) :
    (type.accepts (Strtoll.saturate value) = true ↔ type.Contains value) ∧
      (type.Contains value → Strtoll.saturate value = value) := by
  cases type with
  | int64 =>
    have contained := signed rfl
    refine ⟨⟨fun _ => contained, fun _ => rfl⟩, fun _ => ?_⟩
    have low : -2 ^ 63 ≤ value := contained.1
    have high : value ≤ 2 ^ 63 - 1 := contained.2
    unfold Strtoll.saturate
    omega
  | uint64 =>
    have high := unsigned rfl
    constructor
    · show decide (Strtoll.saturate value ≥ 0) = true ↔ 0 ≤ value ∧ value ≤ 2 ^ 64 - 1
      rw [decide_eq_true_iff]
      unfold Strtoll.saturate
      omega
    · intro contained
      have low : 0 ≤ value := contained.1
      unfold Strtoll.saturate
      omega
  | _ =>
    rw [accepts_of_narrow (by decide)]
    simp only [IntegerType.Contains, IntegerType.min, IntegerType.max, IntegerType.signed,
      IntegerType.bits, Strtoll.saturate, if_true, if_false, Bool.false_eq_true]
    constructor <;> omega

section Exact

variable {type : IntegerType} {parser : YamlParser} {node : Node} {token : Token} {outValue : ℤ}
  (number : token.type = .literalNumber)
  (returns : Returns type (readNumber (token.cstrref parser.text))
    (readValueChecked type parser node outValue))

include number returns

/-- When reading is exact, a number that the range test lets through is the token's. -/
theorem literal_of_read (exact : ReadsExactly type parser node token outValue) {value : ℤ}
    (read : readNumber (token.cstrref parser.text) = (true, value))
    (accepted : type.accepts value = true) :
    literalValue (token.cstrref parser.text) = some value := by
  obtain ⟨written, call, same⟩ := returns
  obtain ⟨validValue, written', call', _, writes⟩ := exact
  rw [read] at call same
  obtain ⟨rfl, rfl⟩ := Prod.mk.inj (Except.ok.inj (call'.symm.trans call))
  have literal := writes (by rw [Bool.true_and]; exact accepted)
  rw [same accepted] at literal
  exact (if_pos number).symm.trans literal

variable (isNumber : NumberText (token.cstrref parser.text))

include isNumber

theorem readable_of_exact (exact : ReadsExactly type parser node token outValue) :
    Readable type parser.text token := by
  have reads := readNumber_iff isNumber
  have through := @literal_of_read _ _ _ _ _ number returns exact
  intro _
  constructor
  · intro empty
    have zero : type.accepts 0 = true := by cases type <;> rfl
    have literal := through ((reads 0).mpr (.inl ⟨empty, rfl⟩)) zero
    rw [empty] at literal
    cases literal
  · intro value literal
    replace literal : literalValue (token.cstrref parser.text) = some value :=
      (if_pos number).symm.trans literal
    have read := (reads _).mpr (.inr ⟨value, literal, rfl⟩)
    have bounds := Strtoll.saturate_bounds value
    have kept (accepted : type.accepts (Strtoll.saturate value) = true) :
        value = Strtoll.saturate value :=
      Option.some.inj (literal.symm.trans (through read accepted))
    constructor
    · rintro rfl
      rw [kept rfl]
      exact ⟨bounds.1, by show _ ≤ (2 ^ 63 - 1 : ℤ); omega⟩
    · rintro rfl
      by_contra high
      have positive : Strtoll.saturate value ≥ 0 := by
        unfold Strtoll.saturate
        omega
      have same := kept (decide_eq_true positive)
      omega

theorem exact_of_readable (readable : Readable type parser.text token) :
    ReadsExactly type parser node token outValue := by
  obtain ⟨some, inRange⟩ := readable number
  have reads := readNumber_iff isNumber
  have literal : token.literal parser.text = literalValue (token.cstrref parser.text) :=
    if_pos number
  obtain ⟨written, call, same⟩ := returns
  refine ⟨_, written, call, ?_⟩
  cases value? : literalValue (token.cstrref parser.text) with
  | none =>
    -- Nothing else is read to its end.
    have fails : (readNumber (token.cstrref parser.text)).1 = false := by
      rw [Bool.eq_false_iff]
      intro valid
      rcases (reads _).mp (Prod.ext valid rfl) with ⟨empty, _⟩ | ⟨value, found, _⟩
      · exact some empty
      · rw [value?] at found
        cases found
    simp [fails, literal, value?]
  | some value =>
    have read := (reads _).mpr (.inr ⟨value, value?, rfl⟩)
    have conditions := inRange value (literal.trans value?)
    obtain ⟨accepted, kept⟩ := accepts_saturate conditions.1 conditions.2
    rw [read] at same ⊢
    rw [Bool.true_and, literal, value?, accepted]
    constructor
    · simp
    · intro contained
      rw [same (accepted.mpr contained), kept contained]

end Exact

/-- Reading is exact exactly when the number is readable: the conversion saturates, and the 64-bit
types do not notice. -/
theorem readValueChecked_exact_iff (type : IntegerType) {text : Text} {result : Tokenized}
    (tokenized : tokenize text = .ok result) {node : Node} {token : Token}
    (valid : node.value ≠ invalidTokenId)
    (found : result.tokenizer.outTokens[node.value]? = some token) (outValue : ℤ) :
    ReadsExactly type ⟨text, result.tokenizer.outTokens⟩ node token outValue ↔
      Readable type text token := by
  by_cases number : token.type = .literalNumber
  · have isNumber : NumberText (token.cstrref text) :=
      Outcome.of_ok (tokenize_numbers text) tokenized token (List.mem_of_getElem? found) number
    have returns := @readValueChecked_number ⟨text, result.tokenizer.outTokens⟩ node token valid
      found number type outValue
    exact ⟨readable_of_exact number returns isNumber, exact_of_readable number returns isNumber⟩
  · have literal : token.literal text = none := if_neg number
    obtain ⟨written, call⟩ := @readValueChecked_other
      ⟨text, result.tokenizer.outTokens⟩ node token valid found number type outValue
    refine ⟨fun _ isNumber => absurd isNumber number, fun _ => ⟨false, written, call, ?_, ?_⟩⟩
    · simp [literal]
    · rintro ⟨⟩

/-- A number of 64 bits, and one of five. -/
def offsets : Text := ⟨ascii "wide: 18446744073709551615\nnarrow: 0x1F\n", []⟩

def offsetsResult : Tokenized :=
  match tokenize offsets with
  | .ok result => result
  | .error _ => { success := false, tokenizer := {} }

def offsetsParser : YamlParser := ⟨offsets, offsetsResult.tokenizer.outTokens⟩

theorem readValueChecked_exact_narrow :
    ReadsExactly .uint8 offsetsParser ⟨6⟩ ⟨35, 4, .literalNumber, byte '0'⟩ 0 :=
  (readValueChecked_exact_iff .uint8 (by decide +kernel : tokenize offsets = .ok offsetsResult)
    (by decide) (by decide +kernel) 0).mpr fun _ =>
      ⟨by decide +kernel, fun _ _ => ⟨by rintro ⟨⟩, by rintro ⟨⟩⟩⟩

/-- The greatest 64-bit number is read as the greatest signed one. -/
theorem readValueChecked_wide_saturates :
    tokenize offsets = .ok offsetsResult ∧
    offsetsParser.tokens[2]? = some ⟨6, 20, .literalNumber, byte '1'⟩ ∧
    readValueChecked .uint64 offsetsParser ⟨2⟩ 0 = .ok (true, 2 ^ 63 - 1) ∧
    ¬ ReadsExactly .uint64 offsetsParser ⟨2⟩ ⟨6, 20, .literalNumber, byte '1'⟩ 0 := by
  have read : readValueChecked .uint64 offsetsParser ⟨2⟩ 0 = .ok (true, 2 ^ 63 - 1) := by
    decide +kernel
  refine ⟨by decide +kernel, by decide +kernel, read, ?_⟩
  rintro ⟨validValue, written, call, _, writes⟩
  obtain ⟨rfl, rfl⟩ := Prod.mk.inj (Except.ok.inj (call.symm.trans read))
  have literal := writes rfl
  revert literal
  decide +kernel

end ComputeRuntime.Yaml
