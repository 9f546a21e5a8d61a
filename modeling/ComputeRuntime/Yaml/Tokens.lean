import ComputeRuntime.Library.Outcome
import ComputeRuntime.Yaml.Tokenizer

/-! What the tokenizer's number tokens look like. -/
namespace ComputeRuntime.Yaml

/-- Digits with dots, or hexadecimal digits behind their prefix. -/
inductive NumberBody : List UInt8 → Prop
  | digits (body : List UInt8) (all : ∀ c ∈ body, (isNumber c || c == byte '.') = true) :
    NumberBody body
  | hexadecimal (mark : UInt8) (digits : List UInt8) (isMark : mark = byte 'x' ∨ mark = byte 'X')
    (all : ∀ c ∈ digits, isHexDigit c = true) : NumberBody (byte '0' :: mark :: digits)

/-- A number, or the start of one, as the tokenizer cuts it. -/
inductive NumberText : List UInt8 → Prop
  | unsigned (body : List UInt8) (isBody : NumberBody body) : NumberText body
  | signed (sign : UInt8) (body : List UInt8) (isSigned : isSign sign = true)
    (isBody : NumberBody body) : NumberText (sign :: body)

theorem NumberBody.take {body : List UInt8} (number : NumberBody body) (n : ℕ) :
    NumberBody (body.take n) := by
  cases number with
  | digits body all => exact .digits _ fun c member => all c (List.mem_of_mem_take member)
  | hexadecimal mark digits isMark all =>
    match n with
    | 0 => exact .digits [] (by simp)
    | 1 => exact .digits [byte '0'] (by decide +kernel)
    | n + 2 =>
      exact .hexadecimal mark (digits.take n) isMark fun c member =>
        all c (List.mem_of_mem_take member)

theorem NumberText.take {number : List UInt8} (isText : NumberText number) (n : ℕ) :
    NumberText (number.take n) := by
  cases isText with
  | unsigned body isBody => exact .unsigned _ (isBody.take n)
  | signed sign body isSigned isBody =>
    cases n with
    | zero => exact .unsigned [] (.digits [] (by simp))
    | succ n => exact .signed sign (body.take n) isSigned (isBody.take n)

theorem isHexPrefix_cases {rest : List UInt8} (isHex : isHexPrefix rest = true) :
    ∃ mark digits, rest = byte '0' :: mark :: digits ∧ (mark = byte 'x' ∨ mark = byte 'X') := by
  match rest with
  | [] | [_] => cases isHex
  | zero :: mark :: digits =>
    simp only [isHexPrefix, Bool.and_eq_true, Bool.or_eq_true, beq_iff_eq] at isHex
    exact ⟨mark, digits, by rw [isHex.1], isHex.2⟩

theorem take_takeWhile (p : UInt8 → Bool) (rest : List UInt8) :
    rest.take (rest.takeWhile p).length = rest.takeWhile p :=
  (List.prefix_iff_eq_take.mp (List.takeWhile_prefix p)).symm

/-- What is consumed as a number is one; a letter behind it leaves nothing. -/
theorem consumeNumber_body (rest : List UInt8) : NumberBody (rest.take (consumeNumber rest)) := by
  have nothing : NumberBody (rest.take 0) := .digits [] (by simp)
  -- The characters up to the one that ends the number.
  have whole : NumberBody (rest.take ((if isHexPrefix rest then 2 else 0) +
      ((if isHexPrefix rest then rest.drop 2 else rest).takeWhile fun c =>
        if isHexPrefix rest then isHexDigit c else isNumber c || c == byte '.').length)) := by
    by_cases isHex : isHexPrefix rest = true
    · obtain ⟨mark, digits, rfl, isMark⟩ := isHexPrefix_cases isHex
      simp only [isHex, if_true, List.drop_succ_cons, List.drop_zero]
      rw [Nat.add_comm, List.take_succ_cons, List.take_succ_cons, take_takeWhile]
      exact .hexadecimal mark _ isMark fun c member => List.mem_takeWhile_imp member
    · simp only [isHex, if_false, Nat.zero_add, Bool.false_eq_true]
      rw [take_takeWhile]
      apply NumberBody.digits
      intro c member
      exact @List.mem_takeWhile_imp _ (fun c => isNumber c || c == byte '.') _ _ member
  unfold consumeNumber
  simp only
  split
  next => exact whole
  next =>
    split
    next => exact nothing
    next => exact whole

/-- The text in front of where `consumeNumberOrSign` stops. -/
theorem consumeNumberOrSign_body (rest : List UInt8) :
    Outcome.Holds (fun size => NumberBody (rest.take size)) (· ≠ .outOfFuel)
      (consumeNumberOrSign rest false) := by
  unfold consumeNumberOrSign
  split
  next => rintro ⟨⟩
  next c rest allowSign equal =>
    split
    next => exact consumeNumber_body _
    next =>
      rw [if_neg (by simp)]
      exact .digits [] (by simp)

theorem consumeNumberOrSign_text (rest : List UInt8) :
    Outcome.Holds (fun size => NumberText (rest.take size)) (· ≠ .outOfFuel)
      (consumeNumberOrSign rest true) := by
  unfold consumeNumberOrSign
  split
  next => rintro ⟨⟩
  next c rest =>
    split
    next => exact .unsigned _ (consumeNumber_body _)
    next =>
      split
      next sign =>
        have isSigned : isSign c = true := by simpa using sign
        split
        next =>
          refine Outcome.map (consumeNumberOrSign_body rest) fun size body => ?_
          rw [List.take_succ_cons]
          exact .signed c _ isSigned body
        next => exact .signed c [] isSigned (.digits [] (by simp))
      next => exact .unsigned [] (.digits [] (by simp))

/-- A number token has the text of a number. -/
def Token.IsNumber (text : Text) (token : Token) : Prop :=
  token.type = .literalNumber → NumberText (token.cstrref text)

/-- All number tokens so far have. -/
def Tokenizer.Numbers (text : Text) (tokenizer : Tokenizer) : Prop :=
  ∀ token ∈ tokenizer.outTokens, token.IsNumber text

/-- The tokenizer as the round leaves it. -/
def Round.tokenizer : Round → Tokenizer
  | .failed _ tokenizer => tokenizer
  | .next tokenizer => tokenizer

/-- What a round leaves: the number tokens are numbers, and it has moved on unless it failed. -/
structure Round.Steps (text : Text) (pos : ℕ) (round : Round) : Prop where
  numbers : round.tokenizer.Numbers text
  moves : ∀ tokenizer, round = .next tokenizer → pos < tokenizer.context.pos

/-- A round does so, and does not run out of fuel. -/
abbrev Steps (text : Text) (pos : ℕ) (round : Result Round) : Prop :=
  Outcome.Holds (fun round => round.Steps text pos) (· ≠ .outOfFuel) round

theorem Round.Steps.next {text : Text} {pos : ℕ} {tokenizer : Tokenizer}
    (numbers : tokenizer.Numbers text) (moved : pos < tokenizer.context.pos) :
    (Round.next tokenizer).Steps text pos :=
  ⟨numbers, by rintro _ ⟨⟩; exact moved⟩

theorem consumeNumberOrSign_sign {c : UInt8} {rest : List UInt8} (sign : c = byte '-') :
    Outcome.Holds (0 < ·) (· ≠ .outOfFuel) (consumeNumberOrSign (c :: rest) true) := by
  subst sign
  unfold consumeNumberOrSign
  have notHex : isHexPrefix (byte '-' :: rest) = false := by cases rest <;> rfl
  rw [notHex, if_neg (by decide), if_pos (by decide)]
  split
  next =>
    exact Outcome.map (consumeNumberOrSign_body rest) fun size _ => Nat.succ_pos size
  next => exact Nat.one_pos

/-- The loop over an inline collection ends before its fuel does. -/
theorem scanInlineCollection_ends {fuel left : ℕ} (enough : left < fuel) (rest : List UInt8)
    (endNum endCollection : Bool) :
    Outcome.Holds (fun _ => True) (· ≠ .outOfFuel)
      (scanInlineCollection fuel left rest endNum endCollection) := by
  induction fuel generalizing left rest endNum endCollection with
  | zero => omega
  | succ fuel ih =>
    cases rest with
    | nil => trivial
    | cons c rest =>
      unfold scanInlineCollection
      split
      next => trivial
      next more =>
        have some : 0 < left := by omega
        split
        next => exact ih (by omega) ..
        split
        next =>
          split
          next letter =>
            have consumed : 0 < ((c :: rest).takeWhile isAlphaNumeric).length := by
              rw [List.takeWhile_cons, letter]
              exact Nat.succ_pos _
            simp only
            split
            next => rintro ⟨⟩
            next => exact ih (by omega) ..
          next => trivial
        split
        next =>
          split
          next => exact ih (by omega) ..
          split
          next => exact ih (by omega) ..
          next => trivial
        next => trivial

theorem Text.charAt_fuel (text : Text) (pos : ℕ) :
    Outcome.Holds (fun _ => True) (· ≠ .outOfFuel) (text.charAt pos) := by
  unfold charAt
  split
  next => rintro ⟨⟩
  next => trivial

theorem constructYamlError_fuel (text : Text) (lineNumber lineBeg parsePos : ℕ)
    (reason : List UInt8) : Outcome.Holds (fun _ => True) (· ≠ .outOfFuel)
      (constructYamlError text lineNumber lineBeg parsePos reason) := by
  have slice : Outcome.Holds (fun _ => True) (· ≠ .outOfFuel)
      (text.slice lineBeg (parsePos - lineBeg + 1)) := by
    unfold Text.slice
    split
    next => trivial
    next => rintro ⟨⟩
  exact Outcome.map slice fun _ _ => trivial

namespace Tokenizer

variable {text : Text} {tokenizer : Tokenizer} {pos : ℕ}

/-- A token is pushed whose text, when it is a number, is one before its length is cut to 32
bits. -/
theorem push_steps (numbers : tokenizer.Numbers text) {offset length : ℕ} {tokType : TokenType}
    (number : tokType = .literalNumber →
      NumberText ((text.rest (tokenizer.context.pos + offset)).take length)) :
    Outcome.Holds (fun pushed => pushed.Numbers text ∧ pushed.context = tokenizer.context)
      (· ≠ .outOfFuel) (tokenizer.push text offset length tokType) := by
  have read := text.charAt_fuel (tokenizer.context.pos + offset)
  unfold push Token.make
  cases found : text.charAt (tokenizer.context.pos + offset) with
  | error abort =>
    rw [found] at read
    exact read
  | ok character0 =>
    refine ⟨fun token member => ?_, rfl⟩
    rcases List.mem_append.mp member with old | new
    · exact numbers token old
    · rw [List.mem_singleton] at new
      subst new
      intro isNumber
      have cut := (number isNumber).take (length % 2 ^ 32)
      rwa [List.take_take, Nat.min_eq_left (Nat.mod_le _ _)] at cut

theorem fail_steps (numbers : tokenizer.Numbers text) {lineBeg : ℕ} {reason : List UInt8} :
    Steps text pos (tokenizer.fail text lineBeg reason) :=
  Outcome.map (constructYamlError_fuel text _ lineBeg _ reason)
    fun _ _ => ⟨numbers, by rintro _ ⟨⟩⟩

theorem advance_steps (numbers : tokenizer.Numbers text) (here : tokenizer.context.pos = pos)
    {size : ℕ} (some : 0 < size) : (Round.next (tokenizer.advance size)).Steps text pos := by
  refine .next numbers ?_
  rw [← here]
  exact Nat.lt_add_of_pos_right some

theorem keyword_steps (numbers : tokenizer.Numbers text) (here : tokenizer.context.pos = pos)
    {tokType : TokenType} (other : tokType ≠ .literalNumber) :
    Steps text pos (tokenizer.keyword text tokType) := by
  refine Outcome.map (push_steps numbers fun isNumber => absurd isNumber other) ?_
  rintro pushed ⟨kept, context⟩
  exact advance_steps kept (by rw [context, here]) Nat.one_pos

theorem fileSection_steps (numbers : tokenizer.Numbers text) {marker : List UInt8}
    (some : 0 < marker.length) {tokType : TokenType} (other : tokType ≠ .literalNumber)
    {otherwise : Result Round} (rest : Steps text tokenizer.context.pos otherwise) :
    Steps text tokenizer.context.pos (tokenizer.fileSection text marker tokType otherwise) := by
  unfold fileSection
  split
  next =>
    refine Outcome.map (push_steps numbers fun isNumber => absurd isNumber other) ?_
    rintro pushed ⟨kept, context⟩
    refine .next kept ?_
    rw [← context]
    exact Nat.lt_add_of_pos_right some
  next => exact rest

theorem comment_steps (numbers : tokenizer.Numbers text) :
    Steps text tokenizer.context.pos (tokenizer.comment text) := by
  unfold comment
  have endIdent : tokenizer.endIdent.Numbers text := numbers
  refine Outcome.andThen (push_steps endIdent (by rintro ⟨⟩)) ?_
  rintro marked ⟨marker, context⟩
  have here : marked.context.pos = tokenizer.context.pos := by rw [context]; rfl
  simp only
  split
  next =>
    refine Outcome.andThen (push_steps marker (by rintro ⟨⟩)) ?_
    rintro pushed ⟨kept, context⟩
    exact advance_steps kept (by rw [context, here]) (Nat.succ_pos _)
  next => exact advance_steps marker here (Nat.succ_pos _)

theorem stringLiteral_steps (numbers : tokenizer.Numbers text) :
    Steps text tokenizer.context.pos (tokenizer.stringLiteral text) := by
  unfold stringLiteral
  have endIdent : tokenizer.endIdent.Numbers text := numbers
  simp only
  split
  next => exact fail_steps endIdent
  next some =>
    refine Outcome.andThen (push_steps endIdent (by rintro ⟨⟩)) ?_
    rintro pushed ⟨kept, context⟩
    exact advance_steps kept (by rw [context]; rfl) (Nat.pos_of_ne_zero some)

theorem minus_steps (numbers : tokenizer.Numbers text)
    (found : (text.rest tokenizer.context.pos).head? = some (byte '-')) :
    Steps text tokenizer.context.pos (tokenizer.minus text) := by
  unfold minus
  have consumed := consumeNumberOrSign_text (text.rest tokenizer.context.pos)
  have moved : Outcome.Holds (0 < ·) (· ≠ .outOfFuel)
      (consumeNumberOrSign (text.rest tokenizer.context.pos) true) := by
    obtain ⟨rest, split⟩ := List.head?_eq_some_iff.mp found
    rw [split]
    exact consumeNumberOrSign_sign rfl
  refine Outcome.andThen (Outcome.remember consumed) ?_
  rintro size ⟨ran, number⟩
  have some : 0 < size := Outcome.of_ok moved ran
  have pushes (pushed : Tokenizer) (steps : pushed.Numbers text ∧
      pushed.context = tokenizer.context) :
      (Round.next (pushed.advance size).endIdent).Steps text tokenizer.context.pos := by
    refine .next steps.1 ?_
    rw [← steps.2]
    exact Nat.lt_add_of_pos_right some
  split
  next => exact Outcome.andThen (push_steps numbers fun _ => number) pushes
  next => exact Outcome.andThen (push_steps numbers (by rintro ⟨⟩)) pushes

theorem inCollection_steps (numbers : tokenizer.Numbers text) {tokType : TokenType}
    (other : tokType ≠ .literalNumber) :
    Steps text tokenizer.context.pos (tokenizer.inCollection text tokType) := by
  unfold inCollection
  split
  next => exact fail_steps numbers
  next => exact keyword_steps numbers rfl other

theorem collectionBeg_steps (numbers : tokenizer.Numbers text) :
    Steps text tokenizer.context.pos (tokenizer.collectionBeg text) := by
  unfold collectionBeg
  refine Outcome.andThen (scanInlineCollection_ends (Nat.lt_succ_self _) _ _ _) ?_
  intro valid _
  split
  next => exact fail_steps numbers
  next =>
    refine keyword_steps ?_ rfl (by rintro ⟨⟩)
    exact numbers

theorem nameOrNumber_steps (numbers : tokenizer.Numbers text) :
    Steps text tokenizer.context.pos (tokenizer.nameOrNumber text) := by
  unfold nameOrNumber
  have endIdent : tokenizer.endIdent.Numbers text := numbers
  simp only
  split
  next some =>
    refine Outcome.andThen (push_steps endIdent ?_) ?_
    · split
      next => rintro ⟨⟩
      next => rintro ⟨⟩
    · rintro pushed ⟨kept, context⟩
      exact advance_steps kept (by rw [context]; rfl) (Nat.pos_of_ne_zero some)
  next =>
    refine Outcome.andThen (consumeNumberOrSign_text _) fun size number => ?_
    split
    next some =>
      refine Outcome.andThen (push_steps endIdent fun _ => number) ?_
      rintro pushed ⟨kept, context⟩
      exact advance_steps kept (by rw [context]; rfl) (Nat.pos_of_ne_zero some)
    next => exact fail_steps endIdent

theorem tokenizeEndLine_steps (numbers : tokenizer.Numbers text) :
    Steps text tokenizer.context.pos (tokenizeEndLine text tokenizer) := by
  unfold tokenizeEndLine
  refine Outcome.andThen (push_steps numbers (by rintro ⟨⟩)) ?_
  rintro ended ⟨pushed, _⟩
  split
  next => rintro ⟨⟩
  next =>
    split
    next => exact fail_steps pushed
    next => exact .next pushed (Nat.lt_succ_self _)

theorem ite_steps {p : Prop} [Decidable p] {yes no : Result Round}
    (left : p → Steps text pos yes) (right : Steps text pos no) :
    Steps text pos (if p then yes else no) := by
  split
  next holds => exact left holds
  next => exact right

/-- What one round does, with one case for each kind of character. -/
theorem tokenizeRound_steps (numbers : tokenizer.Numbers text) {c : UInt8}
    (found : (text.rest tokenizer.context.pos).head? = some c) :
    Steps text tokenizer.context.pos (tokenizer.tokenizeRound text c) := by
  have blanks (indent : ℕ) (warning : List UInt8) :
      (Round.next ((tokenizer.blank indent warning).advance 1)).Steps text
        tokenizer.context.pos := by
    unfold blank
    split
    next => exact .next numbers (Nat.lt_succ_self _)
    next => exact .next numbers (Nat.lt_succ_self _)
  unfold tokenizeRound
  apply ite_steps
  · exact fun _ => blanks _ _
  apply ite_steps
  · exact fun _ => blanks _ _
  apply ite_steps
  · exact fun _ => advance_steps numbers rfl Nat.one_pos
  apply ite_steps
  · exact fun _ => comment_steps numbers
  apply ite_steps
  · exact fun _ => tokenizeEndLine_steps numbers
  apply ite_steps
  · exact fun _ => stringLiteral_steps numbers
  apply ite_steps
  · intro minus
    exact fileSection_steps numbers (by decide) (by rintro ⟨⟩)
      (minus_steps numbers (by rw [found, minus]))
  apply ite_steps
  · intro _
    refine fileSection_steps numbers (by decide) (by rintro ⟨⟩)
      (keyword_steps ?_ rfl (by rintro ⟨⟩))
    exact numbers
  apply ite_steps
  · exact fun _ => collectionBeg_steps numbers
  apply ite_steps
  · exact fun _ => inCollection_steps numbers (by rintro ⟨⟩)
  apply ite_steps
  · exact fun _ => inCollection_steps numbers (by rintro ⟨⟩)
  apply ite_steps
  · exact fun _ => fail_steps numbers
  apply ite_steps
  · intro _
    refine keyword_steps ?_ rfl (by rintro ⟨⟩)
    exact numbers
  · exact nameOrNumber_steps numbers

end Tokenizer

/-- The loop goes through at most as many rounds as there are characters left. -/
theorem tokenizeRounds_numbers {text : Text} {fuel : ℕ} {tokenizer : Tokenizer}
    (numbers : tokenizer.Numbers text)
    (enough : text.bytes.length ≤ tokenizer.context.pos + fuel) :
    Outcome.Holds (fun round => round.tokenizer.Numbers text) (· ≠ .outOfFuel)
      (tokenizeRounds text fuel tokenizer) := by
  induction fuel generalizing tokenizer with
  | zero =>
    have ended : (text.rest tokenizer.context.pos).head? = none := by
      rw [Text.rest, List.drop_eq_nil_of_le (by omega)]
      rfl
    unfold tokenizeRounds
    rw [ended]
    exact numbers
  | succ fuel ih =>
    unfold tokenizeRounds
    split
    next => exact numbers
    next c found =>
      refine Outcome.andThen (Tokenizer.tokenizeRound_steps numbers found) fun round steps => ?_
      cases round with
      | failed outErrReason tokenizer => exact steps.numbers
      | next tokenizer =>
        have moved := steps.moves tokenizer rfl
        exact ih steps.numbers (by omega)

theorem tokenizeLastLine_numbers {text : Text} {tokenizer : Tokenizer}
    (numbers : tokenizer.Numbers text) :
    Outcome.Holds (fun result => result.tokenizer.Numbers text) (· ≠ .outOfFuel)
      (tokenizeLastLine text tokenizer) := by
  unfold tokenizeLastLine
  split
  next => exact numbers
  next =>
    split
    next => exact numbers
    next =>
      refine Outcome.map (Tokenizer.tokenizeEndLine_steps ?_) fun round steps => ?_
      · exact numbers
      · cases round with
        | failed outErrReason tokenizer => exact steps.numbers
        | next tokenizer => exact steps.numbers

/-- The tokenizer has enough fuel, and every number token it writes has the text of a number, also
where it fails. -/
theorem tokenize_numbers (text : Text) :
    Outcome.Holds (fun result => result.tokenizer.Numbers text) (· ≠ .outOfFuel)
      (tokenize text) := by
  have start : Tokenizer.Numbers text {} := fun token member => by cases member
  unfold tokenize
  split
  next => exact start
  next =>
    refine Outcome.andThen (tokenizeRounds_numbers start (Nat.le_add_left _ _))
      fun round kept => ?_
    cases round with
    | failed outErrReason tokenizer => exact kept
    | next tokenizer => exact tokenizeLastLine_numbers kept

end ComputeRuntime.Yaml
