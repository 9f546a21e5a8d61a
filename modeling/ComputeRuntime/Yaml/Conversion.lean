import ComputeRuntime.Yaml.Integers
import ComputeRuntime.Yaml.Tokens

/-! What the conversion makes of the text of a number token. -/
namespace ComputeRuntime.Yaml

/-- The value of some digits, if there are any and all are digits of the base. -/
def numeralValue (base : Nat) (digits : List UInt8) : Option ℕ :=
  if digits ≠ [] ∧ digits.all (Strtoll.isDigit base) then some (Strtoll.value base digits) else none

/-- The value of a decimal or hexadecimal literal. Only a decimal one has a sign. -/
def literalValue : List UInt8 → Option ℤ
  | [] => none
  | c :: rest =>
    if c = byte '-' then (numeralValue 10 rest).map fun value : ℕ => -(value : ℤ)
    else if c = byte '+' then (numeralValue 10 rest).map fun value : ℕ => (value : ℤ)
    else if isHexPrefix (c :: rest) then
      (numeralValue 16 (rest.drop 1)).map fun value : ℕ => (value : ℤ)
    else (numeralValue 10 (c :: rest)).map fun value : ℕ => (value : ℤ)

/-- A property of all characters is checked on each. -/
theorem all_characters {P : UInt8 → Prop} (each : ∀ n : Fin 256, P (UInt8.ofFin n)) (c : UInt8) :
    P c := each c.toFin

theorem isDigit_sixteen (c : UInt8) : Strtoll.isDigit 16 c = isHexDigit c := by
  revert c
  exact all_characters (by decide +kernel)

/-- A digit or a dot is neither a blank, a sign nor the end of a text. -/
theorem plain_of_number (c : UInt8) (number : (isNumber c || c == byte '.') = true) :
    Strtoll.isSpace c = false ∧ c ≠ byte '-' ∧ c ≠ byte '+' ∧ c ≠ 0 := by
  revert c
  exact all_characters (by decide +kernel)

section Decimal

variable {body : List UInt8} (all : ∀ c ∈ body, (isNumber c || c == byte '.') = true)

/-- A sign in front is read, and nothing else is skipped. -/
structure SignedFront (front : List UInt8) (negative : Bool) (body : List UInt8) : Prop where
  noSpace : (front ++ (body ++ [0])).dropWhile Strtoll.isSpace = front ++ (body ++ [0])
  sign : Strtoll.readSign (front ++ (body ++ [0])) = (negative, body ++ [0])
  nonzero : ∀ c ∈ front, c ≠ 0

include all in
theorem SignedFront.unsigned : SignedFront [] false body := by
  constructor
  · cases body with
    | nil => rfl
    | cons c rest =>
      have plain := plain_of_number c (all c List.mem_cons_self)
      exact List.dropWhile_cons_of_neg (by simp [plain.1])
  · cases body with
    | nil => rfl
    | cons c rest =>
      have plain := plain_of_number c (all c List.mem_cons_self)
      unfold Strtoll.readSign
      split
      next equal => exact absurd (List.cons.inj equal).1 plain.2.1
      next equal => exact absurd (List.cons.inj equal).1 plain.2.2.1
      next => rfl
  · simp

theorem SignedFront.plus : SignedFront [byte '+'] false body := ⟨rfl, rfl, by decide +kernel⟩

theorem SignedFront.minus : SignedFront [byte '-'] true body := ⟨rfl, rfl, by decide +kernel⟩

theorem numeralValue_eq_some {base n : ℕ} {digits : List UInt8} :
    numeralValue base digits = some n ↔
      (digits ≠ [] ∧ ∀ c ∈ digits, Strtoll.isDigit base c = true) ∧
        n = Strtoll.value base digits := by
  unfold numeralValue
  rw [← List.all_eq_true]
  split
  next holds =>
    rw [Option.some.injEq, eq_comm]
    exact (and_iff_right holds).symm
  next fails =>
    constructor
    · rintro ⟨⟩
    · exact fun numeral => absurd numeral.1 fails

/-- The conversion ends at the end of the text, or in front of what is left of the body. -/
theorem head?_append_zero {characters : List UInt8} (nonzero : ∀ c ∈ characters, c ≠ 0) :
    (characters ++ [0]).head? = some 0 ↔ characters = [] := by
  cases characters with
  | nil => simp
  | cons c rest => simp [nonzero c List.mem_cons_self]

variable {front : List UInt8} {negative : Bool}

include all in
/-- A decimal number is read to its end exactly when it has digits and nothing else. -/
theorem strtoll_decimal (isFront : SignedFront front negative body) (outValue : ℤ) :
    ((Strtoll.strtoll (front ++ (body ++ [0])) 10).2.head? = some 0 ∧
      (Strtoll.strtoll (front ++ (body ++ [0])) 10).1 = outValue) ↔
    (front ++ body = [] ∧ outValue = 0) ∨ ∃ value,
      ((numeralValue 10 body).map fun n : ℕ => if negative then -(n : ℤ) else n) = some value ∧
        outValue = Strtoll.saturate value := by
  have nonzero : ∀ c ∈ body, c ≠ 0 := fun c member => (plain_of_number c (all c member)).2.2.2
  -- The digits end at the first dot, or at the end.
  have read : Strtoll.strtoll (front ++ (body ++ [0])) 10 =
      if body.takeWhile (Strtoll.isDigit 10) = [] then (0, front ++ (body ++ [0]))
      else (Strtoll.saturate (if negative then
        -(Strtoll.value 10 (body.takeWhile (Strtoll.isDigit 10)) : ℤ) else
        Strtoll.value 10 (body.takeWhile (Strtoll.isDigit 10))),
        body.dropWhile (Strtoll.isDigit 10) ++ [0]) := by
    refine Strtoll.strtoll_of_split isFront.noSpace isFront.sign ?_
      (fun c member => List.mem_takeWhile_imp member) ?_
    · rw [Strtoll.skipPrefix_of_ne (by decide), ← List.append_assoc,
        List.takeWhile_append_dropWhile]
    · have stops := List.head?_dropWhile_not (Strtoll.isDigit 10) body
      cases rest : body.dropWhile (Strtoll.isDigit 10) with
      | nil =>
        rintro c ⟨⟩
        rfl
      | cons c left =>
        rw [rest] at stops
        rintro _ ⟨⟩
        exact stops
  rw [read]
  split
  next noDigits =>
    have notNumeral : numeralValue 10 body = none := by
      rw [Option.eq_none_iff_forall_ne_some]
      intro n numeral
      obtain ⟨⟨some, digits⟩, _⟩ := numeralValue_eq_some.mp numeral
      rw [List.takeWhile_eq_self_iff.mpr digits] at noDigits
      exact some noDigits
    rw [← List.append_assoc, head?_append_zero]
    · simp [notNumeral, eq_comm]
    · intro c member
      rcases List.mem_append.mp member with inFront | inBody
      · exact isFront.nonzero c inFront
      · exact nonzero c inBody
  next digits =>
    have some : body ≠ [] := by
      rintro rfl
      exact digits rfl
    rw [head?_append_zero fun c member => nonzero c ((List.dropWhile_sublist _).subset member),
      List.dropWhile_eq_nil_iff]
    constructor
    · rintro ⟨whole, rfl⟩
      right
      refine ⟨_, Option.map_eq_some_iff.mpr
        ⟨_, numeralValue_eq_some.mpr ⟨⟨some, whole⟩, rfl⟩, rfl⟩, ?_⟩
      rw [List.takeWhile_eq_self_iff.mpr whole]
    · rintro (⟨empty, _⟩ | ⟨_, literal, rfl⟩)
      · exact absurd (List.append_eq_nil_iff.mp empty).2 some
      · obtain ⟨n, numeral, rfl⟩ := Option.map_eq_some_iff.mp literal
        obtain ⟨⟨_, whole⟩, rfl⟩ := numeralValue_eq_some.mp numeral
        refine ⟨whole, ?_⟩
        rw [List.takeWhile_eq_self_iff.mpr whole]

include all in
theorem isHexPrefix_of_digits (behind : List UInt8) (stop : ∀ c ∈ behind.head?, c = 0) :
    isHexPrefix (body ++ behind) = false := by
  rw [Bool.eq_false_iff]
  intro isHex
  obtain ⟨mark, digits, split, isMark⟩ := isHexPrefix_cases isHex
  have notMark : ¬ (isNumber mark || mark == byte '.') = true := by
    rcases isMark with rfl | rfl <;> decide
  match body, split with
  | [], split =>
    have zero := stop (byte '0') (by rw [List.nil_append] at split; rw [split]; rfl)
    cases zero
  | [c], split =>
    have tail : behind = mark :: digits := (List.cons.inj split).2
    have zero := stop mark (by rw [tail]; rfl)
    rcases isMark with rfl | rfl <;> cases zero
  | c :: c' :: rest, split =>
    rw [(List.cons.inj (List.cons.inj split).2).1] at all
    exact notMark (all mark (List.mem_cons_of_mem _ List.mem_cons_self))

include all in
theorem literalValue_unsigned :
    literalValue body = (numeralValue 10 body).map fun value : ℕ => (value : ℤ) := by
  have notHex := isHexPrefix_of_digits all [] (by simp)
  rw [List.append_nil] at notHex
  cases body with
  | nil => rfl
  | cons c rest =>
    have plain := plain_of_number c (all c List.mem_cons_self)
    rw [literalValue, if_neg plain.2.1, if_neg plain.2.2.1, notHex, if_neg Bool.false_ne_true]

end Decimal

section Hexadecimal

variable {mark : UInt8} {digits front : List UInt8} {negative : Bool}
  (isMark : mark = byte 'x' ∨ mark = byte 'X')

include isMark in
/-- The decimal conversion of a hexadecimal number stops in front of the mark. -/
theorem strtoll_mark
    (isFront : SignedFront front negative (byte '0' :: mark :: digits)) :
    (Strtoll.strtoll (front ++ (byte '0' :: mark :: digits ++ [0])) 10).2.head? = some mark := by
  have stop : Strtoll.isDigit 10 mark = false := by rcases isMark with rfl | rfl <;> decide
  have numeral : Strtoll.skipPrefix 10 (byte '0' :: mark :: digits ++ [0]) =
      [byte '0'] ++ (mark :: digits ++ [0]) := Strtoll.skipPrefix_of_ne (by decide) _
  rw [Strtoll.strtoll_of_split isFront.noSpace isFront.sign numeral (by decide +kernel)
    (by rintro _ ⟨⟩; exact stop), if_neg (by simp)]
  rfl

include isMark in
theorem numeralValue_mark : numeralValue 10 (byte '0' :: mark :: digits) = none := by
  rw [Option.eq_none_iff_forall_ne_some]
  intro n numeral
  obtain ⟨⟨_, all⟩, _⟩ := numeralValue_eq_some.mp numeral
  have digit := all mark (by simp)
  rcases isMark with rfl | rfl <;> revert digit <;> decide

include isMark in
/-- A hexadecimal number is read to its end. -/
theorem strtoll_hexadecimal {digit : UInt8}
    (all : ∀ c ∈ digit :: digits, isHexDigit c = true) :
    Strtoll.strtoll (byte '0' :: mark :: digit :: digits ++ [0]) 16 =
      (Strtoll.saturate (Strtoll.value 16 (digit :: digits)), [0]) := by
  have hexDigits : ∀ c ∈ digit :: digits, Strtoll.isDigit 16 c = true := fun c member => by
    rw [isDigit_sixteen]
    exact all c member
  have numeral : Strtoll.skipPrefix 16 (byte '0' :: mark :: digit :: digits ++ [0]) =
      (digit :: digits) ++ [0] := by
    show (if 16 = 16 ∧ _ then _ else _) = _
    rw [if_pos ⟨rfl, isMark, hexDigits digit List.mem_cons_self⟩]
    rfl
  rw [Strtoll.strtoll_of_split rfl rfl numeral hexDigits (by rintro _ ⟨⟩; decide),
    if_neg (List.cons_ne_nil _ _)]
  rfl

end Hexadecimal

theorem readNumber_eq_true {characters : List UInt8} {outValue : ℤ} {read : ℤ × List UInt8}
    (conversion : (if 2 < characters.length ∧ isHexPrefix (characters ++ [0]) then
      Strtoll.strtoll (characters ++ [0]) 16 else Strtoll.strtoll (characters ++ [0]) 10) = read) :
    readNumber characters = (true, outValue) ↔ read.2.head? = some 0 ∧ read.1 = outValue := by
  unfold readNumber
  simp only [conversion, Prod.mk.injEq, beq_iff_eq]

theorem literalValue_sign {sign : UInt8} (isSigned : isSign sign = true) (body : List UInt8) :
    ∃ negative, SignedFront [sign] negative body ∧ literalValue (sign :: body) =
      (numeralValue 10 body).map fun value : ℕ => if negative then -(value : ℤ) else value := by
  unfold isSign at isSigned
  simp only [Bool.or_eq_true, beq_iff_eq] at isSigned
  rcases isSigned with rfl | rfl
  · exact ⟨false, SignedFront.plus, rfl⟩
  · exact ⟨true, SignedFront.minus, rfl⟩

/-- What a number token is read as. -/
theorem readNumber_iff {characters : List UInt8} (number : NumberText characters)
    (outValue : ℤ) : readNumber characters = (true, outValue) ↔
      (characters = [] ∧ outValue = 0) ∨ ∃ value, literalValue characters = some value ∧
        outValue = Strtoll.saturate value := by
  cases number with
  | unsigned body isBody =>
    cases isBody with
    | digits body all =>
      have notHex := isHexPrefix_of_digits all [0] (by simp)
      rw [readNumber_eq_true (if_neg (by simp [notHex])), literalValue_unsigned all]
      have read := strtoll_decimal all (SignedFront.unsigned all) outValue
      simpa [and_comm, eq_comm] using read
    | hexadecimal mark digits isMark all =>
      have nonzero : mark ≠ 0 := by rcases isMark with rfl | rfl <;> decide
      have isHex (rest : List UInt8) : isHexPrefix (byte '0' :: mark :: rest) = true := by
        rcases isMark with rfl | rfl <;> rfl
      have literal : literalValue (byte '0' :: mark :: digits) =
          (numeralValue 16 digits).map fun value : ℕ => (value : ℤ) := by
        rw [literalValue, if_neg (by decide), if_neg (by decide), if_pos (isHex digits)]
        rfl
      rw [literal]
      cases digits with
      | nil =>
        -- The prefix alone is too short for the hexadecimal conversion.
        have stops := strtoll_mark isMark
          (show SignedFront [] false (byte '0' :: mark :: []) from ⟨rfl, rfl, by simp⟩)
        have short : ¬ (2 < [byte '0', mark].length ∧
            isHexPrefix ([byte '0', mark] ++ [0]) = true) :=
          fun long => absurd long.1 (Nat.lt_irrefl 2)
        rw [readNumber_eq_true (if_neg short)]
        rw [List.nil_append] at stops
        have noDigits : numeralValue 16 [] = none := rfl
        rw [stops, noDigits]
        constructor
        · rintro ⟨head, _⟩
          exact absurd (Option.some.inj head) nonzero
        · rintro (⟨empty, _⟩ | ⟨_, literal, _⟩)
          · exact absurd empty (List.cons_ne_nil _ _)
          · cases literal
      | cons digit digits =>
        rw [readNumber_eq_true ((if_pos ⟨by simp, isHex _⟩).trans (strtoll_hexadecimal isMark all))]
        have whole : numeralValue 16 (digit :: digits) =
            some (Strtoll.value 16 (digit :: digits)) := by
          refine numeralValue_eq_some.mpr ⟨⟨List.cons_ne_nil _ _, fun c member => ?_⟩, rfl⟩
          rw [isDigit_sixteen]
          exact all c member
        rw [whole, Option.map_some]
        constructor
        · rintro ⟨_, rfl⟩
          exact .inr ⟨_, rfl, rfl⟩
        · rintro (⟨empty, _⟩ | ⟨_, literal, rfl⟩)
          · exact absurd empty (List.cons_ne_nil _ _)
          · rw [← Option.some.inj literal]
            exact ⟨rfl, rfl⟩
  | signed sign body isSigned isBody =>
    obtain ⟨negative, isFront, literal⟩ := literalValue_sign isSigned body
    have notHex : isHexPrefix (sign :: body ++ [0]) = false := by
      rw [Bool.eq_false_iff]
      intro isHex
      obtain ⟨mark, digits, split, _⟩ := isHexPrefix_cases isHex
      rw [(List.cons.inj split).1] at isSigned
      revert isSigned
      decide
    rw [readNumber_eq_true (if_neg fun hex => by rw [notHex] at hex; cases hex.2), literal]
    cases isBody with
    | digits body all => exact strtoll_decimal all isFront outValue
    | hexadecimal mark digits isMark all =>
      have nonzero : mark ≠ 0 := by rcases isMark with rfl | rfl <;> decide
      have stops := strtoll_mark isMark isFront
      rw [numeralValue_mark isMark]
      simp only [List.singleton_append] at stops
      rw [List.cons_append, stops]
      simp [nonzero]

end ComputeRuntime.Yaml
