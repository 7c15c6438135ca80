/-
This file says which texts are numbers in TypeScript, and proves of which numeric literals the text
is one: of those whose separators stand between digits and whose decimal digits do not begin with a
zero.
-/

import DecoderForge.Proofs.TypeScript.Word

namespace DecoderForge.TypeScript

open Text NumericLiteral

/-- Digits, of which two may have a separator between them. -/
inductive Digits (isDigit : Char → Bool) : List Char → Prop
  | single {c : Char} (digit : isDigit c = true) : Digits isDigit [c]
  | cons {c : Char} {rest : List Char} (digit : isDigit c = true) (more : Digits isDigit rest) :
    Digits isDigit (c :: rest)
  | separated {c : Char} {rest : List Char} (digit : isDigit c = true)
    (more : Digits isDigit rest) : Digits isDigit (c :: '_' :: rest)

/-- Nothing, or a letter and digits with a sign or without one. -/
inductive Exponent : List Char → Prop
  | absent : Exponent []
  | unsigned {letter : Char} {digits : List Char} (known : letter ∈ ['e', 'E'])
    (power : Digits Char.isDigit digits) : Exponent (letter :: digits)
  | signed {letter sign : Char} {digits : List Char} (known : letter ∈ ['e', 'E'])
    (side : sign ∈ ['+', '-']) (power : Digits Char.isDigit digits) :
    Exponent (letter :: sign :: digits)

/-- A zero alone, or digits that do not begin with one. -/
inductive DecimalInteger : List Char → Prop
  | zero : DecimalInteger ['0']
  | digits {first : Char} {rest : List Char} (nonzero : first ≠ '0')
    (some : Digits Char.isDigit (first :: rest)) : DecimalInteger (first :: rest)

inductive Decimal : List Char → Prop
  | whole {whole exponent : List Char} (before : DecimalInteger whole)
    (power : Exponent exponent) : Decimal (whole ++ exponent)
  | point {whole fraction exponent : List Char} (before : DecimalInteger whole)
    (places : fraction = [] ∨ Digits Char.isDigit fraction) (power : Exponent exponent) :
    Decimal (whole ++ '.' :: (fraction ++ exponent))
  | fraction {fraction exponent : List Char} (places : Digits Char.isDigit fraction)
    (power : Exponent exponent) : Decimal ('.' :: (fraction ++ exponent))

/-- The letters that name a base behind a zero, with the digits of the base. -/
inductive Base : Char → (Char → Bool) → Prop
  | binary {letter : Char} (known : letter ∈ ['b', 'B']) : Base letter fun c => c == '0' || c == '1'
  | octal {letter : Char} (known : letter ∈ ['o', 'O']) :
    Base letter fun c => '0' ≤ c && c ≤ '7'
  | hexadecimal {letter : Char} (known : letter ∈ ['x', 'X']) : Base letter isHexadecimal

/-- The texts that are numbers in strict code; those of big integers are not among them. -/
inductive IsNumber : List Char → Prop
  | decimal {chars : List Char} (decimal : Decimal chars) : IsNumber chars
  | based {letter : Char} {isDigit : Char → Bool} {digits : List Char}
    (base : Base letter isDigit) (some : Digits isDigit digits) :
    IsNumber ('0' :: letter :: digits)

/-- A text behind the minus sign with which it begins, if it does. -/
def withoutMinus : List Char → List Char
  | '-' :: rest => rest
  | chars => chars

/-- The digits of the base that the letter behind a zero names, or the decimal ones. -/
def digitTest : List Char → Char → Bool
  | '0' :: letter :: _ => (ofBase? letter).getD Char.isDigit
  | _ => Char.isDigit

/-- Every separator stands between two digits. -/
def IsSeparated (isDigit : Char → Bool) (chars : List Char) : Prop :=
  ∀ before after, chars = before ++ '_' :: after →
    (∃ c ∈ before.getLast?, isDigit c = true) ∧ ∃ c ∈ after.head?, isDigit c = true

/-- A zero with more digits behind it. -/
def HasLeadingZero (chars : List Char) : Prop :=
  ∃ c rest, chars = '0' :: c :: rest ∧ isDigitOrSeparator c = true

section

variable {isDigit : Char → Bool} {c : Char} {chars left right : List Char}

theorem IsSeparated.of_absent (absent : '_' ∉ chars) : IsSeparated isDigit chars := by
  rintro before after rfl
  exact absurd List.mem_append_cons_self absent

theorem firstDigit_append_cons (other : isDigit c = false) :
    (∃ d ∈ (left ++ c :: right).head?, isDigit d = true) ↔ ∃ d ∈ left.head?, isDigit d = true := by
  cases left <;> simp [other]

theorem getLast?_append_cons : (left ++ c :: right).getLast? = right.getLast?.or (some c) := by
  rw [List.getLast?_append, List.getLast?_cons, Option.some_or]
  cases right.getLast? <;> rfl

theorem IsSeparated.before (separated : IsSeparated isDigit (left ++ c :: right))
    (other : isDigit c = false) : IsSeparated isDigit left := by
  rintro before after rfl
  obtain ⟨lower, upper⟩ := separated before (after ++ c :: right) (by simp)
  exact ⟨lower, (firstDigit_append_cons other).mp upper⟩

/-- What stands behind a character, if it does not begin with a separator behind a digit. -/
theorem IsSeparated.behind (separated : IsSeparated isDigit (left ++ c :: right))
    (first : isDigit c = true → right.head? ≠ some '_') : IsSeparated isDigit right := by
  rintro before after rfl
  obtain ⟨⟨d, last, digit⟩, upper⟩ := separated (left ++ c :: before) after (by simp)
  refine ⟨⟨d, ?_, digit⟩, upper⟩
  rw [getLast?_append_cons] at last
  cases behind : before.getLast? with
  | none =>
    obtain rfl := List.getLast?_eq_none_iff.mp behind
    obtain rfl : c = d := by simpa using last
    exact absurd rfl (first digit)
  | some lower => simpa [behind] using last

/-- A character that is neither a digit nor a separator parts a text. -/
theorem isSeparated_append_cons (other : isDigit c = false) (word : c ≠ '_') :
    IsSeparated isDigit (left ++ c :: right) ↔
      IsSeparated isDigit left ∧ IsSeparated isDigit right := by
  constructor
  · intro separated
    exact ⟨separated.before other, separated.behind fun digit => by simp [other] at digit⟩
  · rintro ⟨below, above⟩ before after split
    rcases List.append_eq_append_iff.mp split with ⟨middle, rfl, same⟩ | ⟨middle, rfl, same⟩
    · cases middle with
      | nil => exact absurd (List.cons.inj same).1 word
      | cons first middle =>
        obtain ⟨rfl, rfl⟩ := List.cons.inj same
        obtain ⟨⟨d, last, digit⟩, upper⟩ := above middle after rfl
        refine ⟨⟨d, ?_, digit⟩, upper⟩
        rw [getLast?_append_cons, Option.mem_def.mp last]
        rfl
    · cases middle with
      | nil => exact absurd (List.cons.inj same).1.symm word
      | cons first middle =>
        obtain ⟨rfl, rfl⟩ := List.cons.inj same
        obtain ⟨lower, upper⟩ := below before middle rfl
        exact ⟨lower, (firstDigit_append_cons other).mpr upper⟩

/-- One more character in front, which is no separator. -/
theorem IsSeparated.cons (separated : IsSeparated isDigit chars) (word : c ≠ '_') :
    IsSeparated isDigit (c :: chars) := by
  intro before after split
  cases before with
  | nil => exact absurd (List.cons.inj split).1 word
  | cons first before =>
    obtain ⟨⟨d, last, digit⟩, upper⟩ := separated before after (List.cons.inj split).2
    refine ⟨⟨d, ?_, digit⟩, upper⟩
    rw [List.getLast?_cons, Option.mem_def.mp last]
    rfl

/-- One more digit and a separator in front of digits. -/
theorem IsSeparated.separate (separated : IsSeparated isDigit chars) (digit : isDigit c = true)
    (word : c ≠ '_') (first : ∃ d ∈ chars.head?, isDigit d = true) :
    IsSeparated isDigit (c :: '_' :: chars) := by
  intro before after split
  match before with
  | [] => exact absurd (List.cons.inj split).1 word
  | [lower] =>
    obtain ⟨rfl, rest⟩ := List.cons.inj split
    obtain ⟨_, rfl⟩ := List.cons.inj rest
    exact ⟨⟨c, rfl, digit⟩, first⟩
  | lower :: separator :: before =>
    obtain ⟨_, rest⟩ := List.cons.inj split
    obtain ⟨⟨d, last, digit⟩, upper⟩ := separated before after (List.cons.inj rest).2
    refine ⟨⟨d, ?_, digit⟩, upper⟩
    rw [List.getLast?_cons, List.getLast?_cons, Option.mem_def.mp last]
    rfl

theorem Digits.head (digits : Digits isDigit chars) : ∃ c ∈ chars.head?, isDigit c = true := by
  cases digits with
  | single digit => exact ⟨_, rfl, digit⟩
  | cons digit more => exact ⟨_, rfl, digit⟩
  | separated digit more => exact ⟨_, rfl, digit⟩

variable (other : isDigit '_' = false)

include other

theorem ne_separator (digit : isDigit c = true) : c ≠ '_' := by
  rintro rfl
  rw [other] at digit
  contradiction

theorem Digits.isSeparated (digits : Digits isDigit chars) : IsSeparated isDigit chars := by
  induction digits with
  | single digit => exact .of_absent (by simpa using (ne_separator other digit).symm)
  | cons digit more ih => exact ih.cons (ne_separator other digit)
  | separated digit more ih => exact ih.separate digit (ne_separator other digit) more.head

/-- What consists of digits and of separators between them. -/
theorem Digits.of_isSeparated {text : List Char} (each : ∀ c ∈ text, isDigit c = true ∨ c = '_')
    (some : text ≠ []) (separated : IsSeparated isDigit text) : Digits isDigit text := by
  match text with
  | c :: rest =>
    obtain ⟨first, others⟩ := List.forall_mem_cons.mp each
    have digit : isDigit c = true := first.resolve_right (by
      rintro rfl
      obtain ⟨⟨d, last, _⟩, _⟩ := separated [] rest rfl
      contradiction)
    match rest with
    | [] => exact .single digit
    | d :: rest =>
      by_cases separator : d = '_'
      · subst separator
        obtain ⟨_, upper, head, _⟩ := separated [c] rest rfl
        have parted : IsSeparated isDigit ([c] ++ '_' :: rest) := separated
        have behind : IsSeparated isDigit rest :=
          parted.behind fun digit => absurd digit (by simp [other])
        have more : rest ≠ [] := List.ne_nil_of_mem (List.mem_of_mem_head? head)
        exact .separated digit (of_isSeparated (List.forall_mem_cons.mp others).2 more behind)
      · have parted : IsSeparated isDigit ([] ++ c :: d :: rest) := separated
        have behind : IsSeparated isDigit (d :: rest) :=
          parted.behind fun _ => by simpa using separator
        exact .cons digit (of_isSeparated others (List.cons_ne_nil _ _) behind)

end

theorem Digits.inside {chars : List Char} (digits : Digits Char.isDigit chars) :
    ∀ c ∈ chars, isDigitOrSeparator c = true := by
  induction digits with
  | single digit => exact List.forall_mem_singleton.mpr (isDigitOrSeparator_of_isDigit digit)
  | cons digit more ih => exact List.forall_mem_cons.mpr ⟨isDigitOrSeparator_of_isDigit digit, ih⟩
  | separated digit more ih =>
    exact List.forall_mem_cons.mpr ⟨isDigitOrSeparator_of_isDigit digit,
      List.forall_mem_cons.mpr ⟨rfl, ih⟩⟩

/-- Digits and separators are digits with separators if these stand between digits. -/
theorem digits_iff {chars : List Char} (inside : ∀ c ∈ chars, isDigitOrSeparator c = true) :
    Digits Char.isDigit chars ↔ chars ≠ [] ∧ IsSeparated Char.isDigit chars := by
  constructor
  · intro digits
    refine ⟨?_, digits.isSeparated rfl⟩
    obtain ⟨c, head, _⟩ := digits.head
    exact List.ne_nil_of_mem (List.mem_of_mem_head? head)
  · rintro ⟨some, separated⟩
    refine .of_isSeparated rfl (fun c part => ?_) some separated
    simpa [isDigitOrSeparator] using inside c part

theorem DecimalInteger.inside {whole : List Char} (integer : DecimalInteger whole) :
    ∀ c ∈ whole, isDigitOrSeparator c = true := by
  cases integer with
  | zero => exact List.forall_mem_singleton.mpr rfl
  | digits nonzero digits => exact digits.inside

/-- Digits and separators are a whole number unless more of them follow a zero. -/
theorem decimalInteger_iff {whole : List Char}
    (inside : ∀ c ∈ whole, isDigitOrSeparator c = true) :
    DecimalInteger whole ↔
      whole ≠ [] ∧ IsSeparated Char.isDigit whole ∧ ¬ HasLeadingZero whole := by
  constructor
  · intro integer
    cases integer with
    | zero =>
      refine ⟨List.cons_ne_nil _ _, .of_absent (by decide), ?_⟩
      rintro ⟨c, rest, same, _⟩
      exact absurd (List.cons.inj same).2.symm (List.cons_ne_nil _ _)
    | digits nonzero digits =>
      refine ⟨List.cons_ne_nil _ _, digits.isSeparated rfl, ?_⟩
      rintro ⟨c, rest, same, _⟩
      exact nonzero (List.cons.inj same).1
  · rintro ⟨some, separated, plain⟩
    have digits : Digits Char.isDigit whole := (digits_iff inside).mpr ⟨some, separated⟩
    match whole with
    | [first] =>
      by_cases zero : first = '0'
      · exact zero ▸ .zero
      · exact .digits zero digits
    | first :: c :: rest =>
      refine .digits ?_ digits
      rintro rfl
      exact plain ⟨c, rest, rfl, inside c (by simp)⟩

/-- A letter, a sign or none, and digits without separators. -/
theorem isExponent_cons {letter : Char} {rest : List Char}
    (power : isExponent (letter :: rest) = true) :
    letter ∈ ['e', 'E'] ∧ ∃ sign digits, rest = sign ++ digits ∧
      (sign = [] ∨ ∃ side ∈ ['+', '-'], sign = [side]) ∧ digits ≠ [] ∧
      ∀ c ∈ digits, c.isDigit = true := by
  match rest with
  | [] => simp [isExponent] at power
  | side :: rest =>
    simp only [isExponent, Bool.and_eq_true, Bool.or_eq_true, beq_iff_eq, Bool.not_eq_true',
      List.isEmpty_eq_false_iff] at power
    obtain ⟨⟨letters, some⟩, each⟩ := power
    refine ⟨by simpa using letters, ?_⟩
    split at some
    · next signed =>
      rw [if_pos signed] at each
      exact ⟨[side], rest, rfl, .inr ⟨side, by simpa using signed, rfl⟩, some,
        List.all_eq_true.mp each⟩
    · next unsigned =>
      rw [if_neg unsigned] at each
      exact ⟨[], side :: rest, rfl, .inl rfl, some, List.all_eq_true.mp each⟩

theorem exponent_of_isExponent {chars : List Char} (power : isExponent chars = true) :
    Exponent chars := by
  match chars with
  | [] => exact .absent
  | letter :: rest =>
    obtain ⟨known, sign, digits, rfl, signed, some, each⟩ := isExponent_cons power
    have plain : Digits Char.isDigit digits :=
      .of_isSeparated rfl (fun c part => .inl (each c part)) some
        (.of_absent fun separator => absurd (each '_' separator) (by decide))
    rcases signed with rfl | ⟨side, sides, rfl⟩
    · exact .unsigned known plain
    · exact .signed known sides plain

theorem Exponent.stops {chars : List Char} (power : Exponent chars) :
    Stops isDigitOrSeparator chars := by
  have letters : ['e', 'E'].all (! isDigitOrSeparator ·) = true := by decide
  have stop {letter : Char} (known : letter ∈ ['e', 'E']) : isDigitOrSeparator letter = false := by
    simpa using List.all_eq_true.mp letters letter known
  cases power with
  | absent => exact stops_nil _
  | unsigned known power => exact .of_head (stop known) _
  | signed known side power => exact .of_head (stop known) _

theorem Exponent.ne_point {chars : List Char} (power : Exponent chars) (behind : List Char) :
    chars ≠ '.' :: behind := by
  rintro rfl
  cases power with
  | unsigned known power => simp at known
  | signed known side power => simp at known

/-- No separator stands in an exponent or next to one. -/
theorem isSeparated_append_exponent {word exponent : List Char}
    (power : isExponent exponent = true) :
    IsSeparated Char.isDigit (word ++ exponent) ↔ IsSeparated Char.isDigit word := by
  match exponent with
  | [] => rw [List.append_nil]
  | letter :: rest =>
    have stop := (stops_cons _ _ _).mp (exponent_of_isExponent power).stops
    obtain ⟨other, word⟩ : letter.isDigit = false ∧ letter ≠ '_' := by
      simpa [isDigitOrSeparator] using stop
    obtain ⟨_, sign, digits, rfl, signed, _, each⟩ := isExponent_cons power
    have absent : '_' ∉ sign ++ digits := by
      rw [List.mem_append, not_or]
      refine ⟨?_, fun separator => absurd (each '_' separator) (by decide)⟩
      rcases signed with rfl | ⟨side, sides, rfl⟩
      · exact List.not_mem_nil
      · rintro separator
        rw [← List.mem_singleton.mp separator] at sides
        exact absurd sides (by decide)
    rw [isSeparated_append_cons other word, and_iff_left (.of_absent absent)]

section

variable {whole fraction exponent : List Char}
  (inside : ∀ c ∈ whole, isDigitOrSeparator c = true)
  (places : ∀ c ∈ fraction, isDigitOrSeparator c = true) (power : isExponent exponent = true)

include inside power

theorem decimal_whole_iff : Decimal (whole ++ exponent) ↔ DecimalInteger whole := by
  have last := exponent_of_isExponent power
  refine ⟨fun decimal => ?_, fun integer => .whole integer last⟩
  generalize same : whole ++ exponent = chars at decimal
  cases decimal with
  | whole before power =>
    obtain ⟨rfl, rfl⟩ := word_append_inj inside before.inside last.stops power.stops same
    exact before
  | point before places power =>
    obtain ⟨rfl, point⟩ := word_append_inj inside before.inside last.stops (.of_head rfl _) same
    exact absurd point (last.ne_point _)
  | fraction places power =>
    obtain ⟨rfl, point⟩ := word_append_inj inside (List.forall_mem_nil _) last.stops
      (.of_head rfl _) same
    exact absurd point (last.ne_point _)

include places

theorem decimal_point_iff (some : fraction ≠ []) :
    Decimal (whole ++ '.' :: (fraction ++ exponent)) ↔
      (whole = [] ∨ DecimalInteger whole) ∧ Digits Char.isDigit fraction := by
  have last := exponent_of_isExponent power
  have point (rest : List Char) : Stops isDigitOrSeparator ('.' :: rest) := .of_head rfl rest
  have fractions {digits rest : List Char}
      (digital : digits = [] ∨ Digits Char.isDigit digits) (power : Exponent rest)
      (same : fraction ++ exponent = digits ++ rest) : Digits Char.isDigit fraction := by
    have within : ∀ c ∈ digits, isDigitOrSeparator c = true := by
      rcases digital with rfl | digital
      · exact List.forall_mem_nil _
      · exact digital.inside
    obtain ⟨rfl, rfl⟩ := word_append_inj places within last.stops power.stops same
    exact digital.resolve_left some
  constructor
  · intro decimal
    generalize same : whole ++ '.' :: (fraction ++ exponent) = chars at decimal
    cases decimal with
    | whole before power =>
      obtain ⟨rfl, exponential⟩ := word_append_inj inside before.inside (point _) power.stops same
      exact absurd exponential.symm (power.ne_point _)
    | point before digits power =>
      obtain ⟨rfl, behind⟩ := word_append_inj inside before.inside (point _) (point _) same
      exact ⟨.inr before, fractions digits power (List.cons.inj behind).2⟩
    | fraction digits power =>
      obtain ⟨rfl, behind⟩ := word_append_inj inside (List.forall_mem_nil _) (point _) (point _)
        same
      exact ⟨.inl rfl, fractions (.inr digits) power (List.cons.inj behind).2⟩
  · rintro ⟨rfl | before, digits⟩
    · exact .fraction digits last
    · exact .point before (.inr digits) last

end

/-- A letter that names a base is in no decimal number, and no digit of its base. -/
theorem Base.letter {letter : Char} {isDigit : Char → Bool} (base : Base letter isDigit) :
    letter ∉ ['.', 'e', 'E'] ∧ isDigitOrSeparator letter = false ∧ isDigit letter = false ∧
      isDigit '_' = false ∧ ofBase? letter = some isDigit := by
  cases base with
  | binary known =>
    obtain rfl | rfl : letter = 'b' ∨ letter = 'B' := by simpa using known
    all_goals exact ⟨by decide, rfl, rfl, rfl, rfl⟩
  | octal known =>
    obtain rfl | rfl : letter = 'o' ∨ letter = 'O' := by simpa using known
    all_goals exact ⟨by decide, rfl, rfl, rfl, rfl⟩
  | hexadecimal known =>
    obtain rfl | rfl : letter = 'x' ∨ letter = 'X' := by simpa using known
    all_goals exact ⟨by decide, rfl, rfl, rfl, rfl⟩

theorem base_of_ofBase? {letter : Char} {isDigit : Char → Bool}
    (named : ofBase? letter = some isDigit) : Base letter isDigit := by
  have either : letter ∈ [letter.toLower, letter.toLower.toUpper] := by
    simpa using eq_toLower_or letter
  unfold ofBase? at named
  split at named
  · next lower =>
    rw [lower] at either
    exact Option.some_inj.mp named ▸ .hexadecimal either
  · next lower =>
    rw [lower] at either
    exact Option.some_inj.mp named ▸ .octal either
  · next lower =>
    rw [lower] at either
    exact Option.some_inj.mp named ▸ .binary either
  · contradiction

section

variable {letter : Char} {isDigit : Char → Bool} {digits : List Char}
  (base : Base letter isDigit)

include base

theorem Base.not_isDecimal : isDecimal ('0' :: letter :: digits) = false := by
  obtain ⟨other, stop, _⟩ := base.letter
  have zero : ∀ c ∈ ['0'], isDigitOrSeparator c = true := List.forall_mem_singleton.mpr rfl
  have letters : isExponent (letter :: digits) = false := by
    rw [Bool.eq_false_iff]
    intro power
    exact other (List.mem_cons_of_mem _ (isExponent_cons power).1)
  have rest : ('0' :: letter :: digits).dropWhile isDigitOrSeparator = letter :: digits :=
    dropWhile_word zero (.of_head stop digits)
  unfold isDecimal
  rw [rest]
  dsimp only
  split
  · next point =>
    rw [(List.cons.inj point).1] at other
    exact absurd List.mem_cons_self other
  · rw [letters, Bool.and_false]

theorem Base.not_decimal : ¬ Decimal ('0' :: letter :: digits) := by
  obtain ⟨other, stop, _⟩ := base.letter
  have zero : ∀ c ∈ ['0'], isDigitOrSeparator c = true := List.forall_mem_singleton.mpr rfl
  have point (rest : List Char) : letter :: digits ≠ '.' :: rest := by
    intro same
    rw [(List.cons.inj same).1] at other
    exact other List.mem_cons_self
  intro decimal
  generalize same : '0' :: letter :: digits = chars at decimal
  cases decimal with
  | whole before power =>
    obtain ⟨rfl, rfl⟩ := word_append_inj zero before.inside (.of_head stop digits) power.stops same
    cases power with
    | unsigned known power => exact other (List.mem_cons_of_mem _ known)
    | signed known side power => exact other (List.mem_cons_of_mem _ known)
  | point before places power =>
    obtain ⟨_, behind⟩ := word_append_inj zero before.inside (.of_head stop digits)
      (.of_head rfl _) same
    exact point _ behind
  | fraction places power => exact absurd (List.cons.inj same).1 (by decide)

/-- Behind a letter that names a base, separators must stand between digits of the base. -/
theorem isNumber_based_iff (some : digits ≠ [])
    (inside : ∀ c ∈ digits, isDigit c = true ∨ c = '_') :
    IsNumber ('0' :: letter :: digits) ↔
      IsSeparated isDigit ('0' :: letter :: digits) ∧
        ¬ HasLeadingZero ('0' :: letter :: digits) := by
  obtain ⟨_, stop, other, separator, named⟩ := base.letter
  have word : letter ≠ '_' := by
    rintro rfl
    contradiction
  have plain : ¬ HasLeadingZero ('0' :: letter :: digits) := by
    rintro ⟨c, rest, same, inside⟩
    rw [← (List.cons.inj (List.cons.inj same).2).1, stop] at inside
    contradiction
  have parted : IsSeparated isDigit (['0'] ++ letter :: digits) ↔
      IsSeparated isDigit ['0'] ∧ IsSeparated isDigit digits := isSeparated_append_cons other word
  rw [List.singleton_append] at parted
  rw [and_iff_left plain, parted, and_iff_right (.of_absent (by decide))]
  constructor
  · intro number
    generalize same : '0' :: letter :: digits = chars at number
    cases number with
    | decimal decimal => exact absurd (same ▸ decimal) base.not_decimal
    | based known more =>
      obtain ⟨rfl, rfl⟩ := List.cons.inj (List.cons.inj same).2
      obtain ⟨_, _, _, _, again⟩ := known.letter
      rw [named] at again
      obtain rfl := Option.some_inj.mp again
      exact more.isSeparated separator
  · intro separated
    exact .based base (.of_isSeparated separator inside some separated)

end

/-- The digits of a decimal number are decimal. -/
theorem digitTest_of_isDecimal {chars : List Char} (decimal : isDecimal chars = true) :
    digitTest chars = Char.isDigit := by
  unfold digitTest
  split
  · next letter digits =>
    cases named : ofBase? letter with
    | none => rfl
    | some isDigit =>
      rw [(base_of_ofBase? named).not_isDecimal] at decimal
      contradiction
  · rfl

theorem isNumber_iff_of_isDecimal {chars : List Char} (decimal : isDecimal chars = true) :
    IsNumber chars ↔ Decimal chars := by
  refine ⟨fun number => ?_, .decimal⟩
  cases number with
  | decimal decimal => exact decimal
  | based base digits =>
    rw [base.not_isDecimal] at decimal
    contradiction

/-- Whether more digits follow a zero is seen from the digits in front. -/
theorem hasLeadingZero_append {whole rest : List Char}
    (inside : ∀ c ∈ whole, isDigitOrSeparator c = true) (stops : Stops isDigitOrSeparator rest) :
    HasLeadingZero (whole ++ rest) ↔ HasLeadingZero whole := by
  constructor
  · rintro ⟨c, behind, same, digit⟩
    match whole with
    | [] =>
      rw [List.nil_append] at same
      subst same
      exact absurd ((stops_cons _ _ _).mp stops) (by decide)
    | [first] =>
      obtain ⟨_, rfl⟩ := List.cons.inj same
      rw [(stops_cons _ _ _).mp stops] at digit
      contradiction
    | first :: second :: more =>
      obtain ⟨rfl, rest⟩ := List.cons.inj same
      obtain ⟨rfl, _⟩ := List.cons.inj rest
      exact ⟨second, more, rfl, digit⟩
  · rintro ⟨c, behind, rfl, digit⟩
    exact ⟨c, behind ++ rest, rfl, digit⟩

/-- Digits and separators before the point and behind it, and an exponent. -/
theorem isDecimal_parts {chars : List Char} (decimal : isDecimal chars = true) :
    ∃ whole exponent, (∀ c ∈ whole, isDigitOrSeparator c = true) ∧ isExponent exponent = true ∧
      (whole ≠ [] ∧ chars = whole ++ exponent ∨
        ∃ fraction, fraction ≠ [] ∧ (∀ c ∈ fraction, isDigitOrSeparator c = true) ∧
          chars = whole ++ '.' :: (fraction ++ exponent)) := by
  have digital (text : List Char) :
      ∀ c ∈ text.takeWhile isDigitOrSeparator, isDigitOrSeparator c = true :=
    fun c => List.mem_takeWhile_imp
  have parts (text : List Char) :
      text.takeWhile isDigitOrSeparator ++ text.dropWhile isDigitOrSeparator = text :=
    List.takeWhile_append_dropWhile
  unfold isDecimal at decimal
  split at decimal
  · next rest point =>
    obtain ⟨first, power⟩ := (Bool.and_eq_true _ _).mp decimal
    refine ⟨_, _, digital chars, power,
      .inr ⟨rest.takeWhile isDigitOrSeparator, ?_, digital rest, ?_⟩⟩
    · match rest with
      | c :: rest =>
        rw [List.takeWhile_cons_of_pos (isDigitOrSeparator_of_isDigit first)]
        exact List.cons_ne_nil _ _
    · rw [parts rest, ← point, parts chars]
  · obtain ⟨some, power⟩ := (Bool.and_eq_true _ _).mp decimal
    refine ⟨_, _, digital chars, power, .inl ⟨?_, (parts chars).symm⟩⟩
    intro none
    rw [none] at some
    contradiction

/-- Separators must stand between decimal digits, and a zero in front of the point alone. -/
theorem isNumber_decimal_iff {chars : List Char} (decimal : isDecimal chars = true) :
    IsNumber chars ↔ IsSeparated Char.isDigit chars ∧ ¬ HasLeadingZero chars := by
  rw [isNumber_iff_of_isDecimal decimal]
  obtain ⟨whole, exponent, inside, power, ⟨some, rfl⟩ | ⟨fraction, some, places, rfl⟩⟩ :=
    isDecimal_parts decimal
  · have stops := (exponent_of_isExponent power).stops
    rw [decimal_whole_iff inside power, decimalInteger_iff inside, and_iff_right some,
      isSeparated_append_exponent power, hasLeadingZero_append inside stops]
  · rw [decimal_point_iff inside places power some, digits_iff places, and_iff_right some,
      decimalInteger_iff inside, isSeparated_append_cons (by decide) (by decide),
      isSeparated_append_exponent power, hasLeadingZero_append inside (.of_head rfl _)]
    by_cases none : whole = []
    · subst none
      have plain : ¬ HasLeadingZero [] := by
        rintro ⟨c, rest, same, _⟩
        exact List.cons_ne_nil _ _ same.symm
      have separated : IsSeparated Char.isDigit [] := .of_absent List.not_mem_nil
      simp [plain, separated]
    · rw [or_iff_right none, and_iff_right none, and_right_comm]

theorem isNumber_iff {chars : List Char} (numeric : (isBased chars || isDecimal chars) = true) :
    IsNumber chars ↔ IsSeparated (digitTest chars) chars ∧ ¬ HasLeadingZero chars := by
  rcases (Bool.or_eq_true _ _).mp numeric with based | decimal
  · unfold isBased at based
    split at based
    · next letter digits =>
      cases named : ofBase? letter with
      | none => simp [named] at based
      | some isDigit =>
        simp only [named, Bool.and_eq_true, Bool.not_eq_true', List.isEmpty_eq_false_iff,
          List.all_eq_true, Bool.or_eq_true, beq_iff_eq] at based
        rw [isNumber_based_iff (base_of_ofBase? named) based.1 based.2, digitTest, named]
        rfl
    · contradiction
  · rw [isNumber_decimal_iff decimal, digitTest_of_isDecimal decimal]

theorem isNumeric_eq (chars : List Char) :
    isNumeric chars = (isBased (withoutMinus chars) || isDecimal (withoutMinus chars)) := by
  unfold isNumeric
  split
  · rfl
  · next unsigned => rw [withoutMinus.eq_2 chars unsigned]

/-- A numeric literal is written as it was read, as the only argument of a call. Its text, behind
an optional minus sign, is a number exactly when all separators stand between digits of its base
and no more digits follow a zero at its front. -/
theorem constant_isNumber_iff {text : String} {n : NumericLiteral} (parsed : parse? text = some n)
    (owner : Option String) (level : Nat) :
    exprChars owner level (.call .constant [.constant (.number n)]) =
        calleeChars owner .constant ++ '(' :: (text.toList ++ [')']) ∧
      (IsNumber (withoutMinus text.toList) ↔
        IsSeparated (digitTest (withoutMinus text.toList)) (withoutMinus text.toList) ∧
          ¬ HasLeadingZero (withoutMinus text.toList)) := by
  obtain ⟨numeric, same⟩ := Option.ite_none_right_eq_some.mp parsed
  obtain rfl := Option.some_inj.mp same
  exact ⟨rfl, isNumber_iff (isNumeric_eq text.toList ▸ numeric)⟩

theorem constant_isNumber_separated :
    parse? "-1_000.5e-3" = some ⟨"-1_000.5e-3"⟩ ∧ IsNumber "1_000.5e-3".toList := by
  have parsed : parse? "-1_000.5e-3" = some ⟨"-1_000.5e-3"⟩ := by decide
  have separated : IsSeparated Char.isDigit ('1' :: '_' :: "000.5e-3".toList) :=
    .separate (.of_absent (by decide)) rfl (by decide) ⟨'0', rfl, rfl⟩
  have plain : ¬ HasLeadingZero "1_000.5e-3".toList := by
    rintro ⟨c, rest, same, _⟩
    exact absurd (List.cons.inj same).1 (by decide)
  exact ⟨parsed, (constant_isNumber_iff parsed none 0).2.mpr ⟨separated, plain⟩⟩

/-- A text that begins with a separator is read as a number, but it is a name. -/
theorem constant_of_name :
    parse? "_1" = some ⟨"_1"⟩ ∧ isName "_1".toList = true ∧
      ¬ IsNumber (withoutMinus "_1".toList) ∧
      exprChars (some libraryName) 0 (.call .constant [.constant (.number ⟨"_1"⟩)]) =
        "decoders.constant(_1)".toList := by
  refine ⟨by decide, by decide, ?_, by decide⟩
  intro number
  obtain ⟨separated, _⟩ := (isNumber_iff rfl).mp number
  obtain ⟨⟨d, last, _⟩, _⟩ := separated [] ['1'] rfl
  exact Option.not_mem_none d last

end DecoderForge.TypeScript
