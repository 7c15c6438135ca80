/-
This file proves which texts are read as numbers: those of the grammar, up to a character with which
the number would not go on.
-/

import DecoderForge.Proofs.Json.Grammar
import DecoderForge.Proofs.Loading.Result

namespace DecoderForge.Json

open Text

theorem stops_dropWhile (test : Char → Bool) (chars : List Char) :
    Stops test (chars.dropWhile test) := by
  intro c head
  have first := List.head?_dropWhile_not test chars
  rwa [Option.mem_def.mp head] at first

/-- A cursor stands behind a text of ASCII characters, which are one byte each. -/
def Cursor.Passes (cursor : Cursor) (text : List Char) (stop : Cursor) : Prop :=
  cursor.chars = text ++ stop.chars ∧ stop.offset = cursor.offset + text.length

theorem Cursor.Passes.trans {cursor next stop : Cursor} {text more : List Char}
    (first : cursor.Passes text next) (second : next.Passes more stop) :
    cursor.Passes (text ++ more) stop := by
  refine ⟨?_, ?_⟩
  · rw [first.1, second.1, List.append_assoc]
  · rw [second.2, first.2, List.length_append, Nat.add_assoc]

theorem digitRun_of_stops {digits rest : List Char} (each : ∀ c ∈ digits, c.isDigit = true)
    (stops : Stops Char.isDigit rest) (offset : Nat) :
    digitRun ⟨digits ++ rest, offset⟩ = (digits, ⟨rest, offset + digits.length⟩) := by
  simp only [digitRun, takeWhile_word each stops, dropWhile_word each stops]

theorem digitRun_sound (cursor : Cursor) :
    (∀ c ∈ (digitRun cursor).1, c.isDigit = true) ∧
      cursor.Passes (digitRun cursor).1 (digitRun cursor).2 ∧
      Stops Char.isDigit (digitRun cursor).2.chars :=
  ⟨fun _ => List.mem_takeWhile_imp, ⟨List.takeWhile_append_dropWhile.symm, rfl⟩,
    stops_dropWhile _ _⟩

theorem wholePart_of_stops (mode : Mode) {digits rest : List Char} (whole : WholeDigits digits)
    (stops : Stops Char.isDigit rest) (offset : Nat) :
    wholePart mode ⟨digits ++ rest, offset⟩ =
      .ok (digits, ⟨rest, offset + digits.length⟩) := by
  have run := digitRun_of_stops whole.each stops offset
  obtain ⟨first, more, rfl⟩ := List.exists_cons_of_ne_nil whole.nonempty
  have digit := whole.each first List.mem_cons_self
  unfold wholePart
  split
  · contradiction
  · next c later zero =>
    obtain ⟨rfl, behind⟩ := List.cons.inj zero
    obtain ⟨_, rfl⟩ := List.cons.inj (whole.plain rfl)
    obtain rfl : rest = c :: later := behind
    rw [if_neg (by simpa using stops)]
    rfl
  · next c later _ begins =>
    obtain ⟨rfl, _⟩ := List.cons.inj begins
    rw [if_pos digit, run]

theorem wholePart_sound {mode : Mode} {cursor stop : Cursor} {digits : List Char}
    (read : wholePart mode cursor = .ok (digits, stop)) :
    WholeDigits digits ∧ cursor.Passes digits stop ∧ Stops Char.isDigit stop.chars := by
  obtain ⟨chars, offset⟩ := cursor
  unfold wholePart at read
  split at read
  · contradiction
  · next c rest zero =>
    obtain rfl : chars = '0' :: c :: rest := zero
    split at read
    · contradiction
    · next other =>
      cases read
      exact ⟨⟨List.cons_ne_nil _ _, List.forall_mem_singleton.mpr rfl, fun _ => rfl⟩, ⟨rfl, rfl⟩,
        .of_head (Bool.not_eq_true _ ▸ other) _⟩
  · next c rest alone first =>
    obtain rfl : chars = c :: rest := first
    split at read
    · next digit =>
      obtain ⟨each, passes, stops⟩ := digitRun_sound ⟨c :: rest, offset⟩
      rw [Except.ok.inj read] at each passes stops
      have some : digits ≠ [] := by
        rintro rfl
        rw [← passes.1.trans (List.nil_append _), stops_cons, digit] at stops
        contradiction
      refine ⟨⟨some, each, fun head => ?_⟩, passes, stops⟩
      obtain ⟨more, rfl⟩ := List.head?_eq_some_iff.mp head
      obtain ⟨rfl, behind⟩ := List.cons.inj passes.1
      cases rest with
      | nil => rw [(List.append_eq_nil_iff.mp behind.symm).1]
      | cons d rest => exact (alone d rest rfl rfl).elim
    · contradiction

/-- The fraction ends in front of what is no digit, or no point if there is no fraction. -/
def fractionGoesOn (digits : List Char) (c : Char) : Bool :=
  if digits.isEmpty then c == '.' else c.isDigit

theorem fractionGoesOn_of_ne_nil {digits : List Char} (some : digits ≠ []) :
    fractionGoesOn digits = Char.isDigit := by
  funext c
  rw [fractionGoesOn, List.isEmpty_eq_false_iff.mpr some, if_neg Bool.false_ne_true]

theorem fractionPart_of_stops (mode : Mode) {digits point rest : List Char}
    (places : FractionText digits point) (stops : Stops (fractionGoesOn digits) rest)
    (offset : Nat) :
    fractionPart mode ⟨point ++ rest, offset⟩ =
      .ok (digits, ⟨rest, offset + point.length⟩) := by
  cases places with
  | missing =>
    unfold fractionPart
    split
    · next c point =>
      obtain rfl : rest = '.' :: c := point
      rw [stops_cons] at stops
      contradiction
    · rfl
  | present some each =>
    rw [fractionGoesOn_of_ne_nil some] at stops
    have run := digitRun_of_stops each stops (offset + 1)
    simp only [List.cons_append, fractionPart, Cursor.skip, List.drop_succ_cons, List.drop_zero,
      run, List.isEmpty_eq_false_iff.mpr some, Bool.false_eq_true, if_false, List.length_cons,
      Nat.add_assoc, Nat.add_comm 1]

theorem fractionPart_sound {mode : Mode} {cursor stop : Cursor} {digits : List Char}
    (read : fractionPart mode cursor = .ok (digits, stop)) :
    ∃ point, FractionText digits point ∧ cursor.Passes point stop ∧
      Stops (fractionGoesOn digits) stop.chars := by
  obtain ⟨chars, offset⟩ := cursor
  unfold fractionPart at read
  split at read
  · next rest point =>
    obtain rfl : chars = '.' :: rest := point
    obtain ⟨each, passes, stops⟩ := digitRun_sound (Cursor.skip ⟨'.' :: rest, offset⟩)
    dsimp only at read
    split at read
    · contradiction
    · next some =>
      cases read
      have some := fun none => some (List.isEmpty_iff.mpr none)
      rw [← fractionGoesOn_of_ne_nil some] at stops
      refine ⟨_, .present some each, ⟨congrArg _ passes.1, ?_⟩, stops⟩
      rw [passes.2, List.length_cons, Nat.add_comm _ 1, ← Nat.add_assoc]
      rfl
  · next other =>
    cases read
    refine ⟨[], .missing, ⟨rfl, rfl⟩, fun c head => ?_⟩
    obtain ⟨rest, same⟩ := List.head?_eq_some_iff.mp (Option.mem_def.mp head)
    have plain : c ≠ '.' := by
      rintro rfl
      exact other rest same
    simpa [fractionGoesOn] using plain

/-- An exponent ends in front of what is no digit, or no letter if there is no exponent. -/
def exponentGoesOn (exponent : Option (Bool × List Char)) (c : Char) : Bool :=
  match exponent with
  | none => c == 'e' || c == 'E'
  | some _ => c.isDigit

/-- A sign in front of characters, unless there is none and they begin with one. -/
structure Signed (negative : Bool) (sign rest : List Char) : Prop where
  text : SignText negative sign
  bare : sign = [] → rest.head? ≠ some '-' ∧ rest.head? ≠ some '+'

theorem exists_signed (chars : List Char) :
    ∃ negative sign rest, Signed negative sign rest ∧ chars = sign ++ rest := by
  by_cases minus : chars.head? = some '-'
  · obtain ⟨rest, rfl⟩ := List.head?_eq_some_iff.mp minus
    exact ⟨true, ['-'], rest, ⟨.minus, nofun⟩, rfl⟩
  by_cases plus : chars.head? = some '+'
  · obtain ⟨rest, rfl⟩ := List.head?_eq_some_iff.mp plus
    exact ⟨false, ['+'], rest, ⟨.plus, nofun⟩, rfl⟩
  · exact ⟨false, [], chars, ⟨.missing, fun _ => ⟨minus, plus⟩⟩, rfl⟩

/-- Behind its letter and its sign an exponent has digits. -/
theorem exponentPart_signed (mode : Mode) {letter : Char} (known : letter = 'e' ∨ letter = 'E')
    {negative : Bool} {sign rest : List Char} (signed : Signed negative sign rest)
    (offset : Nat) :
    exponentPart mode ⟨letter :: (sign ++ rest), offset⟩ =
      let first : Cursor := ⟨rest, offset + (1 + sign.length)⟩
      let (digits, stop) := digitRun first
      if digits.isEmpty then
        .error (if rest.isEmpty then first.fault (brokenOff mode)
          else first.skip.fault .invalidNumber)
      else .ok (some (negative, digits), stop) := by
  obtain ⟨text, bare⟩ := signed
  cases text with
  | missing =>
    obtain ⟨minus, plus⟩ := bare rfl
    simp [exponentPart, known, minus, plus, Cursor.skip]
  | plus => simp [exponentPart, known, Cursor.skip]
  | minus => simp [exponentPart, known, Cursor.skip]

theorem exponentPart_of_stops (mode : Mode) {exponent : Option (Bool × List Char)}
    {power rest : List Char} (scale : ExponentText exponent power)
    (stops : Stops (exponentGoesOn exponent) rest) (offset : Nat) :
    exponentPart mode ⟨power ++ rest, offset⟩ =
      .ok (exponent, ⟨rest, offset + power.length⟩) := by
  cases scale with
  | missing =>
    match rest with
    | [] => rfl
    | c :: rest =>
      have other : ¬ (c = 'e' ∨ c = 'E') := by
        simpa [exponentGoesOn] using stops
      simp only [List.nil_append, exponentPart, if_neg other, List.length_nil, Nat.add_zero]
  | @present letter negative sign digits known text nonempty each =>
    have signed : Signed negative sign (digits ++ rest) := by
      refine ⟨text, fun _ => ?_⟩
      obtain ⟨d, more, rfl⟩ := List.exists_cons_of_ne_nil nonempty
      have digit := each d List.mem_cons_self
      constructor <;> rintro ⟨⟩ <;> contradiction
    rw [List.cons_append, List.append_assoc, exponentPart_signed mode known signed]
    simp only [digitRun_of_stops each stops, List.isEmpty_eq_false_iff.mpr nonempty,
      Bool.false_eq_true, if_false, List.length_cons, List.length_append, Except.ok.injEq,
      Prod.mk.injEq, true_and, Cursor.mk.injEq]
    omega

theorem exponentPart_sound {mode : Mode} {cursor stop : Cursor}
    {exponent : Option (Bool × List Char)}
    (read : exponentPart mode cursor = .ok (exponent, stop)) :
    ∃ power, ExponentText exponent power ∧ cursor.Passes power stop ∧
      Stops (exponentGoesOn exponent) stop.chars := by
  obtain ⟨chars, offset⟩ := cursor
  match chars with
  | [] =>
    cases read
    exact ⟨[], .missing, ⟨rfl, rfl⟩, stops_nil _⟩
  | letter :: tail =>
    by_cases known : letter = 'e' ∨ letter = 'E'
    · obtain ⟨negative, sign, rest, signed, rfl⟩ := exists_signed tail
      obtain ⟨each, passes, stops⟩ := digitRun_sound ⟨rest, offset + (1 + sign.length)⟩
      rw [exponentPart_signed mode known signed] at read
      dsimp only at read
      split at read
      · contradiction
      · next nonempty =>
        cases read
        refine ⟨_, .present known signed.text (fun none => nonempty (List.isEmpty_iff.mpr none))
          each, ⟨?_, ?_⟩, stops⟩
        · rw [List.cons_append, List.append_assoc, ← passes.1]
        · simp only [passes.2, List.length_cons, List.length_append]
          omega
    · simp only [exponentPart, if_neg known] at read
      cases read
      refine ⟨[], .missing, ⟨rfl, rfl⟩, .of_head ?_ _⟩
      simpa [exponentGoesOn] using known

/-- A number goes on where one of its parts does. -/
theorem stops_goesOn_iff {n : Numeral} {point power rest : List Char}
    (places : FractionText n.fraction point) (scale : ExponentText n.exponent power) :
    Stops n.goesOn rest ↔ Stops Char.isDigit (point ++ (power ++ rest)) ∧
      Stops (fractionGoesOn n.fraction) (power ++ rest) ∧
      Stops (exponentGoesOn n.exponent) rest := by
  obtain ⟨negative, whole, fraction, exponent⟩ := n
  dsimp only at places scale
  have letters {letter : Char} (known : letter = 'e' ∨ letter = 'E') :
      letter.isDigit = false ∧ (letter == '.') = false := by
    rcases known with rfl | rfl <;> decide
  cases places with
  | missing =>
    cases scale with
    | missing =>
      cases rest <;> simp [Numeral.goesOn, fractionGoesOn, exponentGoesOn, and_comm]
    | present known signed nonempty each =>
      cases rest <;> simp [Numeral.goesOn, fractionGoesOn, exponentGoesOn, letters known]
  | present some each =>
    cases scale with
    | missing =>
      cases rest <;> simp [Numeral.goesOn, fractionGoesOn, exponentGoesOn, some]
    | present known signed nonempty each =>
      cases rest <;> simp [Numeral.goesOn, fractionGoesOn, exponentGoesOn, some, letters known]

theorem numeral_of_stops (mode : Mode) {n : Numeral} {text rest : List Char}
    (unsigned : n.Unsigned text) (stops : Stops n.goesOn rest) (offset : Nat) :
    numeral mode n.negative ⟨text ++ rest, offset⟩ = .ok (n, ⟨rest, offset + text.length⟩) := by
  obtain @⟨negative, whole, fraction, point, power, exponent, before, places, scale⟩ := unsigned
  obtain ⟨first, second, last⟩ := (stops_goesOn_iff places scale).mp stops
  simp only [numeral, List.append_assoc, Except.step_eq_ok_iff]
  refine ⟨_, wholePart_of_stops mode before first offset, _,
    fractionPart_of_stops mode places second _, _, exponentPart_of_stops mode scale last _, ?_⟩
  simp only [List.length_append, Nat.add_assoc]
  rfl

theorem numeral_sound {mode : Mode} {negative : Bool} {cursor stop : Cursor} {n : Numeral}
    (read : numeral mode negative cursor = .ok (n, stop)) :
    n.negative = negative ∧ ∃ text, n.Unsigned text ∧ cursor.Passes text stop ∧
      Stops n.goesOn stop.chars := by
  simp only [numeral, Except.step_eq_ok_iff, Except.pure_eq_ok_iff, Prod.exists] at read
  obtain ⟨whole, behind, first, fraction, next, second, exponent, last, third, same⟩ := read
  obtain ⟨rfl, rfl⟩ := Prod.mk.inj same
  obtain ⟨before, passed, stops⟩ := wholePart_sound first
  obtain ⟨point, places, passes, ends⟩ := fractionPart_sound second
  obtain ⟨power, scale, passing, close⟩ := exponentPart_sound third
  rw [passes.1, passing.1] at stops
  rw [passing.1] at ends
  exact ⟨rfl, _, .parts before places scale, (passed.trans passes).trans passing,
    (stops_goesOn_iff places scale).mpr ⟨stops, ends, close⟩⟩

end DecoderForge.Json
