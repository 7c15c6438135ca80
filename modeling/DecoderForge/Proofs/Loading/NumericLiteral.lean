/-
This file proves which number tokens of a document keep their numbers when they are loaded as
numeric literals.
-/

import DecoderForge.Loading.Descriptor
import DecoderForge.Proofs.Json.Extent
import DecoderForge.Proofs.Json.Numeral

namespace DecoderForge

open Json Text

theorem ok_of_toOption {ε α : Type} {result : Except ε α} {a : α}
    (found : result.toOption = some a) : result = .ok a := by
  cases result with
  | ok b => exact congrArg Except.ok (Option.some_inj.mp found)
  | error e => contradiction

namespace Json

variable {n : Numeral}

theorem numberToken_toOption {text rest : List Char} (unsigned : n.Unsigned text)
    (stops : Stops n.goesOn rest) (offset : Nat) :
    (numberToken n.negative ⟨text ++ rest, offset⟩).toOption.map Prod.fst =
      n.number.toOption := by
  rw [numberToken, numeral_of_stops .keep unsigned stops]
  simp only [bind, Except.bind]
  cases n.number <;> rfl

/-- A number token is read as the number that its parts name, if there is one. -/
theorem atomToken_toOption {text rest : List Char} (token : n.Spelled text)
    (stops : Stops n.goesOn rest) (offset : Nat) :
    (atomToken ⟨text ++ rest, offset⟩).toOption.map Prod.fst =
      n.number.toOption.map Atom.num := by
  have named {result : Except Fault (Number × Cursor)}
      (same : result.toOption.map Prod.fst = n.number.toOption) :
      (result.map (Prod.map Atom.num id)).toOption.map Prod.fst =
        n.number.toOption.map Atom.num := by
    rw [← same]
    cases result <;> rfl
  cases token with
  | positive sign unsigned =>
    have here := numberToken_toOption unsigned stops offset
    obtain ⟨c, more, rfl, digit⟩ := unsigned.head
    rw [sign] at here
    rw [List.cons_append, atomToken_of_isDigit digit]
    exact named here
  | @negative chars sign unsigned =>
    have here := numberToken_toOption unsigned stops (offset + 1)
    rw [sign] at here
    exact named here

end Json

namespace Loading

/-- Where a number literal is expected, a token is loaded as the literal of its number. -/
theorem numericLiteral_toOption {n : Numeral} {indent text behind : List Char}
    (front : Blank indent) (token : n.Spelled text) (stops : Stops n.goesOn behind)
    (levels offset : Nat) :
    (Reader.numericLiteral (readValue levels ⟨indent ++ text ++ behind, offset⟩).1).toOption =
      n.number.toOption.map NumericLiteral.ofNumber := by
  have here := atomToken_toOption token stops (offset + indent.length)
  obtain ⟨c, more, rfl, first, plain⟩ := (AtomText.number token).front
  have begins : Cursor.skipBlank ⟨indent ++ c :: more ++ behind, offset⟩ =
      ⟨c :: more ++ behind, offset + indent.length⟩ := by
    rw [List.append_assoc]
    exact Cursor.skipBlank_append front (isBlank_of_isFront first) offset
  rw [readValue_of_plain levels (by rw [begins]; exact plain), begins, readAtom_eq]
  cases read : atomToken ⟨c :: more ++ behind, offset + indent.length⟩ with
  | ok found =>
    obtain ⟨atom, stop⟩ := found
    rw [read] at here
    obtain ⟨number, named, rfl⟩ := Option.map_eq_some_iff.mp here.symm
    rw [named]
    rfl
  | error fault =>
    rw [read] at here
    rw [Option.map_eq_none_iff.mp here.symm]
    rfl

/-- A number token that is loaded as a numeric literal keeps its number exactly if that is a whole
number that 64 bits hold, or the shortest number that rounds to the binary number as which the token
is read. So it does with at most fifteen digits and a small power of ten, and otherwise only with at
most seventeen. -/
theorem numericLiteral_keeps_iff {n : Numeral} {indent text behind : List Char}
    (front : Blank indent) (token : n.Spelled text) (stops : Stops n.goesOn behind)
    (levels offset : Nat) {literal : NumericLiteral}
    (loaded : Reader.numericLiteral (readValue levels ⟨indent ++ text ++ behind, offset⟩).1 =
      .ok literal) :
    (literal.value = NumericLiteral.value ⟨String.ofList text⟩ ↔
      n.IsInteger64 ∨ ∃ m : Magnitude,
        n.number = .ok (.float n.negative m) ∧ m.IsShortest n.size) ∧
    (n.digits < 10 ^ 15 → n.power.natAbs ≤ Magnitude.exactTenPow →
      n.exponentValue.natAbs < exponentLimit →
      literal.value = NumericLiteral.value ⟨String.ofList text⟩) ∧
    (literal.value = NumericLiteral.value ⟨String.ofList text⟩ →
      n.IsInteger64 ∨ ∃ (k : Nat) (e : Int), k < 10 ^ 17 ∧ n.size = k * 10 ^ e) := by
  have result := numericLiteral_toOption front token stops levels offset
  rw [loaded] at result
  obtain ⟨number, named, rfl⟩ := Option.map_eq_some_iff.mp result.symm
  have read : n.number = .ok number := ok_of_toOption named
  rw [token.literal_value]
  refine ⟨?_, Numeral.ofNumber_value_of_few read, Numeral.exists_seventeen read⟩
  rw [Numeral.ofNumber_value_iff read, read]
  simp only [Except.ok.injEq]

/-- A token with a point and an exponent keeps its number, though not its digits. -/
theorem numericLiteral_keeps_scaled :
    ∃ literal,
      Reader.numericLiteral
          (readValue greatestDepth ⟨['\n'] ++ "2.50e-3".toList ++ ['\x7d'], 0⟩).1 = .ok literal ∧
      literal.text = "0.0025" ∧ literal.value = NumericLiteral.value ⟨"2.50e-3"⟩ := by
  have loaded : Reader.numericLiteral
      (readValue greatestDepth ⟨['\n'] ++ "2.50e-3".toList ++ ['\x7d'], 0⟩).1 = .ok ⟨"0.0025"⟩ :=
    ok_of_toOption (by decide +kernel)
  have digits {chars : List Char} (all : chars.all Char.isDigit = true) :
      ∀ c ∈ chars, c.isDigit = true :=
    List.all_eq_true.mp all
  have unsigned : (⟨false, ['2'], ['5', '0'], some (true, ['3'])⟩ : Numeral).Unsigned
      "2.50e-3".toList :=
    .parts ⟨by decide, digits rfl, by decide⟩ (.present (by decide) (digits rfl))
      (.present (.inl rfl) .minus (by decide) (digits rfl))
  have front : Blank ['\n'] := List.forall_mem_singleton.mpr rfl
  obtain ⟨-, few, -⟩ := numericLiteral_keeps_iff front (.positive rfl unsigned)
    (.of_head (by decide) _) greatestDepth 0 loaded
  exact ⟨_, loaded, rfl, few (by decide +kernel) (by decide +kernel) (by decide +kernel)⟩

/-- A number of seventeen digits is read as a neighbour of the binary number that is nearest to it,
and is loaded with the digits of that. -/
theorem numericLiteral_rounded :
    ∃ literal,
      (Loader.fromText Reader.literalValue
          "\x7b\"type\":\"number\",\"value\":51.248178375505404\x7d").toOption =
        some (.number literal) ∧
      literal.text = "51.24817837550541" ∧
      literal.value ≠ NumericLiteral.value ⟨"51.248178375505404"⟩ :=
  ⟨⟨"51.24817837550541"⟩, by decide +kernel, rfl, by decide +kernel⟩

end Loading

end DecoderForge
