/-
This file proves how the words of generated TypeScript are told from each other: the names of
decoders, numbers, and the names of builtins.
-/

import DecoderForge.Proofs.Json.StringToken
import DecoderForge.Proofs.Number.Text
import DecoderForge.TypeScript.Printer

namespace DecoderForge

open Text

/-- An ASCII character has the lower case that ASCII gives it. -/
theorem Text.lowercase_of_lt {c : Char} (ascii : c.toNat < 0x80) :
    Text.lowercase c = [c.toLower] := by
  have split : lowercaseStretches = (0x41, 0x5A, 1, 32) :: lowercaseStretches.tail := rfl
  have later : ∀ stretch ∈ lowercaseStretches.tail, 0x80 ≤ stretch.1 := by decide +kernel
  have dotless : ¬ (c.toNat == 0x130) = true := by
    simp
    omega
  unfold Text.lowercase
  dsimp only
  -- All other stretches begin behind ASCII.
  rw [if_neg dotless, split, List.find?_cons, List.find?_eq_none.mpr]
  · exact of_ascii (by decide +kernel) ascii
  · intro stretch inside
    have start := later stretch inside
    simp
    omega

namespace TypeScript

theorem isNamePart_of_isNameStart {c : Char} (start : isNameStart c = true) :
    isNamePart c = true := by
  simp [isNamePart, start]

theorem lt_of_isNameStart {c : Char} (start : isNameStart c = true) : c.toNat < 0x80 := by
  simp only [isNameStart, Bool.or_eq_true, Bool.and_eq_true, decide_eq_true_eq,
    beq_iff_eq] at start
  rcases start with ((⟨_, capital⟩ | ⟨_, small⟩) | rfl) | rfl
  · exact Nat.lt_of_le_of_lt (m := 'Z'.toNat) capital (by decide)
  · exact Nat.lt_of_le_of_lt (m := 'z'.toNat) small (by decide)
  · decide
  · decide

theorem isNameStart_toLower {c : Char} (start : isNameStart c = true) :
    isNameStart c.toLower = true := by
  have each : isNameStart c = true → isNameStart c.toLower = true :=
    of_ascii (by decide +kernel) (lt_of_isNameStart start)
  exact each start

theorem isNamePart_of_isName {name : List Char} (named : isName name = true) :
    ∀ c ∈ name, isNamePart c = true := by
  match name with
  | first :: rest =>
    obtain ⟨start, parts⟩ := (Bool.and_eq_true _ _).mp named
    exact List.forall_mem_cons.mpr
      ⟨isNamePart_of_isNameStart start, List.all_eq_true.mp parts⟩

theorem ne_nil_of_isName {name : List Char} (named : isName name = true) : name ≠ [] := by
  rintro rfl
  contradiction

/-- A name ends where it is followed by a character that is in no name. -/
theorem name_append_inj {name other : String} {c : Char} {rest behind : List Char}
    (named : isName name.toList = true) (known : isName other.toList = true)
    (stop : isNamePart c = false)
    (same : name.toList ++ c :: rest = other.toList ++ c :: behind) :
    name = other ∧ rest = behind := by
  obtain ⟨names, last⟩ := word_append_inj (isNamePart_of_isName named)
    (isNamePart_of_isName known) (.of_head stop rest) (.of_head stop behind) same
  exact ⟨String.toList_inj.mp names, (List.cons.inj last).2⟩

/-- The decoder of a type that has a name has a name. -/
theorem isName_decoderName {typeName : String} (named : isName typeName.toList = true) :
    isName (decoderName typeName).toList = true := by
  unfold decoderName
  match chars : typeName.toList with
  | [] =>
    rw [chars] at named
    contradiction
  | first :: rest =>
    rw [chars] at named
    obtain ⟨start, parts⟩ := (Bool.and_eq_true _ _).mp named
    have suffix : "Decoder".toList.all isNamePart = true := by decide
    dsimp only
    rw [String.toList_ofList, Text.lowercase_of_lt (lt_of_isNameStart start)]
    simp only [List.cons_append, List.nil_append, isName, isNameStart_toLower start,
      List.all_append, parts, suffix, Bool.and_self]

theorem mem_decoderName (typeName : String) {c : Char} (inside : c ∈ "Decoder".toList) :
    c ∈ (decoderName typeName).toList := by
  unfold decoderName
  dsimp only
  rw [String.toList_ofList]
  exact List.mem_append_right _ inside

/-- The characters of words: names, members of names, and numbers. -/
def isWordPart (c : Char) : Bool := isNamePart c || ['.', '+', '-'].contains c

theorem isWordPart_of_isNamePart {c : Char} (part : isNamePart c = true) :
    isWordPart c = true := by
  simp [isWordPart, part]

theorem isWordPart_of_isPart {c : Char} (part : NumericLiteral.isPart c = true) :
    isWordPart c = true := by
  simp only [NumericLiteral.isPart, NumericLiteral.isHexadecimal, Bool.or_eq_true,
    Bool.and_eq_true, decide_eq_true_eq] at part
  rcases part with ((digit | ⟨low, high⟩) | ⟨low, high⟩) | sign
  · simp [isWordPart, isNamePart, digit]
  · have top : c ≤ 'z' := Char.le_trans high (by decide)
    simp [isWordPart, isNamePart, isNameStart, low, top]
  · have top : c ≤ 'Z' := Char.le_trans high (by decide)
    simp [isWordPart, isNamePart, isNameStart, low, top]
  · have each : ['x', 'X', 'o', 'O', '_', '.', '+', '-'].all isWordPart = true := by decide
    exact List.all_eq_true.mp each c (List.contains_iff_mem.mp sign)

section

variable {owner : Option String} (style : ∀ name ∈ owner, name = libraryName)

include style

theorem isWordPart_of_mem_calleeChars (builtin : Builtin) :
    ∀ c ∈ calleeChars owner builtin, isWordPart c = true := by
  rw [← List.all_eq_true]
  cases owner with
  | none => cases builtin <;> decide
  | some name =>
    obtain rfl := style name rfl
    cases builtin <;> decide

/-- No builtin is a number, and none is the decoder of a type. -/
theorem calleeChars_apart (builtin : Builtin) :
    (∃ c ∈ calleeChars owner builtin, NumericLiteral.isPart c = false) ∧
      'D' ∉ calleeChars owner builtin := by
  have apart : (calleeChars owner builtin).all NumericLiteral.isPart = false ∧
      (calleeChars owner builtin).contains 'D' = false := by
    cases owner with
    | none => cases builtin <;> decide
    | some name =>
      obtain rfl := style name rfl
      cases builtin <;> decide
  obtain ⟨other, absent⟩ := apart
  exact ⟨by simpa using List.all_eq_false.mp other, by simpa using absent⟩

end

theorem calleeChars_injective {owner : Option String} {a b : Builtin}
    (same : calleeChars owner a = calleeChars owner b) : a = b := by
  apply Builtin.name_injective
  apply String.toList_inj.mp
  cases owner with
  | none => exact same
  | some name => exact (List.cons.inj (List.append_cancel_left same)).2

/-- A key is told from what is written behind the colon that follows it. -/
theorem keyChars_append_inj {key name : String} {rest other : List Char}
    (same : keyChars key ++ ':' :: rest = keyChars name ++ ':' :: other) :
    key = name ∧ rest = other := by
  have apart {word : List Char} {text : String} {behind after : List Char}
      (named : isName word = true) : word ++ behind ≠ Json.quoteChars text ++ after :=
    word_append_ne (isNamePart_of_isName named) (ne_nil_of_isName named) (by decide) _ _
  unfold keyChars at same
  split at same
  · next bare =>
    split at same
    · next plain => exact name_append_inj bare plain (by decide) same
    · exact absurd same (apart bare)
  · split at same
    · next plain => exact absurd same.symm (apart plain)
    · obtain ⟨rfl, behind⟩ := Json.quoteChars_append_inj same
      exact ⟨rfl, (List.cons.inj behind).2⟩

end TypeScript

end DecoderForge
