/-
This file proves what the object literals in the text of a compiled type define when the text is
evaluated: every entry, unless a key sets the prototype instead.
-/

import DecoderForge.Proofs.Compile.Assembly
import DecoderForge.Proofs.TypeScript.Reading

namespace DecoderForge

open Text

/-- The decoder of a type that is referred to has a word for a name, and a numeric literal is one
that was read or made. -/
def Descriptor.IsWorded : Descriptor → Prop
  | .reference name => ∀ c ∈ (decoderName name).toList, TypeScript.isWordChar c = true
  | .literal (.number n) => n.IsWritten
  | _ => True

namespace DecoderExpr

/-- The identifiers in an expression are words, the numbers in it are numeric literals, and no
object has a key twice. -/
inductive Readable : DecoderExpr → Prop
  | call (builtin : Builtin) (args : List DecoderExpr) (each : ∀ arg ∈ args, Readable arg) :
      Readable (.call builtin args)
  | identifier (name : String) (some : name.toList ≠ [])
      (worded : ∀ c ∈ name.toList, TypeScript.isWordChar c = true) : Readable (.identifier name)
  | object (entries : List (String × DecoderExpr)) (distinct : (entries.map Prod.fst).Nodup)
      (each : ∀ entry ∈ entries, Readable entry.2) : Readable (.object entries)
  | string (s : String) : Readable (.constant (.string s))
  | number (n : NumericLiteral) (numeric : NumericLiteral.isNumeric n.text.toList = true) :
      Readable (.constant (.number n))

mutual

/-- The keys of all objects in an expression. -/
def keys : DecoderExpr → List String
  | .call _ args => keysOfList args
  | .object entries => keysOfEntries entries
  | .identifier _ | .constant _ => []

def keysOfList : List DecoderExpr → List String
  | [] => []
  | expr :: rest => expr.keys ++ keysOfList rest

def keysOfEntries : List (String × DecoderExpr) → List String
  | [] => []
  | (key, expr) :: rest => key :: (expr.keys ++ keysOfEntries rest)

end

theorem mem_keysOfList (key : String) (args : List DecoderExpr) :
    key ∈ keysOfList args ↔ ∃ arg ∈ args, key ∈ arg.keys := by
  induction args with
  | nil => simp [keysOfList]
  | cons arg rest ih => simp [keysOfList, ih]

theorem mem_keysOfEntries (key : String) (entries : List (String × DecoderExpr)) :
    key ∈ keysOfEntries entries ↔
      key ∈ entries.map Prod.fst ∨ ∃ entry ∈ entries, key ∈ entry.2.keys := by
  induction entries with
  | nil => simp [keysOfEntries]
  | cons entry rest ih =>
    rw [keysOfEntries, List.mem_cons, List.mem_append, ih, List.map_cons, List.mem_cons,
      List.exists_mem_cons_iff]
    tauto

section

variable (define : List (String × TypeScript.Value) → TypeScript.Value) (owner : Option String)

mutual

/-- What an expression stands for, when it is said what the entries of an object define. -/
def valueBy : DecoderExpr → TypeScript.Value
  | .call builtin args =>
    if builtin.isValue && args.isEmpty then .word (TypeScript.calleeChars owner builtin)
    else .call (TypeScript.calleeChars owner builtin) (valuesOfList args)
  | .identifier name => .word name.toList
  | .constant (.string s) => .string s
  | .constant (.number n) => .word n.text.toList
  | .object entries => define (valuesOfEntries entries)

def valuesOfList : List DecoderExpr → List TypeScript.Value
  | [] => []
  | expr :: rest => expr.valueBy :: valuesOfList rest

def valuesOfEntries : List (String × DecoderExpr) → List (String × TypeScript.Value)
  | [] => []
  | (key, expr) :: rest => (key, expr.valueBy) :: valuesOfEntries rest

end

theorem valuesOfList_eq_map (args : List DecoderExpr) :
    valuesOfList define owner args = args.map (valueBy define owner) := by
  induction args with
  | nil => rfl
  | cons arg rest ih => rw [valuesOfList, ih, List.map_cons]

theorem valuesOfEntries_eq_map (entries : List (String × DecoderExpr)) :
    valuesOfEntries define owner entries =
      entries.map fun entry => (entry.1, entry.2.valueBy define owner) := by
  induction entries with
  | nil => rfl
  | cons entry rest ih => rw [valuesOfEntries, ih, List.map_cons]

end

/-- What an expression is meant to stand for: the own properties of an object are its entries. -/
def meaning (owner : Option String) : DecoderExpr → TypeScript.Value := valueBy .object owner

/-- An expression stands for what it is meant to unless a key sets a prototype. -/
theorem Readable.valueBy_eq_meaning_iff {expr : DecoderExpr} (readable : expr.Readable)
    (owner : Option String) :
    expr.valueBy .ofDefinitions owner = expr.meaning owner ↔
      TypeScript.baseKey ∉ expr.keys := by
  induction readable with
  | call builtin args each ih =>
    rw [meaning, valueBy, valueBy, keys, mem_keysOfList]
    by_cases value : (builtin.isValue && args.isEmpty) = true
    · obtain rfl := List.isEmpty_iff.mp ((Bool.and_eq_true _ _).mp value).2
      rw [if_pos value, if_pos value]
      simp
    · rw [if_neg value, if_neg value, TypeScript.Value.call.injEq, valuesOfList_eq_map,
        valuesOfList_eq_map, List.map_inj_left, and_iff_right rfl]
      simp only [not_exists, not_and]
      exact forall₂_congr ih
  | object entries distinct each ih =>
    have keyed (define : List (String × TypeScript.Value) → TypeScript.Value) :
        (valuesOfEntries define owner entries).map Prod.fst = entries.map Prod.fst := by
      rw [valuesOfEntries_eq_map, List.map_map]
      rfl
    have same : valuesOfEntries .ofDefinitions owner entries =
        valuesOfEntries .object owner entries ↔
        ∀ entry ∈ entries, TypeScript.baseKey ∉ entry.2.keys := by
      rw [valuesOfEntries_eq_map, valuesOfEntries_eq_map, List.map_inj_left]
      refine forall₂_congr fun entry inside => ?_
      rw [Prod.mk.injEq, and_iff_right rfl]
      exact ih entry inside
    rw [meaning, valueBy, valueBy, keys, mem_keysOfEntries,
      TypeScript.Value.ofDefinitions_eq_object_iff ((keyed _).symm ▸ distinct)
        ((keyed _).trans (keyed _).symm), same, keyed, and_comm]
    simp only [not_or, not_exists, not_and]
  | _ => simp [meaning, valueBy, keys]

end DecoderExpr

theorem Descriptor.readable_of_decoder? {tagField : Option String} {descriptor : Descriptor}
    (worded : descriptor.Everywhere IsWorded) {decoder : DecoderExpr}
    (compiled : descriptor.decoder? tagField = some decoder) : decoder.Readable := by
  have handsOn : HandsOn IsWorded DecoderExpr.Readable :=
    { call := .call
      object := .object
      string := .string
      number := fun n written => .number n written.isNumeric
      identifier := fun name word =>
        .identifier _ (List.ne_nil_of_mem (TypeScript.mem_decoderName name (c := 'r') (by decide)))
          word }
  exact handsOn.of_decoder? worded compiled

namespace TypeScript

/-- What does not go on with a word or with arguments. -/
def Ends (rest : List Char) : Prop :=
  Stops isWordChar rest ∧ ∀ inner, skip rest ≠ '(' :: inner

theorem Ends.of_head {c : Char} (delimits : isWordChar c = false) (solid : isSpace c = false)
    (other : c ≠ '(') (rest : List Char) : Ends (c :: rest) := by
  refine ⟨.of_head delimits rest, fun inner opens => ?_⟩
  rw [skip_cons solid] at opens
  exact other (List.cons.inj opens).1

theorem ends_nil : Ends [] := ⟨stops_nil _, nofun⟩

theorem Ends.close (rest : List Char) : Ends (')' :: rest) :=
  .of_head (by decide) (by decide) (by decide) rest

/-- Elements of a list end with the comma in front of the next one, or with the list. -/
theorem Ends.joined {α : Type} {rest : List Char} (ends : Ends rest) (text : α → List Char)
    (elements : List α) : Ends (elements.flatMap (fun next => ',' :: text next) ++ rest) := by
  cases elements with
  | nil => exact ends
  | cons next elements => exact .of_head (by decide) (by decide) (by decide) _

theorem isSpace_of_mem_newline {level : Nat} {c : Char} (inside : c ∈ '\n' :: indentation level) :
    isSpace c = true := by
  rcases List.mem_cons.mp inside with rfl | blank
  · decide
  · rw [List.eq_of_mem_replicate blank]
    decide

/-- A closing brace stands on a line of its own. -/
theorem skip_brace (level : Nat) (rest : List Char) :
    skip ('\n' :: (indentation level ++ '\x7d' :: rest)) = '\x7d' :: rest := by
  rw [← List.cons_append, skip_append fun c => isSpace_of_mem_newline]
  exact skip_cons (by decide) rest

theorem ends_brace (level : Nat) (rest : List Char) :
    Ends ('\n' :: (indentation level ++ '\x7d' :: rest)) := by
  refine ⟨.of_head (by decide) _, fun inner opens => ?_⟩
  rw [skip_brace] at opens
  exact absurd (List.cons.inj opens).1 (by decide)

/-- A text is an expression of a value, whatever ends it. -/
def Denotes (text : List Char) (v : Value) : Prop :=
  ∀ rest, Ends rest → Evaluates (text ++ rest) v rest

theorem denotes_word {word : List Char} (inside : ∀ c ∈ word, isWordChar c = true)
    (some : word ≠ []) : Denotes word (.word word) := by
  intro rest ends
  have here : wordAt (word ++ rest) = word := by
    rw [wordAt, skip_word inside some, takeWhile_word inside ends.1]
  have behind : behindWord (word ++ rest) = rest := by
    rw [behindWord, skip_word inside some, dropWhile_word inside ends.1]
  have evaluates := Evaluates.word (word ++ rest)
  rw [here, behind] at evaluates
  exact evaluates some ends.2

theorem evaluates_call {callee inner rest : List Char} {args : List Value}
    (inside : ∀ c ∈ callee, isWordChar c = true) (some : callee ≠ [])
    (each : Arguments true inner args rest) :
    Evaluates (callee ++ '(' :: inner) (.call callee args) rest := by
  have stops : Stops isWordChar ('(' :: inner) := .of_head (by decide) inner
  have here : wordAt (callee ++ '(' :: inner) = callee := by
    rw [wordAt, skip_word inside some, takeWhile_word inside stops]
  have opens : skip (behindWord (callee ++ '(' :: inner)) = '(' :: inner := by
    rw [behindWord, skip_word inside some, dropWhile_word inside stops, skip_cons (by decide)]
  have evaluates := Evaluates.call (callee ++ '(' :: inner) inner args rest
  rw [here] at evaluates
  exact evaluates some opens each

theorem string?_quoteChars (s : String) (rest : List Char) :
    string? (Json.quoteChars s ++ rest) = some (s, rest) := by
  have opens : skip (Json.quoteChars s ++ rest) =
      '"' :: (s.toList.flatMap Json.escapeChar ++ '"' :: rest) := by
    rw [Json.quoteChars, List.cons_append, skip_cons (by decide), List.append_assoc]
    rfl
  obtain ⟨stop, read⟩ := Json.stringFrom_written 0 rest s.toList
  simp only [string?, opens, read, String.ofList_toList]

/-- A key is read back, whether it is quoted or not. -/
theorem key?_keyChars (key : String) (rest : List Char) :
    key? (keyChars key ++ ':' :: rest) = some (key, ':' :: rest) := by
  have stops : Stops isNamePart (':' :: rest) := .of_head (by decide) rest
  unfold keyChars
  split
  · next named =>
    have inside := isNamePart_of_isName named
    have solid : skip (key.toList ++ ':' :: rest) = key.toList ++ ':' :: rest :=
      skip_word (fun c member =>
        isWordChar_of_isWordPart (isWordPart_of_isNamePart (inside c member)))
        (ne_nil_of_isName named) _
    simp only [key?, solid, takeWhile_word inside stops, dropWhile_word inside stops, named,
      if_true, String.ofList_toList]
  · have name : (skip (Json.quoteChars key ++ ':' :: rest)).takeWhile isNamePart = [] := by
      rw [Json.quoteChars, List.cons_append, skip_cons (by decide)]
      exact List.takeWhile_cons_of_neg (by decide)
    simp only [key?, name, isName, Bool.false_eq_true, if_false, string?_quoteChars]

section

variable {owner : Option String} {level : Nat} {value : DecoderExpr → Value}

/-- The arguments behind the first one. -/
theorem arguments_behind {args : List DecoderExpr}
    (each : ∀ arg ∈ args, Denotes (exprChars owner level arg) (value arg)) (rest : List Char) :
    Arguments false
      (args.flatMap (fun next => ',' :: [' '] ++ exprChars owner level next) ++ ')' :: rest)
      (args.map value) rest := by
  induction args with
  | nil => exact .close _ _ _ (skip_cons (by decide) rest)
  | cons arg args ih =>
    obtain ⟨head, tail⟩ := List.forall_mem_cons.mp each
    have ends := (Ends.close rest).joined (fun next => [' '] ++ exprChars owner level next) args
    rw [List.flatMap_cons, List.append_assoc, List.map_cons]
    refine .more _ _ _ _ _ _ _ (skip_cons (by decide) _) ?_ (ih tail)
    exact (head _ ends).of_skip_eq (skip_space (by decide) _)

theorem arguments_argsChars {args : List DecoderExpr}
    (each : ∀ arg ∈ args, Denotes (exprChars owner level arg) (value arg)) (rest : List Char) :
    Arguments true (argsChars owner level args ++ ')' :: rest) (args.map value) rest := by
  cases args with
  | nil => exact .close _ _ _ (skip_cons (by decide) rest)
  | cons arg args =>
    obtain ⟨head, tail⟩ := List.forall_mem_cons.mp each
    have ends := (Ends.close rest).joined (fun next => [' '] ++ exprChars owner level next) args
    rw [argsChars_cons, List.append_assoc, List.map_cons]
    exact .more _ _ _ _ _ _ _ rfl (head _ ends) (arguments_behind tail rest)

/-- The key of an entry is read from its line. -/
theorem key?_entryChars (entry : String × DecoderExpr) (behind : List Char) :
    key? ('\n' :: (entryChars owner level entry ++ behind)) =
      some (entry.1, ':' :: ' ' :: (exprChars owner level entry.2 ++ behind)) := by
  have line : '\n' :: (entryChars owner level entry ++ behind) =
      ('\n' :: indentation level) ++
        (keyChars entry.1 ++ ':' :: ' ' :: (exprChars owner level entry.2 ++ behind)) := by
    simp [entryChars]
  rw [line, key?_of_skip_eq (skip_append (fun c => isSpace_of_mem_newline) _), key?_keyChars]

theorem definitions_behind {entries : List (String × DecoderExpr)}
    (each : ∀ entry ∈ entries, Denotes (exprChars owner level entry.2) (value entry.2))
    {brace rest : List Char} (ends : Ends brace) (closes : skip brace = '\x7d' :: rest) :
    Definitions false
      (entries.flatMap (fun next => ',' :: ['\n'] ++ entryChars owner level next) ++ brace)
      (entries.map fun entry => (entry.1, value entry.2)) rest := by
  induction entries with
  | nil => exact .close _ _ _ closes
  | cons entry entries ih =>
    obtain ⟨head, tail⟩ := List.forall_mem_cons.mp each
    have later := ends.joined (fun next => ['\n'] ++ entryChars owner level next) entries
    rw [List.flatMap_cons, List.append_assoc, List.map_cons]
    refine .more _ _ _ _ _ _ _ _ _ _ (skip_cons (by decide) _) (key?_entryChars entry _)
      (skip_cons (by decide) _) ?_ (ih tail)
    exact (head _ later).of_skip_eq (skip_space (by decide) _)

theorem definitions_entriesChars {entry : String × DecoderExpr}
    {entries : List (String × DecoderExpr)}
    (each : ∀ line ∈ entry :: entries, Denotes (exprChars owner level line.2) (value line.2))
    {brace rest : List Char} (ends : Ends brace) (closes : skip brace = '\x7d' :: rest) :
    Definitions true ('\n' :: (entriesChars owner level (entry :: entries) ++ brace))
      ((entry :: entries).map fun line => (line.1, value line.2)) rest := by
  obtain ⟨head, tail⟩ := List.forall_mem_cons.mp each
  have later := ends.joined (fun next => ['\n'] ++ entryChars owner level next) entries
  rw [entriesChars_cons, List.append_assoc, List.map_cons]
  refine .more _ _ _ _ _ _ _ _ _ _ rfl (key?_entryChars entry _) (skip_cons (by decide) _) ?_
    (definitions_behind tail ends closes)
  exact (head _ later).of_skip_eq (skip_space (by decide) _)

end

/-- The text of an expression is read as what its object literals define. -/
theorem denotes_exprChars {owner : Option String} (style : ∀ name ∈ owner, name = libraryName)
    {expr : DecoderExpr} (readable : expr.Readable) (level : Nat) :
    Denotes (exprChars owner level expr) (expr.valueBy .ofDefinitions owner) := by
  induction readable generalizing level with
  | call builtin args each ih =>
    have inside : ∀ c ∈ calleeChars owner builtin, isWordChar c = true := fun c member =>
      isWordChar_of_isWordPart (isWordPart_of_mem_calleeChars style builtin c member)
    have some : calleeChars owner builtin ≠ [] := by
      obtain ⟨⟨_, member, _⟩, _⟩ := calleeChars_apart style builtin
      exact List.ne_nil_of_mem member
    rw [DecoderExpr.valueBy, exprChars_call, parenthesized]
    split
    · rw [List.append_nil]
      exact denotes_word inside some
    · intro rest ends
      have each := arguments_argsChars (fun arg member => ih arg member level) rest
      rw [DecoderExpr.valuesOfList_eq_map, List.append_assoc, List.cons_append, List.append_assoc]
      exact evaluates_call inside some each
  | identifier name some worded => exact denotes_word worded some
  | object entries distinct each ih =>
    intro rest ends
    rw [DecoderExpr.valueBy, DecoderExpr.valuesOfEntries_eq_map]
    have once : ((entries.map fun entry =>
        (entry.1, entry.2.valueBy .ofDefinitions owner)).map Prod.fst).count baseKey ≤ 1 := by
      rw [List.map_map]
      exact List.nodup_iff_count_le_one.mp distinct baseKey
    cases entries with
    | nil =>
      exact .object _ _ _ _ (skip_cons (by decide) _) (.close _ _ _ (skip_cons (by decide) rest))
        once
    | cons entry entries =>
      have text : exprChars owner level (.object (entry :: entries)) ++ rest =
          '\x7b' :: '\n' :: (entriesChars owner (level + 1) (entry :: entries) ++
            '\n' :: (indentation level ++ '\x7d' :: rest)) := by
        simp [exprChars]
      rw [text]
      exact .object _ _ _ _ (skip_cons (by decide) _)
        (definitions_entriesChars (fun line member => ih line member (level + 1))
          (ends_brace level rest) (skip_brace level rest)) once
  | string s =>
    intro rest _
    exact .string _ _ _ (string?_quoteChars s rest)
  | number n numeric =>
    refine denotes_word (fun c member => ?_) (NumericLiteral.ne_nil_of_isNumeric numeric)
    exact isWordChar_of_isWordPart
      (isWordPart_of_isPart (NumericLiteral.isPart_of_isNumeric numeric c member))

/-- The text of a compiled type can be evaluated in one way only. What it makes is what is meant,
objects with the entries for their own properties, exactly when no entry has the key that sets the
prototype; under this key alone an entry is lost. -/
theorem evaluates_renderExpr_iff (compiler : Compiler) {descriptor : Descriptor}
    (worded : descriptor.Everywhere Descriptor.IsWorded) {decoder : DecoderExpr}
    (compiled : (compiler.compile descriptor).2 = .ok decoder) {owner : Option String}
    (style : ∀ name ∈ owner, name = libraryName) :
    (∀ v rest, Evaluates (renderExpr owner decoder).toList v rest ↔
      v = decoder.valueBy .ofDefinitions owner ∧ rest = []) ∧
    (Evaluates (renderExpr owner decoder).toList (decoder.meaning owner) [] ↔
      baseKey ∉ decoder.keys) := by
  have readable : decoder.Readable :=
    Descriptor.readable_of_decoder? worded
      ((compiler.compile_eq_ok_iff descriptor decoder).mp compiled)
  have read : Evaluates (renderExpr owner decoder).toList
      (decoder.valueBy .ofDefinitions owner) [] := by
    have denotes := denotes_exprChars style readable 0 [] ends_nil
    rwa [List.append_nil, ← String.toList_ofList (l := exprChars owner 0 decoder)] at denotes
  have once (v : Value) (rest : List Char) : Evaluates (renderExpr owner decoder).toList v rest ↔
      v = decoder.valueBy .ofDefinitions owner ∧ rest = [] := by
    constructor
    · intro evaluates
      exact evaluates.unique read
    · rintro ⟨rfl, rfl⟩
      exact read
  refine ⟨once, ?_⟩
  rw [once, ← readable.valueBy_eq_meaning_iff owner, and_iff_left rfl, eq_comm]

/-- A field whose name needs quotation marks, and one that may be left out. -/
theorem evaluates_renderExpr_iff_quoted :
    ∃ decoder,
      ((Compiler.unchecked {}).compile (.record [⟨"a b", .reference "B", false⟩,
        ⟨"n", .literal (.number ⟨"0xF"⟩), true⟩])).2 = .ok decoder ∧
      renderExpr none decoder =
        "object(\x7b\n    \"a b\": bDecoder,\n    n: optional(constant(0xF))\n\x7d)" ∧
      ∀ v, Evaluates (renderExpr none decoder).toList v [] ↔
        v = .call "object".toList [.object [("a b", .word "bDecoder".toList),
          ("n", .call "optional".toList [.call "constant".toList [.word "0xF".toList]])]] := by
  have word : ∀ c ∈ (decoderName "B").toList, isWordChar c = true :=
    List.all_eq_true.mp (by decide +kernel)
  have reference : (Descriptor.reference "B").Everywhere Descriptor.IsWorded := .leaf word rfl
  have number : (Descriptor.literal (.number ⟨"0xF"⟩)).Everywhere Descriptor.IsWorded :=
    .leaf (.inl ⟨"0xF", by decide⟩) rfl
  have worded : (Descriptor.record [⟨"a b", .reference "B", false⟩,
      ⟨"n", .literal (.number ⟨"0xF"⟩), true⟩]).Everywhere Descriptor.IsWorded := by
    refine .intro _ trivial ?_
    simpa [Descriptor.parts] using ⟨reference, number⟩
  have style : ∀ name ∈ (none : Option String), name = libraryName := nofun
  refine ⟨_, rfl, rfl, fun v => ?_⟩
  obtain ⟨once, _⟩ := evaluates_renderExpr_iff (.unchecked {}) worded rfl style
  rw [once, and_iff_left rfl]
  rfl

/-- The only check of a record is lost without a report: the object literal sets a prototype. -/
theorem prototype_renderExpr :
    ∃ compiler decoder,
      (Compiler.unchecked {}).compile (.record [⟨"__proto__", .primitive .string, false⟩]) =
        (compiler, .ok decoder) ∧
      compiler.trace.diagnostics = [] ∧
      renderExpr (some libraryName) decoder =
        "decoders.object(\x7b\n    __proto__: decoders.string\n\x7d)" ∧
      decoder.meaning (some libraryName) = .call "decoders.object".toList
        [.object [("__proto__", .word "decoders.string".toList)]] ∧
      ∀ v rest, Evaluates (renderExpr (some libraryName) decoder).toList v rest →
        v = .call "decoders.object".toList [.object []] := by
  have readable : (DecoderExpr.call .object
      [.object [("__proto__", .call .string [])]]).Readable := by
    refine .call _ _ (List.forall_mem_singleton.mpr (.object _ (by decide) ?_))
    exact List.forall_mem_singleton.mpr (.call _ _ nofun)
  have style : ∀ name ∈ some libraryName, name = libraryName := by simp
  refine ⟨_, _, rfl, rfl, rfl, rfl, fun v rest evaluates => ?_⟩
  exact (evaluates.unique (denotes_exprChars style readable 0 [] ends_nil)).1

end TypeScript

end DecoderForge
