/-
This file proves of which form the decoders are that types are compiled to, and where in them the
arguments stand that are no decoders of their own.
-/

import DecoderForge.Proofs.Compile.Decoder
import DecoderForge.Proofs.Compile.Union

namespace DecoderForge

namespace DecoderExpr

variable (tagField : Option String)

mutual

/-- The decoders that types are compiled to. -/
inductive IsDecoder : DecoderExpr → Prop
  | identifier (name : String) : IsDecoder (.identifier name)
  | value (builtin : Builtin) (named : builtin ∈ [.string, .number, .boolean, .jsonObject]) :
      IsDecoder (.call builtin [])
  | constant (value : Constant) : IsDecoder (.call .constant [.constant value])
  | array (element : DecoderExpr) (inner : IsDecoder element) : IsDecoder (.call .array [element])
  | tuple (slots : List DecoderExpr) (each : ∀ slot ∈ slots, IsSlot slot) :
      IsDecoder (.call .tuple slots)
  | either (members : List DecoderExpr) (each : ∀ member ∈ members, IsDecoder member) :
      IsDecoder (.call .either members)
  | object (entries : List (String × DecoderExpr)) (each : ∀ entry ∈ entries, IsEntry entry.2) :
      IsDecoder (.call .object [.object entries])
  | taggedUnion (field : String) (configured : tagField = some field)
      (entries : List (String × DecoderExpr)) (each : ∀ entry ∈ entries, IsDecoder entry.2)
      (calls : ∀ entry ∈ entries, entry.2.builtin? = some .object) :
      IsDecoder (.call .taggedUnion [.constant (.string field), .object entries])

/-- A slot of a tuple may accept anything. -/
inductive IsSlot : DecoderExpr → Prop
  | decoder (expr : DecoderExpr) (inner : IsDecoder expr) : IsSlot expr
  | json : IsSlot (.call .json [])

/-- An entry of a record may be left out. -/
inductive IsEntry : DecoderExpr → Prop
  | required (expr : DecoderExpr) (inner : IsDecoder expr) : IsEntry expr
  | optional (expr : DecoderExpr) (inner : IsDecoder expr) : IsEntry (.call .optional [expr])

end

variable {tagField}

/-- A decoder is a name or a call, but not of a builtin that only makes an argument. -/
theorem IsDecoder.identifier_or_call {expr : DecoderExpr} (decoder : expr.IsDecoder tagField) :
    (∃ name, expr = .identifier name) ∨
      ∃ builtin args, expr = .call builtin args ∧ builtin ≠ .optional ∧ builtin ≠ .json := by
  cases decoder with
  | identifier name => exact .inl ⟨name, rfl⟩
  | value builtin named =>
    refine .inr ⟨builtin, [], rfl, ?_, ?_⟩
    · rintro rfl
      simp at named
    · rintro rfl
      simp at named
  | _ => exact .inr ⟨_, _, rfl, by simp, by simp⟩

/-- Where an expression stands in another one. -/
inductive Place where
  | whole
  | argument (builtin : Builtin)
  /-- Under a key of an object that stands somewhere. -/
  | entry (object : Place)
deriving Repr, DecidableEq

/-- An expression stands somewhere in another one. -/
inductive Occurs (root : DecoderExpr) : Place → DecoderExpr → Prop
  | whole : Occurs root .whole root
  | argument (place : Place) (builtin : Builtin) (args : List DecoderExpr) (arg : DecoderExpr)
      (call : Occurs root place (.call builtin args)) (inside : arg ∈ args) :
      Occurs root (.argument builtin) arg
  | entry (place : Place) (entries : List (String × DecoderExpr)) (entry : String × DecoderExpr)
      (object : Occurs root place (.object entries)) (inside : entry ∈ entries) :
      Occurs root (.entry place) entry.2

variable (tagField)

/-- The places where nothing but decoders stand. -/
def decoderPlaces : List Place :=
  [.whole, .argument .array, .argument .either, .argument .optional,
    .entry (.argument .taggedUnion)]

/-- What may stand in a place of a decoder. -/
inductive Suits : Place → DecoderExpr → Prop
  | decoder (place : Place) (plain : place ∈ decoderPlaces) (expr : DecoderExpr)
      (inner : expr.IsDecoder tagField) : Suits place expr
  | slot (expr : DecoderExpr) (slot : expr.IsSlot tagField) : Suits (.argument .tuple) expr
  | entry (expr : DecoderExpr) (entry : expr.IsEntry tagField) :
      Suits (.entry (.argument .object)) expr
  | value (value : Constant) : Suits (.argument .constant) (.constant value)
  | fields (entries : List (String × DecoderExpr))
      (each : ∀ entry ∈ entries, entry.2.IsEntry tagField) :
      Suits (.argument .object) (.object entries)
  | tagField (field : String) : Suits (.argument .taggedUnion) (.constant (.string field))
  | members (entries : List (String × DecoderExpr))
      (each : ∀ entry ∈ entries, entry.2.IsDecoder tagField) :
      Suits (.argument .taggedUnion) (.object entries)

variable {tagField}

/-- A call in a place where it may stand is a decoder, unless it only makes a slot or an entry. -/
theorem Suits.call_cases {place : Place} {builtin : Builtin} {args : List DecoderExpr}
    (suits : Suits tagField place (.call builtin args)) :
    IsDecoder tagField (.call builtin args) ∨
      (place = .argument .tuple ∧ builtin = .json ∧ args = []) ∨
      place = .entry (.argument .object) ∧ builtin = .optional ∧
        ∃ inner, args = [inner] ∧ inner.IsDecoder tagField := by
  cases suits with
  | decoder _ _ _ inner => exact .inl inner
  | slot _ slot =>
    cases slot with
    | decoder _ inner => exact .inl inner
    | json => exact .inr (.inl ⟨rfl, rfl, rfl⟩)
  | entry _ entry =>
    cases entry with
    | required _ inner => exact .inl inner
    | optional expr inner => exact .inr (.inr ⟨rfl, rfl, expr, rfl, inner⟩)

/-- The arguments of a decoder suit their places. -/
theorem IsDecoder.suits_argument {builtin : Builtin} {args : List DecoderExpr}
    (decoder : IsDecoder tagField (.call builtin args)) (arg : DecoderExpr) (inside : arg ∈ args) :
    Suits tagField (.argument builtin) arg := by
  cases decoder with
  | value => exact absurd inside List.not_mem_nil
  | constant value =>
    obtain rfl := List.mem_singleton.mp inside
    exact .value value
  | array element inner =>
    obtain rfl := List.mem_singleton.mp inside
    exact .decoder _ (by decide) _ inner
  | tuple _ each => exact .slot arg (each arg inside)
  | either _ each => exact .decoder _ (by decide) arg (each arg inside)
  | object entries each =>
    obtain rfl := List.mem_singleton.mp inside
    exact .fields entries each
  | taggedUnion field _ entries each =>
    rcases List.mem_cons.mp inside with rfl | last
    · exact .tagField field
    · obtain rfl := List.mem_singleton.mp last
      exact .members entries each

theorem IsDecoder.ne_object {expr : DecoderExpr} (decoder : expr.IsDecoder tagField)
    (entries : List (String × DecoderExpr)) : expr ≠ .object entries := by
  rintro rfl
  obtain ⟨name, same⟩ | ⟨builtin, args, same, _⟩ := decoder.identifier_or_call
  · contradiction
  · contradiction

/-- The entries of an object that suits its place suit theirs. -/
theorem Suits.entry_of_object {place : Place} {entries : List (String × DecoderExpr)}
    (suits : Suits tagField place (.object entries)) (entry : String × DecoderExpr)
    (inside : entry ∈ entries) : Suits tagField (.entry place) entry.2 := by
  cases suits with
  | decoder _ _ _ inner => exact absurd rfl (inner.ne_object entries)
  | slot _ slot =>
    cases slot with
    | decoder _ inner => exact absurd rfl (inner.ne_object entries)
  | entry _ optional =>
    cases optional with
    | required _ inner => exact absurd rfl (inner.ne_object entries)
  | fields _ each => exact .entry entry.2 (each entry inside)
  | members _ each => exact .decoder _ (by decide) entry.2 (each entry inside)

/-- Everything in a decoder suits the place where it stands. -/
theorem IsDecoder.suits_of_occurs {root : DecoderExpr} (decoder : root.IsDecoder tagField)
    {place : Place} {part : DecoderExpr} (occurs : root.Occurs place part) :
    Suits tagField place part := by
  induction occurs with
  | whole => exact .decoder _ (by decide) root decoder
  | argument place builtin args arg _ inside ih =>
    obtain call | ⟨_, _, rfl⟩ | ⟨_, rfl, inner, rfl, found⟩ := ih.call_cases
    · exact call.suits_argument arg inside
    · exact absurd inside List.not_mem_nil
    · obtain rfl := List.mem_singleton.mp inside
      exact .decoder _ (by decide) arg found
  | entry place entries entry _ inside ih => exact ih.entry_of_object entry inside

end DecoderExpr

namespace Descriptor

variable {tagField : Option String}

/-- The decoder of a record is a call that makes an object. -/
theorem builtin?_of_record {fields : List Field} {decoder : DecoderExpr}
    (compiled : (record fields).decoder? tagField = some decoder) :
    decoder.builtin? = some .object := by
  rw [decoder?_eq_assembled?] at compiled
  obtain rfl := Option.some_inj.mp compiled
  rfl

theorem isDecoder_unionDecoder {members : List Descriptor}
    (each : ∀ member ∈ members, ∀ decoder ∈ member.decoder? tagField,
      decoder.IsDecoder tagField) : (unionDecoder tagField members).IsDecoder tagField := by
  unfold unionDecoder
  split
  · next field tags shape =>
    obtain ⟨configured, tagged⟩ := (UnionShape.classify_eq_tagged_iff _ _ _ _).mp shape
    -- Only records have tags, so that each entry is the decoder of a record.
    have entries : ∀ entry ∈ (Compile.winners tags).filterMap (tagEntryOf tagField members),
        entry.2.IsDecoder tagField ∧ entry.2.builtin? = some .object := by
      intro entry inside
      obtain ⟨_, _, member, found, decoder, compiled, rfl⟩ := exists_member_of_mem_entries inside
      obtain ⟨tag, _, has⟩ := UnionShape.tag_of_mem tagged found
      obtain ⟨fields, _, rfl, _⟩ := (tag?_eq_some_iff field tag member).mp has
      exact ⟨each _ (List.mem_of_getElem? found) decoder compiled, builtin?_of_record compiled⟩
    exact .taggedUnion field configured _ (fun entry inside => (entries entry inside).1)
      fun entry inside => (entries entry inside).2
  · apply DecoderExpr.IsDecoder.either
    intro decoder inside
    obtain ⟨member, found, compiled⟩ := List.mem_filterMap.mp inside
    exact each member found decoder compiled

theorem isDecoder_record {fields : List Field}
    (each : ∀ field ∈ fields, ∀ decoder ∈ field.type.decoder? tagField,
      decoder.IsDecoder tagField) :
    (DecoderExpr.call .object [.object
      (Entries.ofList (fields.filterMap (entryOf tagField)))]).IsDecoder tagField := by
  apply DecoderExpr.IsDecoder.object
  intro entry inside
  obtain ⟨field, found, decoder, compiled, rfl⟩ := exists_field_of_mem_entries inside
  have inner := each field found decoder compiled
  cases field.optional with
  | false => exact .required decoder inner
  | true => exact .optional decoder inner

/-- Types are compiled to decoders of the grammar. -/
theorem isDecoder_of_decoder? {descriptor : Descriptor} {decoder : DecoderExpr}
    (compiled : descriptor.decoder? tagField = some decoder) : decoder.IsDecoder tagField := by
  induction descriptor using induction_parts generalizing decoder with
  | step descriptor ih =>
    rw [decoder?_eq_assembled?] at compiled
    cases descriptor with
    | primitive kind =>
      obtain rfl := Option.some_inj.mp compiled
      exact .value _ (by cases kind <;> decide)
    | opaqueObject =>
      obtain rfl := Option.some_inj.mp compiled
      exact .value _ (by decide)
    | union members =>
      obtain rfl := Option.some_inj.mp compiled
      exact isDecoder_unionDecoder fun member inside decoder found => ih member inside found
    | array element =>
      obtain ⟨inner, found, rfl⟩ := Option.map_eq_some_iff.mp compiled
      exact .array inner (ih element List.mem_cons_self found)
    | tuple elements =>
      obtain rfl := Option.some_inj.mp compiled
      apply DecoderExpr.IsDecoder.tuple
      intro slot inside
      obtain ⟨element, found, rfl⟩ := List.mem_map.mp inside
      cases inner : element.decoder? tagField with
      | none => exact .json
      | some decoder => exact .decoder decoder (ih element found inner)
    | literal value =>
      cases value with
      | string s =>
        obtain rfl := Option.some_inj.mp compiled
        exact .constant (.string s)
      | number n =>
        obtain rfl := Option.some_inj.mp compiled
        exact .constant (.number n)
      | _ => contradiction
    | reference name =>
      obtain rfl := Option.some_inj.mp compiled
      exact .identifier (decoderName name)
    | record fields =>
      obtain rfl := Option.some_inj.mp compiled
      apply isDecoder_record
      intro field inside decoder found
      exact ih field.type (List.mem_map_of_mem inside) found
    | _ => contradiction

end Descriptor

/-- Whatever a run has done before, it compiles a type to a decoder of the grammar. So what a field
makes optional stands only under a key of the object of a record, and is a decoder itself; anything
is accepted only by a slot of a tuple; and values are told apart by a tag only where there is a tag
field, which is named first. -/
theorem Compiler.compile_isDecoder (compiler : Compiler) (descriptor : Descriptor)
    (decoder : DecoderExpr) (compiled : (compiler.compile descriptor).2 = .ok decoder) :
    decoder.IsDecoder compiler.config.tagField ∧
    ((∃ name, decoder = .identifier name) ∨
      ∃ builtin args, decoder = .call builtin args ∧ builtin ≠ .optional ∧ builtin ≠ .json) ∧
    ∀ place builtin args, decoder.Occurs place (.call builtin args) →
      (builtin = .optional → place = .entry (.argument .object) ∧
        ∃ inner, args = [inner] ∧ inner.IsDecoder compiler.config.tagField) ∧
      (builtin = .json → place = .argument .tuple ∧ args = []) ∧
      (builtin = .taggedUnion → ∃ field entries, compiler.config.tagField = some field ∧
        args = [.constant (.string field), .object entries] ∧
        ∀ entry ∈ entries, entry.2.builtin? = some .object) := by
  have grammar : decoder.IsDecoder compiler.config.tagField :=
    Descriptor.isDecoder_of_decoder? ((compiler.compile_eq_ok_iff descriptor decoder).mp compiled)
  refine ⟨grammar, grammar.identifier_or_call, ?_⟩
  intro place builtin args occurs
  obtain call | ⟨rfl, rfl, rfl⟩ | ⟨rfl, rfl, found⟩ := (grammar.suits_of_occurs occurs).call_cases
  · obtain ⟨name, same⟩ | ⟨_, _, same, required, specific⟩ := call.identifier_or_call
    · contradiction
    · obtain ⟨rfl, rfl⟩ := DecoderExpr.call.inj same
      refine ⟨fun optional => absurd optional required, fun any => absurd any specific, ?_⟩
      rintro rfl
      cases call with
      | value _ named => simp at named
      | taggedUnion field configured entries _ calls =>
        exact ⟨field, entries, configured, rfl, calls⟩
  · simp
  · simpa using found

/-- A tuple of something unknown and of a tagged union, in which a field may be left out. -/
theorem Compiler.compile_isDecoder_tuple :
    ∃ decoder,
      ((Compiler.unchecked ⟨some "kind", false⟩).compile (.tuple [.unrecognized,
        .union [.record [⟨"kind", .literal (.string "a"), false⟩,
          ⟨"x", .primitive .number, true⟩]]])).2 = .ok decoder ∧
      decoder.IsDecoder (some "kind") ∧
      decoder = .call .tuple [.call .json [], .call .taggedUnion [.constant (.string "kind"),
        .object [("a", .call .object [.object
          [("kind", .call .constant [.constant (.string "a")]),
            ("x", .call .optional [.call .number []])]])]]] := by
  refine ⟨_, rfl, ?_, rfl⟩
  exact (compile_isDecoder (.unchecked ⟨some "kind", false⟩) (.tuple [.unrecognized,
    .union [.record [⟨"kind", .literal (.string "a"), false⟩,
      ⟨"x", .primitive .number, true⟩]]]) _ rfl).1

end DecoderForge
