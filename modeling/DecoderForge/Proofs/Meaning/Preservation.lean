/-
This file proves that a type without repeated fields whose parts all have decoders is compiled to a
decoder that accepts exactly the values of the type.
-/

import DecoderForge.Proofs.Compile.Reports
import DecoderForge.Proofs.Meaning.Record
import DecoderForge.Proofs.Meaning.Type

namespace DecoderForge

namespace Descriptor

/-- The type has a decoder. -/
def Kept (descriptor : Descriptor) : Prop := descriptor.lost? = none

/-- Without a tag field every part of a type has a say in its decoder. -/
theorem visited_none (descriptor : Descriptor) : descriptor.visited none = descriptor.parts := by
  cases descriptor <;> rfl

/-- A walk without skips has met no type that has no decoder. -/
theorem everywhere_kept {scope : Scope} (untagged : scope.tagField = none) {path : NodePath}
    {descriptor : Descriptor} {decoder : DecoderExpr} {trace : Trace}
    (compiled : Compile.type scope path descriptor = .ok (decoder, trace))
    (clean : ∀ report ∈ trace.diagnostics, report.isSkip = false) :
    descriptor.Everywhere Kept := by
  refine Compile.everywhere_of_reports scope path ?_ ?_ descriptor compiled clean
  · intro place part decoder trace compiled _
    refine ⟨?_, by rw [untagged, visited_none]; exact List.Subset.refl _⟩
    rw [Kept, Option.eq_none_iff_forall_ne_some]
    intro reason lost
    rw [(Compile.type_eq_error_iff scope place part reason).mpr lost] at compiled
    contradiction
  · intro part reason report _ skip clean
    rw [skip] at clean
    contradiction

/-- The type has a decoder without a tag field, and it accepts exactly the values of the type. -/
def Preserved (environment : Environment) (descriptor : Descriptor) : Prop :=
  ∃ decoder, descriptor.decoder? none = some decoder ∧
    ∀ value, decoder.Accepts environment.decoders (some value) ↔ descriptor.Allows environment value

variable {environment : Environment}

theorem Preserved.primitive (kind : PrimitiveKind) : Preserved environment (.primitive kind) := by
  refine ⟨_, rfl, fun value => ?_⟩
  cases kind with
  | string => exact (DecoderExpr.accepts_string_iff value).trans (allows_string_iff value).symm
  | number => exact (DecoderExpr.accepts_number_iff value).trans (allows_number_iff value).symm
  | boolean => exact (DecoderExpr.accepts_boolean_iff value).trans (allows_boolean_iff value).symm

/-- Only literals that are compared with have decoders. -/
theorem Preserved.literal {literal : LiteralValue} (kept : Kept (.literal literal)) :
    Preserved environment (.literal literal) := by
  cases literal with
  | string s =>
    refine ⟨_, rfl, fun value => ?_⟩
    rw [DecoderExpr.accepts_constant_iff, allows_literal_iff]
    exact Iff.rfl
  | number n =>
    refine ⟨_, rfl, fun value => ?_⟩
    rw [DecoderExpr.accepts_constant_iff, allows_literal_iff]
    exact Iff.rfl
  | _ => exact absurd kept nofun

theorem Preserved.reference (name : String) : Preserved environment (.reference name) := by
  refine ⟨_, rfl, fun value => ?_⟩
  rw [DecoderExpr.accepts_identifier_iff, allows_reference_iff]
  exact environment.agree name value

theorem Preserved.array {element : Descriptor} (inner : Preserved environment element) :
    Preserved environment (.array element) := by
  obtain ⟨decoder, compiled, same⟩ := inner
  refine ⟨.call .array [decoder], ?_, fun value => ?_⟩
  · rw [decoder?_eq_assembled?, assembled?, compiled, Option.map_some]
  · simp only [DecoderExpr.accepts_array_iff, allows_array_iff, same]

theorem Preserved.tuple {elements : List Descriptor}
    (each : ∀ element ∈ elements, Preserved environment element) :
    Preserved environment (.tuple elements) := by
  refine ⟨_, decoder?_eq_assembled? none _, fun value => ?_⟩
  rw [DecoderExpr.accepts_tuple_iff, allows_tuple_iff]
  refine exists_congr fun items => and_congr_right fun _ => ?_
  rw [List.length_map, List.zip_map_left, List.forall_mem_map]
  refine and_congr_right fun _ => forall₂_congr fun slot inside => ?_
  obtain ⟨decoder, compiled, same⟩ := each slot.1 (List.of_mem_zip inside).1
  rw [Prod.map_fst, compiled, Option.getD_some]
  exact same slot.2

/-- No member of the union is left out. -/
theorem Preserved.union {members : List Descriptor}
    (each : ∀ member ∈ members, Preserved environment member) :
    Preserved environment (.union members) := by
  refine ⟨_, decoder?_eq_assembled? none _, fun value => ?_⟩
  rw [unionDecoder, UnionShape.classify_none, DecoderExpr.accepts_either_iff, allows_union_iff]
  constructor
  · rintro ⟨decoder, chosen, accepted⟩
    obtain ⟨member, inside, compiled⟩ := List.mem_filterMap.mp chosen
    obtain ⟨found, present, same⟩ := each member inside
    obtain rfl := Option.some_inj.mp (compiled.symm.trans present)
    exact ⟨member, inside, (same value).mp accepted⟩
  · rintro ⟨member, inside, allowed⟩
    obtain ⟨decoder, compiled, same⟩ := each member inside
    exact ⟨decoder, List.mem_filterMap.mpr ⟨member, inside, compiled⟩, (same value).mpr allowed⟩

/-- Fields with distinct names all have their entries, so that each of them is looked at. -/
theorem Preserved.record {fields : List Field} (distinct : NamesDistinct (.record fields))
    (each : ∀ field ∈ fields, Preserved environment field.type) :
    Preserved environment (.record fields) := by
  refine ⟨_, decoder?_eq_assembled? none _, fun value => ?_⟩
  rw [accepts_record_iff distinct (decoder?_eq_assembled? none _), allows_record_iff]
  refine exists_congr fun entries => and_congr_right fun _ => forall₂_congr fun field inside => ?_
  obtain ⟨decoder, compiled, same⟩ := each field inside
  simp only [compiled, Option.some_inj, forall_eq', same]

/-- A type all of whose parts have decoders has one, for exactly its values. -/
theorem preserved_of_everywhere_kept (environment : Environment) {descriptor : Descriptor}
    (distinct : descriptor.Everywhere NamesDistinct) (kept : descriptor.Everywhere Kept) :
    descriptor.Preserved environment := by
  induction descriptor using induction_parts with
  | step descriptor ih =>
    have each (part : Descriptor) (inside : part ∈ descriptor.parts) : part.Preserved environment :=
      ih part inside (distinct.inside part inside) (kept.inside part inside)
    have here := kept.here
    cases descriptor with
    | primitive kind => exact .primitive kind
    | opaqueObject =>
      refine ⟨_, rfl, fun value => ?_⟩
      exact (DecoderExpr.accepts_jsonObject_iff value).trans (allows_opaqueObject_iff value).symm
    | union members => exact .union each
    | array element => exact .array (each element List.mem_cons_self)
    | tuple elements => exact .tuple each
    | literal literal => exact .literal here
    | reference name => exact .reference name
    | record fields =>
      exact .record distinct.here fun field inside => each field.type (List.mem_map_of_mem inside)
    | unsupported construct => exact absurd here nofun
    | unrecognized => exact absurd here nofun

end Descriptor

/-- Without a tag field, a type that is compiled without skips has a decoder for exactly its
values. -/
theorem Compiler.compile_preserves (compiler : Compiler) (unset : compiler.config.tagField = none)
    (descriptor : Descriptor) (distinct : descriptor.Everywhere Descriptor.NamesDistinct)
    (decoder : DecoderExpr) (compiled : (compiler.compile descriptor).2 = .ok decoder)
    (reports : List Diagnostic)
    (appended : (compiler.compile descriptor).1.trace.diagnostics =
      compiler.trace.diagnostics ++ reports)
    (clean : ∀ report ∈ reports, report.isSkip = false)
    (environment : Environment) (value : Json) :
    decoder.Accepts environment.decoders (some value) ↔ descriptor.Allows environment value := by
  obtain ⟨trace, walk, rfl⟩ := exists_walk compiled appended
  have kept := Descriptor.everywhere_kept unset walk clean
  obtain ⟨found, present, same⟩ :=
    Descriptor.preserved_of_everywhere_kept environment distinct kept
  rw [compile_eq_ok_iff, unset, present, Option.some_inj] at compiled
  exact compiled ▸ same value

/-- A literal beside an optional array of unions, and a value with one more key. -/
theorem Compiler.compile_preserves_record :
    ∃ decoder, ((Compiler.unchecked ⟨none, false⟩).compile
        (.record [⟨"name", .literal (.string "a"), false⟩,
          ⟨"rest", .array (.union [.primitive .number, .opaqueObject]), true⟩])).2 = .ok decoder ∧
      decoder.Accepts (fun _ _ => False) (some (.obj [("other", .null),
        ("rest", .arr [.obj [], .num (.int 1)]), ("name", .str "a")])) := by
  have distinct : Descriptor.Everywhere Descriptor.NamesDistinct
      (.record [⟨"name", .literal (.string "a"), false⟩,
        ⟨"rest", .array (.union [.primitive .number, .opaqueObject]), true⟩]) := by
    refine .intro _ (by simp [Descriptor.NamesDistinct]) ?_
    simp only [Descriptor.parts, List.map_cons, List.map_nil, List.forall_mem_cons]
    refine ⟨.leaf trivial rfl, .intro _ trivial ?_, List.forall_mem_nil _⟩
    refine List.forall_mem_singleton.mpr (.intro _ trivial ?_)
    simp only [Descriptor.parts, List.forall_mem_cons]
    exact ⟨.leaf trivial rfl, .leaf trivial rfl, List.forall_mem_nil _⟩
  refine ⟨_, rfl, ?_⟩
  refine (compile_preserves (.unchecked ⟨none, false⟩) rfl _ distinct _ rfl [] rfl
    (List.forall_mem_nil _) ⟨fun _ _ => False, fun _ _ => False, fun _ _ => Iff.rfl,
      fun _ _ => False, fun _ => False⟩ _).mpr ?_
  refine .record _ _ ?_ ?_
  · simp only [List.forall_mem_cons]
    refine ⟨?_, ?_, List.forall_mem_nil _⟩
    · rintro value ⟨⟩
      exact .literal (.string "a") _ rfl
    · rintro value ⟨⟩
      refine .array _ _ ?_
      simp only [List.forall_mem_cons]
      exact ⟨.union _ .opaqueObject _ (by simp) (.opaqueObject []),
        .union _ (.primitive .number) _ (by simp) (.number _), List.forall_mem_nil _⟩
  · simp [Entries.get?]

end DecoderForge
