/-
This file proves that modules of types come back from the JSON that they are written as, and so that
a module that was loaded is loaded again from what it is written as.
-/

import DecoderForge.Loading.Descriptor
import DecoderForge.Proofs.Descriptor.Parts
import DecoderForge.Proofs.Json.Compact
import DecoderForge.Proofs.Loading.Buffer
import DecoderForge.Proofs.Loading.Yields
import DecoderForge.Proofs.Number.Text

namespace DecoderForge

/-- The number of a literal is one that was read or made. -/
def LiteralValue.IsWritten : LiteralValue → Prop
  | .number n => n.IsWritten
  | _ => True

namespace Descriptor

def LiteralIsWritten : Descriptor → Prop
  | .literal value => value.IsWritten
  | _ => True

/-- The numbers of all literals in a type are ones that were read or made. -/
abbrev IsWritten (descriptor : Descriptor) : Prop := descriptor.Everywhere LiteralIsWritten

theorem listToJson_eq_map (descriptors : List Descriptor) :
    listToJson descriptors = descriptors.map toJson := by
  induction descriptors with
  | nil => rfl
  | cons descriptor rest ih => rw [listToJson, ih, List.map_cons]

theorem fieldsToJson_eq_map (fields : List Field) :
    fieldsToJson fields = fields.map FieldOf.toJson := by
  induction fields with
  | nil => rfl
  | cons field rest ih =>
    rw [fieldsToJson, ih, List.map_cons]
    rfl

/-- A part of a type is written less deep than the type. -/
theorem depth_toJson_lt_of_mem_parts {descriptor part : Descriptor}
    (inside : part ∈ descriptor.parts) : part.toJson.depth < descriptor.toJson.depth := by
  have listed {descriptors : List Descriptor} (inside : part ∈ descriptors) :
      part.toJson.depth ≤ Json.depthItems (listToJson descriptors) := by
    rw [listToJson_eq_map]
    exact Json.depth_le_depthItems (List.mem_map_of_mem inside)
  cases descriptor with
  | union members =>
    have bound := listed inside
    simp only [parts] at bound
    simp only [toJson, Json.depth, Json.depthEntries]
    omega
  | array element =>
    obtain rfl := List.mem_singleton.mp inside
    simp only [toJson, Json.depth, Json.depthEntries]
    omega
  | tuple elements =>
    have bound := listed inside
    simp only [parts] at bound
    simp only [toJson, Json.depth, Json.depthEntries]
    omega
  | record fields =>
    obtain ⟨field, member, rfl⟩ := List.mem_map.mp inside
    have bound := Json.depth_le_depthItems (List.mem_map_of_mem (f := FieldOf.toJson) member)
    rw [← fieldsToJson_eq_map] at bound
    simp only [FieldOf.toJson, Json.depth, Json.depthEntries] at bound
    simp only [toJson, Json.depth, Json.depthEntries]
    omega
  | _ => exact absurd inside List.not_mem_nil

end Descriptor

/-- The numbers in a module are ones that were read or made. -/
def SourceModule.IsWritten (source : SourceModule) : Prop :=
  ∀ declaration ∈ source.declarations, declaration.type.IsWritten

namespace Loading

namespace Buffer

theorem numericLiteral_toJson {n : NumericLiteral} (written : n.IsWritten) :
    numericLiteral n.toJson = .ok n := by
  have parsed : NumericLiteral.parse? n.text = some n := if_pos written.isNumeric
  simp only [NumericLiteral.toJson, numericLiteral, parsed]

theorem literalValue_toJson {value : LiteralValue} (written : value.IsWritten) :
    literalValue value.toJson = .ok value := by
  cases value with
  | number n =>
    apply tagAndContent_of_entries (by decide) rfl
    exact Except.map_eq_ok_iff.mpr ⟨n, numericLiteral_toJson written, rfl⟩
  | _ => rfl

theorem primitiveKind_name (kind : PrimitiveKind) : primitiveKind (.str kind.name) = .ok kind :=
  choice_of_lookup (by cases kind <;> rfl)

theorem field_toJson {load : Json → Except Cause Descriptor} {declared : Field}
    (inner : load declared.type.toJson = .ok declared.type) :
    field load declared.toJson = .ok declared := by
  simp [field, FieldOf.toJson, fieldColumns, entries, Columns.and, Columns.one, text, flag, inner,
    Except.bind, Except.map, required]

theorem onlyField_of_entry {α : Type} (variant key : String) {load : Json → Except Cause α}
    {value : Json} {a : α} (loaded : load value = .ok a) :
    onlyField variant key load (.obj [(key, value)]) = .ok a := by
  rw [onlyField, single_of_entry, loaded]

/-- A type is written with its kind first, and then with what is loaded as a type of this kind. The
parts may be loaded in any way that gives them back: within some levels, or as readers do. -/
theorem descriptorContent_toJson (descriptor : Descriptor) {load : Json → Except Cause Descriptor}
    (written : descriptor.LiteralIsWritten)
    (inner : ∀ part ∈ descriptor.parts, load part.toJson = .ok part) :
    ∃ name kind others, descriptor.toJson = .obj (("kind", .str name) :: others) ∧
      DescriptorKind.names.lookup name = some kind ∧ "kind" ∉ others.map Prod.fst ∧
      descriptorContent load kind (.obj others) = .ok descriptor := by
  cases descriptor with
  | primitive kind =>
    exact ⟨_, .primitive, _, rfl, rfl, by simp, Except.map_eq_ok_iff.mpr
      ⟨kind, onlyField_of_entry _ _ (primitiveKind_name kind), rfl⟩⟩
  | opaqueObject => exact ⟨_, _, _, rfl, rfl, by simp, rfl⟩
  | union members =>
    rw [Descriptor.toJson, Descriptor.listToJson_eq_map]
    exact ⟨_, .union, _, rfl, rfl, by simp, Except.map_eq_ok_iff.mpr
      ⟨members, onlyField_of_entry _ _ (list_of_each inner), rfl⟩⟩
  | array element =>
    rw [Descriptor.toJson]
    have loaded := inner element List.mem_cons_self
    exact ⟨_, .array, _, rfl, rfl, by simp, Except.map_eq_ok_iff.mpr
      ⟨element, onlyField_of_entry _ _ loaded, rfl⟩⟩
  | tuple elements =>
    rw [Descriptor.toJson, Descriptor.listToJson_eq_map]
    exact ⟨_, .tuple, _, rfl, rfl, by simp, Except.map_eq_ok_iff.mpr
      ⟨elements, onlyField_of_entry _ _ (list_of_each inner), rfl⟩⟩
  | literal value =>
    rw [Descriptor.toJson]
    exact ⟨_, .literal, _, rfl, rfl, by simp, Except.map_eq_ok_iff.mpr
      ⟨value, onlyField_of_entry _ _ (literalValue_toJson written), rfl⟩⟩
  | reference name => exact ⟨_, _, _, rfl, rfl, by simp, rfl⟩
  | record fields =>
    rw [Descriptor.toJson, Descriptor.fieldsToJson_eq_map]
    have each : ∀ declared ∈ fields, field load declared.toJson = .ok declared :=
      fun declared inside => field_toJson (inner declared.type (List.mem_map_of_mem inside))
    exact ⟨_, .record, _, rfl, rfl, by simp, Except.map_eq_ok_iff.mpr
      ⟨fields, onlyField_of_entry _ _ (list_of_each each), rfl⟩⟩
  | unsupported construct => exact ⟨_, _, _, rfl, rfl, by simp, rfl⟩
  | unrecognized => exact ⟨_, _, _, rfl, rfl, by simp, rfl⟩

/-- A type comes back from the value that it is written as. -/
theorem descriptorWithin_toJson {descriptor : Descriptor} (written : descriptor.IsWritten)
    {levels : Nat} (deep : descriptor.toJson.depth < levels) :
    descriptorWithin levels descriptor.toJson = .ok descriptor := by
  induction levels generalizing descriptor with
  | zero => exact absurd deep (Nat.not_lt_zero _)
  | succ levels ih =>
    have inner : ∀ part ∈ descriptor.parts, descriptorWithin levels part.toJson = .ok part := by
      intro part inside
      have less := Descriptor.depth_toJson_lt_of_mem_parts inside
      exact ih (written.inside part inside) (by omega)
    obtain ⟨name, kind, others, same, found, fresh, content⟩ :=
      descriptorContent_toJson descriptor written.here inner
    rw [same, descriptorWithin]
    dsimp only
    rw [tagged_of_lookup _ found fresh]
    exact content

theorem descriptor_toJson {written : Descriptor} (numbers : written.IsWritten) :
    descriptor written.toJson = .ok written :=
  descriptorWithin_toJson numbers (Nat.lt_succ_self _)

end Buffer

namespace Reader

variable {document : Json.Document}

theorem descriptor_of_holds {loaded : Descriptor} (written : loaded.IsWritten)
    (holds : Holds document loaded.toJson) : Reader.descriptor document = .ok loaded := by
  obtain ⟨name, kind, others, same, found, fresh, content⟩ :=
    Buffer.descriptorContent_toJson loaded written.here fun part inside =>
      Buffer.descriptor_toJson (written.inside part inside)
  rw [same] at holds
  rw [Reader.descriptor]
  dsimp only
  rw [tagged_of_holds _ found fresh holds]
  exact Except.mapError_eq_ok_iff.mpr content

theorem declaration_of_holds {declared : Declaration} (written : declared.type.IsWritten)
    (holds : Holds document declared.toJson) : Reader.declaration document = .ok declared := by
  obtain ⟨start, opened, es, ending, rfl, whole, held⟩ := holds.object
  obtain ⟨first, _, rfl, key, name, held⟩ := held.exists_cons
  obtain ⟨second, _, rfl, key', type, held⟩ := held.exists_cons
  obtain rfl := held.eq_nil
  have name := text_of_holds name
  have type := descriptor_of_holds written type
  simp [Reader.declaration, entries, Columns.and, Columns.one, key, key', name, type, whole,
    Except.mapError, Except.map, required]

theorem sourceModule_of_holds {source : SourceModule} (written : source.IsWritten)
    (holds : Holds document source.toJson) : Reader.sourceModule document = .ok source := by
  obtain ⟨start, opened, es, ending, rfl, whole, held⟩ := holds.object
  obtain ⟨first, _, rfl, key, value, held⟩ := held.exists_cons
  obtain rfl := held.eq_nil
  have declarations : list Reader.declaration first.value = .ok source.declarations :=
    list_of_holds (fun declared inside _ => declaration_of_holds (written declared inside)) value
  simp [Reader.sourceModule, entries, Columns.one, key, declarations, whole, Except.mapError,
    Except.map, required]

end Reader

namespace Buffer

theorem numericLiteral_yields : Yields numericLiteral NumericLiteral.IsWritten := by
  intro value n loaded
  unfold numericLiteral at loaded
  split at loaded
  · obtain rfl := Except.ok.inj loaded
    exact .inr ⟨_, rfl⟩
  · split at loaded
    · next parsed =>
      obtain rfl := Except.ok.inj loaded
      exact .inl ⟨_, parsed⟩
    · contradiction
  · contradiction

theorem literalContent_yields (kind : LiteralKind) :
    Yields (literalContent kind) LiteralValue.IsWritten := by
  cases kind with
  | number => exact numericLiteral_yields.map fun n written => written
  | _ => exact (yields_true _).map fun _ _ => trivial

theorem literalValue_yields : Yields literalValue LiteralValue.IsWritten := by
  refine tagAndContent_yields literalContent_yields ?_
  intro kind value loaded
  cases kind with
  | null =>
    obtain rfl := Except.ok.inj loaded
    exact trivial
  | _ => contradiction

theorem field_yields {load : Json → Except Cause Descriptor} {property : Descriptor → Prop}
    (yields : Yields load property) :
    Yields (field load) fun declared => property declared.type := by
  intro value declared loaded
  unfold field at loaded
  split at loaded
  · have keeps := ((Columns.keeps_one "name" (yields_true text)).and
      (Columns.keeps_one "type" yields)).and (Columns.keeps_one "optional" (yields_true flag))
    simp only [Except.step_eq_ok_iff, Except.pure_eq_ok_iff, required_eq_ok_iff] at loaded
    obtain ⟨state, here, name, _, type, found, rfl⟩ := loaded
    exact (entries_keeps keeps keeps.none here).1.2 type found
  · simp only [Except.step_eq_ok_iff] at loaded
    obtain ⟨name, _, type, found, later⟩ := loaded
    split at later
    all_goals
      simp only [Except.step_eq_ok_iff, Except.pure_eq_ok_iff] at later
      obtain ⟨optional, _, _, _, rfl⟩ := later
      exact element_yields yields found
  · contradiction

/-- What is loaded as a type has only numbers that were read or made if this is so of the types
inside it. -/
theorem descriptorContent_yields {load : Json → Except Cause Descriptor}
    (yields : Yields load Descriptor.IsWritten) (kind : DescriptorKind) :
    Yields (descriptorContent load kind) Descriptor.IsWritten := by
  have leaf {α : Type} (load : Json → Except Cause α) {f : α → Descriptor}
      (written : ∀ a, (f a).LiteralIsWritten) (none : ∀ a, (f a).parts = []) :
      Yields (fun value => (load value).map f) Descriptor.IsWritten :=
    (yields_true load).map fun a _ => .leaf (written a) (none a)
  cases kind with
  | primitive => exact leaf _ (fun _ => trivial) fun _ => rfl
  | opaqueObject => exact leaf _ (fun _ => trivial) fun _ => rfl
  | union =>
    refine (single_yields _ _ _ (list_yields yields)).map ?_
    exact fun members each => .intro _ trivial each
  | array =>
    refine (single_yields _ _ _ yields).map ?_
    exact fun element written => .intro _ trivial (List.forall_mem_singleton.mpr written)
  | tuple =>
    refine (single_yields _ _ _ (list_yields yields)).map ?_
    exact fun elements each => .intro _ trivial each
  | literal =>
    refine (single_yields _ _ _ literalValue_yields).map ?_
    exact fun value written => .leaf written rfl
  | reference => exact leaf _ (fun _ => trivial) fun _ => rfl
  | record =>
    refine (single_yields _ _ _ (list_yields (field_yields yields))).map ?_
    exact fun fields each => .intro _ trivial (List.forall_mem_map.mpr each)
  | unsupported => exact leaf _ (fun _ => trivial) fun _ => rfl
  | unrecognized => exact leaf _ (fun _ => trivial) fun _ => rfl

theorem descriptorWithin_yields (levels : Nat) :
    Yields (descriptorWithin levels) Descriptor.IsWritten := by
  induction levels with
  | zero => exact fun _ _ loaded => nomatch loaded
  | succ levels ih =>
    intro value loaded read
    obtain ⟨⟨kind, content⟩, _, inner⟩ := Except.step_eq_ok_iff.mp read
    exact descriptorContent_yields ih kind content loaded inner

end Buffer

namespace Reader

theorem descriptor_yields : Yields Reader.descriptor Descriptor.IsWritten := by
  intro document loaded read
  obtain ⟨⟨kind, content⟩, _, inner⟩ := Except.step_eq_ok_iff.mp read
  have yields : Yields Buffer.descriptor Descriptor.IsWritten :=
    fun value => Buffer.descriptorWithin_yields (value.depth + 1) value
  exact Buffer.descriptorContent_yields yields kind content loaded
    (Except.mapError_eq_ok_iff.mp inner)

theorem declaration_yields :
    Yields Reader.declaration fun declared => declared.type.IsWritten := by
  intro document declared loaded
  unfold Reader.declaration at loaded
  split at loaded
  · have keeps := (Columns.keeps_one "name" (yields_true text)).and
      (Columns.keeps_one "type" descriptor_yields)
    simp only [Except.step_eq_ok_iff, Except.pure_eq_ok_iff, required_eq_ok_iff] at loaded
    obtain ⟨state, here, name, _, type, found, rfl⟩ := loaded
    exact (entries_keeps keeps keeps.none here).2 type found
  · simp only [Except.step_eq_ok_iff, Except.pure_eq_ok_iff] at loaded
    obtain ⟨name, _, type, found, _, _, rfl⟩ := loaded
    exact element_yields descriptor_yields found
  · contradiction

/-- The numbers in a module that is loaded are ones that were read or made. -/
theorem sourceModule_yields : Yields Reader.sourceModule SourceModule.IsWritten := by
  intro document source loaded
  have yields := list_yields declaration_yields
  unfold Reader.sourceModule at loaded
  split at loaded
  · have keeps := Columns.keeps_one "declarations" yields
    simp only [Except.step_eq_ok_iff, Except.pure_eq_ok_iff, required_eq_ok_iff] at loaded
    obtain ⟨state, here, declarations, found, rfl⟩ := loaded
    exact entries_keeps keeps keeps.none here declarations found
  · simp only [Except.step_eq_ok_iff, Except.pure_eq_ok_iff] at loaded
    obtain ⟨declarations, found, _, _, rfl⟩ := loaded
    exact element_yields yields found
  · contradiction

end Reader

/-- A module comes back from the value that it is written as. So it does if it was loaded from
whatever value. -/
theorem source_round_trip (source : SourceModule) :
    (source.IsWritten → Loader.fromValue Reader.sourceModule source.toJson = .ok source) ∧
    ∀ value, Loader.fromValue Reader.sourceModule value = .ok source →
      Loader.fromValue Reader.sourceModule source.toJson = .ok source := by
  have back (written : source.IsWritten) :
      Loader.fromValue Reader.sourceModule source.toJson = .ok source :=
    Except.mapError_eq_ok_iff.mpr (Reader.sourceModule_of_holds written (holds_ofJson _))
  refine ⟨back, ?_⟩
  intro value loaded
  exact back (Reader.sourceModule_yields _ source (Except.mapError_eq_ok_iff.mp loaded))

/-- A number and a list of the parts of a declaration are written as a text and as an object, and
what has a kind that is not known is written with a kind of its own. -/
theorem source_round_trip_normalized :
    Loader.fromValue Reader.sourceModule (.arr [.arr [
        .arr [.str "A", .obj [("value", .obj [("value", .num (.int 5)), ("type", .str "number")]),
          ("kind", .str "literal")]],
        .obj [("name", .str "B"), ("type", .obj [("kind", .str "intersection")])]]]) =
      .ok ⟨[⟨"A", .literal (.number ⟨"5"⟩)⟩, ⟨"B", .unrecognized⟩]⟩ ∧
    Loader.fromValue Reader.sourceModule
        (SourceModule.mk [⟨"A", .literal (.number ⟨"5"⟩)⟩, ⟨"B", .unrecognized⟩]).toJson =
      .ok ⟨[⟨"A", .literal (.number ⟨"5"⟩)⟩, ⟨"B", .unrecognized⟩]⟩ ∧
    Loader.fromValue Reader.sourceModule
        (SourceModule.mk [⟨"A", .array (.literal (.number ⟨"0x_F"⟩))⟩]).toJson =
      .ok ⟨[⟨"A", .array (.literal (.number ⟨"0x_F"⟩))⟩]⟩ := by
  have loaded : Loader.fromValue Reader.sourceModule (.arr [.arr [
        .arr [.str "A", .obj [("value", .obj [("value", .num (.int 5)), ("type", .str "number")]),
          ("kind", .str "literal")]],
        .obj [("name", .str "B"), ("type", .obj [("kind", .str "intersection")])]]]) =
      .ok ⟨[⟨"A", .literal (.number ⟨"5"⟩)⟩, ⟨"B", .unrecognized⟩]⟩ := rfl
  have literal : Descriptor.IsWritten (.literal (.number ⟨"0x_F"⟩)) :=
    .leaf (.inl ⟨"0x_F", rfl⟩) rfl
  refine ⟨loaded, (source_round_trip _).2 _ loaded, (source_round_trip _).1 ?_⟩
  exact List.forall_mem_singleton.mpr
    (.intro _ trivial (List.forall_mem_singleton.mpr literal))

end Loading

end DecoderForge
