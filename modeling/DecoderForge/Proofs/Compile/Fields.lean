/-
This file proves which fields of a record its decoder keeps: those that have decoders, as long as
their names are distinct. Each of the others is reported once, whatever records are inside it.
-/

import DecoderForge.Proofs.Compile.Skips

namespace DecoderForge

/-- Below a place no path is shorter. -/
theorem NodePath.length_text_le {outer inner : NodePath}
    (below : outer.segments <+: inner.segments) : outer.text.length ≤ inner.text.length := by
  obtain ⟨rest, longer⟩ := below
  have split : inner.text = outer.text ++ String.join (rest.map Segment.text) := by
    rw [text, text, ← longer, List.map_append, String.join_append]
  rw [split, String.length_append]
  omega

/-- The report says that a field of the record at a place is left out. -/
def Diagnostic.dropsFieldOf (path : NodePath) (report : Diagnostic) : Bool :=
  match report.kind with
  | .fieldDropped name _ => report.path == (path.push (.field name)).text
  | _ => false

theorem Diagnostic.isSkip_of_dropsFieldOf {path : NodePath} {report : Diagnostic}
    (drops : report.dropsFieldOf path = true) : report.isSkip = true := by
  obtain ⟨place, kind⟩ := report
  cases kind with
  | fieldDropped name reason => rfl
  | _ => contradiction

/-- Reports of what is left out are found among all of these. -/
theorem Diagnostic.filter_filter_isSkip {test : Diagnostic → Bool}
    (skips : ∀ report : Diagnostic, test report = true → report.isSkip = true)
    (reports : List Diagnostic) : (reports.filter isSkip).filter test = reports.filter test := by
  rw [List.filter_filter]
  refine List.filter_congr fun report _ => ?_
  cases passes : test report with
  | false => rfl
  | true => exact skips report passes

namespace Node

/-- What is met further inside a part is not at the place of a part of the whole, since it stands at
a longer path. -/
theorem text_path_ne {path : NodePath} {segment : Segment} {met : Node}
    (below : (path.push segment).segments <+: met.around.segments) (visible : segment.text ≠ "") :
    met.path.text ≠ (path.push met.step).text := by
  intro same
  have deeper := NodePath.length_text_le below
  have lengths := congrArg String.length same
  have some : segment.text.length ≠ 0 := by simpa using visible
  rw [Node.path] at lengths
  simp only [NodePath.text_push, String.length_append] at deeper lengths
  omega

/-- A test that a type passes where it is left out, and nothing further inside does, leaves of the
reports of a walk that of the type. -/
theorem filter_walk {test : Diagnostic → Bool} (tagField : Option String) (node : Node)
    (here : ∀ report, node.skip? = some report → test report = true)
    (below : ∀ (met : Node) report, node.path.segments <+: met.around.segments →
      met.skip? = some report → test report = false) :
    ((walk tagField node).flatMap fun met => met.skip?.toList).filter test =
      node.skip?.toList := by
  have inside : (((inner tagField node).flatMap (walk tagField)).flatMap
      fun met => met.skip?.toList).filter test = [] := by
    rw [List.filter_eq_nil_iff]
    intro report reported
    obtain ⟨met, found, skip⟩ := List.mem_flatMap.mp reported
    obtain ⟨part, first, later⟩ := List.mem_flatMap.mp found
    have deeper := prefix_around_of_mem_walk tagField later
    rw [(of_mem_inner tagField first).1] at deeper
    simp [below met report deeper (Option.mem_toList.mp skip)]
  have own : node.skip?.toList.filter test = node.skip?.toList := by
    rw [List.filter_eq_self]
    intro report reported
    exact here report (Option.mem_toList.mp reported)
  rw [walk_eq, List.flatMap_cons, List.filter_append, inside, own, List.append_nil]

theorem not_dropsFieldOf_of_skip? {path : NodePath} {name : String} {met : Node}
    {report : Diagnostic} (below : (path.push (.field name)).segments <+: met.around.segments)
    (skip : met.skip? = some report) : report.dropsFieldOf path = false := by
  obtain ⟨reason, _, swallowed⟩ := Option.bind_eq_some_iff.mp skip
  obtain ⟨kind, reported, rfl⟩ := Option.map_eq_some_iff.mp swallowed
  have different := text_path_ne below (by simp [Segment.text])
  cases step : met.step with
  | field other =>
    rw [step] at reported different
    obtain rfl := Option.some_inj.mp reported
    simpa [Diagnostic.dropsFieldOf] using different
  | arrayElement => simp [step, Segment.skip?] at reported
  | _ =>
    rw [step] at reported
    obtain rfl := Option.some_inj.mp reported
    rfl

/-- Of a field nothing but the field itself is reported as left out of the record. -/
theorem filter_dropsFieldOf_walk (tagField : Option String) (path : NodePath) (name : String)
    (type : Descriptor) :
    ((walk tagField ⟨path, .field name, type⟩).flatMap fun met => met.skip?.toList).filter
        (Diagnostic.dropsFieldOf path) =
      (skip? ⟨path, .field name, type⟩).toList := by
  apply filter_walk
  · intro report skip
    obtain ⟨reason, _, swallowed⟩ := Option.bind_eq_some_iff.mp skip
    obtain rfl := Option.some_inj.mp swallowed
    exact beq_self_eq_true _
  · intro met report below skip
    exact not_dropsFieldOf_of_skip? below skip

end Node

namespace Descriptor

/-- No two fields whose types have decoders have the same name. -/
def KeptNamesDistinct (tagField : Option String) (fields : List Field) : Prop :=
  ((fields.filter fun field => (field.type.decoder? tagField).isSome).map FieldOf.name).Nodup

/-- The fields whose types have decoders have entries of their names. -/
theorem keys_entries (tagField : Option String) (fields : List Field) :
    (fields.filterMap (entryOf tagField)).map Prod.fst =
      (fields.filter fun field => (field.type.decoder? tagField).isSome).map FieldOf.name := by
  induction fields with
  | nil => rfl
  | cons field rest ih =>
    cases compiled : field.type.decoder? tagField with
    | none =>
      have entry : entryOf tagField field = none := by rw [entryOf, compiled]; rfl
      rw [List.filterMap_cons_none entry, List.filter_cons_of_neg (by simp [compiled]), ih]
    | some decoder =>
      have entry : entryOf tagField field = some (field.name,
          if field.optional then .call .optional [decoder] else decoder) := by
        rw [entryOf, compiled]
        rfl
      rw [List.filterMap_cons_some entry, List.filter_cons_of_pos (by simp [compiled]),
        List.map_cons, List.map_cons, ih]

theorem keptNamesDistinct_of_namesDistinct (tagField : Option String) {fields : List Field}
    (distinct : NamesDistinct (.record fields)) : KeptNamesDistinct tagField fields := by
  rw [KeptNamesDistinct, ← keys_entries]
  exact nodup_keys_entries distinct tagField

end Descriptor

/-- A record reports its own fields without decoders, in their order. -/
theorem Compile.filter_dropsFieldOf_record (scope : Scope) (path : NodePath)
    (fields : List Field) :
    (record path (fieldTypes scope path fields)).2.diagnostics.filter
        (Diagnostic.dropsFieldOf path) =
      fields.filterMap fun field => Node.skip? ⟨path, .field field.name, field.type⟩ := by
  have skips : (record path (fieldTypes scope path fields)).2.diagnostics.filter
      Diagnostic.isSkip = _ := Trace.Reading.skips.read_record scope path fields
  rw [← Diagnostic.filter_filter_isSkip fun _ => Diagnostic.isSkip_of_dropsFieldOf, skips,
    List.flatMap_map, List.filter_flatMap, List.filterMap_eq_flatMap_toList]
  refine List.flatMap_congr fun field _ => ?_
  rw [Trace.Reading.read_left]
  simp only [Node.read_skips_own]
  exact Node.filter_dropsFieldOf_walk scope.tagField path field.name field.type

/-- What is made of some elements and what is made of the others are as many as all of them. -/
theorem length_filterMap_add {α β γ : Type} {f : α → Option β} {g : α → Option γ}
    (others : ∀ a, (f a).isSome = (g a).isNone) (elements : List α) :
    (elements.filterMap f).length + (elements.filterMap g).length = elements.length := by
  have same (a : α) : (g a).isSome = decide (¬ (f a).isSome = true) := by
    rw [others]
    cases g a <;> rfl
  rw [List.length_filterMap_eq_countP, List.length_filterMap_eq_countP]
  simp only [same]
  exact (List.length_eq_countP_add_countP _).symm

/-- There are as many entries as fields that are not reported, before those with one name are put
together. -/
theorem Descriptor.length_entries_add_drops (tagField : Option String) (path : NodePath)
    (fields : List Field) :
    (fields.filterMap (entryOf tagField)).length +
      (fields.filterMap fun field => Node.skip? ⟨path, .field field.name, field.type⟩).length =
        fields.length := by
  apply length_filterMap_add
  intro field
  rw [entryOf, Option.isSome_map, decoder?_isSome, Node.skip?]
  cases field.type.lost? <;> rfl

namespace Compiler

/-- A record reports each of its fields without a decoder. The others have entries of their own, and
none of them is lost, exactly when no two of them have the same name. -/
theorem compile_record_fields (compiler : Compiler) (fields : List Field) :
    ∃ entries reports,
      (compiler.compile (.record fields)).2 = .ok (.call .object [.object entries]) ∧
      (compiler.compile (.record fields)).1.trace.diagnostics =
        compiler.trace.diagnostics ++ reports ∧
      reports.filter (Diagnostic.dropsFieldOf compiler.path) =
        (fields.filterMap fun field =>
          Node.skip? ⟨compiler.path, .field field.name, field.type⟩) ∧
      (entries.length + reports.countP (Diagnostic.dropsFieldOf compiler.path) = fields.length ↔
        Descriptor.KeptNamesDistinct compiler.config.tagField fields) ∧
      (entries = fields.filterMap (Descriptor.entryOf compiler.config.tagField) ↔
        Descriptor.KeptNamesDistinct compiler.config.tagField fields) ∧
      (entries.length = fields.length ↔
        (∀ field ∈ fields, (field.type.decoder? compiler.config.tagField).isSome = true) ∧
          Descriptor.KeptNamesDistinct compiler.config.tagField fields) := by
  have compiled : (compiler.compile (.record fields)).2 =
      .ok (.call .object [.object (Entries.ofList
        (fields.filterMap (Descriptor.entryOf compiler.config.tagField)))]) := by
    rw [compile_eq_ok_iff, Descriptor.decoder?_eq_assembled?]
    rfl
  have drops := Compile.filter_dropsFieldOf_record compiler.scope compiler.path fields
  have all := Descriptor.length_entries_add_drops compiler.config.tagField compiler.path fields
  have distinct := Entries.length_ofList_eq_iff
    (fields.filterMap (Descriptor.entryOf compiler.config.tagField))
  rw [Descriptor.keys_entries] at distinct
  have fewer := Entries.length_ofList_le
    (fields.filterMap (Descriptor.entryOf compiler.config.tagField))
  refine ⟨_, (Compile.record compiler.path
    (Compile.fieldTypes compiler.scope compiler.path fields)).2.diagnostics, compiled, rfl, drops,
    ?_, ?_, ?_⟩
  · rw [List.countP_eq_length_filter, drops, Descriptor.KeptNamesDistinct, ← distinct]
    omega
  · rw [Descriptor.KeptNamesDistinct, ← distinct]
    constructor
    · exact congrArg List.length
    · intro same
      exact Entries.ofList_eq_self _ ((Entries.length_ofList_eq_iff _).mp same)
  · have every : (∀ field ∈ fields,
        (field.type.decoder? compiler.config.tagField).isSome = true) ↔
        (fields.filterMap (Descriptor.entryOf compiler.config.tagField)).length =
          fields.length := by
      rw [List.length_filterMap_eq_countP, List.countP_eq_length]
      simp only [Descriptor.entryOf, Option.isSome_map]
    rw [every, Descriptor.KeptNamesDistinct, ← distinct]
    omega

/-- A field that has no decoder is reported in place of an entry. -/
theorem compile_record_fields_dropped :
    ∃ entries, ∃ reports : List Diagnostic,
      ((unchecked ⟨none, false⟩).compile (.record [⟨"a", .primitive .string, true⟩,
        ⟨"b", .array .unrecognized, false⟩])).2 = .ok (.call .object [.object entries]) ∧
      ((unchecked ⟨none, false⟩).compile (.record [⟨"a", .primitive .string, true⟩,
        ⟨"b", .array .unrecognized, false⟩])).1.trace.diagnostics = reports ∧
      reports.filter (Diagnostic.dropsFieldOf .root) =
        [⟨".b", .fieldDropped "b" .unrecognizedDescriptor⟩] ∧
      entries.length + reports.countP (Diagnostic.dropsFieldOf .root) = 2 := by
  have distinct : ["a", "b"].Nodup := by decide
  have kept : Descriptor.KeptNamesDistinct none [⟨"a", .primitive .string, true⟩,
      ⟨"b", .array .unrecognized, false⟩] :=
    Descriptor.keptNamesDistinct_of_namesDistinct none distinct
  obtain ⟨entries, reports, compiled, reported, drops, all, _⟩ :=
    (unchecked ⟨none, false⟩).compile_record_fields
      [⟨"a", .primitive .string, true⟩, ⟨"b", .array .unrecognized, false⟩]
  exact ⟨entries, reports, compiled, reported, drops, all.mpr kept⟩

/-- Of two fields with one name the first is lost without a report, although both have decoders. -/
theorem compile_record_replaces_field :
    ∃ entries, ∃ reports : List Diagnostic,
      ((unchecked ⟨none, false⟩).compile (.record [⟨"a", .primitive .number, false⟩,
        ⟨"a", .primitive .string, false⟩])).2 = .ok (.call .object [.object entries]) ∧
      ((unchecked ⟨none, false⟩).compile (.record [⟨"a", .primitive .number, false⟩,
        ⟨"a", .primitive .string, false⟩])).1.trace.diagnostics = reports ∧
      entries.length + reports.countP (Diagnostic.dropsFieldOf .root) ≠ 2 ∧
      ((unchecked ⟨none, false⟩).compile (.primitive .number)).2.isOk = true ∧
      ((unchecked ⟨none, false⟩).compile (.primitive .string)).2.isOk = true := by
  exact ⟨[("a", .call .string [])], [], rfl, rfl, by decide, rfl, rfl⟩

end Compiler

end DecoderForge
