/-
This file proves how a union is compiled from its members: by their tags, where all of them have
one, and otherwise one member after the other.
-/

import DecoderForge.Proofs.Compile.Effect
import DecoderForge.Proofs.Compile.Fields
import DecoderForge.Proofs.Compile.Places

namespace DecoderForge

/-- The member is a record, and the first of its fields of that name is a string. -/
def Descriptor.HasTag (field tag : String) (member : Descriptor) : Prop :=
  ∃ fields first, member = .record fields ∧
    fields.find? (fun part => part.name = field) = some first ∧
    first.type = .literal (.string tag)

/-- There is a tag field, and all members have tags in it. -/
def Descriptor.AllTagged (tagField : Option String) (members : List Descriptor) : Prop :=
  ∃ field, tagField = some field ∧ ∀ member ∈ members, ∃ tag, member.HasTag field tag

/-- The tags that members have, one after the other. -/
theorem Descriptor.forall₂_hasTag {field : String} {members : List Descriptor} {tags : List String}
    (tagged : members.map (tag? field) = tags.map some) :
    List.Forall₂ (HasTag field) tags members := by
  have each : List.Forall₂ Eq (tags.map some) (members.map (tag? field)) := by
    rw [tagged]
    exact List.forall₂_refl _
  rw [List.forall₂_map_left_iff, List.forall₂_map_right_iff] at each
  exact each.imp fun tag member same => (tag?_eq_some_iff field tag member).mp same.symm

theorem Descriptor.exists_tags {field : String} {members : List Descriptor}
    (each : ∀ member ∈ members, ∃ tag, member.HasTag field tag) :
    ∃ tags : List String, members.map (tag? field) = tags.map some := by
  induction members with
  | nil => exact ⟨[], rfl⟩
  | cons member rest ih =>
    obtain ⟨first, others⟩ := List.forall_mem_cons.mp each
    obtain ⟨tag, isTagged⟩ := first
    obtain ⟨tags, tagged⟩ := ih others
    refine ⟨tag :: tags, ?_⟩
    rw [List.map_cons, List.map_cons, tagged, (tag?_eq_some_iff field tag member).mpr isTagged]

/-- All members have tags exactly when a union is told apart by them. -/
theorem Descriptor.allTagged_iff (tagField : Option String) (members : List Descriptor) :
    AllTagged tagField members ↔
      ∃ field tags, UnionShape.classify members tagField = .tagged field tags := by
  simp only [UnionShape.classify_eq_tagged_iff]
  constructor
  · rintro ⟨field, chosen, each⟩
    obtain ⟨tags, tagged⟩ := exists_tags each
    exact ⟨field, tags, chosen, tagged⟩
  · rintro ⟨field, tags, chosen, tagged⟩
    refine ⟨field, chosen, ?_⟩
    intro member inside
    obtain ⟨index, found⟩ := List.getElem?_of_mem inside
    obtain ⟨tag, _, isTagged⟩ := UnionShape.tag_of_mem tagged found
    exact ⟨tag, (tag?_eq_some_iff field tag member).mp isTagged⟩

/-- What is said of a tag that an earlier member has. -/
def Diagnostic.repeatedTags (path : NodePath) (tags : List String) : List Diagnostic :=
  tags.zipIdx.filterMap fun (tag, index) =>
    if tag ∈ tags.take index then
      some ⟨path.text ++ ("|" ++ toString index), .duplicateTag tag⟩
    else none

/-- What is said of a member that has no decoder. -/
def Diagnostic.droppedMember? (path : NodePath) :
    Except SkipReason DecoderExpr × Nat → Option Diagnostic
  | (.ok _, _) => none
  | (.error reason, index) =>
    some ⟨path.text ++ ("|" ++ toString index), .unionMemberDropped index reason⟩

/-- The report says that a member of the union at a place is left out. -/
def Diagnostic.dropsMemberOf (path : NodePath) (report : Diagnostic) : Bool :=
  match report.kind with
  | .unionMemberDropped index _ => report.path == (path.push (.unionMember index)).text
  | _ => false

namespace Compiler

/-- Compiles members of a union at their places, one after the other. -/
def compileMembers (compiler : Compiler) :
    List (Descriptor × Nat) → Compiler × List (Except SkipReason DecoderExpr)
  | [] => (compiler, [])
  | (member, index) :: rest =>
    let entered : Compiler := { compiler with path := compiler.path.push (.unionMember index) }
    let (behind, result) := entered.compileInPlace member
    let (last, results) := { behind with path := compiler.path }.compileMembers rest
    (last, result :: results)

/-- What comes of a member at its place. -/
def member (compiler : Compiler) (place : Descriptor × Nat) : Compiled :=
  Compile.type compiler.scope (compiler.path.push (.unionMember place.2)) place.1

/-- Members leave behind what each of them leaves behind at its place. -/
theorem compileMembers_eq (compiler : Compiler) (places : List (Descriptor × Nat)) :
    compiler.compileMembers places =
      (compiler.add (.join (places.map fun place => (compiler.member place).left)),
        places.map fun place => (compiler.member place).result) := by
  induction places generalizing compiler with
  | nil => simp [compileMembers, Trace.join]
  | cons place rest ih =>
    obtain ⟨first, index⟩ := place
    simp only [compileMembers, compileInPlace_eq, compile_eq, ih, List.map_cons, Trace.join,
      add_append]
    rfl

/-- The members of a union, each at its place. -/
theorem map_member_zipIdx (compiler : Compiler) (members : List Descriptor) :
    members.zipIdx.map compiler.member =
      Compile.types compiler.scope compiler.path .unionMember 0 members := by
  rw [Compile.types_eq_mapIdx, List.mapIdx_eq_zipIdx_map]
  simp only [Nat.zero_add]
  rfl

end Compiler

/-- The member at a place is the last that has a tag. -/
structure Compile.StandsFor (members : List Descriptor) (tags : List String) (tag : String)
    (place : Descriptor × Nat) : Prop where
  found : members[place.2]? = some place.1
  tagged : tags[place.2]? = some tag
  last : tag ∉ tags.drop (place.2 + 1)

namespace Compile

/-- The members that stand for their tags, at their places. -/
def places (members : List Descriptor) (tags : List String) : List (Descriptor × Nat) :=
  (winners tags).filterMap fun winner => members[winner.2]?.map fun member => (member, winner.2)

/-- Each tag is chosen once, in the order in which the tags come first. -/
theorem keys_winners (tags : List String) : (winners tags).map Prod.fst = tags.eraseDups := by
  rw [winners, Entries.keys_ofList, List.zipIdx_map_fst]

section

variable {members : List Descriptor} {field : String} {tags : List String}
  (tagged : members.map (Descriptor.tag? field) = tags.map some)

include tagged

/-- A record stands for each tag. -/
theorem exists_record_of_mem_winners {winner : String × Nat} (chosen : winner ∈ winners tags) :
    ∃ fields, members[winner.2]? = some (.record fields) ∧
      StandsFor members tags winner.1 (.record fields, winner.2) := by
  obtain ⟨tag, index⟩ := winner
  obtain ⟨present, last⟩ := (mem_winners_iff tags tag index).mp chosen
  have length : members.length = tags.length := by simpa using congrArg List.length tagged
  obtain ⟨inside, _⟩ := List.getElem?_eq_some_iff.mp present
  have found : members[index]? = some members[index] := List.getElem?_eq_getElem (length ▸ inside)
  obtain ⟨_, _, isTagged⟩ := UnionShape.tag_of_mem tagged found
  obtain ⟨fields, _, record, _, _⟩ := (Descriptor.tag?_eq_some_iff _ _ _).mp isTagged
  rw [record] at found
  exact ⟨fields, found, found, present, last⟩

theorem forall₂_places :
    List.Forall₂ (StandsFor members tags) tags.eraseDups (places members tags) := by
  have each : List.Forall₂ (fun first second => first = second ∧ first ∈ winners tags)
      (winners tags) (winners tags) := List.forall₂_same.mpr fun winner chosen => ⟨rfl, chosen⟩
  rw [← keys_winners, List.forall₂_map_left_iff, ← List.filterMap_some (l := winners tags), places]
  apply List.rel_filterMap _ each
  rintro winner _ ⟨rfl, chosen⟩
  obtain ⟨fields, found, stands⟩ := exists_record_of_mem_winners tagged chosen
  dsimp only
  rw [found]
  exact .some stands

/-- The tags have entries in the order of their first members. -/
theorem keys_chosenEntries (scope : Scope) (path : NodePath) :
    (((winners tags).filterMap (Compile.chosenEntry? (types scope path .unionMember 0 members))).map
      Prod.fst).map Prod.fst = tags.eraseDups := by
  rw [← keys_winners, List.map_filterMap, List.map_filterMap, ← List.filterMap_eq_map]
  apply List.filterMap_congr
  intro winner chosen
  obtain ⟨fields, found, _⟩ := exists_record_of_mem_winners tagged chosen
  rw [Compile.chosenEntry?, getElem?_types scope path .unionMember found]
  rfl

/-- What is made of the members that stand for their tags is made of them at their places. -/
theorem map_places {α : Type} (compiler : Compiler) (of : Compiled → α) :
    (places members tags).map (fun place => of (compiler.member place)) =
      ((winners tags).filterMap (Compile.chosenEntry?
        (types compiler.scope compiler.path .unionMember 0 members))).map
          fun entry => of (.ok (entry.1.2, entry.2)) := by
  rw [places, List.map_filterMap, List.map_filterMap]
  apply List.filterMap_congr
  intro winner chosen
  obtain ⟨fields, found, _⟩ := exists_record_of_mem_winners tagged chosen
  rw [Compile.chosenEntry?, getElem?_types compiler.scope compiler.path .unionMember found, found]
  rfl

end

/-- Tags that come again are all that is reported besides what is compiled. -/
theorem join_duplicateTags (path : NodePath) (tags : List String) :
    Trace.join (duplicateTags path tags) = ⟨.empty, Diagnostic.repeatedTags path tags, []⟩ := by
  have each : duplicateTags path tags =
      (Diagnostic.repeatedTags path tags).map fun report => ⟨.empty, [report], []⟩ := by
    rw [duplicateTags, Diagnostic.repeatedTags, List.map_filterMap]
    apply List.filterMap_congr
    intro place _
    dsimp only
    split
    · rw [Option.map_some, Trace.report, NodePath.text_push]
      rfl
    · rfl
  rw [each]
  induction Diagnostic.repeatedTags path tags with
  | nil => rfl
  | cons report rest ih =>
    rw [List.map_cons, Trace.join, ih]
    rfl

/-- One more tag is reported if it comes again. -/
theorem repeatedTags_concat (path : NodePath) (tags : List String) (tag : String) :
    Diagnostic.repeatedTags path (tags ++ [tag]) = Diagnostic.repeatedTags path tags ++
      if tag ∈ tags then
        [⟨path.text ++ ("|" ++ toString tags.length), .duplicateTag tag⟩]
      else [] := by
  rw [Diagnostic.repeatedTags, List.zipIdx_append, List.filterMap_append]
  congr 1
  · apply List.filterMap_congr
    rintro ⟨other, index⟩ inside
    have bound : index < 0 + tags.length := List.snd_lt_add_of_mem_zipIdx inside
    dsimp only
    rw [List.take_append_of_le_length (by omega)]
  · by_cases known : tag ∈ tags <;> simp [known]

/-- Each member has the first entry of its tag or is reported. -/
theorem length_eraseDups_add (path : NodePath) (tags : List String) :
    tags.eraseDups.length + (Diagnostic.repeatedTags path tags).length = tags.length := by
  induction tags using List.reverseRecOn with
  | nil => rfl
  | append_singleton tags tag ih =>
    rw [repeatedTags_concat, List.eraseDups_append, List.length_append, List.length_append,
      List.length_append, ← ih]
    by_cases known : tag ∈ tags
    · simp [List.removeAll, known]
      omega
    · have alone : [tag].eraseDups.length = 1 := rfl
      simp only [List.removeAll, known, List.filter_cons, List.filter_nil, List.elem_eq_mem,
        decide_false, Bool.not_false, if_true, if_false, alone, List.length_nil,
        List.length_singleton]
      omega

end Compile

namespace Diagnostic

variable {path : NodePath}

theorem isSkip_of_dropsMemberOf {report : Diagnostic}
    (drops : report.dropsMemberOf path = true) : report.isSkip = true := by
  obtain ⟨place, kind⟩ := report
  cases kind with
  | unionMemberDropped index reason => rfl
  | _ => contradiction

/-- Where a member is left out a union inside it may leave out others, at longer paths. -/
theorem not_dropsMemberOf_of_skip? {index : Nat} {met : Node} {report : Diagnostic}
    (below : (path.push (.unionMember index)).segments <+: met.around.segments)
    (skip : met.skip? = some report) : report.dropsMemberOf path = false := by
  obtain ⟨reason, _, swallowed⟩ := Option.bind_eq_some_iff.mp skip
  obtain ⟨kind, reported, rfl⟩ := Option.map_eq_some_iff.mp swallowed
  have different := Node.text_path_ne below (by simp [Segment.text])
  cases step : met.step with
  | unionMember other =>
    rw [step] at reported different
    obtain rfl := Option.some_inj.mp reported
    simpa [dropsMemberOf] using different
  | arrayElement => simp [step, Segment.skip?] at reported
  | _ =>
    rw [step] at reported
    obtain rfl := Option.some_inj.mp reported
    rfl

/-- Of a member nothing but the member itself is reported as left out of the union. -/
theorem filter_dropsMemberOf_walk (tagField : Option String) (index : Nat) (type : Descriptor) :
    ((Node.walk tagField ⟨path, .unionMember index, type⟩).flatMap
        fun met => met.skip?.toList).filter (dropsMemberOf path) =
      (Node.skip? ⟨path, .unionMember index, type⟩).toList := by
  apply Node.filter_walk
  · intro report skip
    obtain ⟨reason, _, swallowed⟩ := Option.bind_eq_some_iff.mp skip
    obtain rfl := Option.some_inj.mp swallowed
    exact beq_self_eq_true _
  · intro met report below skip
    exact not_dropsMemberOf_of_skip? below skip

/-- A member is reported when nothing comes of it at its place. -/
theorem droppedMember?_result (scope : Scope) (index : Nat) (type : Descriptor) :
    droppedMember? path ((Compile.type scope (path.push (.unionMember index)) type).result, index) =
      Node.skip? ⟨path, .unionMember index, type⟩ := by
  rcases compiled : Compile.type scope (path.push (.unionMember index)) type with
    reason | ⟨decoder, trace⟩
  · have lost := (Compile.type_eq_error_iff _ _ _ _).mp compiled
    rw [Node.skip?, lost, Option.bind_some, Segment.skip?, Option.map_some, Node.path,
      NodePath.text_push]
    rfl
  · rw [Node.skip?, Compile.lost?_of_ok compiled]
    rfl

end Diagnostic

namespace Compile

/-- A union reports its own members without decoders, in their order. -/
theorem filter_dropsMemberOf_either (scope : Scope) (path : NodePath)
    (members : List Descriptor) :
    (either path (types scope path .unionMember 0 members)).2.diagnostics.filter
        (Diagnostic.dropsMemberOf path) =
      members.zipIdx.filterMap fun place => Node.skip? ⟨path, .unionMember place.2, place.1⟩ := by
  have skips : (either path (types scope path .unionMember 0 members)).2.diagnostics.filter
      Diagnostic.isSkip = _ := Trace.Reading.skips.read_either scope path members
  rw [← Diagnostic.filter_filter_isSkip fun _ => Diagnostic.isSkip_of_dropsMemberOf, skips,
    List.mapIdx_eq_zipIdx_map, List.flatMap_map, List.filter_flatMap,
    List.filterMap_eq_flatMap_toList]
  apply List.flatMap_congr
  intro place _
  rw [Trace.Reading.read_left]
  simp only [Node.read_skips_own]
  exact Diagnostic.filter_dropsMemberOf_walk scope.tagField place.2 place.1

/-- What is made of elements at their places is at the places of the elements. -/
theorem zipIdx_map_zipIdx {α β : Type} (make : α × Nat → β) (elements : List α) :
    (elements.zipIdx.map make).zipIdx = elements.zipIdx.map fun place => (make place, place.2) := by
  apply List.ext_getElem
  · simp
  · intro index _ _
    simp

/-- That no member has a decoder is reported behind the members, where there are any. -/
theorem either_diagnostics (path : NodePath) (members : List Compiled) :
    (either path members).2.diagnostics =
      (Trace.join ((members.mapIdx (member path)).map Prod.snd)).diagnostics ++
        if members ≠ [] ∧ members.filterMap Compiled.decoder? = [] then
          [⟨path.text, .emptyUnion⟩]
        else [] := by
  simp only [either, members_fst]
  by_cases none : members ≠ [] ∧ members.filterMap Compiled.decoder? = []
  · have empty : ((members.filterMap Compiled.decoder?).isEmpty && !members.isEmpty) = true := by
      simp [none.1, none.2]
    rw [if_pos none, if_pos empty]
    exact List.append_nil _
  · have some : ¬ ((members.filterMap Compiled.decoder?).isEmpty && !members.isEmpty) = true := by
      simpa [and_comm] using none
    rw [if_neg none, if_neg some]
    rfl

/-- Nothing of a member is reported at the place of the union. -/
theorem count_emptyUnion_members (scope : Scope) (path : NodePath) (members : List Descriptor) :
    (Trace.join (((types scope path .unionMember 0 members).mapIdx (member path)).map
      Prod.snd)).diagnostics.count ⟨path.text, .emptyUnion⟩ = 0 := by
  rw [List.count_eq_zero, types_eq_mapIdx, List.mapIdx_mapIdx, Trace.join_diagnostics]
  intro reported
  obtain ⟨trace, inside, reported⟩ := List.mem_flatMap.mp reported
  obtain ⟨made, taken, rfl⟩ := List.mem_map.mp inside
  obtain ⟨index, bound, rfl⟩ := List.mem_mapIdx.mp taken
  rw [Function.comp_apply, Nat.zero_add] at reported
  have within := member_within (type_within scope (path.push (.unionMember index)) members[index])
  exact within.path_ne (by simp [Segment.text]) _ reported rfl

end Compile

namespace Compiler

variable (compiler : Compiler) (members : List Descriptor)

/-- What comes of a union that is compiled by the tags of its members: an entry for each tag. -/
structure CompilesTagged (field : String) (tags : List String)
    (entries : List (String × DecoderExpr)) (places : List (Descriptor × Nat))
    (reports : List Diagnostic) : Prop where
  tagField : compiler.config.tagField = some field
  tagged : List.Forall₂ (Descriptor.HasTag field) tags members
  result : (compiler.compileInPlace (.union members)).2 =
    .ok (.call .taggedUnion [.constant (.string field), .object entries])
  keys : entries.map Prod.fst = tags.eraseDups
  last : List.Forall₂ (Compile.StandsFor members tags) tags.eraseDups places
  decoders : (compiler.compileMembers places).2 = entries.map fun entry => .ok entry.2
  left : (compiler.compileMembers places).1.trace.diagnostics =
    compiler.trace.diagnostics ++ reports
  diagnostics : (compiler.compileInPlace (.union members)).1.trace.diagnostics =
    compiler.trace.diagnostics ++ (Diagnostic.repeatedTags compiler.path tags ++ reports)
  references : (compiler.compileInPlace (.union members)).1.trace.references =
    (compiler.compileMembers places).1.trace.references
  usage : (compiler.compileInPlace (.union members)).1.trace.usage =
    (compiler.compileMembers places).1.trace.usage.record .taggedUnion
  count : members.length =
    entries.length + (Diagnostic.repeatedTags compiler.path tags).length

/-- What comes of a union that is compiled one member after the other. -/
structure CompilesPlain (args : List DecoderExpr) (reports : List Diagnostic) : Prop where
  result : (compiler.compileInPlace (.union members)).2 = .ok (.call .either args)
  decoders : args = (compiler.compileMembers members.zipIdx).2.filterMap Except.toOption
  diagnostics : (compiler.compileInPlace (.union members)).1.trace.diagnostics =
    compiler.trace.diagnostics ++ reports
  drops : reports.filter (Diagnostic.dropsMemberOf compiler.path) =
    (compiler.compileMembers members.zipIdx).2.zipIdx.filterMap
      (Diagnostic.droppedMember? compiler.path)
  count : members.length =
    args.length + reports.countP (Diagnostic.dropsMemberOf compiler.path)
  emptyUnion : reports.count ⟨compiler.path.text, .emptyUnion⟩ =
    if members ≠ [] ∧ args = [] then 1 else 0

theorem compileInPlace_union_eq :
    compiler.compileInPlace (.union members) =
      (compiler.add (Compile.union compiler.scope compiler.path members
          (Compile.types compiler.scope compiler.path .unionMember 0 members)).2,
        .ok (Compile.union compiler.scope compiler.path members
          (Compile.types compiler.scope compiler.path .unionMember 0 members)).1) := by
  rw [compileInPlace_eq, compile_eq]
  rfl

variable {members}

theorem compilesTagged_of_classify {field : String} {tags : List String}
    (shape : UnionShape.classify members compiler.scope.tagField = .tagged field tags) :
    ∃ entries places reports,
      compiler.CompilesTagged members field tags entries places reports := by
  obtain ⟨chosen, tagged⟩ := (UnionShape.classify_eq_tagged_iff _ _ _ _).mp shape
  let made := (Compile.winners tags).filterMap (Compile.chosenEntry?
    (Compile.types compiler.scope compiler.path .unionMember 0 members))
  have keys : (made.map Prod.fst).map Prod.fst = tags.eraseDups :=
    Compile.keys_chosenEntries tagged compiler.scope compiler.path
  have compiled : compiler.compileInPlace (.union members) =
      (compiler.add (Trace.join (Compile.duplicateTags compiler.path tags) ++
          Trace.join (made.map Prod.snd) ++ .ofBuiltin .taggedUnion),
        .ok (.call .taggedUnion [.constant (.string field), .object (made.map Prod.fst)])) := by
    rw [compileInPlace_union_eq, Compile.union, shape]
    rfl
  rw [Compile.join_duplicateTags] at compiled
  have results : (compiler.compileMembers (Compile.places members tags)).2 =
      made.map fun entry => .ok entry.1.2 := by
    rw [compileMembers_eq]
    exact Compile.map_places tagged compiler Compiled.result
  have left : (compiler.compileMembers (Compile.places members tags)).1 =
      compiler.add (.join (made.map Prod.snd)) := by
    rw [compileMembers_eq, Compile.map_places tagged compiler Compiled.left]
    rfl
  refine ⟨made.map Prod.fst, Compile.places members tags,
    (Trace.join (made.map Prod.snd)).diagnostics, ?_⟩
  exact {
    tagField := chosen
    tagged := Descriptor.forall₂_hasTag tagged
    result := by rw [compiled]
    keys := keys
    last := Compile.forall₂_places tagged
    decoders := by rw [results, List.map_map]; rfl
    left := by rw [left]; rfl
    diagnostics := by
      rw [compiled]
      simp [add, Trace.ofBuiltin]
    references := by
      rw [compiled, left]
      simp [add, Trace.ofBuiltin]
    usage := by
      rw [compiled, left]
      apply Usage.ext
      simp [add, or_comm, or_left_comm]
    count := by
      have all := Compile.length_eraseDups_add compiler.path tags
      have length : members.length = tags.length := by simpa using congrArg List.length tagged
      rw [← keys, List.length_map] at all
      omega }

theorem compilesPlain_of_classify
    (shape : UnionShape.classify members compiler.scope.tagField = .plain) :
    ∃ args reports, compiler.CompilesPlain members args reports := by
  obtain ⟨decoders, all⟩ : ∃ decoders, decoders = members.zipIdx.map compiler.member := ⟨_, rfl⟩
  have compiled : compiler.compileInPlace (.union members) =
      (compiler.add (Compile.either compiler.path decoders).2,
        .ok (.call .either (decoders.filterMap Compiled.decoder?))) := by
    rw [compileInPlace_union_eq, Compile.union, shape, ← map_member_zipIdx, ← all,
      ← Compile.either_fst compiler.path]
  have results : (compiler.compileMembers members.zipIdx).2 = decoders.map Compiled.result := by
    rw [compileMembers_eq, all, List.map_map]
    rfl
  have drops := Compile.filter_dropsMemberOf_either compiler.scope compiler.path members
  rw [← map_member_zipIdx, ← all] at drops
  have empty : decoders = [] ↔ members = [] := by simp [all]
  refine ⟨decoders.filterMap Compiled.decoder?,
    (Compile.either compiler.path decoders).2.diagnostics, ?_⟩
  exact {
    result := by rw [compiled]
    decoders := by
      rw [results, List.filterMap_map]
      apply List.filterMap_congr
      intro compiled _
      rcases compiled with reason | ⟨decoder, trace⟩ <;> rfl
    diagnostics := by rw [compiled]; rfl
    drops := by
      rw [drops, results, all, List.map_map, Compile.zipIdx_map_zipIdx, List.filterMap_map]
      apply List.filterMap_congr
      intro place _
      exact (Diagnostic.droppedMember?_result compiler.scope place.2 place.1).symm
    count := by
      rw [List.countP_eq_length_filter, drops, all, List.filterMap_map,
        length_filterMap_add, List.length_zipIdx]
      intro place
      rw [Function.comp_apply, member, Compile.type_decoder, Descriptor.decoder?_isSome, Node.skip?]
      cases place.1.lost? <;> rfl
    emptyUnion := by
      rw [Compile.either_diagnostics, List.count_append, all, map_member_zipIdx,
        Compile.count_emptyUnion_members, ← map_member_zipIdx, ← all]
      simp only [ne_eq, empty]
      split <;> simp }

/-- A union is compiled by the tags of its members when there is a tag field and all of them have
tags, and else one member after the other. -/
theorem compileInPlace_union (compiler : Compiler) (members : List Descriptor) :
    (Descriptor.AllTagged compiler.config.tagField members ↔
      ∃ args, (compiler.compileInPlace (.union members)).2 = .ok (.call .taggedUnion args)) ∧
    (¬ Descriptor.AllTagged compiler.config.tagField members ↔
      ∃ args, (compiler.compileInPlace (.union members)).2 = .ok (.call .either args)) ∧
    (Descriptor.AllTagged compiler.config.tagField members →
      ∃ field tags entries places reports,
        compiler.CompilesTagged members field tags entries places reports) ∧
    (¬ Descriptor.AllTagged compiler.config.tagField members →
      ∃ args reports, compiler.CompilesPlain members args reports) := by
  have shapes := Descriptor.allTagged_iff compiler.config.tagField members
  cases shape : UnionShape.classify members compiler.scope.tagField with
  | tagged field tags =>
    have all := shapes.mpr ⟨field, tags, shape⟩
    obtain ⟨entries, places, reports, compiled⟩ := compiler.compilesTagged_of_classify shape
    have other : ¬ ∃ args,
        (compiler.compileInPlace (.union members)).2 = .ok (.call .either args) := by
      rintro ⟨args, plain⟩
      exact nomatch compiled.result.symm.trans plain
    exact ⟨iff_of_true all ⟨_, compiled.result⟩, iff_of_false (not_not_intro all) other,
      fun _ => ⟨_, _, _, _, _, compiled⟩, fun none => absurd all none⟩
  | plain =>
    have some : ¬ Descriptor.AllTagged compiler.config.tagField members := by
      rw [shapes]
      rintro ⟨field, tags, tagged⟩
      exact nomatch tagged.symm.trans shape
    obtain ⟨args, reports, compiled⟩ := compiler.compilesPlain_of_classify shape
    have other : ¬ ∃ args,
        (compiler.compileInPlace (.union members)).2 = .ok (.call .taggedUnion args) := by
      rintro ⟨args, tagged⟩
      exact nomatch compiled.result.symm.trans tagged
    exact ⟨iff_of_false some other, iff_of_true some ⟨_, compiled.result⟩,
      fun all => absurd all some, fun _ => ⟨_, _, compiled⟩⟩

/-- A member whose tag comes again is passed over in silence, except that the tag is reported; and
where a member has no tag, those without decoders are left out. -/
theorem compileInPlace_union_repeated :
    (∃ field tags entries places reports,
      (unchecked ⟨some "kind", false⟩).CompilesTagged
        [.record [⟨"kind", .literal (.string "a"), false⟩, ⟨"x", .unrecognized, false⟩],
          .record [⟨"kind", .literal (.string "b"), false⟩, ⟨"y", .unrecognized, false⟩],
          .record [⟨"kind", .literal (.string "a"), false⟩]]
        field tags entries places reports ∧
      entries.map Prod.fst = ["a", "b"] ∧
      Diagnostic.repeatedTags .root tags ++ reports =
        [⟨"|2", .duplicateTag "a"⟩, ⟨"|1.y", .fieldDropped "y" .unrecognizedDescriptor⟩]) ∧
    ∃ args reports,
      (unchecked ⟨some "kind", false⟩).CompilesPlain
        [.unrecognized, .record [⟨"kind", .literal (.string "a"), false⟩]] args reports ∧
      args.length = 1 ∧ reports = [⟨"|0", .unionMemberDropped 0 .unrecognizedDescriptor⟩] := by
  let compiler : Compiler := unchecked ⟨some "kind", false⟩
  constructor
  · have all : Descriptor.AllTagged (some "kind")
        [.record [⟨"kind", .literal (.string "a"), false⟩, ⟨"x", .unrecognized, false⟩],
          .record [⟨"kind", .literal (.string "b"), false⟩, ⟨"y", .unrecognized, false⟩],
          .record [⟨"kind", .literal (.string "a"), false⟩]] :=
      (Descriptor.allTagged_iff _ _).mpr ⟨"kind", ["a", "b", "a"], rfl⟩
    obtain ⟨field, tags, entries, places, reports, compiled⟩ :=
      (compiler.compileInPlace_union _).2.2.1 all
    have result := compiled.result
    obtain rfl : _ = entries :=
      (DecoderExpr.object.inj (List.cons.inj (List.cons.inj
        (DecoderExpr.call.inj (Except.ok.inj result)).2).2).1)
    exact ⟨field, tags, _, places, reports, compiled, rfl,
      compiled.diagnostics.symm⟩
  · have some : ¬ Descriptor.AllTagged (some "kind")
        [.unrecognized, .record [⟨"kind", .literal (.string "a"), false⟩]] := by
      rw [Descriptor.allTagged_iff]
      rintro ⟨field, tags, tagged⟩
      exact nomatch tagged
    obtain ⟨args, reports, compiled⟩ := (compiler.compileInPlace_union _).2.2.2 some
    obtain rfl : _ = args := (DecoderExpr.call.inj (Except.ok.inj compiled.result)).2
    exact ⟨_, reports, compiled, rfl, compiled.diagnostics.symm⟩

end Compiler

end DecoderForge
