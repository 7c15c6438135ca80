/-
This file proves that compiling in place leaves behind what the decoder of a type leaves behind, and
that nothing is left behind by a type without a decoder.
-/

import DecoderForge.Compile.InPlace
import DecoderForge.Proofs.Compile.Decoder
import DecoderForge.Proofs.Compile.Trace

namespace DecoderForge

/-- The decoder of a type, or the reason why there is none. -/
def Compiled.result : Compiled → Except SkipReason DecoderExpr
  | .ok (decoder, _) => .ok decoder
  | .error reason => .error reason

/-- A type without a decoder leaves nothing behind. -/
def Compiled.left : Compiled → Trace
  | .ok (_, trace) => trace
  | .error _ => .empty

/-- The run with something more left behind. -/
def Compiler.add (compiler : Compiler) (trace : Trace) : Compiler :=
  { compiler with trace := compiler.trace ++ trace }

namespace Compiler

@[simp] theorem add_empty (compiler : Compiler) : compiler.add .empty = compiler := by
  simp [add]

theorem add_append (compiler : Compiler) (first second : Trace) :
    compiler.add (first ++ second) = (compiler.add first).add second := by
  simp only [add, Trace.append_assoc]

theorem compile_eq (compiler : Compiler) (descriptor : Descriptor) :
    compiler.compile descriptor =
      (compiler.add (Compile.type compiler.scope compiler.path descriptor).left,
        (Compile.type compiler.scope compiler.path descriptor).result) := by
  rw [compile]
  rcases Compile.type compiler.scope compiler.path descriptor with reason | ⟨decoder, trace⟩
  · simp [Compiled.left, Compiled.result]
  · rfl

end Compiler

namespace Compile

/-- What is left behind by a tag, if an earlier member has it. -/
def duplicateTag? (path : NodePath) (tags : List String) (place : String × Nat) : Option Trace :=
  if place.1 ∈ tags.take place.2 then
    some (.report (path.push (.unionMember place.2)) (.duplicateTag place.1))
  else none

/-- The entry of a member that is chosen for a tag, with what its decoder leaves behind. -/
def chosenEntry? (members : List Compiled) (winner : String × Nat) :
    Option ((String × DecoderExpr) × Trace) :=
  match members[winner.2]? with
  | some (.ok (decoder, trace)) => some ((winner.1, decoder), trace)
  | _ => none

end Compile

namespace Action

/-- At a place an action gives a result, adds something to what the run leaves behind, and changes
nothing else. -/
def Gives {α : Type} (action : Action α) (scope : Scope) (path : NodePath) (result : α)
    (trace : Trace) : Prop :=
  ∀ compiler : Compiler, compiler.scope = scope → compiler.path = path →
    action.run compiler = (result, compiler.add trace)

section

variable {α β : Type} {scope : Scope} {path : NodePath}

theorem gives_pure (result : α) : (pure result : Action α).Gives scope path result .empty := by
  intro compiler _ _
  rw [Compiler.add_empty]
  rfl

theorem Gives.bind {action : Action α} {next : α → Action β} {result : α} {last : β}
    {first second : Trace} (before : action.Gives scope path result first)
    (after : (next result).Gives scope path last second) :
    (action >>= next).Gives scope path last (first ++ second) := by
  intro compiler sameScope samePath
  change (next (action.run compiler).1).run (action.run compiler).2 = _
  rw [before compiler sameScope samePath, Compiler.add_append]
  exact after (compiler.add first) sameScope samePath

theorem Gives.map {action : Action α} {result : α} {trace : Trace} (f : α → β)
    (gives : action.Gives scope path result trace) :
    (f <$> action).Gives scope path (f result) trace := by
  intro compiler sameScope samePath
  change (f (action.run compiler).1, (action.run compiler).2) = _
  rw [gives compiler sameScope samePath]

/-- An action behind which nothing more is done. -/
theorem Gives.andReturn {action : Action α} {result : α} {trace : Trace} (f : α → β)
    (gives : action.Gives scope path result trace) :
    (action >>= fun result => pure (f result)).Gives scope path (f result) trace := by
  have both : (action >>= fun result => pure (f result)).Gives scope path (f result)
      (trace ++ .empty) := gives.bind (gives_pure (f result))
  rwa [Trace.append_empty] at both

/-- An action that only looks at where the run stands. -/
theorem gives_get {next : Compiler → Action α} {result : α} {trace : Trace}
    (each : ∀ compiler : Compiler, compiler.scope = scope → compiler.path = path →
      (next compiler).Gives scope path result trace) :
    (get >>= next).Gives scope path result trace := by
  intro compiler sameScope samePath
  exact each compiler sameScope samePath compiler sameScope samePath

/-- What is done inside comes back to the place around it. -/
theorem Gives.inside {action : Action α} {segment : Segment} {result : α} {trace : Trace}
    (gives : action.Gives scope (path.push segment) result trace) :
    (inside segment action).Gives scope path result trace := by
  rintro compiler sameScope rfl
  have entered := gives { compiler with path := compiler.path.push segment } sameScope rfl
  change ((action.run { compiler with path := compiler.path.push segment }).1,
    { (action.run { compiler with path := compiler.path.push segment }).2 with
      path := (action.run { compiler with path := compiler.path.push segment }).2.path.pop }) = _
  rw [entered]
  simp [Compiler.add]

theorem gives_report (kind : DiagnosticKind) :
    (report kind).Gives scope path () (.report path kind) := by
  rintro compiler _ rfl
  rfl

theorem gives_call (builtin : Builtin) (args : List DecoderExpr) :
    (call builtin args).Gives scope path (.call builtin args) (.ofBuiltin builtin) := by
  intro compiler _ _
  rw [Compiler.add, Trace.append_ofBuiltin]
  rfl

theorem gives_refer (site : ReferenceSite) :
    (refer site).Gives scope path () (.ofReference site) := by
  intro compiler _ _
  rw [Compiler.add, Trace.append_ofReference]
  rfl

end

/-- At a place an action does what the compiled type says. -/
def Follows (action : TypeAction) (scope : Scope) (path : NodePath) (compiled : Compiled) : Prop :=
  action.Gives scope path compiled.result compiled.left

section

variable {scope : Scope} {path : NodePath}

/-- A call by itself. -/
theorem gives_call_empty (builtin : Builtin) (args : List DecoderExpr) :
    (call builtin args).Gives scope path (Compile.call builtin args .empty).1
      (Compile.call builtin args .empty).2 := by
  have called : (call builtin args).Gives scope path (.call builtin args) (.ofBuiltin builtin) :=
    gives_call builtin args
  simpa [Compile.call] using called

theorem ok_follows {action : Action DecoderExpr} {compiled : DecoderExpr × Trace}
    (gives : action.Gives scope path compiled.1 compiled.2) :
    (Except.ok <$> action : TypeAction).Follows scope path (.ok compiled) :=
  gives.map Except.ok

theorem literal_follows (value : LiteralValue) :
    (literal value).Follows scope path (Compile.literal value) := by
  cases value with
  | string s => exact ok_follows (gives_call_empty .constant [.constant (.string s)])
  | number n => exact ok_follows (gives_call_empty .constant [.constant (.number n)])
  | _ => exact gives_pure _

theorem reference_gives (name : String) :
    (reference name).Gives scope path (Compile.reference scope path name).1
      (Compile.reference scope path name).2 := by
  apply gives_get
  rintro compiler rfl rfl
  unfold Compile.reference
  cases table : compiler.symbols with
  | none =>
    simp only [Compiler.scope, table]
    exact gives_pure _
  | some symbols =>
    simp only [Compiler.scope, table]
    cases symbols.decoder? name with
    | none => exact (gives_report (.unresolvedReference name)).andReturn _
    | some decoder =>
      cases compiler.declared with
      | zero => exact gives_pure _
      | succ position => exact (gives_refer ⟨name, compiler.path.text, position⟩).andReturn _

theorem Follows.inside {action : TypeAction} {segment : Segment} {compiled : Compiled}
    (follows : action.Follows scope (path.push segment) compiled) :
    (Action.inside segment action).Follows scope path compiled :=
  Gives.inside follows

/-- An action that goes on behind the decoder of a type. -/
theorem Follows.bind_ok {α : Type} {action : TypeAction}
    {next : Except SkipReason DecoderExpr → Action α} {decoder : DecoderExpr} {result : α}
    {first second : Trace} (follows : action.Follows scope path (.ok (decoder, first)))
    (after : (next (.ok decoder)).Gives scope path result second) :
    (action >>= next).Gives scope path result (first ++ second) :=
  Gives.bind follows after

/-- An action that goes on behind a type without a decoder has all that is left behind. -/
theorem Follows.bind_error {α : Type} {action : TypeAction}
    {next : Except SkipReason DecoderExpr → Action α} {reason : SkipReason} {result : α}
    {trace : Trace} (follows : action.Follows scope path (.error reason))
    (after : (next (.error reason)).Gives scope path result trace) :
    (action >>= next).Gives scope path result trace := by
  have both : (action >>= next).Gives scope path result (.empty ++ trace) :=
    Gives.bind follows after
  rwa [Trace.empty_append] at both

theorem slot_gives {element : TypeAction} {compiled : Compiled} {index : Nat}
    (follows : element.Follows scope (path.push (.tupleSlot index)) compiled) :
    (inside (.tupleSlot index) (slot index element)).Gives scope path
      (Compile.slot path index compiled).1 (Compile.slot path index compiled).2 := by
  apply Gives.inside
  rcases compiled with reason | ⟨decoder, trace⟩
  · apply follows.bind_error
    exact (gives_report _).bind (gives_call .json [])
  · rw [← Trace.append_empty (Compile.slot path index _).2]
    exact follows.bind_ok (gives_pure decoder)

theorem member_gives {element : TypeAction} {compiled : Compiled} {index : Nat}
    (follows : element.Follows scope (path.push (.unionMember index)) compiled) :
    (inside (.unionMember index) (member index element)).Gives scope path
      (Compile.member path index compiled).1 (Compile.member path index compiled).2 := by
  apply Gives.inside
  rcases compiled with reason | ⟨decoder, trace⟩
  · apply follows.bind_error
    exact (gives_report _).andReturn _
  · rw [← Trace.append_empty (Compile.member path index _).2]
    exact follows.bind_ok (gives_pure (some decoder))

theorem field_gives (entries : List (String × DecoderExpr)) {name : String} {optional : Bool}
    {action : TypeAction} {compiled : Compiled}
    (follows : action.Follows scope (path.push (.field name)) compiled) :
    (inside (.field name) (field entries ⟨name, action, optional⟩)).Gives scope path
      (Entries.putAll entries (Compile.field path ⟨name, compiled, optional⟩).1.toList)
      (Compile.field path ⟨name, compiled, optional⟩).2 := by
  apply Gives.inside
  rcases compiled with reason | ⟨decoder, trace⟩
  · apply follows.bind_error
    exact (gives_report _).andReturn _
  · cases optional with
    | false =>
      rw [← Trace.append_empty (Compile.field path _).2]
      exact follows.bind_ok (gives_pure _)
    | true => exact follows.bind_ok ((gives_call .optional [decoder]).andReturn _)

end

section

variable (scope : Scope) (path : NodePath)

/-- The action of each type does what is compiled of the type, wherever it stands. -/
def AllFollow (descriptors : List Descriptor) : Prop :=
  ∀ descriptor ∈ descriptors, ∀ place,
    (type descriptor).Follows scope place (Compile.type scope place descriptor)

theorem types_eq_map (descriptors : List Descriptor) :
    types descriptors = descriptors.map type := by
  induction descriptors with
  | nil => rfl
  | cons descriptor rest ih => rw [types, ih, List.map_cons]

variable {scope}

theorem slots_give (index : Nat) {descriptors : List Descriptor}
    (each : AllFollow scope descriptors) :
    (slots index (types descriptors)).Gives scope path
      ((descriptors.mapIdx fun i descriptor => Compile.slot path (index + i)
        (Compile.type scope (path.push (.tupleSlot (index + i))) descriptor)).map Prod.fst)
      (.join ((descriptors.mapIdx fun i descriptor => Compile.slot path (index + i)
        (Compile.type scope (path.push (.tupleSlot (index + i))) descriptor)).map Prod.snd)) := by
  induction descriptors generalizing index with
  | nil => exact gives_pure []
  | cons descriptor rest ih =>
    obtain ⟨first, others⟩ := List.forall_mem_cons.mp each
    have later := ih (index + 1) others
    simp only [List.mapIdx_cons, List.map_cons, Trace.join]
    simp only [Nat.add_assoc, Nat.add_comm 1] at later
    apply Gives.bind (slot_gives (first _))
    exact later.andReturn _

theorem tuple_gives {elements : List Descriptor} (each : AllFollow scope elements) :
    (tuple (types elements)).Gives scope path
      (Compile.tuple path (Compile.types scope path .tupleSlot 0 elements)).1
      (Compile.tuple path (Compile.types scope path .tupleSlot 0 elements)).2 := by
  have given := slots_give path 0 each
  simp only [Nat.zero_add] at given
  simp only [Compile.tuple, Compile.types_eq_mapIdx, List.mapIdx_mapIdx, Nat.zero_add]
  exact given.bind (gives_call .tuple _)

theorem members_give (index : Nat) {descriptors : List Descriptor}
    (each : AllFollow scope descriptors) :
    (members index (types descriptors)).Gives scope path
      ((descriptors.mapIdx fun i descriptor => Compile.member path (index + i)
        (Compile.type scope (path.push (.unionMember (index + i))) descriptor)).filterMap Prod.fst)
      (.join ((descriptors.mapIdx fun i descriptor => Compile.member path (index + i)
        (Compile.type scope (path.push (.unionMember (index + i))) descriptor)).map Prod.snd)) := by
  induction descriptors generalizing index with
  | nil => exact gives_pure []
  | cons descriptor rest ih =>
    obtain ⟨first, others⟩ := List.forall_mem_cons.mp each
    have later := ih (index + 1) others
    simp only [List.filterMap_eq_flatMap_toList, List.mapIdx_cons, List.map_cons,
      List.flatMap_cons, Trace.join]
    simp only [List.filterMap_eq_flatMap_toList, Nat.add_assoc, Nat.add_comm 1] at later
    apply Gives.bind (member_gives (first _))
    exact later.andReturn _

theorem either_gives {elements : List Descriptor} (each : AllFollow scope elements) :
    (either (types elements)).Gives scope path
      (Compile.either path (Compile.types scope path .unionMember 0 elements)).1
      (Compile.either path (Compile.types scope path .unionMember 0 elements)).2 := by
  have given := members_give path 0 each
  simp only [Nat.zero_add] at given
  have sameEmpty : (types elements).isEmpty =
      (Compile.types scope path .unionMember 0 elements).isEmpty := by
    cases elements <;> rfl
  rw [either, Compile.either, sameEmpty]
  simp only [Compile.types_eq_mapIdx, List.mapIdx_mapIdx, Nat.zero_add, Function.comp_def]
  split
  · next none =>
    rw [Compile.call, Trace.append_assoc]
    apply given.bind
    rw [if_pos none]
    exact Gives.bind (gives_report .emptyUnion) (gives_call .either _)
  · next some =>
    apply given.bind
    rw [if_neg some]
    exact gives_call .either _

theorem fields_give (entries : List (String × DecoderExpr)) {members : List Field}
    (each : AllFollow scope (members.map FieldOf.type)) :
    (fields entries (fieldTypes members)).Gives scope path
      (Entries.putAll entries (((Compile.fieldTypes scope path members).map
        (Compile.field path)).filterMap Prod.fst))
      (.join (((Compile.fieldTypes scope path members).map (Compile.field path)).map
        Prod.snd)) := by
  induction members generalizing entries with
  | nil => exact gives_pure entries
  | cons part rest ih =>
    obtain ⟨first, others⟩ := List.forall_mem_cons.mp each
    obtain ⟨name, descriptor, optional⟩ := part
    simp only [fieldTypes, Compile.fieldTypes, List.map_cons, Trace.join,
      List.filterMap_eq_flatMap_toList, List.flatMap_cons, Entries.putAll_append]
    apply Gives.bind (field_gives entries (first _))
    rw [← List.filterMap_eq_flatMap_toList]
    exact ih _ others

theorem record_gives {members : List Field} (each : AllFollow scope (members.map FieldOf.type)) :
    (record (fieldTypes members)).Gives scope path
      (Compile.record path (Compile.fieldTypes scope path members)).1
      (Compile.record path (Compile.fieldTypes scope path members)).2 := by
  have given := fields_give path [] each
  rw [Entries.putAll_empty] at given
  exact given.bind (gives_call .object _)

/-- Tags that come behind others are chosen in place of theirs, and reported where they come
again. -/
theorem winners_give (tags seen : List String) (chosen : List (String × Nat))
    (keys : ∀ tag, tag ∈ chosen.map Prod.fst ↔ tag ∈ seen) :
    (winners seen.length chosen tags).Gives scope path
      (Entries.putAll chosen (tags.zipIdx seen.length))
      (.join ((tags.zipIdx seen.length).filterMap
        (Compile.duplicateTag? path (seen ++ tags)))) := by
  induction tags generalizing seen chosen with
  | nil => exact gives_pure chosen
  | cons tag rest ih =>
    have kept (other : String) : other ∈ (Entries.put tag seen.length chosen).map Prod.fst ↔
        other ∈ seen ++ [tag] := by
      rw [Entries.keys_put]
      split
      · next known =>
        have there := (keys tag).mp known
        simp only [keys, List.mem_append, List.mem_singleton]
        refine ⟨.inl, ?_⟩
        rintro (before | rfl)
        · exact before
        · exact there
      · simp [keys]
    have later := ih (seen ++ [tag]) (Entries.put tag seen.length chosen) kept
    rw [List.append_assoc, List.singleton_append, List.length_append] at later
    have here : (seen ++ tag :: rest).take seen.length = seen := List.take_left
    rw [List.zipIdx_cons, Entries.putAll_cons]
    by_cases known : tag ∈ seen
    · have reported : Compile.duplicateTag? path (seen ++ tag :: rest) (tag, seen.length) =
          some (.report (path.push (.unionMember seen.length)) (.duplicateTag tag)) := by
        rw [Compile.duplicateTag?, here, if_pos known]
      rw [winners, if_pos ((keys tag).mpr known), List.filterMap_cons_some reported]
      exact Gives.bind (gives_report _).inside later
    · have passed : Compile.duplicateTag? path (seen ++ tag :: rest) (tag, seen.length) = none := by
        rw [Compile.duplicateTag?, here, if_neg known]
      rw [winners, if_neg fun inside => known ((keys tag).mp inside),
        List.filterMap_cons_none passed]
      exact later

/-- Each chosen member has an entry of its tag. -/
theorem tagged_give {descriptors : List Descriptor} (each : AllFollow scope descriptors)
    (entries : List (String × DecoderExpr)) (chosen : List (String × Nat)) :
    (tagged (types descriptors) entries chosen).Gives scope path
      (Entries.putAll entries ((chosen.filterMap (Compile.chosenEntry?
        (Compile.types scope path .unionMember 0 descriptors))).map Prod.fst))
      (.join ((chosen.filterMap (Compile.chosenEntry?
        (Compile.types scope path .unionMember 0 descriptors))).map Prod.snd)) := by
  induction chosen generalizing entries with
  | nil => exact gives_pure entries
  | cons winner rest ih =>
    obtain ⟨tag, index⟩ := winner
    cases found : descriptors[index]? with
    | none =>
      have action : (types descriptors)[index]? = none := by
        rw [types_eq_map, List.getElem?_map, found, Option.map_none]
      have absent : Compile.chosenEntry? (Compile.types scope path .unionMember 0 descriptors)
          (tag, index) = none := by
        rw [Compile.chosenEntry?, Compile.types_eq_mapIdx, List.getElem?_mapIdx, found]
        rfl
      rw [List.filterMap_cons_none absent, tagged, action]
      exact ih entries
    | some descriptor =>
      have action : (types descriptors)[index]? = some (type descriptor) := by
        rw [types_eq_map, List.getElem?_map, found, Option.map_some]
      have compiled := Compile.getElem?_types scope path .unionMember found
      have follows := (each descriptor (List.mem_of_getElem? found)
        (path.push (.unionMember index))).inside
      rcases result : Compile.type scope (path.push (.unionMember index)) descriptor with
        reason | ⟨decoder, trace⟩
      · have absent : Compile.chosenEntry? (Compile.types scope path .unionMember 0 descriptors)
            (tag, index) = none := by
          rw [Compile.chosenEntry?, compiled, result]
        rw [result] at follows
        rw [List.filterMap_cons_none absent, tagged, action]
        exact follows.bind_error (ih entries)
      · have entry : Compile.chosenEntry? (Compile.types scope path .unionMember 0 descriptors)
            (tag, index) = some ((tag, decoder), trace) := by
          rw [Compile.chosenEntry?, compiled, result]
        rw [result] at follows
        rw [List.filterMap_cons_some entry, tagged, action]
        exact follows.bind_ok (ih _)

/-- The entries of chosen members have distinct keys. -/
theorem nodup_keys_chosenEntries (members : List Compiled) (tags : List String) :
    ((((Compile.winners tags).filterMap (Compile.chosenEntry? members)).map Prod.fst).map
      Prod.fst).Nodup := by
  have keys : ((((Compile.winners tags).filterMap (Compile.chosenEntry? members)).map
      Prod.fst).map Prod.fst).Sublist ((Compile.winners tags).map Prod.fst) := by
    rw [List.map_filterMap]
    apply Entries.keys_filterMap_sublist
    intro winner entry made
    obtain ⟨found, chosen, rfl⟩ := Option.map_eq_some_iff.mp made
    unfold Compile.chosenEntry? at chosen
    split at chosen
    · obtain rfl := Option.some_inj.mp chosen
      rfl
    · contradiction
  exact keys.nodup (Entries.nodup_keys_ofList _)

theorem taggedUnion_gives (tagField : String) (tags : List String) {elements : List Descriptor}
    (each : AllFollow scope elements) :
    (taggedUnion tagField tags (types elements)).Gives scope path
      (Compile.taggedUnion path tagField tags
        (Compile.types scope path .unionMember 0 elements)).1
      (Compile.taggedUnion path tagField tags
        (Compile.types scope path .unionMember 0 elements)).2 := by
  have chosen : (winners 0 [] tags).Gives scope path (Compile.winners tags)
      (.join (Compile.duplicateTags path tags)) := winners_give path tags [] [] (by simp)
  have entries := tagged_give path each [] (Compile.winners tags)
  rw [Entries.putAll_empty, Entries.ofList_eq_self _ (nodup_keys_chosenEntries _ tags)] at entries
  change Gives _ _ _ _ (_ ++ _ ++ _)
  rw [Trace.append_assoc]
  exact chosen.bind (entries.bind (gives_call .taggedUnion _))

theorem union_gives {elements : List Descriptor} (each : AllFollow scope elements) :
    (union elements (types elements)).Gives scope path
      (Compile.union scope path elements (Compile.types scope path .unionMember 0 elements)).1
      (Compile.union scope path elements (Compile.types scope path .unionMember 0 elements)).2 := by
  apply gives_get
  rintro compiler rfl rfl
  have tagField : compiler.scope.tagField = compiler.config.tagField := rfl
  rw [Compile.union, tagField]
  cases UnionShape.classify elements compiler.config.tagField with
  | tagged tagField tags => exact taggedUnion_gives _ tagField tags each
  | plain => exact either_gives _ each

/-- Compiling a type in place does what is compiled of the type. -/
theorem type_follows (descriptor : Descriptor) :
    (type descriptor).Follows scope path (Compile.type scope path descriptor) := by
  induction descriptor using Descriptor.induction_parts generalizing path with
  | step descriptor ih =>
    have each : AllFollow scope descriptor.parts := ih
    cases descriptor with
    | primitive kind => exact ok_follows (gives_call_empty _ [])
    | opaqueObject => exact ok_follows (gives_call_empty .jsonObject [])
    | union members => exact ok_follows (union_gives path each)
    | array element =>
      have inner := (ih element List.mem_cons_self (path.push .arrayElement)).inside
      rw [type, Compile.type]
      rcases result : Compile.type scope (path.push .arrayElement) element with
        reason | ⟨decoder, trace⟩
      · rw [result] at inner
        exact inner.bind_error (gives_pure _)
      · rw [result] at inner
        exact inner.bind_ok ((gives_call .array [decoder]).map Except.ok)
    | tuple elements => exact ok_follows (tuple_gives path each)
    | literal value => exact literal_follows value
    | reference name => exact ok_follows (reference_gives name)
    | record fields => exact ok_follows (record_gives path each)
    | unsupported construct => exact gives_pure _
    | unrecognized => exact gives_pure _

end

end Action

/-- A run compiles types in place. -/
theorem Compiler.compileInPlace_eq (compiler : Compiler) (descriptor : Descriptor) :
    compiler.compileInPlace descriptor = compiler.compile descriptor := by
  have follows := Action.type_follows compiler.path descriptor compiler rfl rfl
  rw [compileInPlace, follows, compile_eq]
  rfl

end DecoderForge
