/-
This file proves where a table of declared types has the declarations of its names and by which
names it has their decoders, and in which order it has the names that are declared again.
-/

import DecoderForge.Proofs.Entries
import DecoderForge.Symbols
import Mathlib.Data.List.Basic
import Mathlib.Data.List.Induction

namespace DecoderForge

namespace SymbolTable

/-- A declaration leaves the types that are there as they are. -/
theorem symbol?_declare (table : SymbolTable) (name : String) (position : Nat) (other : String) :
    (table.declare name position).symbol? other =
      (table.symbol? other).or
        (if name = other then some ⟨decoderName name, position⟩ else none) := by
  unfold declare
  cases known : table.symbol? name with
  | none =>
    change Entries.get? other (table.symbols ++ [(name, ⟨decoderName name, position⟩)]) = _
    rw [Entries.get?_append]
    rfl
  | some first =>
    have kept : (table.symbol? other).or
        (if name = other then some ⟨decoderName name, position⟩ else none) =
          table.symbol? other := by
      by_cases same : name = other
      · rw [← same, known, Option.some_or]
      · rw [if_neg same, Option.or_none]
    rw [kept]
    dsimp only
    split <;> rfl

theorem symbol?_declareAll (table : SymbolTable) (start : Nat) (names : List String)
    (other : String) :
    (table.declareAll start names).symbol? other =
      (table.symbol? other).or
        ((names.idxOf? other).map fun index => ⟨decoderName other, index + start⟩) := by
  induction names generalizing table start with
  | nil => simp [declareAll]
  | cons name rest ih =>
    rw [declareAll, ih, symbol?_declare, Option.or_assoc, List.idxOf?_cons]
    by_cases same : name = other
    · simp [same]
    · have shift (index : Nat) : index + (start + 1) = index + 1 + start := by omega
      simp [same, Function.comp_def, shift]

/-- A name has the place of its first declaration. -/
theorem position?_ofNames (names : List String) (name : String) :
    (ofNames names).position? name = names.idxOf? name := by
  rw [position?, ofNames, symbol?_declareAll]
  simp [symbol?, empty, Entries.get?, Function.comp_def]

theorem isSome_position?_ofNames (names : List String) (name : String) :
    ((ofNames names).position? name).isSome = true ↔ name ∈ names := by
  rw [position?_ofNames, List.isSome_idxOf?]

theorem declareAll_append (table : SymbolTable) (start : Nat) (first second : List String) :
    table.declareAll start (first ++ second) =
      (table.declareAll start first).declareAll (start + first.length) second := by
  induction first generalizing table start with
  | nil => rfl
  | cons name rest ih =>
    have shift : start + 1 + rest.length = start + (rest.length + 1) := by omega
    rw [List.cons_append, declareAll, ih, declareAll, List.length_cons, shift]

/-- The table of names is that of the first ones with the last one declared behind them. -/
theorem ofNames_concat (names : List String) (name : String) :
    ofNames (names ++ [name]) = (ofNames names).declare name names.length := by
  rw [ofNames, declareAll_append, Nat.zero_add]
  rfl

/-- A name that is known comes to those that are declared again, unless it is one of them. -/
theorem duplicates_ofNames_concat (names : List String) (name : String) :
    (ofNames (names ++ [name])).duplicates =
      if name ∈ names ∧ name ∉ (ofNames names).duplicates then
        (ofNames names).duplicates ++ [name]
      else (ofNames names).duplicates := by
  have known := isSome_position?_ofNames names name
  rw [position?, Option.isSome_map] at known
  rw [ofNames_concat, declare]
  cases found : (ofNames names).symbol? name with
  | none =>
    have fresh : name ∉ names := by
      intro inside
      simp [found] at known
      exact known inside
    simp [fresh]
  | some first =>
    have inside : name ∈ names := known.mp (by rw [found]; rfl)
    by_cases again : name ∈ (ofNames names).duplicates <;> simp [inside, again]

/-- The names that are declared again are those that come at least twice. -/
theorem mem_duplicates_ofNames (names : List String) (name : String) :
    name ∈ (ofNames names).duplicates ↔ 2 ≤ names.count name := by
  induction names using List.reverseRecOn with
  | nil => simp [ofNames, declareAll, empty]
  | append_singleton names last ih =>
    rw [duplicates_ofNames_concat, List.count_append, List.count_singleton]
    by_cases same : last = name
    · subst same
      have once : 2 ≤ names.count last + 1 ↔ last ∈ names := by
        rw [← List.one_le_count_iff]
        omega
      have before : last ∈ (ofNames names).duplicates → last ∈ names := by
        intro again
        have twice := ih.mp again
        exact List.one_le_count_iff.mp (by omega)
      rw [beq_self_eq_true, if_pos rfl, once]
      by_cases again : last ∈ (ofNames names).duplicates
      · simp [again, before again]
      · by_cases inside : last ∈ names <;> simp [again, inside]
    · have other : ¬ name = last := fun equal => same equal.symm
      split <;> simp [same, other, ih]

theorem nodup_duplicates_ofNames (names : List String) : (ofNames names).duplicates.Nodup := by
  induction names using List.reverseRecOn with
  | nil => exact List.nodup_nil
  | append_singleton names last ih =>
    rw [duplicates_ofNames_concat]
    split
    · next again => exact List.nodup_append.mpr ⟨ih, List.pairwise_singleton _ last, by
        rintro name inside other last rfl
        obtain rfl := List.mem_singleton.mp last
        exact again.2 inside⟩
    · exact ih

/-- The place where a name comes for the second time. -/
def IsSecond (names : List String) (name : String) (index : Nat) : Prop :=
  names[index]? = some name ∧ (names.take index).count name = 1

theorem IsSecond.lt_length {names : List String} {name : String} {index : Nat}
    (second : IsSecond names name index) : index < names.length :=
  (List.getElem?_eq_some_iff.mp second.1).1

/-- What comes later does not change where a name came for the second time. -/
theorem IsSecond.append {names : List String} {name : String} {index : Nat}
    (second : IsSecond names name index) (more : List String) :
    IsSecond (names ++ more) name index := by
  have inside := second.lt_length
  rw [IsSecond, List.getElem?_append_left inside,
    List.take_append_of_le_length (Nat.le_of_lt inside)]
  exact second

/-- A name that came once comes for the second time behind all others. -/
theorem isSecond_concat {names : List String} {name : String} (inside : name ∈ names)
    (once : name ∉ (ofNames names).duplicates) : IsSecond (names ++ [name]) name names.length := by
  rw [mem_duplicates_ofNames] at once
  have some := List.one_le_count_iff.mpr inside
  refine ⟨by simp, ?_⟩
  rw [List.take_left]
  omega

/-- The names that are declared again stand in the order in which they first come again. -/
theorem exists_seconds (names : List String) :
    ∃ seconds : List Nat, seconds.Pairwise (· < ·) ∧
      List.Forall₂ (IsSecond names) (ofNames names).duplicates seconds := by
  -- A later place is greater than the earlier ones because these lie inside the names before it.
  suffices within : ∃ seconds : List Nat, seconds.Pairwise (· < ·) ∧
      (∀ index ∈ seconds, index < names.length) ∧
      List.Forall₂ (IsSecond names) (ofNames names).duplicates seconds by
    obtain ⟨seconds, ascending, _, each⟩ := within
    exact ⟨seconds, ascending, each⟩
  induction names using List.reverseRecOn with
  | nil => exact ⟨[], .nil, nofun, .nil⟩
  | append_singleton names last ih =>
    obtain ⟨seconds, ascending, within, each⟩ := ih
    have kept : List.Forall₂ (IsSecond (names ++ [last])) (ofNames names).duplicates seconds :=
      each.imp fun name index second => second.append [last]
    have longer : (names ++ [last]).length = names.length + 1 := List.length_append
    rw [duplicates_ofNames_concat, longer]
    split
    · next again =>
      refine ⟨seconds ++ [names.length], ?_, ?_, ?_⟩
      · refine List.pairwise_append.mpr ⟨ascending, List.pairwise_singleton _ _, ?_⟩
        exact fun index inside length same => List.mem_singleton.mp same ▸ within index inside
      · refine List.forall_mem_append.mpr ⟨fun index inside => ?_, ?_⟩
        · exact Nat.lt_succ_of_lt (within index inside)
        · exact List.forall_mem_singleton.mpr (Nat.lt_succ_self _)
      · exact List.rel_append kept (.cons (isSecond_concat again.1 again.2) .nil)
    · exact ⟨seconds, ascending, fun index inside => Nat.lt_succ_of_lt (within index inside), kept⟩

/-- Further names only come behind those that are declared again. -/
theorem duplicates_ofNames_prefix (names more : List String) :
    (ofNames names).duplicates <+: (ofNames (names ++ more)).duplicates := by
  induction more using List.reverseRecOn with
  | nil =>
    have same : names ++ [] = names := List.append_nil names
    exact same.symm ▸ List.prefix_rfl
  | append_singleton more last ih =>
    rw [← List.append_assoc, duplicates_ofNames_concat]
    split
    · exact ih.trans (List.prefix_append _ _)
    · exact ih

/-- The place of a name is the first one where it comes. -/
theorem position?_ofNames_eq_some_iff (names : List String) (name : String) (index : Nat) :
    (ofNames names).position? name = some index ↔
      names[index]? = some name ∧ ∀ earlier < index, names[earlier]? ≠ some name := by
  rw [position?_ofNames, List.idxOf?_eq_some_iff]
  constructor
  · rintro ⟨inside, here, before⟩
    refine ⟨List.getElem?_eq_some_iff.mpr ⟨inside, here⟩, fun earlier less same => ?_⟩
    exact before earlier less (List.getElem?_eq_some_iff.mp same).2
  · rintro ⟨here, before⟩
    obtain ⟨inside, here⟩ := List.getElem?_eq_some_iff.mp here
    refine ⟨inside, here, fun earlier less same => before earlier less ?_⟩
    exact List.getElem?_eq_some_iff.mpr ⟨Nat.lt_trans less inside, same⟩

theorem position?_ofNames_eq_none_iff (names : List String) (name : String) :
    (ofNames names).position? name = none ↔ name ∉ names := by
  rw [← isSome_position?_ofNames, Bool.not_eq_true, Option.isSome_eq_false_iff,
    Option.isNone_iff_eq_none]

/-- Further names leave those that are there as they are. -/
theorem symbol?_ofNames_append {names : List String} {name : String} (inside : name ∈ names)
    (more : List String) :
    (ofNames (names ++ more)).symbol? name = (ofNames names).symbol? name := by
  have declared := (isSome_position?_ofNames names name).mpr inside
  rw [position?, Option.isSome_map] at declared
  obtain ⟨symbol, found⟩ := Option.isSome_iff_exists.mp declared
  rw [found, ofNames, declareAll_append, symbol?_declareAll]
  change ((ofNames names).symbol? name).or _ = _
  rw [found, Option.some_or]

/-- A name is found where a type of this name is declared. -/
theorem exists_declaration_of_position? {declarations : List Declaration} {name : String}
    {target : Nat} (found : (ofDeclarations declarations).position? name = some target) :
    ∃ declaration, declarations[target]? = some declaration ∧ declaration.name = name := by
  rw [ofDeclarations, position?_ofNames, List.idxOf?_eq_some_iff] at found
  obtain ⟨inside, same, _⟩ := found
  rw [List.length_map] at inside
  rw [List.getElem_map] at same
  exact ⟨declarations[target], List.getElem?_eq_getElem inside, same⟩

/-- What is reported of a reference stands at its place and names its type. -/
theorem report_of_checkReference {table : SymbolTable} {initialized : List Bool}
    {site : ReferenceSite} {report : Diagnostic}
    (checked : table.checkReference initialized site = some report) :
    report = ⟨site.path, .forwardReference site.name⟩ ∨
      report = ⟨site.path, .uninitializedReference site.name⟩ := by
  unfold checkReference at checked
  split at checked
  · contradiction
  · split at checked
    · exact .inl (Option.some_inj.mp checked).symm
    · split at checked
      · contradiction
      · exact .inr (Option.some_inj.mp checked).symm

/-- A reference is passed when its decoder is declared before it and has a value. -/
theorem checkReference_eq_none_iff (table : SymbolTable) (initialized : List Bool)
    {site : ReferenceSite} {target : Nat} (found : table.position? site.name = some target) :
    table.checkReference initialized site = none ↔
      target < site.position ∧ initialized[target]? = some true := by
  simp only [checkReference, found]
  by_cases later : site.position ≤ target
  · have never : ¬ target < site.position := by omega
    rw [if_pos later]
    exact iff_of_false (Option.some_ne_none _) fun both => never both.1
  · have before : target < site.position := by omega
    rw [if_neg later, and_iff_right before]
    rcases there : initialized[target]? with _ | _ | _ <;> simp

/-- Where decoders are named after their types, a type that is found has the decoder of its name. -/
theorem IsNamed.decoder?_eq {table : SymbolTable} (named : table.IsNamed) (name : String) :
    table.decoder? name = (table.position? name).map fun _ => decoderName name := by
  rw [decoder?, position?]
  cases found : table.symbol? name with
  | none => rfl
  | some symbol =>
    have inside := Entries.mem_of_get?_eq_some table.symbols name symbol found
    exact congrArg some (named _ inside)

/-- Every declared type has the decoder of its name, and no other type has a decoder. -/
theorem decoder?_ofDeclarations (declarations : List Declaration) (name : String) :
    (ofDeclarations declarations).decoder? name =
      if name ∈ declarations.map Declaration.name then some (decoderName name) else none := by
  have declared := isSome_position?_ofNames (declarations.map Declaration.name) name
  rw [ofDeclarations, (isNamed_ofNames _).decoder?_eq]
  cases found : (ofNames (declarations.map Declaration.name)).position? name with
  | none =>
    rw [found] at declared
    rw [if_neg (declared.not.mp Bool.false_ne_true)]
    rfl
  | some position =>
    rw [found] at declared
    rw [if_pos (declared.mp rfl)]
    rfl

/-- A table has the place of the first declaration of each name, and its decoder. The names that are
declared at least twice stand there once, in the order in which they come for the second time.
Further declarations leave what is there and only add to its end. -/
theorem ofDeclarations_first_and_again (declarations : List Declaration) :
    (∀ name index, (ofDeclarations declarations).position? name = some index ↔
      (declarations.map Declaration.name)[index]? = some name ∧
        ∀ earlier < index, (declarations.map Declaration.name)[earlier]? ≠ some name) ∧
    (∀ name, (ofDeclarations declarations).position? name = none ↔
      name ∉ declarations.map Declaration.name) ∧
    (∀ name, (ofDeclarations declarations).decoder? name =
      if name ∈ declarations.map Declaration.name then some (decoderName name) else none) ∧
    (∀ name, name ∈ (ofDeclarations declarations).duplicates ↔
      2 ≤ (declarations.map Declaration.name).count name) ∧
    (ofDeclarations declarations).duplicates.Nodup ∧
    (∃ seconds : List Nat, seconds.Pairwise (· < ·) ∧
      List.Forall₂ (IsSecond (declarations.map Declaration.name))
        (ofDeclarations declarations).duplicates seconds) ∧
    ∀ further : List Declaration,
      (∀ name ∈ declarations.map Declaration.name,
        (ofDeclarations (declarations ++ further)).position? name =
            (ofDeclarations declarations).position? name ∧
          (ofDeclarations (declarations ++ further)).decoder? name =
            (ofDeclarations declarations).decoder? name) ∧
      (ofDeclarations declarations).duplicates <+:
        (ofDeclarations (declarations ++ further)).duplicates := by
  have names (further : List Declaration) : ofDeclarations (declarations ++ further) =
      ofNames (declarations.map Declaration.name ++ further.map Declaration.name) :=
    congrArg ofNames List.map_append
  refine ⟨position?_ofNames_eq_some_iff _, position?_ofNames_eq_none_iff _,
    decoder?_ofDeclarations declarations, mem_duplicates_ofNames _, nodup_duplicates_ofNames _,
    exists_seconds _, fun further => ?_⟩
  rw [names]
  refine ⟨fun name inside => ?_, duplicates_ofNames_prefix _ _⟩
  have kept := symbol?_ofNames_append inside (further.map Declaration.name)
  exact ⟨congrArg (Option.map Symbol.position) kept, congrArg (Option.map Symbol.binding) kept⟩

/-- The name that comes again first stands first among those that do. -/
theorem ofDeclarations_first_and_again_interleaved :
    (ofDeclarations ([⟨"A", .opaqueObject⟩, ⟨"B", .opaqueObject⟩, ⟨"B", .opaqueObject⟩,
        ⟨"A", .opaqueObject⟩] ++ [⟨"B", .opaqueObject⟩, ⟨"C", .opaqueObject⟩])).position? "B" =
      some 1 ∧
    ["B", "A"] <+: (ofDeclarations ([⟨"A", .opaqueObject⟩, ⟨"B", .opaqueObject⟩,
        ⟨"B", .opaqueObject⟩, ⟨"A", .opaqueObject⟩] ++
      [⟨"B", .opaqueObject⟩, ⟨"C", .opaqueObject⟩])).duplicates := by
  have table := ofDeclarations_first_and_again [⟨"A", .opaqueObject⟩, ⟨"B", .opaqueObject⟩,
    ⟨"B", .opaqueObject⟩, ⟨"A", .opaqueObject⟩]
  obtain ⟨kept, longer⟩ :=
    table.2.2.2.2.2.2 [⟨"B", .opaqueObject⟩, ⟨"C", .opaqueObject⟩]
  exact ⟨(kept "B" (by decide)).1.trans ((table.1 "B" 1).mpr ⟨rfl, by decide⟩), longer⟩

end SymbolTable

end DecoderForge
