/-
This file proves that a module is loaded from a value whatever the order of the keys in its objects,
and whatever stands under keys that its records do not declare, except for the content of null.
-/

import DecoderForge.Proofs.Loading.Lift
import Mathlib.Logic.Relation

namespace DecoderForge.Loading

/-- What the value under a key is read as. -/
def Role.under (role : Role) (parts : Parts Json) (key : String) : Role :=
  (Entries.get? key (role.columns parts)).getD .plain

/-- What the item of a list is read as. -/
def Role.at (role : Role) (parts : Parts Json) (i : Nat) : Role :=
  match role with
  | .list item => item
  | _ => ((role.columns parts)[i]?.map Prod.snd).getD .plain

/-- Whether what is read has keys of its own. -/
def Role.IsRecord : Role → Prop
  | .plain | .list _ => False
  | .source | .declaration | .field | .descriptor | .literal => True

/-- Which keys may come to an object that is read in a role, with which values, of those that its
record does not declare. -/
abbrev Admission := Role → List (String × Json) → String → Json → Prop

/-- The key of the content comes to a null literal only once, and only with null. -/
def Role.Admits : Admission := fun role es key value =>
  role = .literal → (Parts.keyed es).literalKind? = some .null → key = "value" →
    value = .null ∧ key ∉ es.map Prod.fst

/-- One edit of a value that is read in a role: the keys of some object come in another order, or a
key that its record does not declare is added or removed. -/
inductive Edit (admits : Admission) : Role → Json → Json → Prop
  | reorder {role : Role} {es es' : List (String × Json)} (same : es.Perm es') :
    Edit admits role (.obj es) (.obj es')
  | add {role : Role} {es : List (String × Json)} (key : String) (value : Json)
      (record : role.IsRecord) (foreign : key ∉ keysOf (role.columns (.keyed es)))
      (admitted : admits role es key value) :
    Edit admits role (.obj es) (.obj ((key, value) :: es))
  | remove {role : Role} {es : List (String × Json)} (key : String) (value : Json)
      (record : role.IsRecord) (foreign : key ∉ keysOf (role.columns (.keyed es)))
      (admitted : admits role es key value) :
    Edit admits role (.obj ((key, value) :: es)) (.obj es)
  | entry {role : Role} (before : List (String × Json)) {key : String} {value value' : Json}
      (after : List (String × Json))
      (inside : Edit admits (role.under (.keyed (before ++ (key, value) :: after)) key) value
        value') :
    Edit admits role (.obj (before ++ (key, value) :: after))
      (.obj (before ++ (key, value') :: after))
  | item {role : Role} (before : List Json) {value value' : Json} (after : List Json)
      (inside : Edit admits (role.at (.listed (before ++ value :: after)) before.length) value
        value') :
    Edit admits role (.arr (before ++ value :: after)) (.arr (before ++ value' :: after))

/-- A value, or the value behind an edit. -/
def SameOrEdited (role : Role) (value other : Json) : Prop :=
  value = other ∨ Edit Role.Admits role value other

theorem keyCount_perm {ν : Type} {es es' : List (String × ν)} (same : es.Perm es') (key : String) :
    keyCount key es = keyCount key es' :=
  (same.map Prod.fst).count_eq key

/-- Where a key stands at most once, the order of the entries does not matter. -/
theorem get?_perm {ν : Type} {es es' : List (String × ν)} (same : es.Perm es') {key : String}
    (once : keyCount key es ≤ 1) : Entries.get? key es = Entries.get? key es' := by
  induction same with
  | nil => rfl
  | cons entry _ ih =>
    rw [keyCount_cons] at once
    rw [Entries.get?, Entries.get?, ih (by omega)]
  | swap first second rest =>
    rw [keyCount_cons, keyCount_cons] at once
    simp only [Entries.get?]
    split
    · next here =>
      split
      · next there =>
        rw [if_pos here, if_pos there] at once
        omega
      · rfl
    · rfl
  | trans first _ ih ih' => exact (ih once).trans (ih' (keyCount_perm first key ▸ once))

/-- The keys of a record are distinct. -/
theorem Role.nodup_columns (role : Role) (parts : Parts Json) :
    (keysOf (role.columns parts)).Nodup := by
  cases role with
  | descriptor =>
    simp only [Role.columns]
    cases parts.kind? with
    | none => decide
    | some kind => cases kind <;> decide
  | literal =>
    cases parts with
    | listed items => simp [Role.columns]
    | keyed es =>
      simp only [Role.columns]
      cases (Parts.keyed es).literalKind? with
      | none => decide
      | some kind => cases kind <;> decide
  | _ => simp [Role.columns]

/-- What the value under a declared key is read as. -/
theorem Role.under_of_declared {role role' : Role} {parts : Parts Json} {i : Nat} {key : String}
    (declared : (role.columns parts)[i]? = some (key, role')) : role.under parts key = role' := by
  have found := (Entries.get?_eq_some_iff _ (role.nodup_columns parts) key role').mpr
    (List.mem_of_getElem? declared)
  rw [Role.under, found, Option.getD_some]

/-- What the item at the index of a declared key is read as. -/
theorem Role.at_of_declared {role role' : Role} {parts : Parts Json} {i : Nat} {key : String}
    (declared : (role.columns parts)[i]? = some (key, role')) : role.at parts i = role' := by
  cases role with
  | list => simp [Role.columns] at declared
  | _ => simp only [Role.at, declared, Option.map_some, Option.getD_some]

theorem Role.at_eq {role : Role} {parts others : Parts Json}
    (same : role.columns parts = role.columns others) (i : Nat) :
    role.at parts i = role.at others i := by
  unfold Role.at
  rw [same]

/-- Only the kind of a descriptor or of a literal says which keys a record declares. -/
theorem Role.columns_eq {role : Role} {parts others : Parts Json}
    (form : parts.IsKeyed ↔ others.IsKeyed)
    (descriptor : role = .descriptor → parts.kind? = others.kind?)
    (literal : role = .literal → parts.literalKind? = others.literalKind?) :
    role.columns parts = role.columns others := by
  cases role with
  | descriptor => rw [Role.columns, Role.columns, descriptor rfl]
  | literal =>
    cases parts <;> cases others
    · rw [Role.columns, Role.columns, literal rfl]
    · simp [Parts.IsKeyed] at form
    · simp [Parts.IsKeyed] at form
    · rfl
  | _ => rfl

theorem Parts.literalKind?_cons {es : List (String × Json)} {key : String} (value : Json)
    (different : key ≠ "type") :
    (Parts.keyed ((key, value) :: es)).literalKind? = (Parts.keyed es).literalKind? := by
  simp [Parts.literalKind?, Parts.part?, Entries.get?, different]

/-- A key that a record does not declare does not change which keys it declares. -/
theorem Role.columns_cons {role : Role} {es : List (String × Json)} {key : String} (value : Json)
    (foreign : key ∉ keysOf (role.columns (.keyed es))) :
    role.columns (.keyed ((key, value) :: es)) = role.columns (.keyed es) := by
  apply Role.columns_eq
  · exact Iff.rfl
  · rintro rfl
    have different : key ≠ "kind" := fun same => foreign (List.mem_cons.mpr (.inl same))
    simp [Parts.kind?, Parts.part?, Entries.get?, different]
  · rintro rfl
    exact Parts.literalKind?_cons value fun same => foreign (List.mem_cons.mpr (.inl same))

/-- What stands for no content does so before an edit and behind it. -/
theorem Edit.unit {value other : Json} (edit : Edit Role.Admits .plain value other) :
    (Buffer.unit value).toOption = (Buffer.unit other).toOption := by
  cases edit with
  | @reorder _ es es' perm =>
    cases es with
    | nil => rw [List.nil_perm.mp perm]
    | cons =>
      cases es' with
      | nil => exact absurd (List.perm_nil.mp perm) (List.cons_ne_nil _ _)
      | cons => rfl
  | add _ _ record => exact record.elim
  | remove _ _ record => exact record.elim
  | entry before _ _ => cases before <;> rfl
  | item => rfl

/-- A name with its content is the same before an edit and behind it. -/
theorem Edit.choice {τ : Type} (names : List (String × τ)) {value other : Json}
    (edit : Edit Role.Admits .plain value other) :
    (Buffer.choice names value).toOption = (Buffer.choice names other).toOption := by
  cases edit with
  | @reorder _ es es' perm =>
    match es, es' with
    | [], _ => rw [List.nil_perm.mp perm]
    | [_], _ => rw [List.singleton_perm.mp perm]
    | _ :: _ :: _, _ :: _ :: _ => rfl
    | _ :: _ :: _, [] | _ :: _ :: _, [_] => simpa using perm.length_eq
  | add _ _ record => exact record.elim
  | remove _ _ record => exact record.elim
  | @entry _ before key value value' after inside =>
    match before, after with
    | [], [] =>
      have content := Edit.unit inside
      simp only [List.nil_append, Buffer.choice]
      cases Buffer.variant names none (.str key) with
      | error => rfl
      | ok found =>
        generalize Buffer.unit value = first at content
        generalize Buffer.unit value' = second at content
        cases first <;> cases second <;> first | rfl | contradiction
    | [], _ :: _ | [_], _ | _ :: _ :: _, _ => rfl
  | item => rfl

/-- Lists and objects name no kind, before an edit and behind it. -/
theorem SameOrEdited.kind {role : Role} {value other : Json}
    (same : SameOrEdited role value other) :
    (Buffer.variant DescriptorKind.names (some .unrecognized) value).toOption =
      (Buffer.variant DescriptorKind.names (some .unrecognized) other).toOption := by
  rcases same with rfl | edit
  · rfl
  · cases edit <;> rfl

/-- What is read off a part is the same where the parts are related by what it is read as. -/
theorem bind_eq_of_rel {α : Type} {role : Role} {read : Json → Option α}
    (kept : ∀ value other, SameOrEdited role value other → read value = read other)
    {part other : Option Json} (same : Option.Rel (SameOrEdited role) part other) :
    part.bind read = other.bind read := by
  cases same with
  | none => rfl
  | some same => exact kept _ _ same

theorem kind?_eq {parts others : Parts Json}
    (same : Option.Rel (SameOrEdited .plain) (parts.part? 0 "kind") (others.part? 0 "kind")) :
    parts.kind? = others.kind? :=
  bind_eq_of_rel (fun _ _ => SameOrEdited.kind) same

theorem literalKind?_eq {parts others : Parts Json}
    (same : Option.Rel (SameOrEdited .plain) (parts.part? 0 "type") (others.part? 0 "type")) :
    parts.literalKind? = others.literalKind? := by
  refine bind_eq_of_rel (fun value other same => ?_) same
  rcases same with rfl | edit
  · rfl
  · exact edit.choice LiteralKind.names

theorem rel_refl (role : Role) (part : Option Json) :
    Option.Rel (SameOrEdited role) part part := by
  cases part with
  | none => exact .none
  | some part => exact .some (.inl rfl)

/-- The values under a key before and behind an edit of the value under a key. -/
theorem rel_entry {role : Role} (before after : List (String × Json)) {key : String}
    {value value' : Json} (edit : Edit Role.Admits role value value') {other : String}
    {role' : Role} (same : other = key → role' = role) :
    Option.Rel (SameOrEdited role') (Entries.get? other (before ++ (key, value) :: after))
      (Entries.get? other (before ++ (key, value') :: after)) := by
  simp only [Entries.get?_append, Entries.get?]
  cases Entries.get? other before with
  | some part => exact rel_refl role' _
  | none =>
    by_cases here : key = other
    · rw [if_pos here, if_pos here, same here.symm]
      exact .some (.inr edit)
    · rw [if_neg here, if_neg here]
      exact rel_refl role' _

/-- The items before and behind an edit of an item. -/
theorem rel_item {role : Role} (before after : List Json) {value value' : Json}
    (edit : Edit Role.Admits role value value') (i : Nat) {role' : Role}
    (same : i = before.length → role' = role) :
    Option.Rel (SameOrEdited role') (before ++ value :: after)[i]?
      (before ++ value' :: after)[i]? := by
  induction before generalizing i with
  | nil =>
    cases i with
    | zero =>
      rw [same rfl]
      exact .some (.inr edit)
    | succ i => exact rel_refl role' _
  | cons first before ih =>
    cases i with
    | zero => exact rel_refl role' _
    | succ i => exact ih i fun last => same (congrArg (· + 1) last)

theorem Role.columns_entry {role : Role} (before after : List (String × Json)) {key : String}
    {value value' : Json}
    (edit : Edit Role.Admits (role.under (.keyed (before ++ (key, value) :: after)) key) value
      value') :
    role.columns (.keyed (before ++ (key, value) :: after)) =
      role.columns (.keyed (before ++ (key, value') :: after)) := by
  apply Role.columns_eq
  · exact Iff.rfl
  · rintro rfl
    refine kind?_eq (rel_entry before after edit ?_)
    rintro rfl
    rfl
  · rintro rfl
    refine literalKind?_eq (rel_entry before after edit ?_)
    rintro rfl
    rfl

theorem Role.columns_item {role : Role} (before after : List Json) {value value' : Json}
    (edit : Edit Role.Admits (role.at (.listed (before ++ value :: after)) before.length) value
      value') :
    role.columns (.listed (before ++ value :: after)) =
      role.columns (.listed (before ++ value' :: after)) := by
  apply Role.columns_eq
  · exact Iff.rfl
  · rintro rfl
    refine kind?_eq (rel_item before after edit 0 ?_)
    intro first
    rw [← first]
    rfl
  · rintro rfl
    refine literalKind?_eq (rel_item before after edit 0 ?_)
    intro first
    rw [← first]
    rfl

/-- An edit can be undone. -/
theorem Edit.symm {role : Role} {value other : Json} (edit : Edit Role.Admits role value other) :
    Edit Role.Admits role other value := by
  induction edit with
  | reorder same => exact .reorder same.symm
  | add key value record foreign admitted => exact .remove key value record foreign admitted
  | remove key value record foreign admitted => exact .add key value record foreign admitted
  | @entry role before key value value' after inside ih =>
    -- The role of the edited place is the same from the other side.
    rw [Role.under, Role.columns_entry before after inside] at ih
    exact .entry before after ih
  | @item role before value value' after inside ih =>
    rw [Role.at_eq (Role.columns_item before after inside)] at ih
    exact .item before after ih

theorem mem_keysOf_of_declared {columns : List (String × Role)} {i : Nat} {key : String}
    {role : Role} (declared : columns[i]? = some (key, role)) : key ∈ keysOf columns :=
  List.mem_map_of_mem (f := Prod.fst) (List.mem_of_getElem? declared)

section

variable {keys : List String} {es : List (String × Json)} {key other : String} (value : Json)
  (foreign : key ∉ keys) (declared : other ∈ keys)
include foreign declared

theorem keyCount_foreign : keyCount other ((key, value) :: es) = keyCount other es := by
  have different : key ≠ other := fun same => foreign (same ▸ declared)
  simp [keyCount_cons, different]

theorem get?_foreign : Entries.get? other ((key, value) :: es) = Entries.get? other es := by
  have different : key ≠ other := fun same => foreign (same ▸ declared)
  rw [Entries.get?, if_neg different]

end

/-- Entries in which each declared key stands as often, with values that differ by an edit. -/
theorem alike_of_entries {columns : List (String × Role)} {es es' : List (String × Json)}
    (record : (Parts.keyed es).IsRecord (keysOf columns))
    (counts : ∀ key ∈ keysOf columns, keyCount key es' = keyCount key es)
    (values : ∀ (i : Nat) (key : String) (role : Role), columns[i]? = some (key, role) →
      Option.Rel (SameOrEdited role) (Entries.get? key es) (Entries.get? key es')) :
    Parts.Alike SameOrEdited columns (.keyed es) (.keyed es') where
  form := Iff.rfl
  record := by
    refine Parts.isRecord_keyed_iff.mpr fun key inside => ?_
    have once := Parts.isRecord_keyed_iff.mp record key inside
    rwa [Parts.Once, ← counts key inside] at once
  part := values

/-- What an edit leaves of a record: its form, its keys and the values under them, of which one may
be edited. -/
theorem SameOrEdited.splits {role : Role} {value other : Json}
    (same : SameOrEdited role value other) : Splits SameOrEdited role value other := by
  rintro parts rfl record
  rcases same with rfl | edit
  · exact ⟨parts, rfl, Iff.rfl, record, fun _ _ _ _ => rel_refl _ _⟩
  generalize written : parts.toJson = value at edit
  cases edit with
  | @reorder _ es es' perm =>
    -- Only a key that stands once has the same first value in any order.
    obtain rfl := Parts.toJson_eq_obj_iff.mp written
    refine ⟨.keyed es', rfl, alike_of_entries record ?_ ?_⟩
    · exact fun key _ => (keyCount_perm perm key).symm
    · intro i key role declared
      have once := Parts.isRecord_keyed_iff.mp record key (mem_keysOf_of_declared declared)
      rw [get?_perm perm once]
      exact rel_refl role _
  | @add _ es key value _ foreign admitted =>
    obtain rfl := Parts.toJson_eq_obj_iff.mp written
    refine ⟨.keyed ((key, value) :: es), rfl, alike_of_entries record ?_ ?_⟩
    · exact fun other declared => keyCount_foreign value foreign declared
    · intro i other role declared
      rw [get?_foreign value foreign (mem_keysOf_of_declared declared)]
      exact rel_refl role _
  | @remove _ es key value _ foreign admitted =>
    obtain rfl := Parts.toJson_eq_obj_iff.mp written
    rw [Role.columns_cons value foreign] at record ⊢
    refine ⟨.keyed es, rfl, alike_of_entries record ?_ ?_⟩
    · exact fun other declared => (keyCount_foreign value foreign declared).symm
    · intro i other role declared
      rw [get?_foreign value foreign (mem_keysOf_of_declared declared)]
      exact rel_refl role _
  | @entry _ before key value value' after inside =>
    obtain rfl := Parts.toJson_eq_obj_iff.mp written
    refine ⟨.keyed (before ++ (key, value') :: after), rfl, alike_of_entries record ?_ ?_⟩
    · exact fun other _ => by simp [keyCount_append, keyCount_cons]
    · intro i other role' declared
      refine rel_entry before after inside ?_
      rintro rfl
      exact (Role.under_of_declared declared).symm
  | @item _ before value value' after inside =>
    obtain rfl := Parts.toJson_eq_arr_iff.mp written
    refine ⟨.listed (before ++ value' :: after), rfl, Iff.rfl, ?_, ?_⟩
    · simpa [Parts.isRecord_listed_iff, Parts.AtMost] using record
    · intro i key role' declared
      refine rel_item before after inside i ?_
      rintro rfl
      exact (Role.at_of_declared declared).symm

theorem forall₂_refl (role : Role) (values : List Json) :
    List.Forall₂ (SameOrEdited role) values values :=
  List.forall₂_same.mpr fun _ _ => .inl rfl

theorem related_refl (entries : List (String × Json)) :
    Entries.Related (SameOrEdited .plain) entries entries :=
  List.forall₂_same.mpr fun _ _ => ⟨rfl, .inl rfl⟩

theorem SameOrEdited.atom {role : Role} (atom : Json.Atom) {other : Json}
    (same : SameOrEdited role atom.toJson other) : other = atom.toJson := by
  rcases same with rfl | edit
  · rfl
  · cases atom <;> cases edit

theorem hasNullContent_cons_iff {es : List (String × Json)} {key : String} {value : Json} :
    (Parts.keyed ((key, value) :: es)).HasNullContent ↔
      if key = "value" then value = .null ∧ key ∉ es.map Prod.fst
      else (Parts.keyed es).HasNullContent := by
  by_cases content : key = "value"
  · simp [Parts.HasNullContent, Parts.Once, Parts.part?, Entries.get?, content, keyCount,
      List.count_eq_zero, and_comm]
  · simp [Parts.HasNullContent, Parts.Once, Parts.part?, Entries.get?, keyCount_cons, content]

theorem Parts.HasNullContent.tail {es : List (String × Json)} {key : String} {value : Json}
    (content : (Parts.keyed ((key, value) :: es)).HasNullContent) :
    (Parts.keyed es).HasNullContent := by
  have split := hasNullContent_cons_iff.mp content
  split_ifs at split with here
  · subst here
    have absent : keyCount "value" es = 0 := List.count_eq_zero.mpr split.2
    simp [Parts.HasNullContent, Parts.Once, Parts.part?, absent, keyCount_eq_zero_iff.mp absent]
  · exact split

/-- An edit of a null literal leaves nothing but null as its content. -/
theorem Edit.nullContent {es : List (String × Json)} {other : Json}
    (edit : Edit Role.Admits .literal (.obj es) other)
    (null : (Parts.keyed es).literalKind? = some .null)
    (content : (Parts.keyed es).HasNullContent) :
    ∃ es', other = .obj es' ∧ (Parts.keyed es').HasNullContent := by
  cases edit with
  | @reorder _ _ es' perm =>
    refine ⟨es', rfl, ?_, ?_⟩
    · have once := content.1
      rwa [Parts.Once, keyCount_perm perm] at once
    · have part := content.2
      rwa [Parts.part?, get?_perm perm content.1] at part
  | add key value _ _ admitted =>
    refine ⟨_, rfl, hasNullContent_cons_iff.mpr ?_⟩
    split_ifs with here
    · exact admitted rfl null here
    · exact content
  | remove => exact ⟨_, rfl, content.tail⟩
  | @entry _ before key value value' after inside =>
    refine ⟨before ++ (key, value') :: after, rfl, ?_, fun part found => ?_⟩
    · simpa [Parts.Once, keyCount_append, keyCount_cons] using content.1
    -- The content of a null literal is not declared, so that it is edited as a plain value.
    have plain : "value" = key →
        Role.plain = Role.literal.under (.keyed (before ++ (key, value) :: after)) key := by
      rintro rfl
      simp [Role.under, Role.columns, null, LiteralKind.columns, Entries.get?]
    have values := rel_entry before after inside plain
    have nulls := content.2
    simp only [Parts.part?] at found nulls
    rw [found] at values
    generalize Entries.get? "value" (before ++ (key, value) :: after) = old at values nulls
    cases values with
    | some same =>
      obtain rfl := nulls _ rfl
      exact SameOrEdited.atom .null same

/-- Values are loaded alike before and behind an edit. -/
theorem simulation_edit : Simulation SameOrEdited where
  atom atom _ same := same.atom atom
  single es other short same := by
    rcases same with rfl | edit
    · exact ⟨es, rfl, related_refl es⟩
    cases edit with
    | @reorder _ _ es' perm =>
      obtain rfl : es = es' := by
        match es with
        | [] => exact (List.nil_perm.mp perm).symm
        | [entry] => exact List.singleton_perm.mp perm
      exact ⟨es, rfl, related_refl es⟩
    | add key value record => exact record.elim
    | remove key value record => exact record.elim
    | @entry _ before key value value' after inside =>
      refine ⟨before ++ (key, value') :: after, rfl, ?_⟩
      exact List.rel_append (related_refl before) (.cons ⟨rfl, .inr inside⟩ (related_refl after))
  list role items other same := by
    rcases same with rfl | edit
    · exact ⟨items, rfl, forall₂_refl role items⟩
    cases edit with
    | @item _ before value value' after inside =>
      refine ⟨before ++ value' :: after, rfl, ?_⟩
      exact List.rel_append (forall₂_refl role before)
        (.cons (.inr inside) (forall₂_refl role after))
  record _ _ _ same := same.splits
  nullContent es other same null content := by
    rcases same with rfl | edit
    · exact ⟨es, rfl, content⟩
    · exact edit.nullContent null content

/-- The order of the keys in the objects of a value does not matter for the module that is loaded
from it, nor does what stands under keys that the records in it do not declare. Of the keys that a
null literal does not declare only that of the content is looked at: nothing but null may stand
under it. -/
theorem sourceModule_of_edits {value edited : Json}
    (edits : Relation.ReflTransGen (Edit Role.Admits .source) value edited)
    (source : SourceModule) :
    Loader.fromValue Reader.sourceModule value = .ok source ↔
      Loader.fromValue Reader.sourceModule edited = .ok source := by
  have step {value edited : Json} (edit : Edit Role.Admits .source value edited)
      (loaded : Loader.fromValue Reader.sourceModule value = .ok source) :
      Loader.fromValue Reader.sourceModule edited = .ok source := by
    have lifted : Lifted SameOrEdited .source (.ofJson value) (.ofJson edited) :=
      ⟨value, edited, holds_ofJson value, .inr edit, rfl⟩
    exact Except.mapError_eq_ok_iff.mpr (simulation_edit.readSourceModule _ _ _ lifted
      (Except.mapError_eq_ok_iff.mp loaded))
  induction edits with
  | refl => rfl
  | tail _ edit ih => exact ih.trans ⟨step edit, step edit.symm⟩

/-- The tag of a literal comes behind its value, with another key before both, and the kind of the
descriptor behind the literal. Another literal is null and gets null as its content. -/
theorem sourceModule_of_edits_reordered :
    let module (first second : Json) : Json :=
      .obj [("declarations", .arr [.arr [.str "A", first], .arr [.str "B", second]])]
    let literal (content : List (String × Json)) : Json :=
      .obj [("kind", .str "literal"), ("value", .obj content)]
    let value := module (literal [("type", .str "number"), ("value", .num (.int 5))])
      (literal [("type", .str "null")])
    let edited := module (.obj [("value", .obj [("note", .null), ("value", .num (.int 5)),
      ("type", .str "number")]), ("kind", .str "literal")])
      (literal [("value", .null), ("type", .str "null")])
    let source : SourceModule := ⟨[⟨"A", .literal (.number ⟨"5"⟩)⟩, ⟨"B", .literal .null⟩]⟩
    Relation.ReflTransGen (Edit Role.Admits .source) value edited ∧
      Loader.fromValue Reader.sourceModule value = .ok source ∧
      Loader.fromValue Reader.sourceModule edited = .ok source := by
  intro module literal value edited source
  have inFirst {descriptor other : Json} (second : Json)
      (edit : Edit Role.Admits .descriptor descriptor other) :
      Edit Role.Admits .source (module descriptor second) (module other second) :=
    .entry [] [] (.item [] [.arr [.str "B", second]] (.item [.str "A"] [] edit))
  have inSecond (first : Json) {descriptor other : Json}
      (edit : Edit Role.Admits .descriptor descriptor other) :
      Edit Role.Admits .source (module first descriptor) (module first other) :=
    .entry [] [] (.item [.arr [.str "A", first]] [] (.item [.str "B"] [] edit))
  have edits : Relation.ReflTransGen (Edit Role.Admits .source) value edited := by
    refine .head (inFirst _ (.entry [("kind", .str "literal")] [] (.reorder (.swap _ _ _)))) ?_
    refine .head (inFirst _ (.entry [("kind", .str "literal")] []
      (.add "note" .null trivial (by decide) fun _ _ content => absurd content (by decide)))) ?_
    refine .head (inFirst _ (.reorder (.swap _ _ _))) ?_
    exact .single (inSecond _ (.entry [("kind", .str "literal")] []
      (.add "value" .null trivial (by decide) fun _ _ _ => ⟨rfl, by decide⟩)))
  have loaded : Loader.fromValue Reader.sourceModule value = .ok source := rfl
  exact ⟨edits, loaded, (sourceModule_of_edits edits source).mp loaded⟩

/-- With any values under the keys that are not declared, the law does not hold: null has no
content, and a null literal with a number there is refused. -/
theorem sourceModule_refuses_content_of_null :
    let module (literal : Json) : Json := .obj [("declarations", .arr [.obj [("name", .str "A"),
      ("type", .obj [("kind", .str "literal"), ("value", literal)])]])]
    let value := module (.obj [("type", .str "null")])
    let edited := module (.obj [("value", .num (.int 5)), ("type", .str "null")])
    Edit (fun _ _ _ _ => True) .source value edited ∧
      Loader.fromValue Reader.sourceModule value = .ok ⟨[⟨"A", .literal .null⟩]⟩ ∧
      Loader.fromValue Reader.sourceModule edited = .error
        ⟨.wrongType (.atom (.num (.int 5))) (.unitVariant "LiteralValue" "Null"),
          [.key "declarations", .index 0, .key "type"], none⟩ := by
  refine ⟨?_, rfl, rfl⟩
  have content : Edit (fun _ _ _ _ => True) .literal (.obj [("type", .str "null")])
      (.obj [("value", .num (.int 5)), ("type", .str "null")]) :=
    .add "value" (.num (.int 5)) trivial (by decide) trivial
  have literal : Edit (fun _ _ _ _ => True) .descriptor
      (.obj [("kind", .str "literal"), ("value", .obj [("type", .str "null")])])
      (.obj [("kind", .str "literal"),
        ("value", .obj [("value", .num (.int 5)), ("type", .str "null")])]) :=
    .entry [("kind", .str "literal")] [] content
  exact .entry [] [] (.item [] [] (.entry [("name", .str "A")] [] literal))

end DecoderForge.Loading
