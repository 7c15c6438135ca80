/-
This file proves that two values are loaded alike when their parts correspond to each other: what
stands under the keys that a record declares, and the items of lists.
-/

import DecoderForge.Proofs.Json.Compact
import DecoderForge.Proofs.Loading.Parts

namespace DecoderForge.Loading

variable {ν μ ε δ α : Type}

/-- What a value is read as. -/
inductive Role where
  /-- Something that has no keys of its own, such as a text. -/
  | plain
  | list (item : Role)
  | source
  | declaration
  | field
  | descriptor
  | literal

/-- The keys that a descriptor of a kind has besides its kind. -/
def DescriptorKind.columns : DescriptorKind → List (String × Role)
  | .primitive => [("type", .plain)]
  | .opaqueObject | .unrecognized => []
  | .union => [("members", .list .descriptor)]
  | .array => [("element", .descriptor)]
  | .tuple => [("elements", .list .descriptor)]
  | .literal => [("value", .literal)]
  | .reference => [("name", .plain)]
  | .record => [("fields", .list .field)]
  | .unsupported => [("syntax", .plain)]

/-- The keys that a literal of a kind has besides its kind. Null has no content. -/
def LiteralKind.columns : LiteralKind → List (String × Role)
  | .null => []
  | .string | .number | .boolean | .bigInt => [("value", .plain)]

/-- The kind of a descriptor with the given parts. -/
def Parts.kind? (parts : Parts Json) : Option DescriptorKind :=
  (parts.part? 0 "kind").bind fun tag =>
    (Buffer.variant DescriptorKind.names (some .unrecognized) tag).toOption

/-- The kind of a literal with the given parts under its keys. -/
def Parts.literalKind? (parts : Parts Json) : Option LiteralKind :=
  (parts.part? 0 "type").bind fun tag => (Buffer.choice LiteralKind.names tag).toOption

/-- The keys that a record declares, and what the values under them are read as. In a list a literal
has a content whatever its kind. -/
def Role.columns : Role → Parts Json → List (String × Role)
  | .source, _ => [("declarations", .list .declaration)]
  | .declaration, _ => [("name", .plain), ("type", .descriptor)]
  | .field, _ => [("name", .plain), ("type", .descriptor), ("optional", .plain)]
  | .literal, .keyed es =>
    ("type", .plain) :: ((Parts.keyed es).literalKind?.map LiteralKind.columns).getD []
  | .literal, .listed _ => [("type", .plain), ("value", .plain)]
  | .descriptor, parts =>
    ("kind", .plain) :: (parts.kind?.map DescriptorKind.columns).getD []
  | .plain, _ | .list _, _ => []

/-- The keys without what is read under them. -/
abbrev keysOf (columns : List (String × Role)) : List String := columns.map Prod.fst

/-- What is loaded from one of two related values is loaded from the other. -/
def Carries (related : ν → μ → Prop) (load : ν → Except ε α) (load' : μ → Except δ α) : Prop :=
  ∀ value other a, related value other → load value = .ok a → load' other = .ok a

theorem Carries.map {related : ν → μ → Prop} {load : ν → Except ε α} {load' : μ → Except δ α}
    (carries : Carries related load load') {β : Type} (f : α → β) :
    Carries related (fun value => (load value).map f) fun value => (load' value).map f := by
  intro value other b same loaded
  obtain ⟨a, here, rfl⟩ := Except.map_eq_ok_iff.mp loaded
  exact Except.map_eq_ok_iff.mpr ⟨a, carries value other a same here, rfl⟩

theorem Carries.each {related : ν → μ → Prop} {load : ν → Except ε α} {load' : μ → Except δ α}
    (carries : Carries related load load') {values : List ν} {others : List μ} {as : List α}
    (same : List.Forall₂ related values others)
    (loaded : List.Forall₂ (fun value a => load value = .ok a) values as) :
    List.Forall₂ (fun other a => load' other = .ok a) others as := by
  induction same generalizing as with
  | nil =>
    cases loaded
    exact .nil
  | cons here _ ih =>
    cases loaded with
    | cons first rest => exact .cons (carries _ _ _ here first) (ih rest)

/-- The second of two records has the parts of the first under the given keys, up to a relation
that depends on what they are read as. -/
structure Parts.Alike (related : Role → ν → μ → Prop) (columns : List (String × Role))
    (first : Parts ν) (second : Parts μ) : Prop where
  form : first.IsKeyed ↔ second.IsKeyed
  record : second.IsRecord (keysOf columns)
  part : ∀ i key role, columns[i]? = some (key, role) →
    Option.Rel (related role) (first.part? i key) (second.part? i key)

section

variable {related : Role → ν → μ → Prop} {columns : List (String × Role)} {first : Parts ν}
  {second : Parts μ}

theorem Parts.Alike.once (alike : Parts.Alike related columns first second) {key : String}
    (declared : key ∈ keysOf columns) : second.Once key :=
  alike.record.1 key declared

/-- What is loaded under a key of one record is loaded under this key of the other. -/
theorem Parts.Alike.loads (alike : Parts.Alike related columns first second) {i : Nat}
    {key : String} {role : Role} (declared : columns[i]? = some (key, role)) {load : ν → Except ε α}
    {load' : μ → Except δ α} (carries : Carries (related role) load load') {found : Option α}
    (loads : first.Loads i key load found) : second.Loads i key load' found := by
  have parts := alike.part i key role declared
  unfold Parts.Loads at loads ⊢
  generalize first.part? i key = part at parts loads
  generalize second.part? i key = other at parts
  cases parts with
  | none =>
    cases loads
    exact .none
  | some same =>
    cases loads with
    | some loaded => exact .some (carries _ _ _ same loaded)

end

/-- The second of two values is split into parts as the first is, if the first is a record. -/
def Splits (related : Role → Json → Json → Prop) (role : Role) (value other : Json) : Prop :=
  ∀ parts : Parts Json, parts.toJson = value → parts.IsRecord (keysOf (role.columns parts)) →
    ∃ others : Parts Json, others.toJson = other ∧
      Parts.Alike related (role.columns parts) parts others

/-- Null stands where a literal may have its content, if anything does. -/
def Parts.HasNullContent (parts : Parts Json) : Prop :=
  parts.Once "value" ∧ ∀ part ∈ parts.part? 1 "value", part = .null

/-- A relation that is kept on the way from values to their parts. -/
structure Simulation (related : Role → Json → Json → Prop) : Prop where
  atom : ∀ (atom : Json.Atom) other, related .plain atom.toJson other → other = atom.toJson
  /-- A name may be written as the only key of an object. -/
  single : ∀ es other, es.length ≤ 1 → related .plain (.obj es) other →
    ∃ es', other = .obj es' ∧ Entries.Related (related .plain) es es'
  list : ∀ role items other, related (.list role) (.arr items) other →
    ∃ items', other = .arr items' ∧ List.Forall₂ (related role) items items'
  record : ∀ role value other, related role value other → Splits related role value other
  /-- Null may stand under the key of the content that a null literal does not declare. -/
  nullContent : ∀ es other, related .literal (.obj es) other →
    (Parts.keyed es).literalKind? = some .null → (Parts.keyed es).HasNullContent →
    ∃ es', other = .obj es' ∧ (Parts.keyed es').HasNullContent

theorem Parts.literalKind?_eq_some_iff {parts : Parts Json} {kind : LiteralKind} :
    parts.literalKind? = some kind ↔
      parts.Loads 0 "type" (Buffer.choice LiteralKind.names) (some kind) := by
  have read (tag : Json) : (Buffer.choice LiteralKind.names tag).toOption = some kind ↔
      Buffer.choice LiteralKind.names tag = .ok kind := by
    cases Buffer.choice LiteralKind.names tag <;> simp [Except.toOption]
  simp only [Parts.literalKind?, Option.bind_eq_some_iff, Parts.loads_some_iff, read]

/-- A literal that is written as an object has a kind, and its content goes by the kind. -/
theorem literalValue_obj_iff {es : List (String × Json)} {a : LiteralValue} :
    Buffer.literalValue (.obj es) = .ok a ↔
      (Parts.keyed es).Once "type" ∧ (Parts.keyed es).Once "value" ∧
        ∃ kind, (Parts.keyed es).literalKind? = some kind ∧
          ∃ found, (Parts.keyed es).Loads 1 "value" (Buffer.literalContent kind) found ∧
            (found = some a ∨ found = none ∧ LiteralKind.bare id kind = .ok a) := by
  have different : LiteralKind.shape.contentKey ≠ LiteralKind.shape.tagKey := by decide
  have read : Buffer.literalValue (Parts.keyed es).toJson = .ok a ↔ _ :=
    Buffer.tagAndContent_toJson_iff different
  simp only [Parts.literalKind?_eq_some_iff]
  refine read.trans ?_
  simp [LiteralKind.shape, Parts.isRecord_keyed_iff, Parts.IsKeyed, Buffer.tagOf, and_assoc]

/-- A null literal is loaded if its kind stands there once and nothing but null is its content. -/
theorem literalValue_null_iff {es : List (String × Json)}
    (null : (Parts.keyed es).literalKind? = some .null) {a : LiteralValue} :
    Buffer.literalValue (.obj es) = .ok a ↔
      (Parts.keyed es).Once "type" ∧ (Parts.keyed es).HasNullContent ∧ a = .null := by
  rw [literalValue_obj_iff, null, Parts.HasNullContent]
  cases content : (Parts.keyed es).part? 1 "value" with
  | none =>
    simp [Parts.loads_of_missing content, LiteralKind.bare, eq_comm]
  | some part =>
    have loaded : Buffer.literalContent .null part = .ok a ↔ part = .null ∧ a = .null := by
      cases part <;>
        simp [Buffer.literalContent, LiteralKind.content, Buffer.literalNull, Except.map, eq_comm]
    simp [Parts.loads_of_part content, loaded, and_assoc]

namespace Simulation

open Buffer

variable {related : Role → Json → Json → Prop} (simulation : Simulation related)
include simulation

/-- What is not loaded from parts is loaded from atoms, which stay as they are. -/
theorem atomic {load : Json → Except Cause α}
    (fails : ∀ (parts : Parts Json) a, load parts.toJson ≠ .ok a) :
    Carries (related .plain) load load := by
  intro value other a same loaded
  obtain ⟨atom, rfl⟩ | ⟨parts, rfl⟩ := Parts.exists_atom_or_parts value
  · rw [simulation.atom atom other same]
    exact loaded
  · exact absurd loaded (fails parts a)

theorem text : Carries (related .plain) text text :=
  simulation.atomic fun parts _ => by cases parts <;> exact nofun

theorem flag : Carries (related .plain) flag flag :=
  simulation.atomic fun parts _ => by cases parts <;> exact nofun

theorem numericLiteral : Carries (related .plain) numericLiteral numericLiteral :=
  simulation.atomic fun parts _ => by cases parts <;> exact nofun

theorem literalNull : Carries (related .plain) literalNull literalNull :=
  simulation.atomic fun parts _ => by cases parts <;> exact nofun

theorem variant {τ : Type} (names : List (String × τ)) (other : Option τ) :
    Carries (related .plain) (variant names other) (variant names other) :=
  simulation.atomic fun parts _ => by cases parts <;> exact nofun

theorem unit : Carries (related .plain) unit unit := by
  intro value other u same loaded
  cases value with
  | null =>
    rw [simulation.atom .null other same]
    exact loaded
  | obj es =>
    cases es with
    | nil =>
      obtain ⟨es', rfl, entries⟩ := simulation.single [] other (Nat.zero_le _) same
      cases entries
      exact loaded
    | cons => contradiction
  | _ => contradiction

theorem choice {τ : Type} (names : List (String × τ)) :
    Carries (related .plain) (choice names) (choice names) := by
  intro value other t same loaded
  cases value with
  | str s =>
    rw [simulation.atom (.str s) other same]
    exact loaded
  | obj es =>
    match es with
    | [(name, content)] =>
      obtain ⟨es', rfl, entries⟩ := simulation.single _ other (Nat.le_refl _) same
      obtain ⟨⟨name', content'⟩, _, ⟨rfl, contents⟩, rest, rfl⟩ :=
        List.forall₂_cons_left_iff.mp entries
      cases rest
      simp only [Buffer.choice, Except.step_eq_ok_iff, Except.pure_eq_ok_iff] at loaded ⊢
      obtain ⟨t, found, u, empty, rfl⟩ := loaded
      exact ⟨t, found, u, simulation.unit content content' u contents empty, rfl⟩
    | [] | _ :: _ :: _ => contradiction
  | _ => contradiction

theorem listOf {role : Role} {load load' : Json → Except Cause α}
    (carries : Carries (related role) load load') :
    Carries (related (.list role)) (Buffer.list load) (Buffer.list load') := by
  intro value other as same loaded
  cases value with
  | arr items =>
    obtain ⟨items', rfl, each⟩ := simulation.list role items other same
    exact mapM_eq_ok_iff.mpr (carries.each each (mapM_eq_ok_iff.mp loaded))
  | _ => contradiction

theorem literalContent (kind : LiteralKind) :
    Carries (related .plain) (literalContent kind) (literalContent kind) := by
  cases kind with
  | string => exact simulation.text.map _
  | number => exact simulation.numericLiteral.map _
  | boolean => exact simulation.flag.map _
  | null => exact simulation.literalNull.map _
  | bigInt => exact simulation.text.map _

/-- A literal that declares its content is loaded from the parts that correspond to those of
another. -/
theorem declaredLiteral {parts : Parts Json} {other : Json} {a : LiteralValue}
    (declared : Role.literal.columns parts = [("type", .plain), ("value", .plain)])
    (same : related .literal parts.toJson other) (loaded : literalValue parts.toJson = .ok a) :
    literalValue other = .ok a := by
  have different : LiteralKind.shape.contentKey ≠ LiteralKind.shape.tagKey := by decide
  obtain ⟨record, kind, tag, found, content, outcome⟩ :=
    (tagAndContent_toJson_iff different).mp loaded
  obtain ⟨others, rfl, alike⟩ :=
    simulation.record .literal _ other same parts rfl (declared ▸ record)
  rw [declared] at alike
  have tags : Carries (related .plain) (tagOf LiteralKind.names parts)
      (tagOf LiteralKind.names others) := by
    have form := alike.form
    cases parts <;> cases others
    · exact simulation.choice _
    · simp [Parts.IsKeyed] at form
    · simp [Parts.IsKeyed] at form
    · exact simulation.variant _ _
  refine (tagAndContent_toJson_iff different).mpr ⟨alike.record, kind, alike.loads rfl tags tag,
    found, alike.loads rfl (simulation.literalContent kind) content, ?_⟩
  rw [← alike.form]
  exact outcome

theorem nullLiteral {es : List (String × Json)} {other : Json} {a : LiteralValue}
    (null : (Parts.keyed es).literalKind? = some .null)
    (same : related .literal (.obj es) other) (loaded : literalValue (.obj es) = .ok a) :
    literalValue other = .ok a := by
  have columns : Role.literal.columns (.keyed es) = [("type", .plain)] := by
    simp [Role.columns, null, LiteralKind.columns]
  obtain ⟨once, content, rfl⟩ := (literalValue_null_iff null).mp loaded
  obtain ⟨es', rfl, content⟩ := simulation.nullContent es other same null content
  obtain ⟨others, written, alike⟩ := simulation.record .literal _ _ same (.keyed es) rfl
    (columns ▸ isRecord_one_iff.mpr once)
  obtain rfl := Parts.toJson_eq_obj_iff.mp written
  rw [columns] at alike
  have kind := Parts.literalKind?_eq_some_iff.mpr
    (alike.loads rfl (simulation.choice _) (Parts.literalKind?_eq_some_iff.mp null))
  exact (literalValue_null_iff kind).mpr ⟨alike.once List.mem_cons_self, content, rfl⟩

/-- A literal is loaded from the parts that correspond to those of another. -/
theorem literalValue : Carries (related .literal) literalValue literalValue := by
  intro value other a same loaded
  obtain ⟨parts, rfl⟩ := Parts.exists_of_ok (fun atom _ => by cases atom <;> exact nofun) loaded
  cases parts with
  | listed items => exact simulation.declaredLiteral rfl same loaded
  | keyed es =>
    obtain ⟨_, _, kind, named, _⟩ := literalValue_obj_iff.mp loaded
    cases kind with
    | null => exact simulation.nullLiteral named same loaded
    | _ =>
      refine simulation.declaredLiteral ?_ same loaded
      rw [Role.columns, named]
      rfl

/-- A field is loaded from the parts that correspond to those of another, from any ways to load
descriptors that correspond. -/
theorem field {load load' : Json → Except Cause Descriptor}
    (carries : Carries (related .descriptor) load load') :
    Carries (related .field) (Buffer.field load) (Buffer.field load') := by
  intro value other declared same loaded
  obtain ⟨parts, rfl⟩ := Parts.exists_of_ok (fun atom _ => by cases atom <;> exact nofun) loaded
  obtain ⟨record, name, type, found, optional, flagged⟩ := field_toJson_iff.mp loaded
  obtain ⟨others, rfl, alike⟩ := simulation.record .field _ other same parts rfl record
  exact field_toJson_iff.mpr ⟨alike.record, alike.loads rfl simulation.text name,
    alike.loads rfl carries type, found, alike.loads rfl simulation.flag optional, flagged⟩

end Simulation

/-- A descriptor with one field besides its kind. -/
theorem onlyField_without_iff {variant key : String} {load : Json → Except Cause α}
    {parts : Parts Json} {a : α} (different : key ≠ "kind") :
    parts.Once "kind" ∧ Buffer.onlyField variant key load (parts.without "kind").toJson = .ok a ↔
      parts.IsRecord ["kind", key] ∧ parts.Loads 1 key load (some a) := by
  have fresh : "kind" ∉ [key] := by simpa using Ne.symm different
  have loads : (parts.without "kind").Loads 0 key load (some a) ↔
      parts.Loads 1 key load (some a) := by
    rw [Parts.Loads, Parts.part?_without different, Parts.Loads]
  rw [Buffer.onlyField, Buffer.single_toJson_iff, ← and_assoc, Parts.without_isRecord_iff fresh,
    loads]

/-- A descriptor with nothing besides its kind. -/
theorem nothing_without_iff {parts : Parts Json} {u : Unit} :
    parts.Once "kind" ∧ Buffer.nothing (parts.without "kind").toJson = .ok u ↔
      parts.IsRecord ["kind"] := by
  rw [Buffer.nothing_toJson_iff, Parts.without_isRecord_iff List.not_mem_nil]

/-- What is loaded as a descriptor of a kind has the keys of this kind. -/
theorem isRecord_of_descriptorContent {load : Json → Except Cause Descriptor}
    {kind : DescriptorKind} {parts : Parts Json} {loaded : Descriptor} (once : parts.Once "kind")
    (read : Buffer.descriptorContent load kind (parts.without "kind").toJson = .ok loaded) :
    parts.IsRecord ("kind" :: keysOf kind.columns) := by
  cases kind with
  | opaqueObject | unrecognized =>
    obtain ⟨_, here, _⟩ := Except.map_eq_ok_iff.mp read
    exact nothing_without_iff.mp ⟨once, here⟩
  | _ =>
    obtain ⟨_, here, _⟩ := Except.map_eq_ok_iff.mp read
    exact ((onlyField_without_iff (by decide)).mp ⟨once, here⟩).1

section

variable {related : Role → Json → Json → Prop} {parts others : Parts Json}

/-- The one field of a descriptor is loaded from what stands under the same key. -/
theorem Parts.Alike.onlyField {β : Type} {variant key : String} {role : Role}
    (alike : Parts.Alike related [("kind", .plain), (key, role)] parts others)
    (different : key ≠ "kind") (once : parts.Once "kind") {load load' : Json → Except Cause α}
    (carries : Carries (related role) load load') {f : α → β} {b : β}
    (read : (Buffer.onlyField variant key load (parts.without "kind").toJson).map f = .ok b) :
    (Buffer.onlyField variant key load' (others.without "kind").toJson).map f = .ok b := by
  obtain ⟨a, here, rfl⟩ := Except.map_eq_ok_iff.mp read
  obtain ⟨_, loads⟩ := (onlyField_without_iff different).mp ⟨once, here⟩
  have others := And.intro alike.record (alike.loads rfl carries loads)
  exact Except.map_eq_ok_iff.mpr ⟨a, ((onlyField_without_iff different).mpr others).2, rfl⟩

theorem Parts.Alike.nothing {β : Type}
    (alike : Parts.Alike related [("kind", .plain)] parts others) {f : Unit → β} {b : β}
    (read : (Buffer.nothing (parts.without "kind").toJson).map f = .ok b) :
    (Buffer.nothing (others.without "kind").toJson).map f = .ok b := by
  obtain ⟨u, _, rfl⟩ := Except.map_eq_ok_iff.mp read
  exact Except.map_eq_ok_iff.mpr ⟨u, (nothing_without_iff.mpr alike.record).2, rfl⟩

/-- What belongs to a descriptor of a kind is loaded from the parts that correspond to those of
another. -/
theorem Simulation.descriptorContent (simulation : Simulation related)
    {load load' : Json → Except Cause Descriptor}
    (carries : Carries (related .descriptor) load load') {kind : DescriptorKind}
    {loaded : Descriptor} (once : parts.Once "kind")
    (alike : Parts.Alike related (("kind", .plain) :: kind.columns) parts others)
    (read : Buffer.descriptorContent load kind (parts.without "kind").toJson = .ok loaded) :
    Buffer.descriptorContent load' kind (others.without "kind").toJson = .ok loaded := by
  cases kind with
  | primitive => exact alike.onlyField (by decide) once (simulation.choice _) read
  | opaqueObject => exact alike.nothing read
  | union => exact alike.onlyField (by decide) once (simulation.listOf carries) read
  | array => exact alike.onlyField (by decide) once carries read
  | tuple => exact alike.onlyField (by decide) once (simulation.listOf carries) read
  | literal => exact alike.onlyField (by decide) once simulation.literalValue read
  | reference => exact alike.onlyField (by decide) once simulation.text read
  | record =>
    exact alike.onlyField (by decide) once (simulation.listOf (simulation.field carries)) read
  | unsupported => exact alike.onlyField (by decide) once simulation.text read
  | unrecognized => exact alike.nothing read

/-- A way to read kinds that says no more than that of descriptors inside others. -/
structure ReadsKind (tag : Json → Except Cause DescriptorKind) : Prop where
  atoms : ∀ (parts : Parts Json) kind, tag parts.toJson ≠ .ok kind
  variant : ∀ value kind, tag value = .ok kind →
    Buffer.variant DescriptorKind.names (some .unrecognized) value = .ok kind

/-- A descriptor is loaded from the parts that correspond to those of another. -/
theorem Simulation.descriptorStep (simulation : Simulation related)
    {tag : Json → Except Cause DescriptorKind} (reads : ReadsKind tag)
    {load load' : Json → Except Cause Descriptor}
    (carries : Carries (related .descriptor) load load') {value other : Json}
    (splits : Splits related .descriptor value other) {name : String} {loaded : Descriptor}
    (read : (do
      let (kind, content) ← Buffer.tagged name "kind" tag value
      Buffer.descriptorContent load kind content) = .ok loaded) :
    (do
      let (kind, content) ← Buffer.tagged name "kind" tag other
      Buffer.descriptorContent load' kind content) = .ok loaded := by
  obtain ⟨⟨kind, content⟩, tagged, inner⟩ := Except.step_eq_ok_iff.mp read
  obtain ⟨parts, rfl⟩ := Parts.exists_of_ok (fun atom _ => by cases atom <;> exact nofun) tagged
  obtain ⟨once, tagLoads, rfl⟩ := Buffer.tagged_toJson_iff.mp tagged
  obtain ⟨part, found, tagRead⟩ := Parts.loads_some_iff.mp tagLoads
  have columns : Role.descriptor.columns parts = ("kind", .plain) :: kind.columns := by
    simp [Role.columns, Parts.kind?, found, reads.variant part kind tagRead, Except.toOption]
  have record := isRecord_of_descriptorContent once inner
  obtain ⟨others, rfl, alike⟩ := splits parts rfl (columns ▸ record)
  rw [columns] at alike
  refine Except.step_eq_ok_iff.mpr ⟨(kind, (others.without "kind").toJson), ?_, ?_⟩
  · have tags := alike.loads rfl (simulation.atomic reads.atoms) tagLoads
    exact Buffer.tagged_toJson_iff.mpr ⟨alike.once List.mem_cons_self, tags, rfl⟩
  · exact simulation.descriptorContent carries once alike inner

end

/-- The relation on values that do not nest too deep. -/
def Below (related : Role → Json → Json → Prop) (levels : Nat) (role : Role) (value other : Json) :
    Prop :=
  related role value other ∧ other.depth < levels

theorem Parts.depth_lt_of_part? {parts : Parts Json} {i : Nat} {key : String} {part : Json}
    (found : parts.part? i key = some part) : part.depth < parts.toJson.depth := by
  cases parts with
  | keyed es =>
    have bound := Json.depth_le_depthEntries (Entries.mem_of_get?_eq_some es key part found)
    simp only [Parts.toJson, Json.depth] at bound ⊢
    omega
  | listed items =>
    have bound := Json.depth_le_depthItems (List.mem_of_getElem? found)
    simp only [Parts.toJson, Json.depth]
    omega

/-- The parts of a value nest less deep than the value. -/
theorem Splits.below {related : Role → Json → Json → Prop} {role : Role} {value other : Json}
    (splits : Splits related role value other) {levels : Nat} (shallow : other.depth ≤ levels) :
    Splits (Below related levels) role value other := by
  intro parts same record
  obtain ⟨others, rfl, alike⟩ := splits parts same record
  refine ⟨others, rfl, alike.form, alike.record, fun i key role declared => ?_⟩
  have same := alike.part i key role declared
  have deeper (part : Json) (found : others.part? i key = some part) : part.depth < levels :=
    Nat.lt_of_lt_of_le (Parts.depth_lt_of_part? found) shallow
  generalize parts.part? i key = part at same
  generalize others.part? i key = other at same deeper
  cases same with
  | none => exact .none
  | some same => exact .some ⟨same, deeper _ rfl⟩

theorem Simulation.below {related : Role → Json → Json → Prop} (simulation : Simulation related)
    (levels : Nat) : Simulation (Below related levels) where
  atom atom other same := simulation.atom atom other same.1
  single es other short same := by
    obtain ⟨es', rfl, entries⟩ := simulation.single es other short same.1
    have shallow : ∀ entry ∈ es', entry.2.depth < levels := fun entry inside =>
      Nat.lt_of_le_of_lt (Nat.le_succ_of_le (Json.depth_le_depthEntries inside)) same.2
    have both := (List.forall₂_and_left _ _).mpr ⟨shallow, entries.flip⟩
    exact ⟨es', rfl, both.flip.imp fun _ _ both => ⟨both.2.1, both.2.2, both.1⟩⟩
  list role items other same := by
    obtain ⟨items', rfl, each⟩ := simulation.list role items other same.1
    have shallow : ∀ item ∈ items', item.depth < levels := fun item inside =>
      Nat.lt_of_le_of_lt (Nat.le_succ_of_le (Json.depth_le_depthItems inside)) same.2
    have both := (List.forall₂_and_left _ _).mpr ⟨shallow, each.flip⟩
    exact ⟨items', rfl, both.flip.imp fun _ _ both => ⟨both.2, both.1⟩⟩
  record role value other same :=
    (simulation.record role value other same.1).below (Nat.le_of_lt same.2)
  nullContent es other same := simulation.nullContent es other same.1

namespace Simulation

variable {related : Role → Json → Json → Prop} (simulation : Simulation related)

theorem readsKind_variant :
    ReadsKind (Buffer.variant DescriptorKind.names (some .unrecognized)) where
  atoms parts kind := by cases parts <;> exact nofun
  variant _ _ read := read

include simulation in
/-- A descriptor is loaded with as many levels as it needs. -/
theorem descriptorWithin (levels levels' : Nat) :
    Carries (Below related levels' .descriptor) (Buffer.descriptorWithin levels)
      (Buffer.descriptorWithin levels') := by
  induction levels generalizing levels' with
  | zero => exact fun _ _ _ _ loaded => nomatch loaded
  | succ levels ih =>
    intro value other loaded same read
    cases levels' with
    | zero => exact absurd same.2 (Nat.not_lt_zero _)
    | succ levels' =>
      have splits := (simulation.record .descriptor value other same.1).below
        (Nat.le_of_lt_succ same.2)
      exact (simulation.below levels').descriptorStep readsKind_variant (ih levels') splits read

include simulation in
theorem descriptor : Carries (related .descriptor) Buffer.descriptor Buffer.descriptor := by
  intro value other loaded same read
  exact simulation.descriptorWithin _ _ value other loaded ⟨same, Nat.lt_succ_self _⟩ read

end Simulation

end DecoderForge.Loading
