/-
This file proves that readers load alike from a whole document and from a value that is loaded like
the value of the document.
-/

import DecoderForge.Proofs.Loading.Document
import DecoderForge.Proofs.Loading.Simulation

namespace DecoderForge

/-- Related entries have related values under a key, or both none. -/
theorem Entries.Related.get? {α β : Type} {related : α → β → Prop} {left : List (String × α)}
    {right : List (String × β)} (entries : Entries.Related related left right) (key : String) :
    Option.Rel related (Entries.get? key left) (Entries.get? key right) := by
  induction entries with
  | nil => exact .none
  | cons here _ ih =>
    rw [Entries.get?, Entries.get?, here.1]
    split
    · exact .some here.2
    · exact ih

theorem Entries.Related.keys {α β : Type} {related : α → β → Prop} {left : List (String × α)}
    {right : List (String × β)} (entries : Entries.Related related left right) :
    left.map Prod.fst = right.map Prod.fst := by
  induction entries with
  | nil => rfl
  | cons here _ ih => rw [List.map_cons, List.map_cons, here.1, ih]

namespace Loading

open Json (Document Item Entry Ending)

variable {ν μ α : Type}

/-- Parts that stand in the same places, with a relation between them. -/
inductive Parts.Related (related : ν → μ → Prop) : Parts ν → Parts μ → Prop
  | keyed {es : List (String × ν)} {es' : List (String × μ)}
      (each : Entries.Related related es es') :
    Related related (.keyed es) (.keyed es')
  | listed {items : List ν} {items' : List μ} (each : List.Forall₂ related items items') :
    Related related (.listed items) (.listed items')

section

variable {related : ν → μ → Prop} {parts : Parts ν} {others : Parts μ}

theorem Parts.Related.isKeyed_iff (same : Parts.Related related parts others) :
    parts.IsKeyed ↔ others.IsKeyed := by
  cases same <;> rfl

theorem Parts.Related.isRecord_iff (same : Parts.Related related parts others)
    {keys : List String} : parts.IsRecord keys ↔ others.IsRecord keys := by
  cases same with
  | keyed each =>
    simp only [Parts.isRecord_keyed_iff, Parts.Once, keyCount, each.keys]
  | listed each =>
    simp only [Parts.isRecord_listed_iff, Parts.AtMost, each.length_eq]

theorem Parts.Related.part (same : Parts.Related related parts others) (i : Nat) (key : String) :
    Option.Rel related (parts.part? i key) (others.part? i key) := by
  cases same with
  | keyed each => exact each.get? key
  | listed each =>
    simp only [Parts.part?]
    induction each generalizing i with
    | nil => exact .none
    | cons here _ ih =>
      cases i with
      | zero => exact .some here
      | succ i => exact ih i

end

/-- The parts of a whole document are those of its value. -/
theorem HasParts.exists_held {count : Nat} {document : Document} {parts : Parts Document}
    (has : HasParts count document parts) {value : Json} (holds : Holds document value) :
    ∃ values : Parts Json, value = values.toJson ∧ Parts.Related Holds parts values := by
  cases document with
  | list start opened items ending =>
    obtain ⟨values, ⟨_, held⟩, rfl⟩ := holds_list_iff.mp holds
    obtain ⟨_, rfl⟩ := has
    exact ⟨.listed values, rfl, .listed (List.forall₂_map_left_iff.mpr held)⟩
  | object start opened es ending =>
    obtain ⟨pairs, ⟨_, held⟩, rfl⟩ := holds_object_iff.mp holds
    obtain ⟨_, rfl⟩ := has
    exact ⟨.keyed pairs, rfl, .keyed (List.forall₂_map_left_iff.mpr held)⟩
  | _ => exact has.elim

/-- The document is made of the value. -/
def MadeOf (value : Json) (document : Document) : Prop := document = .ofJson value

theorem itemsOfJson_madeOf (items : List Json) :
    List.Forall₂ MadeOf items ((Document.itemsOfJson items).map (·.value)) := by
  induction items with
  | nil => exact .nil
  | cons item rest ih => exact .cons rfl ih

theorem entriesOfJson_madeOf (es : List (String × Json)) :
    Entries.Related MadeOf es
      ((Document.entriesOfJson es).map fun entry => (entry.key, entry.value)) := by
  induction es with
  | nil => exact .nil
  | cons entry rest ih => exact .cons ⟨rfl, rfl⟩ ih

theorem overlong_itemsOfJson (items : List Json) (i : Nat) :
    ((Document.itemsOfJson items)[i]?).bind (·.overlong) = none := by
  induction items generalizing i with
  | nil => rfl
  | cons item rest ih =>
    cases i with
    | zero => rfl
    | succ i => exact ih i

/-- A value as a document has the parts of the value. -/
theorem exists_hasParts_ofJson (count : Nat) (values : Parts Json) :
    ∃ parts, HasParts count (.ofJson values.toJson) parts ∧ Parts.Related MadeOf values parts := by
  cases values with
  | keyed es => exact ⟨_, ⟨rfl, rfl⟩, .keyed (entriesOfJson_madeOf es)⟩
  | listed items =>
    exact ⟨_, ⟨overlong_itemsOfJson items _, rfl⟩, .listed (itemsOfJson_madeOf items)⟩

/-- A whole document and a value as a document, where the values are related. -/
def Lifted (related : Role → Json → Json → Prop) (role : Role) (document other : Document) : Prop :=
  ∃ value value', Holds document value ∧ related role value value' ∧ MadeOf value' other

theorem lifted_items {related : Role → Json → Json → Prop} {role : Role} {items : List Item}
    {values values' : List Json} (held : HoldItems items values)
    (each : List.Forall₂ (related role) values values') :
    List.Forall₂ (Lifted related role) (items.map (·.value))
      ((Document.itemsOfJson values').map (·.value)) := by
  induction each generalizing items with
  | nil =>
    cases held
    exact .nil
  | cons same _ ih =>
    cases held with
    | cons here later => exact .cons ⟨_, _, here, same, rfl⟩ (ih later)

/-- What is split as values are is split as documents are. -/
theorem Splits.lift {related : Role → Json → Json → Prop} {role : Role} {value value' : Json}
    (splits : Splits related role value value') {columns : List (String × Role)}
    (fixed : ∀ parts, role.columns parts = columns) {document : Document}
    (holds : Holds document value) {count : Nat} {parts : Parts Document}
    (has : HasParts count document parts) (record : parts.IsRecord (keysOf columns)) :
    ∃ others, HasParts count (.ofJson value') others ∧
      Parts.Alike (Lifted related) columns parts others := by
  obtain ⟨values, rfl, held⟩ := has.exists_held holds
  rw [held.isRecord_iff, ← fixed values] at record
  obtain ⟨values', rfl, alike⟩ := splits values rfl record
  obtain ⟨others, has', made⟩ := exists_hasParts_ofJson count values'
  rw [fixed] at alike
  have form := held.isKeyed_iff.trans (alike.form.trans made.isKeyed_iff)
  refine ⟨others, has', form, made.isRecord_iff.mp alike.record, fun i key role declared => ?_⟩
  have first := held.part i key
  have second := alike.part i key role declared
  have third := made.part i key
  generalize parts.part? i key = a at first
  generalize values.part? i key = b at first second
  generalize values'.part? i key = c at second third
  generalize others.part? i key = d at third
  cases first with
  | none =>
    cases second
    cases third
    exact .none
  | some here =>
    cases second with
    | some same =>
      cases third with
      | some there => exact .some ⟨_, _, here, same, there⟩

namespace Simulation

open Reader

variable {related : Role → Json → Json → Prop} (simulation : Simulation related)
include simulation

theorem readText : Carries (Lifted related .plain) Reader.text Reader.text := by
  rintro document _ s ⟨value, value', holds, same, rfl⟩ loaded
  cases document with
  | atom atom start stop =>
    obtain rfl := Except.ok.inj holds
    rw [simulation.atom atom value' same]
    cases atom with
    | str s => exact loaded
    | _ => contradiction
  | _ => contradiction

theorem readList {role : Role} {load load' : Loader α}
    (carries : Carries (Lifted related role) load load') :
    Carries (Lifted related (.list role)) (Reader.list load) (Reader.list load') := by
  rintro document _ as ⟨value, value', holds, same, rfl⟩ loaded
  cases document with
  | list start opened items ending =>
    obtain ⟨values, ⟨whole, held⟩, rfl⟩ := holds_list_iff.mp holds
    obtain ⟨values', rfl, each⟩ := simulation.list role values value' same
    obtain ⟨_, loaded⟩ := (items_eq_ok_iff load ending 0 items as).mp loaded
    have each := carries.each (lifted_items held each) (List.forall₂_map_left_iff.mpr loaded)
    exact (items_eq_ok_iff load' _ 0 _ as).mpr ⟨rfl, List.forall₂_map_left_iff.mp each⟩
  | _ => contradiction

theorem outermost : Carries (related .descriptor) Buffer.outermost Buffer.outermost := by
  intro value other loaded same read
  have named : ReadsKind (Buffer.named DescriptorKind.names (some .unrecognized)) := {
    atoms := fun parts kind => by cases parts <;> exact nofun
    variant := fun value kind read => by
      cases value with
      | str name => exact read
      | _ => contradiction }
  have splits := simulation.record .descriptor value other same
  exact simulation.descriptorStep named simulation.descriptor splits read

theorem readDescriptor :
    Carries (Lifted related .descriptor) Reader.descriptor Reader.descriptor := by
  rintro document _ loaded ⟨value, value', holds, same, rfl⟩ read
  have read := (descriptor_eq_ok_iff_of_holds holds).mp read
  have again := simulation.outermost value value' loaded same read
  exact (descriptor_eq_ok_iff_of_holds (holds_ofJson value')).mpr again

theorem readDeclaration :
    Carries (Lifted related .declaration) Reader.declaration Reader.declaration := by
  rintro document _ declared ⟨value, value', holds, same, rfl⟩ read
  obtain ⟨parts, has, record, name, type⟩ := declaration_eq_ok_iff.mp read
  have splits := simulation.record .declaration value value' same
  obtain ⟨others, has', alike⟩ := splits.lift (fun _ => rfl) holds has record
  exact declaration_eq_ok_iff.mpr ⟨others, has', alike.record,
    alike.loads rfl simulation.readText name, alike.loads rfl simulation.readDescriptor type⟩

/-- A module is loaded from a value as from a whole document with a related value. -/
theorem readSourceModule :
    Carries (Lifted related .source) Reader.sourceModule Reader.sourceModule := by
  rintro document _ source ⟨value, value', holds, same, rfl⟩ read
  obtain ⟨parts, has, record, declarations⟩ := sourceModule_eq_ok_iff.mp read
  have splits := simulation.record .source value value' same
  obtain ⟨others, has', alike⟩ := splits.lift (fun _ => rfl) holds has record
  exact sourceModule_eq_ok_iff.mpr ⟨others, has', alike.record,
    alike.loads rfl (simulation.readList simulation.readDeclaration) declarations⟩

end Simulation

end Loading

end DecoderForge
