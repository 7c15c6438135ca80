/-
This file proves from which parts of a document the pieces of a module are loaded, and that a whole
document with a tag is loaded as its value is.
-/

import DecoderForge.Proofs.Loading.Parts
import DecoderForge.Proofs.Loading.Whole

namespace DecoderForge.Loading

open Json (Document Item Entry Ending)

variable {α τ : Type}

/-- The parts of a document that may be a record with so many keys. An object ends as it should. Of
a list no more is looked at than the value of the last key. -/
def HasParts (count : Nat) : Document → Parts Document → Prop
  | .object _ _ es ending, parts => Reader.endingFailure ending = none ∧
    parts = .keyed (es.map fun entry => (entry.key, entry.value))
  | .list _ _ items _, parts => (items[count - 1]?).bind (·.overlong) = none ∧
    parts = .listed (items.map (·.value))
  | _, _ => False

namespace Reader

variable {document : Document}

theorem element_eq_ok_iff {items : List Item} {ending : Ending} {i : Nat} {expected : Expected}
    (key : String) {load : Loader α} {a : α} :
    element items ending i expected load = .ok a ↔
      (Parts.listed (items.map (·.value))).Loads i key load (some a) := by
  rw [Parts.loads_some_iff, element, element?, Parts.part?, List.getElem?_map]
  cases items[i]? with
  | some item => simp
  | none => cases endingFailure ending <;> simp

theorem noMore_eq_ok_iff {items : List Item} {count : Nat} {u : Unit} :
    noMore items count = .ok u ↔ (items[count - 1]?).bind (·.overlong) = none ∧
      (Parts.listed (items.map (·.value))).AtMost count := by
  unfold noMore
  cases (items[count - 1]?).bind (·.overlong) <;> simp [Parts.AtMost]

/-- A declaration is loaded from the values under its two keys. -/
theorem declaration_eq_ok_iff {declared : Declaration} :
    declaration document = .ok declared ↔
      ∃ parts, HasParts 2 document parts ∧ parts.IsRecord ["name", "type"] ∧
        parts.Loads 0 "name" text (some declared.name) ∧
        parts.Loads 1 "type" descriptor (some declared.type) := by
  obtain ⟨name, type⟩ := declared
  cases document with
  | object start opened es ending =>
    have different : "name" ≠ "type" := by decide
    simp only [declaration, HasParts, Except.step_eq_ok_iff, Except.pure_eq_ok_iff,
      entries_eq_ok_iff, required_eq_ok_iff, two_reads_iff different, Prod.exists]
    constructor
    · rintro ⟨_, _, ⟨whole, record, first, second⟩, _, rfl, _, rfl, ⟨⟩⟩
      exact ⟨_, ⟨whole, rfl⟩, record, first, second⟩
    · rintro ⟨_, ⟨whole, rfl⟩, record, first, second⟩
      exact ⟨_, _, ⟨whole, record, first, second⟩, _, rfl, _, rfl, rfl⟩
  | list start opened items ending =>
    simp only [declaration, HasParts, Except.step_eq_ok_iff, Except.pure_eq_ok_iff,
      noMore_eq_ok_iff]
    constructor
    · rintro ⟨_, first, _, second, _, few, ⟨⟩⟩
      exact ⟨_, ⟨few.1, rfl⟩, Parts.isRecord_listed_iff.mpr few.2,
        (element_eq_ok_iff "name").mp first, (element_eq_ok_iff "type").mp second⟩
    · rintro ⟨_, ⟨closed, rfl⟩, few, first, second⟩
      exact ⟨_, (element_eq_ok_iff "name").mpr first, _, (element_eq_ok_iff "type").mpr second, (),
        ⟨closed, Parts.isRecord_listed_iff.mp few⟩, rfl⟩
  | _ => simp [declaration, HasParts]

/-- A module is loaded from the value under its only key. -/
theorem sourceModule_eq_ok_iff {source : SourceModule} :
    sourceModule document = .ok source ↔
      ∃ parts, HasParts 1 document parts ∧ parts.IsRecord ["declarations"] ∧
        parts.Loads 0 "declarations" (list declaration) (some source.declarations) := by
  obtain ⟨declarations⟩ := source
  cases document with
  | object start opened es ending =>
    simp [sourceModule, HasParts, entries_eq_ok_iff, required_eq_ok_iff, one_reads_iff]
  | list start opened items ending =>
    simp [sourceModule, HasParts, element_eq_ok_iff "declarations", noMore_eq_ok_iff,
      Parts.isRecord_listed_iff]
    tauto
  | _ => simp [sourceModule, HasParts]

/-- The tag and the other entries of a whole object are those of its value. -/
theorem tagEntries_eq_ok_iff_of_held {key : String} {tag : Loader τ} {tag' : Json → Except Cause τ}
    (alike : ∀ document value t, Holds document value → (tag document = .ok t ↔ tag' value = .ok t))
    {ending : Ending} (whole : endingFailure ending = none) {es : List Entry}
    {pairs : List (String × Json)} (held : HoldEntries es pairs) {found : Option τ}
    {result : τ × List (String × Json)} :
    tagEntries key tag ending es found = .ok result ↔
      Buffer.tagEntries key tag' pairs found = .ok result := by
  induction held generalizing found result with
  | nil =>
    simp only [tagEntries, whole]
    cases found <;> simp [Buffer.tagEntries]
  | @cons entry pair later pairs here _ ih =>
    obtain ⟨name, value⟩ := pair
    obtain ⟨rfl, holds⟩ := here
    have buffered : (buffer entry.value).mapError (inEntry entry) = .ok value :=
      Except.mapError_eq_ok_iff.mpr holds
    rw [tagEntries, Buffer.tagEntries]
    by_cases same : entry.key = key
    · rw [if_pos same, if_pos same]
      cases found with
      | some t => simp
      | none =>
        have tags := alike entry.value value
        cases read : tag entry.value with
        | ok t => simp [Except.mapError, (tags t holds).mp read, Except.bind, ih]
        | error failure =>
          have unread (t : τ) : ¬ tag' value = .ok t := by
            intro here
            rw [(tags t holds).mpr here] at read
            contradiction
          simp [Except.mapError, unread]
    · rw [if_neg same, if_neg same, buffered]
      simp only [Except.map_eq_ok_iff, ih]

/-- What a whole document is loaded as with a tag is what its value is. -/
theorem tagged_eq_ok_iff_of_holds {name key : String} {tag : Loader τ}
    {tag' : Json → Except Cause τ}
    (alike : ∀ document value t, Holds document value → (tag document = .ok t ↔ tag' value = .ok t))
    {value : Json} (holds : Holds document value) {result : τ × Json} :
    tagged name key tag document = .ok result ↔ Buffer.tagged name key tag' value = .ok result := by
  cases document with
  | atom atom start stop =>
    obtain rfl := Except.ok.inj holds
    cases atom <;> simp [tagged, Buffer.tagged, Json.Atom.toJson]
  | list start opened items ending =>
    obtain ⟨values, ⟨whole, held⟩, rfl⟩ := holds_list_iff.mp holds
    cases held with
    | nil => simp [tagged, element?, whole, Buffer.tagged]
    | @cons item value later values here held =>
      have rest (content : List Json) :
          bufferItems 1 ending later = .ok content ↔ values = content := by
        rw [(bufferItems_eq_ok_iff 1 ending later values).mpr ⟨whole, held⟩, Except.ok.injEq]
      simp [tagged, element?, Buffer.tagged, rest, alike item.value value _ here]
  | object start opened es ending =>
    obtain ⟨pairs, ⟨whole, held⟩, rfl⟩ := holds_object_iff.mp holds
    simp only [tagged, Buffer.tagged, Except.map_eq_ok_iff,
      tagEntries_eq_ok_iff_of_held alike whole held]
  | _ => contradiction

end Reader

/-- A name, and not the index of one. -/
def Buffer.named (names : List (String × τ)) (other : Option τ) : Json → Except Cause τ
  | .str name => variant names other (.str name)
  | value => .error (.wrongType (.ofJson value) .variantName)

theorem Reader.variant_eq_ok_iff_of_holds (names : List (String × τ)) (other : Option τ)
    (document : Document) (value : Json) (t : τ) (holds : Holds document value) :
    Reader.variant names other document = .ok t ↔ Buffer.named names other value = .ok t := by
  cases document with
  | atom atom start stop =>
    obtain rfl := Except.ok.inj holds
    cases atom with
    | str name =>
      simp only [variant, Buffer.named, Buffer.variant, Json.Atom.toJson]
      cases (names.lookup name).or other <;> simp
    | _ => simp [variant, Buffer.named, Json.Atom.toJson]
  | list start opened items ending =>
    obtain ⟨values, _, rfl⟩ := holds_list_iff.mp holds
    simp [variant, Buffer.named]
  | object start opened es ending =>
    obtain ⟨pairs, _, rfl⟩ := holds_object_iff.mp holds
    simp [variant, Buffer.named]
  | _ => contradiction

/-- The outermost type of a declaration, in which the kind is not given by an index. -/
def Buffer.outermost (value : Json) : Except Cause Descriptor := do
  let kind := named DescriptorKind.names (some .unrecognized)
  let (kind, content) ← tagged "TypeDescriptor" "kind" kind value
  descriptorContent descriptor kind content

/-- A type is loaded from a whole document as it is from the value of the document. -/
theorem Reader.descriptor_eq_ok_iff_of_holds {document : Document} {value : Json}
    (holds : Holds document value) {loaded : Descriptor} :
    Reader.descriptor document = .ok loaded ↔ Buffer.outermost value = .ok loaded := by
  have kind := variant_eq_ok_iff_of_holds DescriptorKind.names (some .unrecognized)
  simp only [Reader.descriptor, Buffer.outermost, Except.step_eq_ok_iff, Except.mapError_eq_ok_iff,
    tagged_eq_ok_iff_of_holds kind holds]

end DecoderForge.Loading
