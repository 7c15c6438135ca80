/-
This file proves from which parts of a value the pieces of a module are loaded: each record from the
values under its keys, or from a list of as many values.
-/

import DecoderForge.Loading.Descriptor
import DecoderForge.Proofs.Loading.Record

namespace DecoderForge.Loading

open Json (Document Item Entry Ending)

variable {ν ε α β σ τ : Type}

/-- The parts from which a record is read: values under keys, or values one after the other. -/
inductive Parts (ν : Type) where
  | keyed (entries : List (String × ν))
  | listed (items : List ν)

namespace Parts

def IsKeyed : Parts ν → Prop
  | .keyed _ => True
  | .listed _ => False

/-- A key does not come again. -/
def Once (key : String) : Parts ν → Prop
  | .keyed entries => keyCount key entries ≤ 1
  | .listed _ => True

/-- There are no more values in a list than a record has keys. -/
def AtMost (count : Nat) : Parts ν → Prop
  | .keyed _ => True
  | .listed items => items.length ≤ count

/-- The parts are those of a record, if none is missing. -/
def IsRecord (keys : List String) (parts : Parts ν) : Prop :=
  (∀ key ∈ keys, parts.Once key) ∧ parts.AtMost keys.length

theorem isRecord_keyed_iff {keys : List String} {es : List (String × ν)} :
    (keyed es).IsRecord keys ↔ ∀ key ∈ keys, (keyed es).Once key :=
  and_iff_left trivial

theorem isRecord_listed_iff {keys : List String} {items : List ν} :
    (listed items).IsRecord keys ↔ (listed items).AtMost keys.length :=
  and_iff_right fun _ _ => trivial

/-- The value under a key that is the `i`-th of a record. -/
def part? (i : Nat) (key : String) : Parts ν → Option ν
  | .keyed entries => Entries.get? key entries
  | .listed items => items[i]?

/-- What is loaded from the value under a key, if there is one. -/
def Loads (parts : Parts ν) (i : Nat) (key : String) (load : ν → Except ε α) (found : Option α) :
    Prop :=
  Option.Rel (fun part a => load part = .ok a) (parts.part? i key) found

theorem loads_some_iff {parts : Parts ν} {i : Nat} {key : String} {load : ν → Except ε α}
    {a : α} :
    parts.Loads i key load (some a) ↔
      ∃ part, parts.part? i key = some part ∧ load part = .ok a := by
  unfold Loads
  cases parts.part? i key <;> simp

theorem loads_none_iff {parts : Parts ν} {i : Nat} {key : String} {load : ν → Except ε α} :
    parts.Loads i key load none ↔ parts.part? i key = none := by
  unfold Loads
  cases parts.part? i key <;> simp

theorem loads_of_part {parts : Parts ν} {i : Nat} {key : String} {load : ν → Except ε α} {part : ν}
    {found : Option α} (present : parts.part? i key = some part) :
    parts.Loads i key load found ↔ ∃ a, load part = .ok a ∧ some a = found := by
  unfold Loads
  rw [present]
  cases found <;> simp

theorem loads_of_missing {parts : Parts ν} {i : Nat} {key : String} {load : ν → Except ε α}
    {found : Option α} (absent : parts.part? i key = none) :
    parts.Loads i key load found ↔ found = none := by
  unfold Loads
  rw [absent]
  cases found <;> simp

theorem loads_keyed_iff {es : List (String × ν)} (i : Nat) {key : String} {load : ν → Except ε α}
    {found : Option α} :
    (Columns.one key load).Reads es none found ↔
      (keyed es).Once key ∧ (keyed es).Loads i key load found :=
  Columns.reads_one_iff

/-- The parts behind the one that is read first. -/
def without (key : String) : Parts ν → Parts ν
  | .keyed entries => .keyed (others key entries)
  | .listed items => .listed items.tail

theorem without_once_iff {parts : Parts ν} {key other : String} (different : other ≠ key) :
    (parts.without key).Once other ↔ parts.Once other := by
  cases parts with
  | keyed entries => simp only [without, Once, keyCount_others different]
  | listed items => rfl

theorem without_atMost_iff {parts : Parts ν} {key : String} {count : Nat} :
    (parts.without key).AtMost count ↔ parts.AtMost (count + 1) := by
  cases parts with
  | keyed entries => rfl
  | listed items => simp [without, AtMost]

/-- A record behind its first key. -/
theorem without_isRecord_iff {parts : Parts ν} {key : String} {keys : List String}
    (fresh : key ∉ keys) :
    parts.Once key ∧ (parts.without key).IsRecord keys ↔ parts.IsRecord (key :: keys) := by
  have each : (∀ other ∈ keys, (parts.without key).Once other) ↔ ∀ other ∈ keys, parts.Once other :=
    forall₂_congr fun other inside =>
      without_once_iff fun same => fresh (same ▸ inside)
  simp only [IsRecord, each, without_atMost_iff, List.forall_mem_cons, List.length_cons, and_assoc]

theorem part?_without {parts : Parts ν} {key other : String} (different : other ≠ key) (i : Nat) :
    (parts.without key).part? i other = parts.part? (i + 1) other := by
  cases parts with
  | keyed entries => exact get?_others different entries
  | listed items => simp [without, part?]

/-- The value with the given parts. -/
def toJson : Parts Json → Json
  | .keyed entries => .obj entries
  | .listed items => .arr items

@[simp] theorem toJson_eq_obj_iff {parts : Parts Json} {es : List (String × Json)} :
    parts.toJson = .obj es ↔ parts = .keyed es := by
  cases parts <;> simp [toJson]

@[simp] theorem toJson_eq_arr_iff {parts : Parts Json} {items : List Json} :
    parts.toJson = .arr items ↔ parts = .listed items := by
  cases parts <;> simp [toJson]

/-- A value has parts if it is no atom. -/
theorem exists_atom_or_parts (value : Json) :
    (∃ atom : Json.Atom, value = atom.toJson) ∨ ∃ parts : Parts Json, value = parts.toJson := by
  cases value with
  | null => exact .inl ⟨.null, rfl⟩
  | bool b => exact .inl ⟨.bool b, rfl⟩
  | num n => exact .inl ⟨.num n, rfl⟩
  | str s => exact .inl ⟨.str s, rfl⟩
  | arr items => exact .inr ⟨.listed items, rfl⟩
  | obj es => exact .inr ⟨.keyed es, rfl⟩

/-- What is not loaded from atoms is loaded from parts. -/
theorem exists_of_ok {load : Json → Except Cause α}
    (fails : ∀ (atom : Json.Atom) a, load atom.toJson ≠ .ok a) {value : Json} {a : α}
    (loaded : load value = .ok a) : ∃ parts : Parts Json, value = parts.toJson := by
  obtain ⟨atom, rfl⟩ | parts := exists_atom_or_parts value
  · exact absurd loaded (fails atom a)
  · exact parts

end Parts

theorem isRecord_one_iff {key : String} {es : List (String × ν)} :
    (Parts.keyed es).IsRecord [key] ↔ (Parts.keyed es).Once key := by
  simp [Parts.isRecord_keyed_iff]

/-- The entries of a record with one key. -/
theorem one_reads_iff {key : String} {load : ν → Except ε α} {es : List (String × ν)}
    {last : Option α} :
    (Columns.one key load).Reads es (Columns.one key load).none last ↔
      (Parts.keyed es).IsRecord [key] ∧ (Parts.keyed es).Loads 0 key load last := by
  rw [isRecord_one_iff]
  exact Parts.loads_keyed_iff 0

/-- The entries of a record with two keys. -/
theorem two_reads_iff {key key' : String} (different : key ≠ key') {load : ν → Except ε α}
    {load' : ν → Except ε β} {es : List (String × ν)} {last : Option α × Option β} :
    ((Columns.one key load).and (Columns.one key' load')).Reads es
        ((Columns.one key load).and (Columns.one key' load')).none last ↔
      (Parts.keyed es).IsRecord [key, key'] ∧ (Parts.keyed es).Loads 0 key load last.1 ∧
        (Parts.keyed es).Loads 1 key' load' last.2 := by
  have disjoint : (Columns.one key load).Disjoint (Columns.one key' load') :=
    Columns.disjoint_one fun _ => if_neg different
  rw [Columns.reads_and_iff disjoint]
  refine (and_congr (Parts.loads_keyed_iff 0) (Parts.loads_keyed_iff 1)).trans ?_
  simp only [Parts.isRecord_keyed_iff, List.forall_mem_cons]
  tauto

/-- The entries of a field. -/
theorem field_reads_iff {text : ν → Except ε String} {descriptor : ν → Except ε Descriptor}
    {flag : ν → Except ε Bool} {es : List (String × ν)}
    {last : (Option String × Option Descriptor) × Option Bool} :
    (fieldColumns text descriptor flag).Reads es (fieldColumns text descriptor flag).none last ↔
      (Parts.keyed es).IsRecord ["name", "type", "optional"] ∧
        (Parts.keyed es).Loads 0 "name" text last.1.1 ∧
        (Parts.keyed es).Loads 1 "type" descriptor last.1.2 ∧
        (Parts.keyed es).Loads 2 "optional" flag last.2 := by
  have disjoint : (Columns.one "optional" flag).Disjoint
      ((Columns.one "name" text).and (Columns.one "type" descriptor)) :=
    Columns.disjoint_one fun _ => rfl
  have different : "name" ≠ "type" := by decide
  rw [fieldColumns, Columns.reads_and_iff disjoint.symm]
  refine (and_congr (two_reads_iff different) (Parts.loads_keyed_iff 2)).trans ?_
  simp only [Parts.isRecord_keyed_iff, List.forall_mem_cons]
  tauto

namespace Buffer

theorem element_eq_ok_iff {items : List Json} {i : Nat} {expected : Expected} (key : String)
    {load : Json → Except Cause α} {a : α} :
    element items i expected load = .ok a ↔ (Parts.listed items).Loads i key load (some a) := by
  rw [Parts.loads_some_iff, element, Parts.part?]
  cases items[i]? <;> simp

theorem noMore_eq_ok_iff {items : List Json} {count : Nat} {u : Unit} :
    noMore items count = .ok u ↔ (Parts.listed items).AtMost count := by
  simp [noMore, Parts.AtMost]

theorem nothing_toJson_iff {parts : Parts Json} {u : Unit} :
    nothing parts.toJson = .ok u ↔ parts.IsRecord [] := by
  cases parts with
  | keyed entries => simp [Parts.toJson, nothing, Parts.IsRecord, Parts.AtMost]
  | listed items =>
    simp [Parts.toJson, nothing, Parts.IsRecord, noMore_eq_ok_iff]

/-- A record with one field is loaded from the value under its key. -/
theorem single_toJson_iff {key : String} {record listed : Expected} {load : Json → Except Cause α}
    {parts : Parts Json} {a : α} :
    single key record listed load parts.toJson = .ok a ↔
      parts.IsRecord [key] ∧ parts.Loads 0 key load (some a) := by
  cases parts with
  | keyed entries =>
    have reads {found : Option α} : (Columns.one key load).Reads entries none found ↔ _ :=
      one_reads_iff
    simp [Parts.toJson, single, entries_eq_ok_iff, reads, required_eq_ok_iff]
  | listed items =>
    simp [Parts.toJson, single, Parts.IsRecord, Parts.Once, element_eq_ok_iff key,
      noMore_eq_ok_iff, and_comm]

/-- The last value of a field that is written as a list may be missing. -/
theorem lastElement_eq_ok_iff {items : List Json} {expected : Expected} (key : String)
    {load : Json → Except Cause Bool} {b : Bool} (long : 1 < items.length) :
    (if items.length = 2 then .ok false else element items 2 expected load) = .ok b ↔
      ∃ found, (Parts.listed items).Loads 2 key load found ∧ found.getD false = b := by
  by_cases two : items.length = 2
  · have absent : (Parts.listed items).part? 2 key = none := by simp [Parts.part?, two]
    simp [two, Parts.loads_of_missing absent, eq_comm]
  · have present : (Parts.listed items).part? 2 key = some items[2] :=
      List.getElem?_eq_getElem (by omega)
    rw [if_neg two, element_eq_ok_iff key, Parts.loads_of_part present]
    simp only [Parts.loads_of_part present, Option.some_inj, exists_eq_right]
    constructor
    · intro loaded
      exact ⟨some b, ⟨b, loaded, rfl⟩, rfl⟩
    · rintro ⟨_, ⟨b, loaded, rfl⟩, rfl⟩
      exact loaded

/-- The steps in which a field is loaded that is written as a list. -/
theorem field_arr (descriptor : Json → Except Cause Descriptor) (items : List Json) :
    field descriptor (.arr items) =
      element items 0 (.recordOf "Field" 3) text >>= fun name =>
        element items 1 (.recordOf "Field" 3) descriptor >>= fun type =>
          (if items.length = 2 then .ok false else element items 2 (.recordOf "Field" 3) flag) >>=
            fun optional => noMore items 3 >>= fun _ => pure ⟨name, type, optional⟩ := by
  simp only [field]
  congr
  funext name
  refine congrArg (element items 1 (.recordOf "Field" 3) descriptor >>= ·) ?_
  funext type
  split <;> rfl

/-- A field is loaded from the values under its keys, of which the last may be missing. -/
theorem field_toJson_iff {descriptor : Json → Except Cause Descriptor} {parts : Parts Json}
    {declared : Field} :
    field descriptor parts.toJson = .ok declared ↔
      parts.IsRecord ["name", "type", "optional"] ∧
        parts.Loads 0 "name" text (some declared.name) ∧
        parts.Loads 1 "type" descriptor (some declared.type) ∧
        ∃ optional, parts.Loads 2 "optional" flag optional ∧
          optional.getD false = declared.optional := by
  obtain ⟨name, type, optional⟩ := declared
  cases parts with
  | keyed es =>
    simp only [Parts.toJson, field, Except.step_eq_ok_iff, Except.pure_eq_ok_iff, entries_eq_ok_iff,
      field_reads_iff, required_eq_ok_iff, Prod.exists]
    simp [and_assoc]
  | listed items =>
    have long (type : Descriptor)
        (second : (Parts.listed items).Loads 1 "type" descriptor (some type)) :
        1 < items.length := by
      obtain ⟨part, found, _⟩ := Parts.loads_some_iff.mp second
      exact (List.getElem?_eq_some_iff.mp found).1
    simp only [Parts.toJson, field_arr, Except.step_eq_ok_iff, Except.pure_eq_ok_iff,
      noMore_eq_ok_iff, Parts.isRecord_listed_iff]
    constructor
    · rintro ⟨_, first, _, second, _, third, _, few, ⟨⟩⟩
      have second := (element_eq_ok_iff "type").mp second
      have third := (lastElement_eq_ok_iff "optional" (long _ second)).mp third
      exact ⟨few, (element_eq_ok_iff "name").mp first, second, third⟩
    · rintro ⟨few, first, second, third⟩
      exact ⟨_, (element_eq_ok_iff "name").mpr first, _, (element_eq_ok_iff "type").mpr second, _,
        (lastElement_eq_ok_iff "optional" (long _ second)).mpr third, (), few, rfl⟩

/-- A value as it stands. -/
def kept : Json → Except Cause Json := .ok

theorem loads_kept_iff {parts : Parts Json} {i : Nat} {key : String} {part : Option Json} :
    parts.Loads i key kept part ↔ parts.part? i key = part := by
  cases found : parts.part? i key with
  | none => rw [Parts.loads_of_missing found, eq_comm]
  | some value => simp [Parts.loads_of_part found, kept]

/-- What is known of the tag and of the content behind some entries of an object. -/
inductive Known (loader : ContentLoader Json Cause τ α) :
    Option τ → Option Json → Progress τ α → Prop
  | nothing : Known loader none none .nothing
  | tag (t : τ) : Known loader (some t) none (.tag t)
  | content (content : Json) : Known loader none (some content) (.content content)
  | both {t : τ} {content : Json} {a : α} (loaded : loader.content t content = .ok a) :
    Known loader (some t) (some content) (.both a)

section

variable {shape : TagAndContent} {names : List (String × τ)} {loader : ContentLoader Json Cause τ α}
  {t? : Option τ} {content? : Option Json} {progress last : Progress τ α}

theorem Known.iff_eq (known : Known loader t? content? progress) :
    Known loader t? content? last ↔ progress = last := by
  constructor
  · intro other
    cases known with
    | both loaded =>
      cases other with
      | both again => rw [Except.ok.inj (loaded.symm.trans again)]
    | _ => cases other; rfl
  · rintro rfl
    exact known

/-- A content that stood there together with its tag was loaded. -/
theorem Known.exists_loaded {key key' : String} {tag : Json → Except Cause τ}
    {es : List (String × Json)} {t : τ} {content : Json}
    (tags : (Columns.one key tag).Reads es (some t) t?)
    (contents : (Columns.one key' kept).Reads es (some content) content?)
    (known : Known loader t? content? last) : ∃ a, loader.content t content = .ok a := by
  obtain ⟨_, rfl⟩ := Columns.reads_one_some_iff.mp tags
  obtain ⟨_, rfl⟩ := Columns.reads_one_some_iff.mp contents
  cases known with
  | both loaded => exact ⟨_, loaded⟩

/-- The tag and the content are read apart from each other, and the content is loaded as soon as
both are known. -/
theorem tagAndContentEntries_eq_ok_iff (different : shape.contentKey ≠ shape.tagKey)
    {tag : Json → Except Cause τ} {es : List (String × Json)}
    (known : Known loader t? content? progress) :
    tagAndContentEntries shape tag loader es progress = .ok last ↔
      ∃ t' content', (Columns.one shape.tagKey tag).Reads es t? t' ∧
        (Columns.one shape.contentKey kept).Reads es content? content' ∧
        Known loader t' content' last := by
  induction es generalizing t? content? progress with
  | nil => simp [tagAndContentEntries, Columns.reads_nil_iff, known.iff_eq]
  | cons entry rest ih =>
    obtain ⟨key, value⟩ := entry
    simp only [tagAndContentEntries, Columns.reads_one_cons_iff]
    by_cases isTag : key = shape.tagKey
    · have other : ¬ key = shape.contentKey := fun same => different (same.symm.trans isTag)
      simp only [if_pos isTag, if_neg other]
      cases known with
      | nothing =>
        simp only [Except.bind_eq_ok_iff, ih (.tag _)]
        aesop
      | content content =>
        -- The content was kept until its tag came, and is loaded now.
        simp only [Except.bind_eq_ok_iff]
        constructor
        · rintro ⟨t, tag, a, loaded, later⟩
          obtain ⟨t', content', tags, contents, last⟩ := (ih (.both loaded)).mp later
          exact ⟨t', content', ⟨trivial, t, tag, tags⟩, contents, last⟩
        · rintro ⟨t', content', ⟨_, t, tag, tags⟩, contents, last⟩
          obtain ⟨a, loaded⟩ := last.exists_loaded tags contents
          exact ⟨t, tag, a, loaded, (ih (.both loaded)).mpr ⟨t', content', tags, contents, last⟩⟩
      | _ => simp
    · simp only [if_neg isTag]
      by_cases isContent : key = shape.contentKey
      · simp only [if_pos isContent]
        cases known with
        | nothing => simp [ih (.content value), kept]
        | tag t =>
          simp only [Except.bind_eq_ok_iff]
          constructor
          · rintro ⟨a, loaded, later⟩
            obtain ⟨t', content', tags, contents, last⟩ := (ih (.both loaded)).mp later
            exact ⟨t', content', tags, ⟨trivial, value, rfl, contents⟩, last⟩
          · rintro ⟨t', content', tags, ⟨_, _, ⟨⟩, contents⟩, last⟩
            obtain ⟨a, loaded⟩ := last.exists_loaded tags contents
            exact ⟨a, loaded, (ih (.both loaded)).mpr ⟨t', content', tags, contents, last⟩⟩
        | _ => simp
      · simp only [if_neg isContent, ih known]

/-- Behind all entries the tag is loaded, and the content if there is one and the tag is known. -/
theorem tagAndContentEntries_nothing_iff (different : shape.contentKey ≠ shape.tagKey)
    {tag : Json → Except Cause τ} {es : List (String × Json)} :
    tagAndContentEntries shape tag loader es .nothing = .ok last ↔
      (Parts.keyed es).IsRecord [shape.tagKey, shape.contentKey] ∧
        ∃ t?, (Parts.keyed es).Loads 0 shape.tagKey tag t? ∧
          Known loader t? ((Parts.keyed es).part? 1 shape.contentKey) last := by
  have record : (Parts.keyed es).IsRecord [shape.tagKey, shape.contentKey] ↔
      (Parts.keyed es).Once shape.tagKey ∧ (Parts.keyed es).Once shape.contentKey := by
    simp [Parts.isRecord_keyed_iff]
  rw [tagAndContentEntries_eq_ok_iff different .nothing, record]
  constructor
  · rintro ⟨t?, content?, tags, contents, known⟩
    obtain ⟨tagOnce, tag⟩ := (Parts.loads_keyed_iff 0).mp tags
    obtain ⟨contentOnce, content⟩ := (Parts.loads_keyed_iff 1).mp contents
    exact ⟨⟨tagOnce, contentOnce⟩, t?, tag, (loads_kept_iff.mp content).symm ▸ known⟩
  · rintro ⟨⟨tagOnce, contentOnce⟩, t?, tag, known⟩
    have contents := (Parts.loads_keyed_iff 1).mpr ⟨contentOnce, loads_kept_iff.mpr rfl⟩
    exact ⟨t?, _, (Parts.loads_keyed_iff 0).mpr ⟨tagOnce, tag⟩, contents, known⟩

/-- How the tag of a value is read: as a name with or without a content, or in a list as the name or
the index of a variant. -/
def tagOf (names : List (String × τ)) : Parts Json → Json → Except Cause τ
  | .keyed _ => choice names
  | .listed _ => variant names none

/-- In a list the tag and the content are the only two values. -/
theorem tagAndContent_arr_iff {items : List Json} {a : α} :
    tagAndContent shape names loader (.arr items) = .ok a ↔
      (Parts.listed items).AtMost 2 ∧
        ∃ t, (Parts.listed items).Loads 0 shape.tagKey (variant names none) (some t) ∧
          (Parts.listed items).Loads 1 shape.contentKey (loader.content t) (some a) := by
  match items with
  | [] => simp [tagAndContent, Parts.loads_some_iff, Parts.part?]
  | [first] => simp [tagAndContent, Parts.loads_some_iff, Parts.part?]
  | first :: second :: rest =>
    simp only [tagAndContent, Except.step_eq_ok_iff, Except.pure_eq_ok_iff, noMore_eq_ok_iff,
      Parts.loads_some_iff, Parts.part?]
    aesop

/-- A value with a tag and a content is loaded from the values under the two keys. Under keys the
content may be missing. -/
theorem tagAndContent_toJson_iff (different : shape.contentKey ≠ shape.tagKey) {parts : Parts Json}
    {a : α} :
    tagAndContent shape names loader parts.toJson = .ok a ↔
      parts.IsRecord [shape.tagKey, shape.contentKey] ∧
        ∃ t, parts.Loads 0 shape.tagKey (tagOf names parts) (some t) ∧
          ∃ found, parts.Loads 1 shape.contentKey (loader.content t) found ∧
            (found = some a ∨ found = none ∧ parts.IsKeyed ∧ loader.bare t = .ok a) := by
  cases parts with
  | keyed es =>
    simp only [Parts.toJson, tagAndContent, Except.step_eq_ok_iff,
      tagAndContentEntries_nothing_iff different]
    constructor
    · rintro ⟨last, ⟨record, t?, tag, known⟩, result⟩
      generalize content : (Parts.keyed es).part? 1 shape.contentKey = content? at known
      cases known with
      | tag t =>
        exact ⟨record, t, tag, none, Parts.loads_none_iff.mpr content, .inr ⟨rfl, trivial, result⟩⟩
      | both loaded =>
        obtain rfl := Except.pure_eq_ok_iff.mp result
        exact ⟨record, _, tag, _, Parts.loads_some_iff.mpr ⟨_, content, loaded⟩, .inl rfl⟩
      | _ => contradiction
    · rintro ⟨record, t, tag, found, content, outcome⟩
      rcases outcome with rfl | ⟨rfl, _, bare⟩
      · obtain ⟨part, present, loaded⟩ := Parts.loads_some_iff.mp content
        exact ⟨.both a, ⟨record, _, tag, present ▸ .both loaded⟩, rfl⟩
      · have absent := Parts.loads_none_iff.mp content
        exact ⟨.tag t, ⟨record, _, tag, absent ▸ .tag t⟩, bare⟩
  | listed items =>
    rw [Parts.toJson, tagAndContent_arr_iff, Parts.isRecord_listed_iff]
    simp [Parts.IsKeyed, tagOf]

/-- The entries behind a tag are the others. -/
theorem tagEntries_eq_ok_iff {key : String} {tag : Json → Except Cause τ}
    {es rest : List (String × Json)} {found : Option τ} {t : τ} :
    tagEntries key tag es found = .ok (t, rest) ↔
      (Columns.one key tag).Reads es found (some t) ∧ others key es = rest := by
  induction es generalizing found rest with
  | nil => cases found <;> simp [tagEntries, Columns.reads_nil_iff, others, eq_comm]
  | cons entry later ih =>
    obtain ⟨name, value⟩ := entry
    rw [tagEntries, Columns.reads_one_cons_iff, others_cons]
    by_cases same : name = key
    · cases found with
      | some => simp [same]
      | none =>
        simp only [same, if_true, Option.isSome_none, Bool.false_eq_true, if_false,
          Except.bind_eq_ok_iff, ih, true_and]
        tauto
    · simp [same, ih]

/-- What is loaded with a tag has the tag among its parts, and the others behind it. -/
theorem tagged_toJson_iff {name key : String} {tag : Json → Except Cause τ} {parts : Parts Json}
    {t : τ} {content : Json} :
    tagged name key tag parts.toJson = .ok (t, content) ↔
      parts.Once key ∧ parts.Loads 0 key tag (some t) ∧ (parts.without key).toJson = content := by
  cases parts with
  | keyed es =>
    simp only [Parts.toJson, tagged, Except.map_eq_ok_iff, Prod.exists, tagEntries_eq_ok_iff,
      Parts.loads_keyed_iff 0, Parts.without]
    aesop
  | listed items =>
    cases items with
    | nil => simp [Parts.toJson, tagged, Parts.loads_some_iff, Parts.part?]
    | cons first rest =>
      have present : (Parts.listed (first :: rest)).part? 0 key = some first := rfl
      simp [Parts.toJson, tagged, Parts.loads_of_part present, Parts.Once, Parts.without]

end

end Buffer

end DecoderForge.Loading
