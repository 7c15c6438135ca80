/-
This file proves that a module that is loaded from a text is also loaded from the value of the text,
in which the last entry of a key counts, so that a pointer to the whole document changes nothing.
-/

import DecoderForge.CommandLine.Input
import DecoderForge.Proofs.Loading.Lift

namespace DecoderForge

theorem Json.distinctItems_eq_map (items : List Json) :
    distinctItems items = items.map distinct := by
  induction items with
  | nil => rfl
  | cons item rest ih => rw [distinctItems, ih, List.map_cons]

theorem Json.distinctEntries_eq_map (entries : List (String × Json)) :
    distinctEntries entries = entries.map fun entry => (entry.1, entry.2.distinct) := by
  induction entries with
  | nil => rfl
  | cons entry rest ih => rw [distinctEntries, ih, List.map_cons]

theorem Entries.get?_map {κ α β : Type} [DecidableEq κ] (key : κ) (f : α → β)
    (entries : List (κ × α)) :
    get? key (entries.map fun entry => (entry.1, f entry.2)) = (get? key entries).map f := by
  induction entries with
  | nil => rfl
  | cons entry rest ih =>
    rw [List.map_cons, get?, get?, ih]
    split <;> rfl

namespace Loading

/-- The value in which the last entry of a key counts. -/
def IsDistinct (_ : Role) (value other : Json) : Prop := other = value.distinct

/-- The parts of the value in which the last entry of a key counts. -/
def Parts.distinct : Parts Json → Parts Json
  | .keyed es => .keyed (Entries.ofList (Json.distinctEntries es))
  | .listed items => .listed (Json.distinctItems items)

theorem Parts.toJson_distinct (parts : Parts Json) :
    parts.distinct.toJson = parts.toJson.distinct := by
  cases parts <;> rfl

/-- A record keeps its parts, since none of its keys is repeated. -/
theorem Parts.part?_distinct {parts : Parts Json} {keys : List String}
    (record : parts.IsRecord keys) {key : String} (declared : key ∈ keys) (i : Nat) :
    parts.distinct.part? i key = (parts.part? i key).map Json.distinct := by
  cases parts with
  | keyed es =>
    have once : keyCount key es ≤ 1 := record.1 key declared
    have same : keyCount key (Json.distinctEntries es) = keyCount key es := by
      simp [keyCount, Json.distinctEntries_eq_map, Function.comp_def]
    rw [distinct, part?, get?_ofList (same ▸ once), Json.distinctEntries_eq_map, Entries.get?_map]
    rfl
  | listed items => simp [distinct, part?, Json.distinctItems_eq_map]

theorem Parts.isRecord_distinct {parts : Parts Json} {keys : List String}
    (record : parts.IsRecord keys) : parts.distinct.IsRecord keys := by
  cases parts with
  | keyed es =>
    have nodup := Entries.nodup_keys_ofList (Json.distinctEntries es)
    exact isRecord_keyed_iff.mpr fun key _ => List.nodup_iff_count_le_one.mp nodup key
  | listed items =>
    simpa [isRecord_listed_iff, AtMost, distinct, Json.distinctItems_eq_map] using record

/-- Values in which the last entry of a key counts are loaded like those in which no key of a record
may be repeated. -/
theorem simulation_distinct : Simulation IsDistinct where
  atom atom other same := by
    rw [same]
    cases atom <;> rfl
  single es other short same := by
    have distinct : ((Json.distinctEntries es).map Prod.fst).Nodup := by
      match es with
      | [] => exact List.nodup_nil
      | [entry] => exact List.pairwise_singleton _ _
    refine ⟨Json.distinctEntries es, ?_, ?_⟩
    · rw [same, Json.distinct, Entries.ofList_eq_self _ distinct]
    · rw [Json.distinctEntries_eq_map]
      exact List.forall₂_map_right_iff.mpr (List.forall₂_same.mpr fun _ _ => ⟨rfl, rfl⟩)
  list role items other same := by
    refine ⟨Json.distinctItems items, same, ?_⟩
    rw [Json.distinctItems_eq_map]
    exact List.forall₂_map_right_iff.mpr (List.forall₂_same.mpr fun _ _ => rfl)
  record role value other same := by
    rintro parts rfl record
    refine ⟨parts.distinct, parts.toJson_distinct.trans same.symm, ?_, ?_, ?_⟩
    · cases parts <;> rfl
    · exact Parts.isRecord_distinct record
    · intro i key role declared
      have inside := List.mem_map_of_mem (f := Prod.fst) (List.mem_of_getElem? declared)
      rw [Parts.part?_distinct record inside]
      cases parts.part? i key with
      | none => exact .none
      | some part => exact .some rfl
  nullContent es other same null content := by
    -- The content stands once, so that it is the one that counts.
    have record : (Parts.keyed es).IsRecord ["value"] := isRecord_one_iff.mpr content.1
    refine ⟨Entries.ofList (Json.distinctEntries es), same, ?_, ?_⟩
    · exact isRecord_one_iff.mp (Parts.isRecord_distinct record)
    · intro part present
      have kept := Parts.part?_distinct record List.mem_cons_self 1
      obtain ⟨first, found, rfl⟩ := Option.map_eq_some_iff.mp (kept.symm.trans present)
      rw [content.2 first found]
      rfl

/-- A document that is read as a value of any kind is whole. -/
theorem Reader.anything_eq_ok_iff {document : Json.Document} {value : Json} :
    Reader.anything document = .ok value ↔ ∃ whole, Holds document whole ∧ whole.distinct = value :=
  Except.map_eq_ok_iff

/-- A module that a document is loaded as is loaded from the value of the document. -/
theorem fromValue_of_loaded {document : Json.Document} {source : SourceModule} {value : Json}
    (loaded : Reader.sourceModule document = .ok source)
    (read : Reader.anything document = .ok value) :
    Loader.fromValue Reader.sourceModule value = .ok source := by
  obtain ⟨whole, holds, rfl⟩ := Reader.anything_eq_ok_iff.mp read
  have lifted : Lifted IsDistinct .source document (.ofJson whole.distinct) :=
    ⟨whole, whole.distinct, holds, rfl, rfl⟩
  exact Except.mapError_eq_ok_iff.mpr (simulation_distinct.readSourceModule _ _ _ lifted loaded)

end Loading

namespace CommandLine

open Loading

/-- The selection of the same texts, with a pointer to the whole of each document. -/
def Selection.whole (selection : Selection) : Selection := { selection with pointer := some "" }

/-- A pointer to a whole document gives the same modules, unless the document cannot be read as a
value of any kind. -/
theorem Selection.modules_whole {selection : Selection} (unset : selection.pointer = none)
    (evaluate : Evaluator) (document : String) (modules : List SourceModule)
    (loaded : selection.modules evaluate document = .ok modules) :
    selection.whole.modules evaluate document = .ok modules ∨
      ∃ e, loadText Reader.anything document = .error e ∧
        selection.whole.modules evaluate document = .error e := by
  obtain ⟨byLine, pointer, filter⟩ := selection
  obtain rfl : pointer = none := unset
  cases filter with
  | some filter => exact .inl loaded
  | none =>
    simp only [Selection.modules, Except.step_eq_ok_iff, Except.pure_eq_ok_iff] at loaded
    obtain ⟨source, here, rfl⟩ := loaded
    have steps : (whole ⟨byLine, none, none⟩).modules evaluate document =
        loadText Reader.anything document >>= fun value =>
          [value].mapM (loadValue Reader.sourceModule) := rfl
    rw [steps]
    cases read : loadText Reader.anything document with
    | error e => exact .inr ⟨e, rfl, rfl⟩
    | ok value =>
      have module := Loading.fromValue_of_loaded
        (Except.mapError_eq_ok_iff.mp (Except.mapError_eq_ok_iff.mp here))
        (Except.mapError_eq_ok_iff.mp (Except.mapError_eq_ok_iff.mp read))
      have again : loadValue Reader.sourceModule value = .ok source :=
        Except.mapError_eq_ok_iff.mpr module
      exact .inl (mapM_eq_ok_iff.mpr (.cons again .nil))

end CommandLine

namespace Loading

/-- A module that is loaded from a text is loaded again from the value of the text, if the text can
be read as a value of any kind. So a pointer to the whole document keeps the declarations of an
input, unless one of its documents cannot be read in this way. -/
theorem loaders_agree :
    (∀ text source value, Loader.fromText Reader.sourceModule text = .ok source →
      Loader.fromText Reader.anything text = .ok value →
      Loader.fromValue Reader.sourceModule value = .ok source) ∧
    ∀ (selection : CommandLine.Selection) evaluate name content declarations,
      selection.pointer = none →
      CommandLine.loadInput selection evaluate name content = .ok declarations →
      let again := CommandLine.loadInput selection.whole evaluate name content
      again = .ok declarations ∨
        ∃ text document e, CommandLine.decodeText name content = .ok text ∧
          document ∈ selection.texts text ∧ loadText Reader.anything document = .error e ∧
          again = .error (.inFile name e) := by
  constructor
  · intro text source value loaded read
    exact fromValue_of_loaded (Except.mapError_eq_ok_iff.mp loaded)
      (Except.mapError_eq_ok_iff.mp read)
  · intro selection evaluate name content declarations unset loaded
    simp only [CommandLine.loadInput, CommandLine.Selection.declarations, Except.step_eq_ok_iff,
      Except.mapError_eq_ok_iff, Except.pure_eq_ok_iff] at loaded
    obtain ⟨text, decoded, modules, each, rfl⟩ := loaded
    have steps : CommandLine.loadInput selection.whole evaluate name content =
        (((selection.texts text).mapM (selection.whole.modules evaluate)).map fun modules =>
          modules.flatten.flatMap SourceModule.declarations).mapError (.inFile name) := by
      rw [CommandLine.loadInput, decoded]
      rfl
    rw [steps]
    rcases mapM_eq_ok_or_error (CommandLine.Selection.modules_whole unset evaluate) each with
      same | ⟨document, inside, e, why, fails⟩
    · refine .inl ?_
      rw [same]
      rfl
    · refine .inr ⟨text, document, e, decoded, inside, why, ?_⟩
      rw [fails]
      rfl

/-- A repeated key that belongs to no record is passed over in the text, and stands once in the
value. -/
def repeatedText : String :=
  "\x7b\"x\":1,\"declarations\":[[\"A\",\x7b\"type\":\"number\",\"kind\":\"primitive\"\x7d]]," ++
    "\"x\":2\x7d"

/-- Half of a pair of surrogates is passed over in the text, and is no value. -/
def surrogateText : String := "\x7b\"declarations\":[],\"x\":\"\\ud800\"\x7d"

theorem loaders_agree_repeated :
    let content := Except.ok surrogateText.toUTF8
    let evaluate : CommandLine.Evaluator := fun _ value => .ok [value]
    (∃ source value, Loader.fromText Reader.sourceModule repeatedText = .ok source ∧
      Loader.fromText Reader.anything repeatedText = .ok value ∧
      Loader.fromValue Reader.sourceModule value = .ok source ∧
      value.compact = "\x7b\"x\":2,\"declarations\":[[\"A\"," ++
        "\x7b\"type\":\"number\",\"kind\":\"primitive\"\x7d]]\x7d") ∧
    CommandLine.loadInput {} evaluate "m.json" content = .ok [] ∧
    ∃ e, loadText Reader.anything surrogateText = .error e ∧
      CommandLine.loadInput { pointer := some "" } evaluate "m.json" content =
        .error (.inFile "m.json" e) := by
  intro content evaluate
  constructor
  · have loaded : (Loader.fromText Reader.sourceModule repeatedText).isOk = true := by
      decide +kernel
    have read : (Loader.fromText Reader.anything repeatedText).map Json.compact =
        .ok ("\x7b\"x\":2,\"declarations\":[[\"A\"," ++
          "\x7b\"type\":\"number\",\"kind\":\"primitive\"\x7d]]\x7d") := by
      decide +kernel
    obtain ⟨value, read, written⟩ := Except.map_eq_ok_iff.mp read
    cases first : Loader.fromText Reader.sourceModule repeatedText with
    | error problem =>
      rw [first] at loaded
      contradiction
    | ok source =>
      exact ⟨source, value, rfl, read, loaders_agree.1 _ _ _ first read, written⟩
  · have decoded : CommandLine.decodeText "m.json" content = .ok surrogateText := by
      have valid : String.fromUTF8? surrogateText.toUTF8 = some surrogateText :=
        dif_pos surrogateText.isValidUTF8
      simp only [CommandLine.decodeText, content, valid]
    have empty : (CommandLine.Selection.declarations {} evaluate
        surrogateText).toOption.map List.length = some 0 := by decide +kernel
    have rejected : (CommandLine.Selection.declarations (CommandLine.Selection.whole {})
        evaluate surrogateText).isOk = false := by decide +kernel
    have direct : CommandLine.loadInput {} evaluate "m.json" content = .ok [] := by
      rw [CommandLine.loadInput, decoded]
      cases first : CommandLine.Selection.declarations {} evaluate surrogateText with
      | error e =>
        rw [first] at empty
        contradiction
      | ok declarations =>
        rw [first] at empty
        obtain rfl := List.length_eq_zero_iff.mp (Option.some_inj.mp empty)
        exact Except.mapError_eq_ok_iff.mpr first
    refine ⟨direct, ?_⟩
    rcases loaders_agree.2 {} evaluate "m.json" content [] rfl direct with
      same | ⟨text, document, e, found, inside, why, fails⟩
    · rw [CommandLine.loadInput, decoded] at same
      rw [Except.mapError_eq_ok_iff.mp same] at rejected
      contradiction
    · obtain rfl := Except.ok.inj (decoded.symm.trans found)
      obtain rfl := List.mem_singleton.mp inside
      exact ⟨e, why, fails⟩

end Loading

end DecoderForge
