/-
This file proves how much of a text is loaded: the value with which the text begins, and nothing
that stands behind it.
-/

import DecoderForge.CommandLine.Input
import DecoderForge.Proofs.CommandLine.Input
import DecoderForge.Proofs.Loading.Unfinished
import Mathlib

namespace DecoderForge.Loading

open Json

/-- No value goes on with blanks. -/
theorem ends_blank (value : List Char) {behind : List Char} (blank : Blank behind) :
    Ends value behind := by
  intro _ _ n _ _ _
  cases behind with
  | nil => exact Text.stops_nil _
  | cons c rest =>
    refine .of_head ?_ rest
    have first := blank c List.mem_cons_self
    simp only [Cursor.isBlank, Bool.or_eq_true, beq_iff_eq] at first
    rcases first with ((rfl | rfl) | rfl) | rfl <;> simp [Numeral.goesOn]

/-- A text begins with one value only. -/
theorem behind_unique {value behind value' behind' : List Char} (spelled : IsValue value)
    (ends : Ends value behind) (spelled' : IsValue value') (ends' : Ends value' behind')
    (same : value ++ behind = value' ++ behind') : behind = behind' := by
  obtain ⟨stop, passed⟩ := passValue_of_value spelled 0
  obtain ⟨stop', passed'⟩ := passValue_of_value spelled' 0
  have here := passed behind ends
  rw [same, passed' behind' ends'] at here
  exact (Cursor.mk.inj (Except.ok.inj here)).1.symm

/-- A text consists of the value with which it begins if there is nothing but blanks behind it. -/
theorem isText_iff {value behind : List Char} (spelled : IsValue value)
    (ends : Ends value behind) : IsText (value ++ behind) ↔ Blank behind := by
  constructor
  · rintro ⟨value', behind', spelled', blank, same⟩
    rwa [behind_unique spelled ends spelled' (ends_blank value' blank) same]
  · intro blank
    exact ⟨value, behind, spelled, blank, rfl⟩

/-- What stands behind a value has no part in the document. -/
theorem ofChars_append {value behind other : List Char} (spelled : IsValue value)
    (ends : Ends value behind) (ends' : Ends value other) :
    Document.ofChars (value ++ other) = .ofChars (value ++ behind) := by
  obtain ⟨document, stop, read⟩ := isLocal_of_spelled spelled greatestDepth 0
  have each (rest : List Char) (ends : Ends value rest) :
      Document.ofChars (value ++ rest) = document := congrArg Prod.fst (read rest ends)
  rw [each other ends', each behind ends]

/-- A text begins with a value, unless the document in it is unfinished. -/
theorem exists_value_of_finished {text : List Char} (finished : ¬ Unfinished (.ofChars text)) :
    ∃ value behind, text = value ++ behind ∧ IsValue value ∧ Ends value behind := by
  cases read : readValue greatestDepth (.ofChars text) with
  | mk document stop =>
    have whole : Document.ofChars text = document := by rw [Document.ofChars, read]
    cases stop with
    | none => exact absurd (whole ▸ unfinished_of_readValue _ _ _ read) finished
    | some stop =>
      obtain ⟨value, spelled, split, ends⟩ := readValue_sound _ _ _ _ read
      exact ⟨value, stop.chars, split, spelled, ends⟩

variable {ε δ α β : Type}

/-- What is loaded from a text is loaded from the value with which the text begins. It is loaded
whatever stands behind the value, although only blanks may stand behind the value of a text. -/
def LoadsFront (load : String → Except ε α) (text : String) (a : α) : Prop :=
  ∃ value behind, text.toList = value ++ behind ∧ IsValue value ∧ Ends value behind ∧
    (IsText text.toList ↔ Blank behind) ∧
      ∀ other, Ends value other → load (.ofList (value ++ other)) = .ok a

theorem loadsFront_of_finishes {load : Loader α} (finishes : Finishes load) {text : String} {a : α}
    (loaded : load.fromText text = .ok a) : LoadsFront load.fromText text a := by
  have here := Except.mapError_eq_ok_iff.mp loaded
  obtain ⟨value, behind, split, spelled, ends⟩ := exists_value_of_finished (finishes _ a here)
  refine ⟨value, behind, split, spelled, ends, split ▸ isText_iff spelled ends,
    fun other ends' => ?_⟩
  refine Except.mapError_eq_ok_iff.mpr ?_
  rw [Document.ofText, String.toList_ofList, ofChars_append spelled ends ends', ← split]
  exact here

/-- What is made of what is loaded has no other source either. -/
theorem LoadsFront.of_loaded {load : String → Except ε α} {run : String → Except δ β}
    {text : String} {a : α} {b : β} (front : LoadsFront load text a)
    (goOn : ∀ other, load other = .ok a → run other = .ok b) : LoadsFront run text b := by
  obtain ⟨value, behind, split, spelled, ends, whole, each⟩ := front
  exact ⟨value, behind, split, spelled, ends, whole, fun other ends' =>
    goOn _ (each other ends')⟩

/-- A module is an object or a list, behind which anything may stand. -/
theorem ends_of_module {value : List Char} (spelled : IsValue value) {source : SourceModule}
    (loaded : Reader.sourceModule (.ofChars value) = .ok source) (other : List Char) :
    Ends value other := by
  cases spelled with
  | container front opens parts => exact ends_container front opens other
  | @atom indent chars front atom =>
    obtain ⟨c, more, rfl, first, plain⟩ := atom.front
    have begins : Cursor.skipBlank (.ofChars (indent ++ c :: more)) =
        ⟨c :: more, 0 + indent.length⟩ :=
      Cursor.skipBlank_append front (isBlank_of_isFront first) 0
    rw [Document.ofChars, readValue_of_plain _ (by rw [begins]; exact plain), readAtom_eq] at loaded
    cases token : atomToken (Cursor.skipBlank (.ofChars (indent ++ c :: more))) with
    | error fault => simp [token, atomDocument, Reader.sourceModule] at loaded
    | ok found => simp [token, atomDocument, Reader.sourceModule] at loaded

theorem loadsFront_modules {selection : CommandLine.Selection}
    {evaluate : CommandLine.Evaluator} {text : String} {modules : List SourceModule}
    (loaded : selection.modules evaluate text = .ok modules) :
    LoadsFront (selection.modules evaluate) text modules := by
  have steps {β : Type} {load : Loader β} {text : String} {b : β} :
      loadText load text = .ok b ↔ load.fromText text = .ok b := Except.mapError_eq_ok_iff
  cases CommandLine.Selection.modules_eq_ok_iff.mp loaded with
  | direct direct source =>
    have front := loadsFront_of_finishes finishes_sourceModule (steps.mp source)
    refine front.of_loaded fun other again => ?_
    exact CommandLine.Selection.modules_eq_ok_iff.mpr (.direct direct (steps.mpr again))
  | selected selects read found given each =>
    have front := loadsFront_of_finishes finishes_anything (steps.mp read)
    refine front.of_loaded fun other again => ?_
    exact CommandLine.Selection.modules_eq_ok_iff.mpr
        (.selected selects (steps.mpr again) found given each)

/-- Whatever a text is read as, no more is read of it than the value with which it begins, and what
stands behind the value is left unread without a word. Behind a module that may be anything. -/
theorem loads_front (selection : CommandLine.Selection) (evaluate : CommandLine.Evaluator)
    (text : String) :
    (∀ source, Loader.fromText Reader.sourceModule text = .ok source →
      LoadsFront (Loader.fromText Reader.sourceModule) text source) ∧
    (∀ value, Loader.fromText Reader.anything text = .ok value →
      LoadsFront (Loader.fromText Reader.anything) text value) ∧
    (∀ settings, Loader.fromText Reader.config text = .ok settings →
      LoadsFront (Loader.fromText Reader.config) text settings) ∧
    (∀ modules, selection.modules evaluate text = .ok modules →
      LoadsFront (selection.modules evaluate) text modules) ∧
    (∀ source, IsValue text.toList → Loader.fromText Reader.sourceModule text = .ok source →
      ∀ other, Loader.fromText Reader.sourceModule (text ++ other) = .ok source) := by
  refine ⟨fun source => loadsFront_of_finishes finishes_sourceModule,
    fun value => loadsFront_of_finishes finishes_anything,
    fun settings => loadsFront_of_finishes finishes_config, fun modules => loadsFront_modules,
    fun source spelled loaded other => ?_⟩
  have here := Except.mapError_eq_ok_iff.mp loaded
  have ends := ends_of_module spelled here
  refine Except.mapError_eq_ok_iff.mpr ?_
  rw [Document.ofText, String.toList_append, ofChars_append spelled (ends []) (ends _),
    List.append_nil]
  exact here

/-- Two modules, one in each line. -/
def twoModules : String :=
  "\x7b\"declarations\":[[\"A\",[\"opaqueObject\"]]]\x7d\n" ++
    "\x7b\"declarations\":[[\"B\",[\"opaqueObject\"]]]\x7d"

theorem load_twoModules :
    Loader.fromText Reader.sourceModule twoModules = .ok ⟨[⟨"A", .opaqueObject⟩]⟩ := by cbv

theorem loads_front_two :
    Loader.fromText Reader.sourceModule twoModules = .ok ⟨[⟨"A", .opaqueObject⟩]⟩ ∧
      LoadsFront (Loader.fromText Reader.sourceModule) twoModules ⟨[⟨"A", .opaqueObject⟩]⟩ :=
  ⟨load_twoModules, (loads_front {} (fun _ value => .ok [value]) twoModules).1 _ load_twoModules⟩

/-- The second module is lost, and the text is no single value. -/
theorem second_module_unread :
    Loader.fromText Reader.sourceModule twoModules = .ok ⟨[⟨"A", .opaqueObject⟩]⟩ ∧
      ¬ IsText twoModules.toList := by
  refine ⟨load_twoModules, ?_⟩
  have stops : ((readValue greatestDepth (.ofChars twoModules.toList)).2.map Cursor.chars) =
      some "\n\x7b\"declarations\":[[\"B\",[\"opaqueObject\"]]]\x7d".toList := by
    decide +kernel
  obtain ⟨stop, read, behind⟩ := Option.map_eq_some_iff.mp stops
  obtain ⟨value, spelled, split, ends⟩ :=
    readValue_sound greatestDepth (.ofChars twoModules.toList) _ stop (Prod.ext rfl read)
  intro whole
  have blank := (isText_iff spelled ends).mp (split ▸ whole)
  have brace := blank '\x7b' (by rw [behind]; decide)
  contradiction

end DecoderForge.Loading
