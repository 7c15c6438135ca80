/-
This file proves what is loaded from the inputs of a command: the declarations of all documents in
the order of the inputs, of the lines and of the values that a filter gives, or the first failure in
this order, which names its input.
-/

import DecoderForge.CommandLine.Run
import DecoderForge.Proofs.Loading.Result

namespace DecoderForge

namespace RunError

/-- The input of which an error tells. -/
def input? : RunError → Option String
  | .unreadable path _ => some path
  | .load file _ | .noNode file _ | .filter file _ => file
  | _ => none

end RunError

namespace CommandLine

open Loading

section

variable (selection : Selection) (evaluate : Evaluator)

/-- Each document is a module as it stands. -/
def Selection.IsDirect : Prop := selection.pointer = none ∧ selection.filter = none

/-- The part of a value in which modules are looked for. -/
def Selection.Finds (value part : Json) : Prop :=
  match selection.pointer with
  | none => part = value
  | some pointer => value.at? pointer = some part

/-- The values that are modules. -/
def Selection.Gives (part : Json) (values : List Json) : Prop :=
  match selection.filter with
  | none => values = [part]
  | some filter => evaluate filter part = .ok values

/-- Every step on the way from the text of a document to its modules is taken. -/
inductive DocumentLoads (text : String) : List SourceModule → Prop
  | direct {source : SourceModule} (direct : selection.IsDirect)
    (loaded : loadText Reader.sourceModule text = .ok source) : DocumentLoads text [source]
  | selected {value part : Json} {values : List Json} {modules : List SourceModule}
    (selects : ¬ selection.IsDirect) (read : loadText Reader.anything text = .ok value)
    (found : selection.Finds value part) (given : selection.Gives evaluate part values)
    (each : List.Forall₂ (fun value source => loadValue Reader.sourceModule value = .ok source)
      values modules) :
    DocumentLoads text modules

/-- A step on the way from the text of a document to its modules is the first that fails. -/
inductive DocumentFails (text : String) : RunError → Prop
  | notModule {e : RunError} (direct : selection.IsDirect)
    (fails : loadText Reader.sourceModule text = .error e) : DocumentFails text e
  | notJson {e : RunError} (selects : ¬ selection.IsDirect)
    (fails : loadText Reader.anything text = .error e) : DocumentFails text e
  | noNode {value : Json} {pointer : String} (read : loadText Reader.anything text = .ok value)
    (points : selection.pointer = some pointer) (missing : value.at? pointer = none) :
    DocumentFails text (.noNode none pointer)
  | filter {value part : Json} {filter message : String}
    (read : loadText Reader.anything text = .ok value) (found : selection.Finds value part)
    (filters : selection.filter = some filter) (fails : evaluate filter part = .error message) :
    DocumentFails text (.filter none message)
  | notModules {value part : Json} {values : List Json} {e : RunError}
    (selects : ¬ selection.IsDirect) (read : loadText Reader.anything text = .ok value)
    (found : selection.Finds value part) (given : selection.Gives evaluate part values)
    (first : FirstFailure (fun value => ∃ source, loadValue Reader.sourceModule value = .ok source)
      (fun value e => loadValue Reader.sourceModule value = .error e) values e) :
    DocumentFails text e

/-- An input with a name cannot be read, or one of its documents is the first that fails. -/
inductive InputFails (name : String) : Except FileError ByteArray → RunError → Prop
  | unreadable (cause : FileError) : InputFails name (.error cause) (.unreadable name cause)
  | notText {bytes : ByteArray} (undecoded : String.fromUTF8? bytes = none) :
    InputFails name (.ok bytes) (.unreadable name .notText)
  | document {bytes : ByteArray} {text : String} {e : RunError}
    (decoded : String.fromUTF8? bytes = some text)
    (first : FirstFailure (fun text => ∃ modules, DocumentLoads selection evaluate text modules)
      (DocumentFails selection evaluate) (selection.texts text) e) :
    InputFails name (.ok bytes) (e.inFile name)

end

variable {selection : Selection} {evaluate : Evaluator}

namespace Selection

theorem part_eq_ok_iff {value part : Json} :
    selection.part value = .ok part ↔ selection.Finds value part := by
  unfold Selection.part Finds
  cases selection.pointer with
  | none => simp [eq_comm]
  | some pointer => cases found : value.at? pointer <;> simp [found]

theorem results_eq_ok_iff {part : Json} {values : List Json} :
    selection.results evaluate part = .ok values ↔ selection.Gives evaluate part values := by
  unfold results Gives
  cases selection.filter with
  | none => simp [eq_comm]
  | some filter => exact Except.mapError_eq_ok_iff

theorem modules_of_direct (direct : selection.IsDirect) (text : String) :
    selection.modules evaluate text = (loadText Reader.sourceModule text).map ([·]) := by
  unfold modules
  rw [direct.1, direct.2]
  cases loadText Reader.sourceModule text <;> rfl

theorem modules_of_selects (selects : ¬ selection.IsDirect) (text : String) :
    selection.modules evaluate text =
      loadText Reader.anything text >>= fun value =>
        selection.part value >>= fun part =>
          selection.results evaluate part >>= fun values =>
            values.mapM (loadValue Reader.sourceModule) := by
  unfold modules
  split
  · next unset unfiltered => exact absurd ⟨unset, unfiltered⟩ selects
  · rfl

theorem modules_eq_ok_iff {text : String} {modules : List SourceModule} :
    selection.modules evaluate text = .ok modules ↔
      DocumentLoads selection evaluate text modules := by
  by_cases direct : selection.IsDirect
  · rw [modules_of_direct direct, Except.map_eq_ok_iff]
    constructor
    · rintro ⟨source, loaded, rfl⟩
      exact .direct direct loaded
    · intro loads
      cases loads with
      | direct _ loaded => exact ⟨_, loaded, rfl⟩
      | selected selects => exact absurd direct selects
  · simp only [modules_of_selects direct, Except.step_eq_ok_iff, part_eq_ok_iff,
      results_eq_ok_iff, mapM_eq_ok_iff]
    constructor
    · rintro ⟨value, read, part, found, values, given, each⟩
      exact .selected direct read found given each
    · intro loads
      cases loads with
      | direct whole => exact absurd whole direct
      | selected _ read found given each => exact ⟨_, read, _, found, _, given, each⟩

end Selection

section

variable {name : String} {content : Except FileError ByteArray}

end

/-- What is read for a path. -/
def reading (contents : Contents) (standardInput : ByteArray) (path : String) :
    Except FileError ByteArray :=
  if isStandardInput path then .ok standardInput else contents path

section

variable (selection : Selection) (evaluate : Evaluator) (contents : Contents)

end

theorem exists_load_of_loadText {α : Type} {load : Loader α} {text : String} {e : RunError}
    (fails : loadText load text = .error e) : ∃ problem, e = .load none problem := by
  obtain ⟨problem, _, rfl⟩ := Except.mapError_eq_error_iff.mp fails
  exact ⟨problem, rfl⟩

/-- What is wrong with a document is told of its input. -/
theorem DocumentFails.input?_inFile {text : String} {e : RunError}
    (fails : DocumentFails selection evaluate text e) (name : String) :
    (e.inFile name).input? = some name := by
  cases fails with
  | notModule _ fails | notJson _ fails =>
    obtain ⟨problem, rfl⟩ := exists_load_of_loadText fails
    rfl
  | noNode | filter => rfl
  | notModules _ _ _ _ first =>
    obtain ⟨_, value, _, _, _, fails⟩ := first
    obtain ⟨problem, _, rfl⟩ := Except.mapError_eq_error_iff.mp fails
    rfl

theorem InputFails.input? {name : String} {content : Except FileError ByteArray} {e : RunError}
    (fails : InputFails selection evaluate name content e) : e.input? = some name := by
  cases fails with
  | unreadable | notText => rfl
  | document _ first =>
    obtain ⟨_, _, _, _, _, fails⟩ := first
    exact fails.input?_inFile name

/-- The selection in which an input is one document. -/
def Selection.single (selection : Selection) : Selection := { selection with byLine := false }

end CommandLine

end DecoderForge
