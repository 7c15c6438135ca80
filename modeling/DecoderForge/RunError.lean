/-
This file holds the reasons for which a run ends without a result.
-/

import DecoderForge.FileTree.Path
import DecoderForge.Glob.Pattern
import DecoderForge.Loading.Problem

namespace DecoderForge

/-- Why a run ends without a result. What concerns a document can name the document's file. -/
inductive RunError where
  | unreadable (path : String) (cause : FileError)
  | load (file : Option String) (problem : Loading.Problem)
  | noNode (file : Option String) (pointer : String)
  | filter (file : Option String) (what : String)
  | pattern (e : PatternError)
  | noMatch (pattern : String)
  | skippedNodes (count : Nat)
deriving Repr

namespace RunError

/-- A file's name in front of a message. -/
def filed (file : Option String) (message : String) : String :=
  match file with
  | some name => name ++ ": " ++ message
  | none => message

def message : RunError → String
  | .unreadable path cause => "failed to read " ++ path ++ ": " ++ cause.message
  | .load file problem => filed file problem.message
  | .noNode file pointer => filed file ("no node at JSON pointer " ++ pointer)
  | .filter file what => filed file ("jq: " ++ what)
  | .pattern e => "invalid glob pattern: " ++ e.message
  | .noMatch glob => "glob pattern matched no files: " ++ glob
  | .skippedNodes count => toString count ++ " node(s) could not be compiled"

/-- The error of a document in a file. -/
def inFile (file : String) : RunError → RunError
  | .load _ problem => .load (some file) problem
  | .noNode _ pointer => .noNode (some file) pointer
  | .filter _ what => .filter (some file) what
  | other => other

/-- The error and what caused it, each as a message. -/
def chain (e : RunError) : List String :=
  match e with
  | .unreadable _ cause => [e.message, cause.message]
  | .load _ problem => [e.message, problem.detail]
  | .pattern cause => [e.message, cause.message]
  | _ => [e.message]

end RunError

/-- What a step of a run gives, or why the run ends there. -/
abbrev Loaded (α : Type) := Except RunError α

namespace Loading

/-- Loads a text, as a step of a run. -/
def loadText {α : Type} (load : Loader α) (text : String) : Loaded α :=
  (load.fromText text).mapError (.load none)

/-- Loads a value, as a step of a run. -/
def loadValue {α : Type} (load : Loader α) (value : Json) : Loaded α :=
  (load.fromValue value).mapError (.load none)

end Loading

end DecoderForge
