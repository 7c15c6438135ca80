/-
This file says where in a document a problem lies: by a path of keys and indices, and in a text also
by a line and a column.
-/

import DecoderForge.Loading.Cause

namespace DecoderForge

namespace Loading

/-- A step from a value to one of its parts. -/
inductive Step where
  | index (i : Nat)
  | key (name : String)
  /-- A key that could not be read. -/
  | unknown
deriving Repr, DecidableEq

namespace Step

def text : Step → String
  | .index i => "[" ++ toString i ++ "]"
  | .key name => name
  | .unknown => "?"

/-- Only an index follows the step before it without a point. -/
def needsPoint : Step → Bool
  | .index _ => false
  | _ => true

/-- The text of the steps behind the first one. -/
def tailText (steps : List Step) : String :=
  String.join (steps.map fun step => (if step.needsPoint then "." else "") ++ step.text)

/-- The text of a path, which is a point for the whole document. -/
def pathText : List Step → String
  | [] => "."
  | first :: rest => first.text ++ tailText rest

end Step

/-- Why loading failed, on which path, and how far into the text if that is settled. -/
structure Failure where
  cause : Cause
  path : List Step := []
  offset : Option Nat := none
deriving Repr, DecidableEq

namespace Failure

/-- A failure of the text itself. -/
def ofFault (fault : Json.Fault) : Failure := ⟨.malformed fault.cause, [], some fault.offset⟩

/-- The failure as one of a part. -/
def within (step : Step) (failure : Failure) : Failure :=
  { failure with path := step :: failure.path }

/-- A failure that is not yet settled gets the offset where the reader gives up. -/
def settle (rest : Option Nat) (failure : Failure) : Failure :=
  match failure.offset with
  | some _ => failure
  | none => { failure with offset := rest }

end Failure

/-- Why a document could not be loaded. -/
structure Problem where
  cause : Cause
  path : List Step
  place : Option Text.Place
deriving Repr, DecidableEq

namespace Problem

/-- The cause with its place in the text. -/
def detail (problem : Problem) : String :=
  match problem.place with
  | none => problem.cause.message
  | some place =>
    problem.cause.message ++ " at line " ++ toString place.line ++ " column " ++
      toString place.column

def message (problem : Problem) : String :=
  "at JSON path " ++ Step.pathText problem.path ++ " → " ++ problem.detail

/-- The problem that a failure is in a text. -/
def ofText (chars : List Char) (failure : Failure) : Problem :=
  ⟨failure.cause, failure.path, failure.offset.map (Text.placeAt chars)⟩

/-- The problem that a failure is in a value, which has no lines. -/
def ofValue (failure : Failure) : Problem := ⟨failure.cause, failure.path, none⟩

end Problem

/-- A way to load values of a type. -/
abbrev Loader (α : Type) := Json.Document → Except Failure α

namespace Loader

/-- Loads the document at the beginning of a text. -/
def fromText {α : Type} (load : Loader α) (text : String) : Except Problem α :=
  (load (.ofText text)).mapError (Problem.ofText text.toList)

/-- Loads a value. -/
def fromValue {α : Type} (load : Loader α) (value : Json) : Except Problem α :=
  (load (.ofJson value)).mapError Problem.ofValue

end Loader

end Loading

end DecoderForge
