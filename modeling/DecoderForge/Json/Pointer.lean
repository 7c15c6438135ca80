/-
This file selects a part of a JSON value by a pointer, in which a slash stands before each step on
the way to the part.
-/

import DecoderForge.Json.Basic
import DecoderForge.Text.Split

namespace DecoderForge

namespace Json

namespace Pointer

/-- A step as it is meant: `~1` stands for a slash and `~0` for a tilde. -/
def unescape : List Char → List Char
  | '~' :: '1' :: rest => '/' :: unescape rest
  | '~' :: '0' :: rest => '~' :: unescape rest
  | c :: rest => c :: unescape rest
  | [] => []

/-- The steps of a pointer. A pointer without any is empty, and every other begins with a slash. -/
def steps? (pointer : String) : Option (List String) :=
  match Text.split '/' pointer with
  | "" :: steps => some (steps.map fun step => String.ofList (unescape step.toList))
  | _ => none

/-- An index has only digits, and no zero in front of others. -/
def isIndex : List Char → Bool
  | [] => false
  | ['0'] => true
  | first :: rest => first != '0' && (first :: rest).all Char.isDigit

def index? (step : String) : Option Nat :=
  if isIndex step.toList then step.toNat? else none

/-- The part of a value to which one step leads. -/
def follow (value : Json) (step : String) : Option Json :=
  match value with
  | .arr items => (index? step).bind fun i => items[i]?
  | .obj entries => Entries.get? step entries
  | _ => none

end Pointer

/-- The part of a value to which a pointer leads. -/
def at? (value : Json) (pointer : String) : Option Json := do
  (← Pointer.steps? pointer).foldlM Pointer.follow value

@[simp] theorem at?_empty (value : Json) : value.at? "" = some value := rfl

end Json

end DecoderForge
