/-
This file holds JSON values. An object is the list of its entries in the order in which they came;
while a document is only buffered, a key may stand in it more than once.
-/

import DecoderForge.Entries
import DecoderForge.Number

namespace DecoderForge

/-- A JSON value. -/
inductive Json where
  | null
  | bool (value : Bool)
  | num (value : Number)
  | str (value : String)
  | arr (items : List Json)
  | obj (entries : List (String × Json))
deriving Repr, Inhabited

namespace Json

def nat (n : Nat) : Json := .num (.int n)

/-- A text, or null where there is none. -/
def strOrNull : Option String → Json
  | some s => .str s
  | none => .null

mutual

/-- The number of arrays and objects around the innermost value. -/
def depth : Json → Nat
  | .arr items => depthItems items + 1
  | .obj entries => depthEntries entries + 1
  | _ => 0

def depthItems : List Json → Nat
  | [] => 0
  | item :: rest => max item.depth (depthItems rest)

def depthEntries : List (String × Json) → Nat
  | [] => 0
  | (_, value) :: rest => max value.depth (depthEntries rest)

end

mutual

/-- The value in which the last entry of a key stands for all of them, at the place of the first. -/
def distinct : Json → Json
  | .arr items => .arr (distinctItems items)
  | .obj entries => .obj (Entries.ofList (distinctEntries entries))
  | other => other

def distinctItems : List Json → List Json
  | [] => []
  | item :: rest => item.distinct :: distinctItems rest

def distinctEntries : List (String × Json) → List (String × Json)
  | [] => []
  | (key, value) :: rest => (key, value.distinct) :: distinctEntries rest

end

end Json

end DecoderForge
