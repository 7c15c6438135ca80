/-
This file holds filters, which reshape a JSON value into any number of values.
-/

import DecoderForge.Json.Basic

namespace DecoderForge

/-- The operators of which both sides have results of their own. -/
inductive FilterOperator where
  | pipe
  | comma
  | alternative
  | or
  | and
  | equal
  | unequal
deriving Repr, DecidableEq

namespace FilterOperator

/-- A greater level binds more tightly. -/
def level : FilterOperator → Nat
  | .pipe => 0
  | .comma => 1
  | .alternative => 2
  | .or => 3
  | .and => 4
  | .equal | .unequal => 5

/-- The number of levels. -/
def levels : Nat := 6

/-- Whether the operator groups to the right. -/
def toRight : FilterOperator → Bool
  | .pipe | .alternative => true
  | _ => false

end FilterOperator

/-- A step from a value to some of its parts. A step that may fail quietly has no results then. -/
inductive FilterStep (φ : Type) where
  | index (key : φ) (quiet : Bool)
  | slice (first last : Option φ) (quiet : Bool)
  | each (quiet : Bool)
deriving Repr

/-- A filter. -/
inductive Filter where
  | identity
  | value (value : Json)
  | variable (name : String)
  | path (start : Filter) (steps : List (FilterStep Filter))
  /-- The results of a filter without its failures. -/
  | quiet (filter : Filter)
  | binary (operator : FilterOperator) (left right : Filter)
  /-- The results of the body for each value of a variable. -/
  | bind (values : Filter) (name : String) (body : Filter)
  | array (items : Option Filter)
  | object (entries : List (Filter × Filter))
  | negate (filter : Filter)
  | conditional (condition yes no : Filter)
  | empty
  | fail (cause : Filter)
  | select (condition : Filter)
  | map (filter : Filter)
  | length
  | keys
  | not
deriving Repr, Inhabited

end DecoderForge
