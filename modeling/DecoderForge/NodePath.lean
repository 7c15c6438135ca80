/-
This file holds the place of a type inside a declaration, which is where diagnostics are reported.
-/

namespace DecoderForge

/-- A step from a type to a type inside it. -/
inductive Segment where
  | declaration (name : String)
  | field (name : String)
  | tupleSlot (index : Nat)
  | unionMember (index : Nat)
  | arrayElement
deriving Repr, DecidableEq

def Segment.text : Segment → String
  | .declaration name => name
  | .field name => "." ++ name
  | .tupleSlot index => "[" ++ toString index ++ "]"
  | .unionMember index => "|" ++ toString index
  | .arrayElement => "[]"

/-- The steps from a declaration to a type inside it. -/
structure NodePath where
  segments : List Segment
deriving Repr, DecidableEq, Inhabited

namespace NodePath

def root : NodePath := ⟨[]⟩

def push (path : NodePath) (segment : Segment) : NodePath := ⟨path.segments ++ [segment]⟩

/-- The path without its last step, if it has one. -/
def pop (path : NodePath) : NodePath := ⟨path.segments.dropLast⟩

def text (path : NodePath) : String := String.join (path.segments.map Segment.text)

@[simp] theorem pop_push (path : NodePath) (segment : Segment) :
    (path.push segment).pop = path := by
  simp [pop, push]

theorem text_push (path : NodePath) (segment : Segment) :
    (path.push segment).text = path.text ++ segment.text := by
  simp [text, push, String.join, List.foldl_append]

end NodePath

end DecoderForge
