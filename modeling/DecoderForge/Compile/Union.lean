/-
This file tells apart the unions whose members are records with a string of their own in one field.
-/

import DecoderForge.Descriptor.Basic

namespace DecoderForge

/-- The ways to decode a union. -/
inductive UnionShape where
  /-- By the string in a field; one string for each member. -/
  | tagged (tagField : String) (tags : List String)
  /-- By trying one member after the other. -/
  | plain
deriving Repr, DecidableEq

/-- The string that a record needs in a field. -/
def Descriptor.tag? (tagField : String) (member : Descriptor) : Option String :=
  (member.field? tagField).bind fun field => field.type.stringLiteral?

namespace UnionShape

/-- A union is tagged when there is a tag field and every member is a record with a tag. -/
def classify (members : List Descriptor) (tagField : Option String) : UnionShape :=
  match tagField with
  | none => .plain
  | some tagField =>
    match members.mapM (Descriptor.tag? tagField) with
    | some tags => .tagged tagField tags
    | none => .plain

end UnionShape

end DecoderForge
