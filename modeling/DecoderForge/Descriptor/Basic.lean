/-
This file holds type descriptors: what is known of the types that a module declares. A descriptor
names the other types that it refers to and never contains them.
-/

import DecoderForge.Descriptor.NumericLiteral

namespace DecoderForge

inductive PrimitiveKind where
  | string
  | number
  | boolean
deriving Repr, DecidableEq

/-- The value of a literal type. A big integer has its digits as they are written. -/
inductive LiteralValue where
  | string (value : String)
  | number (value : NumericLiteral)
  | boolean (value : Bool)
  | null
  | bigInt (digits : String)
deriving Repr, DecidableEq

namespace LiteralValue

/-- The word that messages have for the kind of a literal. -/
def kindName : LiteralValue → String
  | .string _ => "string"
  | .number _ => "number"
  | .boolean _ => "boolean"
  | .null => "null"
  | .bigInt _ => "bigint"

def string? : LiteralValue → Option String
  | .string s => some s
  | _ => none

end LiteralValue

/-- A field of a record with what is known of its type. -/
structure FieldOf (α : Type) where
  name : String
  type : α
  optional : Bool
deriving Repr, DecidableEq

/-- What is known of a type. -/
inductive Descriptor where
  | primitive (kind : PrimitiveKind)
  /-- Any object. -/
  | opaqueObject
  | union (members : List Descriptor)
  | array (element : Descriptor)
  | tuple (elements : List Descriptor)
  | literal (value : LiteralValue)
  | reference (name : String)
  | record (fields : List (FieldOf Descriptor))
  /-- A type that has no decoder, such as an intersection. -/
  | unsupported (construct : String)
  /-- A type of a kind that is not known here. -/
  | unrecognized
deriving Repr, Inhabited

abbrev Field := FieldOf Descriptor

namespace Descriptor

/-- The first field of a record with the given name. -/
def field? (name : String) : Descriptor → Option Field
  | .record fields => fields.find? fun field => field.name = name
  | _ => none

/-- The string that a literal type allows. -/
def stringLiteral? : Descriptor → Option String
  | .literal value => value.string?
  | _ => none

end Descriptor

/-- A named type. -/
structure Declaration where
  name : String
  type : Descriptor
deriving Repr, Inhabited

/-- The types that a module declares, in order. -/
structure SourceModule where
  declarations : List Declaration
deriving Repr, Inhabited

end DecoderForge
