/-
This file holds the reasons for which a document is not what it is loaded as.
-/

import DecoderForge.Json.Document
import DecoderForge.Text.Quoted

namespace DecoderForge

namespace Loading

/-- What stands in a document where something else is needed. -/
inductive Found where
  | atom (value : Json.Atom)
  | sequence
  | map
deriving Repr, DecidableEq

namespace Found

def ofJson : Json → Found
  | .null => .atom .null
  | .bool b => .atom (.bool b)
  | .num n => .atom (.num n)
  | .str s => .atom (.str s)
  | .arr _ => .sequence
  | .obj _ => .map

def text : Found → String
  | .atom .null => "null"
  | .atom (.bool b) => "boolean `" ++ (if b then "true" else "false") ++ "`"
  | .atom (.num (.int n)) => "integer `" ++ (Number.int n).text ++ "`"
  | .atom (.num n) => "floating point `" ++ n.text ++ "`"
  | .atom (.str s) => "string " ++ Text.quoted s
  | .sequence => "sequence"
  | .map => "map"

end Found

/-- What a place in a document needs. -/
inductive Expected where
  | string
  | boolean
  | sequence
  | map
  | unit
  | variantName
  | variantIndex (count : Nat)
  | stringOrMap
  | singleKeyMap
  | record (name : String)
  | recordOf (name : String) (count : Nat)
  | variantOf (name variant : String) (count : Nat)
  | unitVariant (name variant : String)
  | tagged (name : String)
  | tagAndContent (name : String)
  /-- No more than so many elements. -/
  | elements (count : Nat)
  | fewer
deriving Repr, DecidableEq

/-- A number of elements. -/
def elementsText (count : Nat) : String :=
  toString count ++ (if count = 1 then " element" else " elements")

def Expected.text : Expected → String
  | .string => "a string"
  | .boolean => "a boolean"
  | .sequence => "a sequence"
  | .map => "a map"
  | .unit => "unit"
  | .variantName => "variant identifier"
  | .variantIndex count => "variant index 0 <= i < " ++ toString count
  | .stringOrMap => "string or map"
  | .singleKeyMap => "map with a single key"
  | .record name => "struct " ++ name
  | .recordOf name count => "struct " ++ name ++ " with " ++ elementsText count
  | .variantOf name variant count =>
    "struct variant " ++ name ++ "::" ++ variant ++ " with " ++ elementsText count
  | .unitVariant name variant => "unit variant " ++ name ++ "::" ++ variant
  | .tagged name => "internally tagged enum " ++ name
  | .tagAndContent name => "adjacently tagged enum " ++ name
  | .elements count => elementsText count ++ " in sequence"
  | .fewer => "fewer elements in array"

/-- Why a document cannot be loaded. -/
inductive Cause where
  | malformed (what : Json.Malformation)
  | wrongType (found : Found) (expected : Expected)
  | wrongValue (found : Found) (expected : Expected)
  | wrongLength (length : Nat) (expected : Expected)
  | missingField (name : String)
  | repeatedField (name : String)
  | unknownField (name : String) (known : List String)
  | unknownVariant (name : String) (known : List String)
  | notNumeric (text : String)
  | neitherNumberNorText
deriving Repr, DecidableEq

/-- The names that may stand in a place. -/
def oneOf (names : List String) : String :=
  match names.map fun name => "`" ++ name ++ "`" with
  | [only] => only
  | [first, second] => first ++ " or " ++ second
  | many => "one of " ++ ", ".intercalate many

def Cause.message : Cause → String
  | .malformed what => what.message
  | .wrongType found expected => "invalid type: " ++ found.text ++ ", expected " ++ expected.text
  | .wrongValue found expected => "invalid value: " ++ found.text ++ ", expected " ++ expected.text
  | .wrongLength length expected =>
    "invalid length " ++ toString length ++ ", expected " ++ expected.text
  | .missingField name => "missing field `" ++ name ++ "`"
  | .repeatedField name => "duplicate field `" ++ name ++ "`"
  | .unknownField name known => "unknown field `" ++ name ++ "`, expected " ++ oneOf known
  | .unknownVariant name known => "unknown variant `" ++ name ++ "`, expected " ++ oneOf known
  | .notNumeric text => "not a numeric literal: " ++ Text.quoted text
  | .neitherNumberNorText => "data did not match any variant of untagged enum Repr"

end Loading

end DecoderForge
