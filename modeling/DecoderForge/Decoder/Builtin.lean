/-
This file holds the decoders and decoder factories that the run-time library supplies.
-/

namespace DecoderForge

/-- The decoders of the library, in the order of their names. -/
inductive Builtin where
  | array
  | boolean
  | constant
  | either
  | json
  | jsonObject
  | number
  | object
  | optional
  | string
  | taggedUnion
  | tuple
deriving Repr, DecidableEq

namespace Builtin

def name : Builtin → String
  | .array => "array"
  | .boolean => "boolean"
  | .constant => "constant"
  | .either => "either"
  | .json => "json"
  | .jsonObject => "jsonObject"
  | .number => "number"
  | .object => "object"
  | .optional => "optional"
  | .string => "string"
  | .taggedUnion => "taggedUnion"
  | .tuple => "tuple"

/-- Every builtin, in the order of the names. -/
def all : List Builtin :=
  [.array, .boolean, .constant, .either, .json, .jsonObject, .number, .object, .optional, .string,
    .taggedUnion, .tuple]

/-- A value is a decoder by itself, all others make a decoder from their arguments. -/
def isValue : Builtin → Bool
  | .string | .number | .boolean | .jsonObject | .json => true
  | _ => false

theorem mem_all (b : Builtin) : b ∈ all := by
  cases b <;> decide

/-- The place of a builtin among all of them. -/
def rank (b : Builtin) : Nat := all.idxOf b

theorem name_injective {a b : Builtin} (same : a.name = b.name) : a = b := by
  revert same
  cases a <;> cases b <;> decide

end Builtin

end DecoderForge
