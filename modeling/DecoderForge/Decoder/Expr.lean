/-
This file holds decoder expressions, which is what a type is compiled to.
-/

import DecoderForge.Decoder.Usage
import DecoderForge.Descriptor.Json

namespace DecoderForge

/-- A value that a decoder is made from. -/
inductive Constant where
  | string (value : String)
  | number (value : NumericLiteral)
deriving Repr, DecidableEq

/-- An expression that makes a decoder, or an argument of one. -/
inductive DecoderExpr where
  | call (builtin : Builtin) (args : List DecoderExpr)
  /-- The decoder of another declaration. -/
  | identifier (name : String)
  /-- An argument: decoders under distinct keys, in order. -/
  | object (entries : List (String × DecoderExpr))
  /-- An argument: a value. -/
  | constant (value : Constant)
deriving Repr, Inhabited

namespace DecoderExpr

/-- The builtin that an expression calls. -/
def builtin? : DecoderExpr → Option Builtin
  | .call builtin _ => some builtin
  | _ => none

def args : DecoderExpr → List DecoderExpr
  | .call _ args => args
  | _ => []

mutual

/-- Every builtin that is called somewhere in an expression. -/
def builtins : DecoderExpr → Usage
  | .call builtin args => (builtinsOfList args).record builtin
  | .object entries => builtinsOfEntries entries
  | .identifier _ | .constant _ => .empty

def builtinsOfList : List DecoderExpr → Usage
  | [] => .empty
  | expr :: rest => expr.builtins.union (builtinsOfList rest)

def builtinsOfEntries : List (String × DecoderExpr) → Usage
  | [] => .empty
  | (_, expr) :: rest => expr.builtins.union (builtinsOfEntries rest)

end

end DecoderExpr

def Constant.toJson : Constant → Json
  | .string s => .obj [("type", .str "string"), ("value", .str s)]
  | .number n => .obj [("type", .str "number"), ("value", n.toJson)]

mutual

def DecoderExpr.toJson : DecoderExpr → Json
  | .call builtin args =>
    .obj [("kind", .str "builtinCall"), ("builtin", .str builtin.name),
      ("args", .arr (DecoderExpr.listToJson args))]
  | .identifier name => .obj [("kind", .str "identifier"), ("name", .str name)]
  | .object entries =>
    .obj [("kind", .str "objectLiteral"), ("entries", .obj (DecoderExpr.entriesToJson entries))]
  | .constant value => .obj [("kind", .str "literal"), ("value", value.toJson)]

def DecoderExpr.listToJson : List DecoderExpr → List Json
  | [] => []
  | expr :: rest => expr.toJson :: DecoderExpr.listToJson rest

def DecoderExpr.entriesToJson : List (String × DecoderExpr) → List (String × Json)
  | [] => []
  | (key, expr) :: rest => (key, expr.toJson) :: DecoderExpr.entriesToJson rest

end

end DecoderForge
