/-
This file holds the parts of a generated module: imports, blank lines and declarations.
-/

import DecoderForge.Decoder.Expr

namespace DecoderForge

/-- An import from another module. -/
inductive Import where
  /-- Names that are only used as types. -/
  | types (names : List String) (source : String)
  /-- Everything, as members of one name. -/
  | everything (binding source : String)
  | named (names : List String) (source : String)
deriving Repr, DecidableEq

/-- A binding that is declared, with its decoder if it has one. -/
structure Binding where
  name : String
  resultType : Option String
  expr : Option DecoderExpr
deriving Repr, Inhabited

def Binding.isInitialized (binding : Binding) : Bool := binding.expr.isSome

/-- A part of a generated module. -/
inductive ModuleItem where
  | importing (what : Import)
  | blank
  | declaration (binding : Binding)
deriving Repr

namespace ModuleItem

def import? : ModuleItem → Option Import
  | .importing what => some what
  | _ => none

def binding? : ModuleItem → Option Binding
  | .declaration binding => some binding
  | _ => none

/-- The name of which everything imported is a member. -/
def alias? : ModuleItem → Option String
  | .importing (.everything binding _) => some binding
  | _ => none

end ModuleItem

/-- The entries of an import behind the tag of its item. -/
def Import.toEntries : Import → List (String × Json)
  | .types names source =>
    [("import", .str "types"), ("names", .arr (names.map .str)), ("from", .str source)]
  | .everything binding source =>
    [("import", .str "namespace"), ("alias", .str binding), ("from", .str source)]
  | .named names source =>
    [("import", .str "named"), ("names", .arr (names.map .str)), ("from", .str source)]

def Binding.toEntries (binding : Binding) : List (String × Json) :=
  [("bindingName", .str binding.name), ("resultType", .strOrNull binding.resultType),
    ("expr", (binding.expr.map DecoderExpr.toJson).getD .null)]

def Binding.toJson (binding : Binding) : Json := .obj binding.toEntries

def ModuleItem.toJson : ModuleItem → Json
  | .importing what => .obj (("item", .str "import") :: what.toEntries)
  | .blank => .obj [("item", .str "blank")]
  | .declaration binding => .obj (("item", .str "declaration") :: binding.toEntries)

end DecoderForge
