/-
This file holds the settings of a run.
-/

import DecoderForge.Json.Basic

namespace DecoderForge

/-- The settings with which declarations are compiled. -/
structure CompileConfig where
  /-- The field that tells the members of a union apart. -/
  tagField : Option String := none
  /-- Whether each builtin that is used is imported by its name. -/
  namedImports : Bool := false
deriving Repr, DecidableEq, Inhabited

namespace CompileConfig

/-- What is given by flags wins over what is configured. -/
def override (config : CompileConfig) (tagField : Option String) (namedImports : Bool) :
    CompileConfig :=
  ⟨tagField.or config.tagField, namedImports || config.namedImports⟩

def toJson (config : CompileConfig) : Json :=
  .obj [("tagField", .strOrNull config.tagField), ("namedImportStyle", .bool config.namedImports)]

end CompileConfig

end DecoderForge
