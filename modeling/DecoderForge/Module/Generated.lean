/-
This file puts the decoders of a module together with the imports that they need.
-/

import DecoderForge.Compile.Compiler

namespace DecoderForge

/-- A module of decoders, and what was reported while it was generated. -/
structure GeneratedModule where
  items : List ModuleItem
  diagnostics : List Diagnostic
  /-- The builtins that were recorded while the decoders were made. -/
  usage : Usage

namespace GeneratedModule

/-- The name of which the builtins are members, if they are. -/
def alias? (m : GeneratedModule) : Option String := m.items.findSome? ModuleItem.alias?

def bindings (m : GeneratedModule) : List Binding := m.items.filterMap ModuleItem.binding?

def imports (m : GeneratedModule) : List Import := m.items.filterMap ModuleItem.import?

def skipCount (m : GeneratedModule) : Nat := Diagnostic.skipCount m.diagnostics

def toJson (m : GeneratedModule) : Json :=
  .obj [("items", .arr (m.items.map ModuleItem.toJson)),
    ("diagnostics", .arr (m.diagnostics.map Diagnostic.toJson))]

end GeneratedModule

/-- The module that supplies the builtins, and the name that is given to it. -/
def libraryName : String := "decoders"

namespace Generate

/-- The imports that bindings need: the type of decoders where a binding is annotated, and the
builtins, each by its name or all as members of one name. -/
def imports (config : CompileConfig) (bindings : List Binding) (usage : Usage) : List Import :=
  let types := if bindings.any Binding.isInitialized then [.types [decoderType] libraryName] else []
  let builtins :=
    if config.namedImports then
      if usage.isEmpty then [] else [.named usage.names libraryName]
    else [.everything libraryName libraryName]
  types ++ builtins

/-- Each binding behind a blank line, except for one that stands first in the module. -/
def separate (first : Bool) : List Binding → List ModuleItem
  | [] => []
  | binding :: rest =>
    (if first then [] else [.blank]) ++ .declaration binding :: separate false rest

/-- The items of a module: its imports and then its bindings. -/
def layout (imports : List Import) (bindings : List Binding) : List ModuleItem :=
  imports.map .importing ++ separate imports.isEmpty bindings

/-- Compiles the declarations of a module in order. -/
def run (config : CompileConfig) (source : SourceModule) :
    Compiler × List (Except SkipReason DecoderExpr) :=
  (Compiler.new config (.ofDeclarations source.declarations)).compileDeclarations
    source.declarations

/-- The module of decoders for a module of types. Its reports are those of the table of types, those
of the compiler, and those of references that fail while the module is loaded. -/
def module (config : CompileConfig) (source : SourceModule) : GeneratedModule :=
  let symbols := SymbolTable.ofDeclarations source.declarations
  let (compiler, results) := run config source
  let bindings := source.declarations.zipWith Binding.ofDeclaration results
  let initialized := bindings.map Binding.isInitialized
  let trace := compiler.trace
  { items := layout (imports config bindings trace.usage) bindings
    diagnostics := symbols.duplicateReports ++ trace.diagnostics ++
      symbols.checkReferences trace.references initialized
    usage := trace.usage }

end Generate

end DecoderForge
