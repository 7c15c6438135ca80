/-
This file holds a run of the compiler over the declarations of a module.
-/

import DecoderForge.Compile.Basic
import DecoderForge.Module.Item

namespace DecoderForge

/-- Where a run stands: what it has left behind, the current place, and the number of declarations
compiled so far. -/
structure Compiler where
  config : CompileConfig
  symbols : Option NamedTable
  trace : Trace
  path : NodePath
  declared : Nat

namespace Compiler

/-- A run that looks references up in a table. -/
def new (config : CompileConfig) (symbols : NamedTable) : Compiler :=
  ⟨config, some symbols, .empty, .root, 0⟩

/-- A run that takes every reference to be to a declared type. -/
def unchecked (config : CompileConfig) : Compiler := ⟨config, none, .empty, .root, 0⟩

def scope (compiler : Compiler) : Scope :=
  ⟨compiler.config.tagField, compiler.symbols, compiler.declared⟩

/-- The run behind one more report of the current place. -/
def report (compiler : Compiler) (kind : DiagnosticKind) : Compiler :=
  { compiler with trace := compiler.trace ++ .report compiler.path kind }

/-- Compiles a type at the current place. -/
def compile (compiler : Compiler) (descriptor : Descriptor) :
    Compiler × Except SkipReason DecoderExpr :=
  match Compile.type compiler.scope compiler.path descriptor with
  | .ok (decoder, trace) => ({ compiler with trace := compiler.trace ++ trace }, .ok decoder)
  | .error reason => (compiler, .error reason)

/-- Compiles the next declaration. One whose type has no decoder is reported. -/
def compileDeclaration (compiler : Compiler) (declaration : Declaration) :
    Compiler × Except SkipReason DecoderExpr :=
  let entered : Compiler :=
    { compiler with
      path := NodePath.root.push (.declaration declaration.name)
      declared := compiler.declared + 1 }
  let (behind, result) := entered.compile declaration.type
  match result with
  | .ok decoder => ({ behind with path := .root }, .ok decoder)
  | .error reason =>
    ({ behind.report (.declarationUninitialized reason) with path := .root }, .error reason)

/-- Compiles declarations one after the other. -/
def compileDeclarations (compiler : Compiler) :
    List Declaration → Compiler × List (Except SkipReason DecoderExpr)
  | [] => (compiler, [])
  | declaration :: rest =>
    let (next, result) := compiler.compileDeclaration declaration
    let (last, results) := next.compileDeclarations rest
    (last, result :: results)

end Compiler

/-- The decoder of a type outside of a run, and the given builtins together with those that it
calls. -/
def Compile.oneOff (config : CompileConfig) (descriptor : Descriptor) (usage : Usage) :
    Option DecoderExpr × Usage :=
  let (behind, result) := (Compiler.unchecked config).compile descriptor
  (result.toOption, behind.trace.usage.builtins.foldl Usage.record usage)

/-- The generic type of decoders. -/
def decoderType : String := "Decoder"

/-- The binding of a declaration; it is annotated with its type when it has a value. -/
def Binding.ofDeclaration (declaration : Declaration) (result : Except SkipReason DecoderExpr) :
    Binding :=
  let name := decoderName declaration.name
  match result with
  | .ok decoder => ⟨name, some (decoderType ++ "<" ++ declaration.name ++ ">"), some decoder⟩
  | .error _ => ⟨name, none, none⟩

end DecoderForge
