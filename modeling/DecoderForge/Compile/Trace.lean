/-
This file holds what compiling a type leaves behind besides its decoder.
-/

import DecoderForge.Decoder.Expr
import DecoderForge.Symbols

namespace DecoderForge

/-- The builtins that are called, the reports, and the references to declared types. -/
structure Trace where
  usage : Usage
  diagnostics : List Diagnostic
  references : List ReferenceSite

namespace Trace

def empty : Trace := ⟨.empty, [], []⟩

instance : Inhabited Trace := ⟨empty⟩

/-- What is left behind by one step and then another. -/
def append (a b : Trace) : Trace :=
  ⟨a.usage.union b.usage, a.diagnostics ++ b.diagnostics, a.references ++ b.references⟩

instance : Append Trace := ⟨append⟩

def join : List Trace → Trace
  | [] => empty
  | trace :: rest => trace ++ join rest

/-- One call. -/
def ofBuiltin (builtin : Builtin) : Trace := ⟨Usage.empty.record builtin, [], []⟩

/-- One report. -/
def report (path : NodePath) (kind : DiagnosticKind) : Trace := ⟨.empty, [⟨path.text, kind⟩], []⟩

def ofReference (site : ReferenceSite) : Trace := ⟨.empty, [], [site]⟩

@[simp] theorem append_usage (a b : Trace) : (a ++ b).usage = a.usage.union b.usage := rfl

@[simp] theorem append_diagnostics (a b : Trace) :
    (a ++ b).diagnostics = a.diagnostics ++ b.diagnostics := rfl

@[simp] theorem append_references (a b : Trace) :
    (a ++ b).references = a.references ++ b.references := rfl

end Trace

end DecoderForge
