/-
This file holds the names of decoders, and the table of the types that a module declares.
-/

import DecoderForge.Descriptor.Basic
import DecoderForge.Diagnostic
import DecoderForge.Text.Lowercase

namespace DecoderForge

/-- The name of the decoder of a type: the first character is put in lower case. -/
def decoderName (typeName : String) : String :=
  let name :=
    match typeName.toList with
    | [] => []
    | first :: rest => Text.lowercase first ++ rest
  String.ofList (name ++ "Decoder".toList)

/-- A declared type: the name of its decoder, and the place of its first declaration. -/
structure Symbol where
  binding : String
  position : Nat
deriving Repr, DecidableEq

/-- The types that are declared, and the names that are declared again. -/
structure SymbolTable where
  symbols : List (String × Symbol)
  /-- Each name once, in the order in which they first come again. -/
  duplicates : List String
deriving Repr

/-- A reference to a declared type from the declaration at a position. -/
structure ReferenceSite where
  name : String
  path : String
  position : Nat
deriving Repr, DecidableEq

namespace SymbolTable

def empty : SymbolTable := ⟨[], []⟩

def symbol? (table : SymbolTable) (name : String) : Option Symbol :=
  Entries.get? name table.symbols

/-- The place of the first declaration of a type. -/
def position? (table : SymbolTable) (name : String) : Option Nat :=
  (table.symbol? name).map Symbol.position

/-- The name of the decoder of a type that is declared. -/
def decoder? (table : SymbolTable) (name : String) : Option String :=
  (table.symbol? name).map Symbol.binding

/-- The table with one more declaration. -/
def declare (table : SymbolTable) (name : String) (position : Nat) : SymbolTable :=
  match table.symbol? name with
  | none => { table with symbols := table.symbols ++ [(name, ⟨decoderName name, position⟩)] }
  | some _ =>
    if name ∈ table.duplicates then table
    else { table with duplicates := table.duplicates ++ [name] }

/-- The table with further declarations, the first of them at a position. -/
def declareAll (table : SymbolTable) (position : Nat) : List String → SymbolTable
  | [] => table
  | name :: rest => (table.declare name position).declareAll (position + 1) rest

def ofNames (names : List String) : SymbolTable := empty.declareAll 0 names

def ofDeclarations (declarations : List Declaration) : SymbolTable :=
  ofNames (declarations.map Declaration.name)

/-- A report for each name that is declared more than once. -/
def duplicateReports (table : SymbolTable) : List Diagnostic :=
  table.duplicates.map fun name => ⟨name, .duplicateDeclaration name⟩

/--
What is to be reported of a reference when the module is loaded from its beginning to its end: that
its decoder is declared later, or that it is declared without a value. `initialized` tells of each
declaration whether it has a value.
-/
def checkReference (table : SymbolTable) (initialized : List Bool) (site : ReferenceSite) :
    Option Diagnostic :=
  match table.position? site.name with
  | none => none
  | some target =>
    if site.position ≤ target then some ⟨site.path, .forwardReference site.name⟩
    else if (initialized[target]?).getD false then none
    else some ⟨site.path, .uninitializedReference site.name⟩

def checkReferences (table : SymbolTable) (sites : List ReferenceSite)
    (initialized : List Bool) : List Diagnostic :=
  sites.filterMap (table.checkReference initialized)

/-- Every type has the decoder that is named after it. -/
def IsNamed (table : SymbolTable) : Prop :=
  ∀ entry ∈ table.symbols, entry.2.binding = decoderName entry.1

theorem isNamed_empty : empty.IsNamed := List.forall_mem_nil _

theorem IsNamed.declare {table : SymbolTable} (named : table.IsNamed) (name : String)
    (position : Nat) : (table.declare name position).IsNamed := by
  unfold SymbolTable.declare
  split
  · intro entry inside
    rcases List.mem_append.mp inside with before | last
    · exact named entry before
    · obtain rfl := List.mem_singleton.mp last
      rfl
  · split <;> exact named

theorem IsNamed.declareAll {table : SymbolTable} (named : table.IsNamed) (start : Nat)
    (names : List String) : (table.declareAll start names).IsNamed := by
  induction names generalizing table start with
  | nil => exact named
  | cons name rest ih => exact ih (named.declare name start) (start + 1)

theorem isNamed_ofNames (names : List String) : (ofNames names).IsNamed :=
  isNamed_empty.declareAll 0 names

end SymbolTable

/-- A table in which decoders are named after their types. Every table of declarations is one. -/
structure NamedTable extends SymbolTable where
  named : toSymbolTable.IsNamed

namespace NamedTable

def ofNames (names : List String) : NamedTable :=
  ⟨.ofNames names, SymbolTable.isNamed_ofNames names⟩

def ofDeclarations (declarations : List Declaration) : NamedTable :=
  ofNames (declarations.map Declaration.name)

end NamedTable

end DecoderForge
