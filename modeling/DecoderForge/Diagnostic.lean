/-
This file holds what a run reports: the types that have no decoder, and other things to know.
-/

import DecoderForge.Json.Basic
import DecoderForge.NodePath
import DecoderForge.Text.Quoted

namespace DecoderForge

/-- Why a type has no decoder. -/
inductive SkipReason where
  /-- Only strings and numbers are compared with. -/
  | unsupportedLiteral (kind : String)
  | unsupportedConstruct (construct : String)
  | unrecognizedDescriptor
deriving Repr, DecidableEq

namespace SkipReason

def message : SkipReason → String
  | .unsupportedLiteral kind => kind ++ " literal types have no validator"
  | .unsupportedConstruct construct => "unsupported type syntax `" ++ construct ++ "`"
  | .unrecognizedDescriptor => "unrecognized type descriptor"

def toJson : SkipReason → Json
  | .unsupportedLiteral kind =>
    .obj [("reason", .str "unsupportedLiteral"), ("detail", .str kind)]
  | .unsupportedConstruct construct =>
    .obj [("reason", .str "unsupportedSyntax"), ("detail", .str construct)]
  | .unrecognizedDescriptor => .obj [("reason", .str "unrecognizedDescriptor")]

end SkipReason

/-- What is reported of a place. -/
inductive DiagnosticKind where
  | fieldDropped (field : String) (reason : SkipReason)
  /-- The slot accepts anything. -/
  | tupleSlotPassthrough (index : Nat) (reason : SkipReason)
  | unionMemberDropped (index : Nat) (reason : SkipReason)
  /-- Every member of a union was dropped. -/
  | emptyUnion
  | declarationUninitialized (reason : SkipReason)
  /-- A member of a union stands for an earlier one with the same tag. -/
  | duplicateTag (tag : String)
  | unresolvedReference (name : String)
  | duplicateDeclaration (name : String)
  /-- A decoder is used before it is there. -/
  | forwardReference (name : String)
  /-- A decoder is used that is never there. -/
  | uninitializedReference (name : String)
deriving Repr, DecidableEq

/-- A report of a place. -/
structure Diagnostic where
  path : String
  kind : DiagnosticKind
deriving Repr, DecidableEq

namespace DiagnosticKind

/-- A skip makes the generated decoders accept something else than the declared types. -/
def isSkip : DiagnosticKind → Bool
  | .fieldDropped .. | .tupleSlotPassthrough .. | .unionMemberDropped ..
  | .declarationUninitialized .. => true
  | _ => false

def message : DiagnosticKind → String
  | .fieldDropped field reason => "field `" ++ field ++ "` dropped (" ++ reason.message ++ ")"
  | .tupleSlotPassthrough index reason =>
    "tuple slot " ++ toString index ++ " accepts any JSON (" ++ reason.message ++ ")"
  | .unionMemberDropped index reason =>
    "union member " ++ toString index ++ " dropped (" ++ reason.message ++ ")"
  | .emptyUnion => "every union member was dropped"
  | .declarationUninitialized reason => "declared without a decoder (" ++ reason.message ++ ")"
  | .duplicateTag tag =>
    "tag value " ++ Text.quoted tag ++ " appears more than once, last member wins"
  | .unresolvedReference name => "reference to undeclared type `" ++ name ++ "`"
  | .duplicateDeclaration name => "type `" ++ name ++ "` is declared more than once"
  | .forwardReference name => "`" ++ name ++ "` is referenced before its decoder is declared"
  | .uninitializedReference name =>
    "`" ++ name ++ "` has no decoder, the reference is undefined at runtime"

def toEntries : DiagnosticKind → List (String × Json)
  | .fieldDropped field reason =>
    [("kind", .str "fieldDropped"), ("field", .str field), ("reason", reason.toJson)]
  | .tupleSlotPassthrough index reason =>
    [("kind", .str "tupleSlotPassthrough"), ("index", .nat index), ("reason", reason.toJson)]
  | .unionMemberDropped index reason =>
    [("kind", .str "unionMemberDropped"), ("index", .nat index), ("reason", reason.toJson)]
  | .emptyUnion => [("kind", .str "emptyUnion")]
  | .declarationUninitialized reason =>
    [("kind", .str "declarationUninitialized"), ("reason", reason.toJson)]
  | .duplicateTag tag => [("kind", .str "duplicateTag"), ("tag", .str tag)]
  | .unresolvedReference name => [("kind", .str "unresolvedReference"), ("name", .str name)]
  | .duplicateDeclaration name => [("kind", .str "duplicateDeclaration"), ("name", .str name)]
  | .forwardReference name => [("kind", .str "forwardReference"), ("name", .str name)]
  | .uninitializedReference name =>
    [("kind", .str "uninitializedReference"), ("name", .str name)]

end DiagnosticKind

namespace Diagnostic

def isSkip (d : Diagnostic) : Bool := d.kind.isSkip

def message (d : Diagnostic) : String := d.path ++ ": " ++ d.kind.message

def toJson (d : Diagnostic) : Json := .obj (("path", .str d.path) :: d.kind.toEntries)

/-- The number of skips. -/
def skipCount (diagnostics : List Diagnostic) : Nat := diagnostics.countP isSkip

end Diagnostic

/-- How a terminal shows a word that stands out. -/
inductive Emphasis where
  | plain
  | colored
deriving Repr, DecidableEq

/-- A word in bold and in the color of a number, where words stand out. -/
def Emphasis.bold (emphasis : Emphasis) (color : Nat) (word : String) : String :=
  match emphasis with
  | .plain => word
  | .colored => "\x1b[1;" ++ toString color ++ "m" ++ word ++ "\x1b[0m"

/-- One line that says how many diagnostics of each sort there are. -/
def Diagnostic.summary (emphasis : Emphasis) (diagnostics : List Diagnostic) : String :=
  if diagnostics.isEmpty then emphasis.bold 32 "ok:" ++ " every node compiled"
  else
    let skips := skipCount diagnostics
    emphasis.bold 33 "warning:" ++ " " ++ toString skips ++ " skipped node(s), " ++
      toString (diagnostics.length - skips) ++ " advisory note(s)"

end DecoderForge
