/-
This file compiles types to decoders. A type that has no decoder leaves nothing behind; the nearest
field, slot, member or declaration around it is reported and goes without.
-/

import DecoderForge.Compile.Trace
import DecoderForge.Compile.Union
import DecoderForge.Config

namespace DecoderForge

/-- What the decoder of a type depends on besides the type. -/
structure Scope where
  tagField : Option String
  /-- The declared types, unless every reference is taken to be to one of them. -/
  symbols : Option NamedTable
  /-- The number of declarations up to the one that is being compiled. -/
  declared : Nat

/-- A decoder with what it leaves behind, or the reason why there is none. -/
abbrev Compiled := Except SkipReason (DecoderExpr × Trace)

namespace Compile

/-- A call of a builtin behind the given steps. -/
def call (builtin : Builtin) (args : List DecoderExpr) (steps : Trace) : DecoderExpr × Trace :=
  (.call builtin args, steps ++ .ofBuiltin builtin)

def primitive : PrimitiveKind → Builtin
  | .string => .string
  | .number => .number
  | .boolean => .boolean

/-- Only strings and numbers are compared with. -/
def literal : LiteralValue → Compiled
  | .string s => .ok (call .constant [.constant (.string s)] .empty)
  | .number n => .ok (call .constant [.constant (.number n)] .empty)
  | other => .error (.unsupportedLiteral other.kindName)

/-- A reference is the name of a decoder. That of a type that is not declared goes by the name of
the type. -/
def reference (scope : Scope) (path : NodePath) (name : String) : DecoderExpr × Trace :=
  match scope.symbols with
  | none => (.identifier (decoderName name), .empty)
  | some symbols =>
    match symbols.decoder? name, scope.declared with
    | none, _ => (.identifier (decoderName name), .report path (.unresolvedReference name))
    | some decoder, 0 => (.identifier decoder, .empty)
    | some decoder, position + 1 =>
      (.identifier decoder, .ofReference ⟨name, path.text, position⟩)

/-- A slot of a tuple that has no decoder accepts anything, so that the others keep their places. -/
def slot (path : NodePath) (index : Nat) : Compiled → DecoderExpr × Trace
  | .ok decoder => decoder
  | .error reason =>
    call .json [] (.report (path.push (.tupleSlot index)) (.tupleSlotPassthrough index reason))

def tuple (path : NodePath) (slots : List Compiled) : DecoderExpr × Trace :=
  let decoders := slots.mapIdx (slot path)
  call .tuple (decoders.map Prod.fst) (.join (decoders.map Prod.snd))

/-- A field with its decoder, or nothing but a report. -/
def field (path : NodePath) (field : FieldOf Compiled) :
    Option (String × DecoderExpr) × Trace :=
  match field.type with
  | .ok (decoder, trace) =>
    if field.optional then
      let (decoder, trace) := call .optional [decoder] trace
      (some (field.name, decoder), trace)
    else (some (field.name, decoder), trace)
  | .error reason =>
    (none, .report (path.push (.field field.name)) (.fieldDropped field.name reason))

/-- A field that has no decoder is not looked at. -/
def record (path : NodePath) (fields : List (FieldOf Compiled)) : DecoderExpr × Trace :=
  let decoders := fields.map (field path)
  call .object [.object (Entries.ofList (decoders.filterMap Prod.fst))]
    (.join (decoders.map Prod.snd))

/-- A member with its decoder, or nothing but a report. -/
def member (path : NodePath) (index : Nat) : Compiled → Option DecoderExpr × Trace
  | .ok (decoder, trace) => (some decoder, trace)
  | .error reason =>
    (none, .report (path.push (.unionMember index)) (.unionMemberDropped index reason))

/-- A union accepts what one of its members with a decoder accepts. -/
def either (path : NodePath) (members : List Compiled) : DecoderExpr × Trace :=
  let decoders := members.mapIdx (member path)
  let args := decoders.filterMap Prod.fst
  let trace := Trace.join (decoders.map Prod.snd)
  if args.isEmpty && !members.isEmpty then call .either args (trace ++ .report path .emptyUnion)
  else call .either args trace

/-- For each tag the last member that has it, in the order in which the tags first come. -/
def winners (tags : List String) : List (String × Nat) := Entries.ofList tags.zipIdx

/-- A report for each member whose tag an earlier one has. -/
def duplicateTags (path : NodePath) (tags : List String) : List Trace :=
  tags.zipIdx.filterMap fun (tag, index) =>
    if tag ∈ tags.take index then
      some (.report (path.push (.unionMember index)) (.duplicateTag tag))
    else none

/-- A union is decoded by the last member that has the tag. -/
def taggedUnion (path : NodePath) (tagField : String) (tags : List String)
    (members : List Compiled) : DecoderExpr × Trace :=
  let decoders := (winners tags).filterMap fun (tag, index) =>
    match members[index]? with
    | some (.ok (decoder, trace)) => some ((tag, decoder), trace)
    | _ => none
  call .taggedUnion [.constant (.string tagField), .object (decoders.map Prod.fst)]
    (.join (duplicateTags path tags) ++ .join (decoders.map Prod.snd))

/-- A union with its members and their decoders. -/
def union (scope : Scope) (path : NodePath) (members : List Descriptor)
    (decoders : List Compiled) : DecoderExpr × Trace :=
  match UnionShape.classify members scope.tagField with
  | .tagged tagField tags => taggedUnion path tagField tags decoders
  | .plain => either path decoders

mutual

/-- The decoder of a type at a place. -/
def type (scope : Scope) (path : NodePath) : Descriptor → Compiled
  | .primitive kind => .ok (call (primitive kind) [] .empty)
  | .opaqueObject => .ok (call .jsonObject [] .empty)
  | .union members => .ok (union scope path members (types scope path .unionMember 0 members))
  | .array element =>
    (type scope (path.push .arrayElement) element).map fun (decoder, trace) =>
      call .array [decoder] trace
  | .tuple elements => .ok (tuple path (types scope path .tupleSlot 0 elements))
  | .literal value => literal value
  | .reference name => .ok (reference scope path name)
  | .record fields => .ok (record path (fieldTypes scope path fields))
  | .unsupported construct => .error (.unsupportedConstruct construct)
  | .unrecognized => .error .unrecognizedDescriptor

/-- The decoders of types from an index on. -/
def types (scope : Scope) (path : NodePath) (segment : Nat → Segment) (index : Nat) :
    List Descriptor → List Compiled
  | [] => []
  | descriptor :: rest =>
    type scope (path.push (segment index)) descriptor :: types scope path segment (index + 1) rest

/-- The fields with the decoders of their types. -/
def fieldTypes (scope : Scope) (path : NodePath) : List Field → List (FieldOf Compiled)
  | [] => []
  | ⟨name, descriptor, optional⟩ :: rest =>
    ⟨name, type scope (path.push (.field name)) descriptor, optional⟩ :: fieldTypes scope path rest

end

end Compile

end DecoderForge
