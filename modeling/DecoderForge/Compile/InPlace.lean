/-
This file compiles types in place: a run goes to each part of a type and back again, and puts down
calls, reports and references where it meets them.
-/

import DecoderForge.Compile.Compiler

namespace DecoderForge

/-- What a run does next, with a result. -/
abbrev Action (α : Type) := StateM Compiler α

/-- Compiles a type at the current place. -/
abbrev TypeAction := Action (Except SkipReason DecoderExpr)

namespace Action

/-- Goes from the current place to one inside it. -/
def enter (segment : Segment) : Action Unit :=
  modify fun compiler => { compiler with path := compiler.path.push segment }

/-- Goes back to the place around the current one. -/
def leave : Action Unit :=
  modify fun compiler => { compiler with path := compiler.path.pop }

/-- What is done at a place inside the current one. -/
def inside {α : Type} (segment : Segment) (action : Action α) : Action α := do
  enter segment
  let result ← action
  leave
  return result

def report (kind : DiagnosticKind) : Action Unit :=
  modify fun compiler => compiler.report kind

def call (builtin : Builtin) (args : List DecoderExpr) : Action DecoderExpr := do
  modify fun compiler =>
    { compiler with
      trace := { compiler.trace with usage := compiler.trace.usage.record builtin } }
  return .call builtin args

def refer (site : ReferenceSite) : Action Unit :=
  modify fun compiler =>
    { compiler with
      trace := { compiler.trace with references := compiler.trace.references ++ [site] } }

def literal : LiteralValue → TypeAction
  | .string s => .ok <$> call .constant [.constant (.string s)]
  | .number n => .ok <$> call .constant [.constant (.number n)]
  | other => return .error (.unsupportedLiteral other.kindName)

/-- A reference to a declared type is put down, unless no declaration is being compiled. -/
def reference (name : String) : Action DecoderExpr := do
  let compiler ← get
  match compiler.symbols with
  | none => return .identifier (decoderName name)
  | some symbols =>
    match symbols.decoder? name, compiler.declared with
    | none, _ =>
      report (.unresolvedReference name)
      return .identifier (decoderName name)
    | some decoder, 0 => return .identifier decoder
    | some decoder, position + 1 =>
      refer ⟨name, compiler.path.text, position⟩
      return .identifier decoder

def slot (index : Nat) (element : TypeAction) : Action DecoderExpr := do
  match ← element with
  | .ok decoder => return decoder
  | .error reason =>
    report (.tupleSlotPassthrough index reason)
    call .json []

/-- The slots of a tuple from an index on. -/
def slots (index : Nat) : List TypeAction → Action (List DecoderExpr)
  | [] => return []
  | element :: rest => do
    let decoder ← inside (.tupleSlot index) (slot index element)
    let decoders ← slots (index + 1) rest
    return decoder :: decoders

def tuple (elements : List TypeAction) : Action DecoderExpr := do
  let decoders ← slots 0 elements
  call .tuple decoders

/-- The entries with that of one more field, if it has a decoder. -/
def field (entries : List (String × DecoderExpr)) (field : FieldOf TypeAction) :
    Action (List (String × DecoderExpr)) := do
  match ← field.type with
  | .ok decoder =>
    let decoder ← if field.optional then call .optional [decoder] else pure decoder
    return Entries.put field.name decoder entries
  | .error reason =>
    report (.fieldDropped field.name reason)
    return entries

/-- The entries with those of more fields. -/
def fields (entries : List (String × DecoderExpr)) :
    List (FieldOf TypeAction) → Action (List (String × DecoderExpr))
  | [] => return entries
  | next :: rest => do
    let entries ← inside (.field next.name) (field entries next)
    fields entries rest

def record (members : List (FieldOf TypeAction)) : Action DecoderExpr := do
  let entries ← fields [] members
  call .object [.object entries]

def member (index : Nat) (element : TypeAction) : Action (Option DecoderExpr) := do
  match ← element with
  | .ok decoder => return some decoder
  | .error reason =>
    report (.unionMemberDropped index reason)
    return none

/-- The decoders of the members of a union from an index on. -/
def members (index : Nat) : List TypeAction → Action (List DecoderExpr)
  | [] => return []
  | element :: rest => do
    let decoder ← inside (.unionMember index) (member index element)
    let decoders ← members (index + 1) rest
    return decoder.toList ++ decoders

def either (elements : List TypeAction) : Action DecoderExpr := do
  let decoders ← members 0 elements
  if decoders.isEmpty && !elements.isEmpty then report .emptyUnion
  call .either decoders

/-- For each tag the last member that has it, with a report for each tag that comes again. -/
def winners (index : Nat) (chosen : List (String × Nat)) :
    List String → Action (List (String × Nat))
  | [] => return chosen
  | tag :: rest => do
    if tag ∈ chosen.map Prod.fst then
      inside (.unionMember index) (report (.duplicateTag tag))
    winners (index + 1) (Entries.put tag index chosen) rest

/-- The entries with those of the members that stand for their tags. -/
def tagged (elements : List TypeAction) (entries : List (String × DecoderExpr)) :
    List (String × Nat) → Action (List (String × DecoderExpr))
  | [] => return entries
  | (tag, index) :: rest => do
    match elements[index]? with
    | none => tagged elements entries rest
    | some element =>
      match ← inside (.unionMember index) element with
      | .ok decoder => tagged elements (Entries.put tag decoder entries) rest
      | .error _ => tagged elements entries rest

def taggedUnion (tagField : String) (tags : List String) (elements : List TypeAction) :
    Action DecoderExpr := do
  let chosen ← winners 0 [] tags
  let entries ← tagged elements [] chosen
  call .taggedUnion [.constant (.string tagField), .object entries]

def union (members : List Descriptor) (elements : List TypeAction) : Action DecoderExpr := do
  let compiler ← get
  match UnionShape.classify members compiler.config.tagField with
  | .tagged tagField tags => taggedUnion tagField tags elements
  | .plain => either elements

mutual

/-- Compiles a type. -/
def type : Descriptor → TypeAction
  | .primitive kind => .ok <$> call (Compile.primitive kind) []
  | .opaqueObject => .ok <$> call .jsonObject []
  | .union members => .ok <$> union members (types members)
  | .array element => do
    match ← inside .arrayElement (type element) with
    | .ok decoder => .ok <$> call .array [decoder]
    | .error reason => return .error reason
  | .tuple elements => .ok <$> tuple (types elements)
  | .literal value => literal value
  | .reference name => .ok <$> reference name
  | .record fields => .ok <$> record (fieldTypes fields)
  | .unsupported construct => return .error (.unsupportedConstruct construct)
  | .unrecognized => return .error .unrecognizedDescriptor

def types : List Descriptor → List TypeAction
  | [] => []
  | descriptor :: rest => type descriptor :: types rest

def fieldTypes : List Field → List (FieldOf TypeAction)
  | [] => []
  | ⟨name, descriptor, optional⟩ :: rest => ⟨name, type descriptor, optional⟩ :: fieldTypes rest

end

end Action

/-- Compiles a type at the current place, step by step. -/
def Compiler.compileInPlace (compiler : Compiler) (descriptor : Descriptor) :
    Compiler × Except SkipReason DecoderExpr :=
  ((Action.type descriptor).run compiler).swap

end DecoderForge
