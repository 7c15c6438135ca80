/-
This file loads descriptors. What has a tag is buffered as a whole before its kind is known, so that
whatever is wrong inside it is told of the whole.
-/

import DecoderForge.Descriptor.Json
import DecoderForge.Loading.Reader

namespace DecoderForge

namespace Loading

/-- A number, or a text that is a numeric literal. -/
def Buffer.numericLiteral : Json → Except Cause NumericLiteral
  | .num n => .ok (.ofNumber n)
  | .str s =>
    match NumericLiteral.parse? s with
    | some literal => .ok literal
    | none => .error (.notNumeric s)
  | _ => .error .neitherNumberNorText

/-- Buffers a document and loads it from the buffer. -/
def Reader.buffered {α : Type} (load : Json → Except Cause α) : Loader α := fun document => do
  (load (← buffer document)).mapError .ofCause

def Reader.numericLiteral : Loader NumericLiteral := Reader.buffered Buffer.numericLiteral

/-- The kinds of literals. -/
inductive LiteralKind where
  | string
  | number
  | boolean
  | null
  | bigInt
deriving Repr, DecidableEq

namespace LiteralKind

def names : List (String × LiteralKind) :=
  [("string", .string), ("number", .number), ("boolean", .boolean), ("null", .null),
    ("bigInt", .bigInt)]

def shape : TagAndContent := ⟨"LiteralValue", "type", "value"⟩

/-- Only null needs no content. -/
def bare {ε : Type} (missing : Cause → ε) : LiteralKind → Except ε LiteralValue
  | .null => .ok .null
  | _ => .error (missing (.missingField "value"))

/-- The content of a literal, from the ways to load a text, a number and so on. -/
def content {ν ε : Type} (text : ν → Except ε String) (number : ν → Except ε NumericLiteral)
    (flag : ν → Except ε Bool) (null : ν → Except ε Unit) (kind : LiteralKind) (value : ν) :
    Except ε LiteralValue :=
  match kind with
  | .string => (text value).map .string
  | .number => (number value).map .number
  | .boolean => (flag value).map .boolean
  | .null => (null value).map fun _ => .null
  | .bigInt => (text value).map .bigInt

def expectedNull : Expected := .unitVariant "LiteralValue" "Null"

end LiteralKind

namespace Buffer

def literalNull : Json → Except Cause Unit
  | .null => .ok ()
  | other => .error (.wrongType (.ofJson other) LiteralKind.expectedNull)

def literalContent : LiteralKind → Json → Except Cause LiteralValue :=
  LiteralKind.content text numericLiteral flag literalNull

def literalValue : Json → Except Cause LiteralValue :=
  tagAndContent LiteralKind.shape LiteralKind.names ⟨literalContent, LiteralKind.bare id⟩

end Buffer

namespace Reader

def literalNull : Loader Unit
  | .atom .null _ _ => .ok ()
  | other => .error (wrongContent LiteralKind.expectedNull other)

def literalValue : Loader LiteralValue :=
  tagAndContent LiteralKind.shape LiteralKind.names
    ⟨LiteralKind.content text numericLiteral flag literalNull, LiteralKind.bare Failure.ofCause⟩
    Buffer.literalContent

end Reader

/-- The keys of a field. -/
def fieldColumns {ν ε : Type} (text : ν → Except ε String)
    (descriptor : ν → Except ε Descriptor) (flag : ν → Except ε Bool) :
    Columns ν ε ((Option String × Option Descriptor) × Option Bool) :=
  ((Columns.one "name" text).and (.one "type" descriptor)).and (.one "optional" flag)

/-- The kinds of descriptors. -/
inductive DescriptorKind where
  | primitive
  | opaqueObject
  | union
  | array
  | tuple
  | literal
  | reference
  | record
  | unsupported
  | unrecognized
deriving Repr, DecidableEq

def DescriptorKind.names : List (String × DescriptorKind) :=
  [("primitive", .primitive), ("opaqueObject", .opaqueObject), ("union", .union),
    ("array", .array), ("tuple", .tuple), ("literal", .literal), ("reference", .reference),
    ("record", .record), ("unsupported", .unsupported), ("unrecognized", .unrecognized)]

namespace Buffer

def primitiveKind : Json → Except Cause PrimitiveKind :=
  choice (PrimitiveKind.all.map fun kind => (kind.name, kind))

/-- A field, from a way to load descriptors. -/
def field (descriptor : Json → Except Cause Descriptor) : Json → Except Cause Field
  | .obj es => do
    let columns := fieldColumns text descriptor flag
    let ((name, type), optional) ← entries columns es columns.none
    return ⟨← required "name" name, ← required "type" type, optional.getD false⟩
  | .arr items => do
    let expected := Expected.recordOf "Field" 3
    let name ← element items 0 expected text
    let type ← element items 1 expected descriptor
    let optional ← if items.length = 2 then .ok false else element items 2 expected flag
    noMore items 3
    return ⟨name, type, optional⟩
  | other => .error (.wrongType (.ofJson other) (.record "Field"))

/-- The one field of a descriptor of a kind. -/
def onlyField {α : Type} (variant key : String) (value : Json → Except Cause α) :
    Json → Except Cause α :=
  let expected := Expected.variantOf "TypeDescriptor" variant 1
  single key expected expected value

/-- What belongs to a descriptor of a kind, from a way to load the descriptors inside it. -/
def descriptorContent (descriptor : Json → Except Cause Descriptor) (kind : DescriptorKind)
    (content : Json) : Except Cause Descriptor :=
  match kind with
  | .primitive => (onlyField "Primitive" "type" primitiveKind content).map .primitive
  | .opaqueObject => (nothing content).map fun _ => .opaqueObject
  | .union => (onlyField "Union" "members" (list descriptor) content).map .union
  | .array => (onlyField "Array" "element" descriptor content).map .array
  | .tuple => (onlyField "Tuple" "elements" (list descriptor) content).map .tuple
  | .literal => (onlyField "Literal" "value" literalValue content).map .literal
  | .reference => (onlyField "Reference" "name" text content).map .reference
  | .record => (onlyField "Record" "fields" (list (field descriptor)) content).map .record
  | .unsupported => (onlyField "Unsupported" "syntax" text content).map .unsupported
  | .unrecognized => (nothing content).map fun _ => .unrecognized

/-- A descriptor in which at most `levels` lists and objects stand within each other. -/
def descriptorWithin : (levels : Nat) → Json → Except Cause Descriptor
  | 0, value => .error (.wrongType (.ofJson value) (.tagged "TypeDescriptor"))
  | levels + 1, value => do
    let kind := variant DescriptorKind.names (some .unrecognized)
    let (kind, content) ← tagged "TypeDescriptor" "kind" kind value
    descriptorContent (descriptorWithin levels) kind content

def descriptor (value : Json) : Except Cause Descriptor :=
  descriptorWithin (value.depth + 1) value

end Buffer

namespace Reader

def descriptor : Loader Descriptor := fun document => do
  let kind := variant DescriptorKind.names (some .unrecognized)
  let (kind, content) ← tagged "TypeDescriptor" "kind" kind document
  (Buffer.descriptorContent Buffer.descriptor kind content).mapError .ofCause

def field : Loader Field
  | .object _ _ es ending => do
    let columns := fieldColumns text descriptor flag
    let ((name, type), optional) ← entries columns none ending es columns.none
    return ⟨← required "name" ending name, ← required "type" ending type, optional.getD false⟩
  | .list _ _ is ending => do
    let expected := Expected.recordOf "Field" 3
    let name ← element is ending 0 expected text
    let type ← element is ending 1 expected descriptor
    let optional ← element? is ending 2 flag
    noMore is 3
    return ⟨name, type, optional.getD false⟩
  | other => .error (wrongType (.record "Field") other)

def declaration : Loader Declaration
  | .object _ _ es ending => do
    let columns := (Columns.one "name" text).and (.one "type" descriptor)
    let (name, type) ← entries columns none ending es columns.none
    return ⟨← required "name" ending name, ← required "type" ending type⟩
  | .list _ _ is ending => do
    let expected := Expected.recordOf "TypeDeclaration" 2
    let name ← element is ending 0 expected text
    let type ← element is ending 1 expected descriptor
    noMore is 2
    return ⟨name, type⟩
  | other => .error (wrongType (.record "TypeDeclaration") other)

def sourceModule : Loader SourceModule
  | .object _ _ es ending => do
    let columns := Columns.one "declarations" (list declaration)
    let declarations ← entries columns none ending es columns.none
    return ⟨← required "declarations" ending declarations⟩
  | .list _ _ is ending => do
    let declarations ← element is ending 0 (.recordOf "SourceModule" 1) (list declaration)
    noMore is 1
    return ⟨declarations⟩
  | other => .error (wrongType (.record "SourceModule") other)

end Reader

end Loading

end DecoderForge
