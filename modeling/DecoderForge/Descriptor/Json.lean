/-
This file writes descriptors as JSON. The kind of a descriptor comes before what belongs to it.
-/

import DecoderForge.Descriptor.Basic
import DecoderForge.Json.Basic

namespace DecoderForge

namespace PrimitiveKind

def name : PrimitiveKind → String
  | .string => "string"
  | .number => "number"
  | .boolean => "boolean"

def all : List PrimitiveKind := [.string, .number, .boolean]

end PrimitiveKind

def NumericLiteral.toJson (n : NumericLiteral) : Json := .str n.text

def LiteralValue.toJson : LiteralValue → Json
  | .string s => .obj [("type", .str "string"), ("value", .str s)]
  | .number n => .obj [("type", .str "number"), ("value", n.toJson)]
  | .boolean b => .obj [("type", .str "boolean"), ("value", .bool b)]
  | .null => .obj [("type", .str "null")]
  | .bigInt digits => .obj [("type", .str "bigInt"), ("value", .str digits)]

mutual

def Descriptor.toJson : Descriptor → Json
  | .primitive kind => .obj [("kind", .str "primitive"), ("type", .str kind.name)]
  | .opaqueObject => .obj [("kind", .str "opaqueObject")]
  | .union members =>
    .obj [("kind", .str "union"), ("members", .arr (Descriptor.listToJson members))]
  | .array element => .obj [("kind", .str "array"), ("element", element.toJson)]
  | .tuple elements =>
    .obj [("kind", .str "tuple"), ("elements", .arr (Descriptor.listToJson elements))]
  | .literal value => .obj [("kind", .str "literal"), ("value", value.toJson)]
  | .reference name => .obj [("kind", .str "reference"), ("name", .str name)]
  | .record fields =>
    .obj [("kind", .str "record"), ("fields", .arr (Descriptor.fieldsToJson fields))]
  | .unsupported construct => .obj [("kind", .str "unsupported"), ("syntax", .str construct)]
  | .unrecognized => .obj [("kind", .str "unrecognized")]

def Descriptor.listToJson : List Descriptor → List Json
  | [] => []
  | descriptor :: rest => descriptor.toJson :: Descriptor.listToJson rest

def Descriptor.fieldsToJson : List Field → List Json
  | [] => []
  | ⟨name, type, optional⟩ :: rest =>
    .obj [("name", .str name), ("type", type.toJson), ("optional", .bool optional)] ::
      Descriptor.fieldsToJson rest

end

def FieldOf.toJson (field : Field) : Json :=
  .obj [("name", .str field.name), ("type", field.type.toJson), ("optional", .bool field.optional)]

def Declaration.toJson (declaration : Declaration) : Json :=
  .obj [("name", .str declaration.name), ("type", declaration.type.toJson)]

def SourceModule.toJson (source : SourceModule) : Json :=
  .obj [("declarations", .arr (source.declarations.map Declaration.toJson))]

end DecoderForge
