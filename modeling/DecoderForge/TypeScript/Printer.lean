/-
This file writes generated modules as TypeScript. Every entry of an object stands on a line of its
own, four blanks deeper than the object.
-/

import DecoderForge.Json.Printer
import DecoderForge.Module.Generated

namespace DecoderForge

namespace TypeScript

def isNameStart (c : Char) : Bool :=
  ('A' ≤ c && c ≤ 'Z') || ('a' ≤ c && c ≤ 'z') || c == '_' || c == '$'

def isNamePart (c : Char) : Bool := isNameStart c || c.isDigit

/-- A name can be written as a key without quotation marks. Only ASCII names are written so. -/
def isName : List Char → Bool
  | [] => false
  | first :: rest => isNameStart first && rest.all isNamePart

def keyChars (key : String) : List Char :=
  if isName key.toList then key.toList else Json.quoteChars key

def constantChars : Constant → List Char
  | .string s => Json.quoteChars s
  | .number n => n.text.toList

/-- The blanks in front of a line. -/
def indentation (level : Nat) : List Char := List.replicate (4 * level) ' '

/-- A builtin, as a member of a name if there is one. -/
def calleeChars (owner : Option String) (builtin : Builtin) : List Char :=
  match owner with
  | some name => name.toList ++ '.' :: builtin.name.toList
  | none => builtin.name.toList

mutual

/-- The text of an expression inside `level` objects. -/
def exprChars (owner : Option String) (level : Nat) : DecoderExpr → List Char
  | .call builtin args =>
    let callee := calleeChars owner builtin
    if builtin.isValue && args.isEmpty then callee
    else callee ++ '(' :: (argsChars owner level args ++ [')'])
  | .identifier name => name.toList
  | .constant value => constantChars value
  | .object [] => ['\x7b', '\x7d']
  | .object (entry :: rest) =>
    '\x7b' :: '\n' :: (entriesChars owner (level + 1) (entry :: rest) ++
      '\n' :: (indentation level ++ ['\x7d']))

/-- The texts of arguments with commas between them. -/
def argsChars (owner : Option String) (level : Nat) : List DecoderExpr → List Char
  | [] => []
  | [expr] => exprChars owner level expr
  | expr :: next :: rest =>
    exprChars owner level expr ++ ',' :: ' ' :: argsChars owner level (next :: rest)

/-- The lines of entries, each but the last with a comma. -/
def entriesChars (owner : Option String) (level : Nat) : List (String × DecoderExpr) → List Char
  | [] => []
  | [(key, expr)] => indentation level ++ keyChars key ++ ':' :: ' ' :: exprChars owner level expr
  | (key, expr) :: next :: rest =>
    indentation level ++ keyChars key ++ ':' :: ' ' :: (exprChars owner level expr ++
      ',' :: '\n' :: entriesChars owner level (next :: rest))

end

/-- The text of an expression. -/
def renderExpr (owner : Option String) (expr : DecoderExpr) : String :=
  String.ofList (exprChars owner 0 expr)

/-- Names with commas between them. -/
def namesChars (names : List String) : List Char := (", ".intercalate names).toList

def importChars : Import → List Char
  | .types names source =>
    "import type \x7b ".toList ++ namesChars names ++ " \x7d from ".toList ++
      Json.quoteChars source ++ [';']
  | .everything binding source =>
    "import * as ".toList ++ binding.toList ++ " from ".toList ++ Json.quoteChars source ++ [';']
  | .named names source =>
    "import \x7b ".toList ++ namesChars names ++ " \x7d from ".toList ++
      Json.quoteChars source ++ [';']

/-- A binding without a value cannot be constant. -/
def bindingChars (owner : Option String) (binding : Binding) : List Char :=
  match binding.expr with
  | none => "let ".toList ++ binding.name.toList ++ [';']
  | some expr =>
    let annotation :=
      match binding.resultType with
      | some type => ':' :: ' ' :: type.toList
      | none => []
    "const ".toList ++ binding.name.toList ++ annotation ++ " = ".toList ++
      exprChars owner 0 expr ++ [';']

/-- The text of an item, without the end of its last line. -/
def itemChars (owner : Option String) : ModuleItem → List Char
  | .importing what => importChars what
  | .blank => []
  | .declaration binding => bindingChars owner binding

/-- The text of a module. -/
def moduleChars (m : GeneratedModule) : List Char :=
  m.items.flatMap fun item => itemChars m.alias? item ++ ['\n']

def render (m : GeneratedModule) : String := String.ofList (moduleChars m)

end TypeScript

end DecoderForge
