/-
This file loads decoder expressions and the items of generated modules.
-/

import DecoderForge.Loading.Descriptor
import DecoderForge.Module.Item

namespace DecoderForge

namespace Loading

/-- The kinds of constants. -/
inductive ConstantKind where
  | string
  | number
deriving Repr, DecidableEq

namespace ConstantKind

def names : List (String × ConstantKind) := [("string", .string), ("number", .number)]

def shape : TagAndContent := ⟨"Literal", "type", "value"⟩

end ConstantKind

/-- The kinds of expressions. -/
inductive ExprKind where
  | call
  | identifier
  | object
  | constant
deriving Repr, DecidableEq

def ExprKind.names : List (String × ExprKind) :=
  [("builtinCall", .call), ("identifier", .identifier), ("objectLiteral", .object),
    ("literal", .constant)]

namespace Buffer

def builtin : Json → Except Cause Builtin :=
  choice (Builtin.all.map fun builtin => (builtin.name, builtin))

def constantContent : ConstantKind → Json → Except Cause Constant
  | .string, value => (text value).map .string
  | .number, value => (numericLiteral value).map .number

def constant : Json → Except Cause Constant :=
  tagAndContent ConstantKind.shape ConstantKind.names
    ⟨constantContent, fun _ => .error (.missingField "value")⟩

/-- An object with keys of any kind, in which the last entry of a key counts. -/
def dictionary {α : Type} (value : Json → Except Cause α) :
    Json → Except Cause (List (String × α))
  | .obj es => (es.mapM fun entry => (value entry.2).map (entry.1, ·)).map Entries.ofList
  | other => .error (.wrongType (.ofJson other) .map)

/-- What belongs to an expression of a kind, from a way to load the expressions inside it. -/
def exprContent (expr : Json → Except Cause DecoderExpr) (kind : ExprKind) (content : Json) :
    Except Cause DecoderExpr :=
  let record := Expected.variantOf "ValidatorExpr"
  match kind with
  | .call =>
    let expected := record "BuiltinCall" 2
    (double "builtin" "args" expected expected builtin (list expr) content).map
      fun (callee, args) => .call callee args
  | .identifier =>
    let expected := record "Identifier" 1
    (single "name" expected expected text content).map .identifier
  | .object =>
    let expected := record "ObjectLiteral" 1
    (single "entries" expected expected (dictionary expr) content).map .object
  | .constant =>
    let expected := record "Literal" 1
    (single "value" expected expected constant content).map .constant

/-- An expression in which at most `levels` lists and objects stand within each other. -/
def exprWithin : (levels : Nat) → Json → Except Cause DecoderExpr
  | 0, value => .error (.wrongType (.ofJson value) (.tagged "ValidatorExpr"))
  | levels + 1, value => do
    let (kind, content) ← tagged "ValidatorExpr" "kind" (variant ExprKind.names none) value
    exprContent (exprWithin levels) kind content

def expr (value : Json) : Except Cause DecoderExpr := exprWithin (value.depth + 1) value

def binding : Json → Except Cause Binding
  | .obj es => do
    let columns := ((Columns.one "bindingName" text).and
      (.one "resultType" (optional text))).and (.one "expr" (optional expr))
    let ((name, resultType), expr) ← entries columns es columns.none
    return ⟨← required "bindingName" name, resultType.join, expr.join⟩
  | .arr items => do
    let expected := Expected.recordOf "EmittedDeclaration" 3
    let name ← element items 0 expected text
    let resultType ← element items 1 expected (optional text)
    let expr ← element items 2 expected (optional expr)
    noMore items 3
    return ⟨name, resultType, expr⟩
  | other => .error (.wrongType (.ofJson other) (.record "EmittedDeclaration"))

end Buffer

/-- The kinds of imports. -/
inductive ImportKind where
  | types
  | everything
  | named
deriving Repr, DecidableEq

def ImportKind.names : List (String × ImportKind) :=
  [("types", .types), ("namespace", .everything), ("named", .named)]

/-- The kinds of items. -/
inductive ItemKind where
  | importing
  | blank
  | declaration
deriving Repr, DecidableEq

def ItemKind.names : List (String × ItemKind) :=
  [("import", .importing), ("blank", .blank), ("declaration", .declaration)]

namespace Buffer

def importContent (kind : ImportKind) (content : Json) : Except Cause Import :=
  let record (variant : String) := Expected.variantOf "Import" variant 2
  match kind with
  | .types =>
    (double "names" "from" (record "Types") (record "Types") (list text) text content).map
      fun (names, source) => .types names source
  | .everything =>
    (double "alias" "from" (record "Namespace") (record "Namespace") text text content).map
      fun (binding, source) => .everything binding source
  | .named =>
    (double "names" "from" (record "Named") (record "Named") (list text) text content).map
      fun (names, source) => .named names source

def importing (value : Json) : Except Cause Import := do
  let (kind, content) ← tagged "Import" "import" (variant ImportKind.names none) value
  importContent kind content

def itemContent (kind : ItemKind) (content : Json) : Except Cause ModuleItem :=
  match kind with
  | .importing => (importing content).map .importing
  | .blank => (nothing content).map fun _ => .blank
  | .declaration => (binding content).map .declaration

end Buffer

namespace Reader

def builtin : Loader Builtin := choice (Builtin.all.map fun builtin => (builtin.name, builtin))

def expr : Loader DecoderExpr := fun document => do
  let (kind, content) ← tagged "ValidatorExpr" "kind" (variant ExprKind.names none) document
  (Buffer.exprContent Buffer.expr kind content).mapError .ofCause

def item : Loader ModuleItem := fun document => do
  let (kind, content) ← tagged "ModuleItem" "item" (variant ItemKind.names none) document
  (Buffer.itemContent kind content).mapError .ofCause

end Reader

end Loading

end DecoderForge
