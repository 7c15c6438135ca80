/-
This file reads filters from their text.
-/

import DecoderForge.Filter.Basic
import DecoderForge.Filter.Token
import DecoderForge.Json.NumberToken

namespace DecoderForge

namespace Filter

/-- What is read at the beginning of a list of tokens, and the tokens behind it. -/
abbrev Parse (α : Type) := List Token → Option (α × List Token)

namespace Parse

/-- The tokens behind a mark. -/
def mark (text : String) : List Token → Option (List Token)
  | .mark found :: rest => if found = text then some rest else none
  | _ => none

/-- The tokens behind a word. -/
def word (name : String) : List Token → Option (List Token)
  | .word found :: rest => if found = name then some rest else none
  | _ => none

/-- Whether a question mark follows, and the tokens behind it. -/
def quiet (tokens : List Token) : Bool × List Token :=
  match mark "?" tokens with
  | some rest => (true, rest)
  | none => (false, tokens)

/-- The operator that follows. -/
def operator? : List Token → Option (FilterOperator × List Token)
  | .mark text :: rest =>
    match text with
    | "|" => some (.pipe, rest)
    | "," => some (.comma, rest)
    | "//" => some (.alternative, rest)
    | "==" => some (.equal, rest)
    | "!=" => some (.unequal, rest)
    | _ => none
  | .word name :: rest =>
    match name with
    | "or" => some (.or, rest)
    | "and" => some (.and, rest)
    | _ => none
  | _ => none

/-- The operator of a level that follows. -/
def operatorOf? (level : Nat) (tokens : List Token) : Option (FilterOperator × List Token) :=
  (operator? tokens).filter fun (operator, _) => operator.level == level

/-- A filter that is a word by itself. -/
def constant? (name : String) : Option Filter :=
  match name with
  | "null" => some (.value .null)
  | "true" => some (.value (.bool true))
  | "false" => some (.value (.bool false))
  | "empty" => some .empty
  | "error" => some (.fail .identity)
  | "length" => some .length
  | "keys" => some .keys
  | "not" => some .not
  | _ => none

/-- A filter that is made from another one. -/
def applied? (name : String) (argument : Filter) : Option Filter :=
  match name with
  | "error" => some (.fail argument)
  | "select" => some (.select argument)
  | "map" => some (.map argument)
  | _ => none

/-- The number that a numeral is. -/
def number? (text : List Char) : Option Number :=
  let digits := text.dropWhile fun c => c == '0'
  let zero := !(digits.head?.any Char.isDigit)
  match Json.numberToken false ⟨if zero then '0' :: digits else digits, 0⟩ with
  | .ok (n, _) => some n
  | .error _ => none

mutual

/-- A filter with operators of at least the given level, of which the comma may not be one; each
step takes one of `fuel`. -/
def filter : (fuel : Nat) → (commas : Bool) → (level : Nat) → Parse Filter
  | 0, _, _, _ => none
  | fuel + 1, commas, level, tokens => do
    if FilterOperator.levels ≤ level then term fuel commas tokens
    else
      let (left, rest) ← filter fuel commas (level + 1) tokens
      operands fuel commas level left rest

/-- A filter of which the left side is known. -/
def operands : (fuel : Nat) → (commas : Bool) → (level : Nat) → (left : Filter) → Parse Filter
  | 0, _, _, _, _ => none
  | fuel + 1, commas, level, left, tokens =>
    match operatorOf? level tokens with
    | none => some (left, tokens)
    | some (operator, rest) => do
      if operator = .comma ∧ commas = false then some (left, tokens)
      else if operator.toRight then
        let (right, rest) ← filter fuel commas level rest
        return (.binary operator left right, rest)
      else
        let (right, rest) ← filter fuel commas (level + 1) rest
        operands fuel commas level (.binary operator left right) rest

/-- A filter without operators, which may be followed by steps or bound to a variable. -/
def term : (fuel : Nat) → (commas : Bool) → Parse Filter
  | 0, _, _ => none
  | fuel + 1, commas, tokens => do
    let (start, rest) ← atom fuel tokens
    let (whole, rest) ← steps fuel start rest
    match rest with
    | .word "as" :: .variable name :: rest => do
      let rest ← mark "|" rest
      let (body, rest) ← filter fuel commas 0 rest
      return (.bind whole name body, rest)
    | _ => return (whole, rest)

/-- A filter with the steps and question marks that follow it. -/
def steps : (fuel : Nat) → (start : Filter) → Parse Filter
  | 0, _, _ => none
  | fuel + 1, start, tokens =>
    match step fuel tokens with
    | some (first, rest) =>
      let start :=
        match start with
        | .path inner found => .path inner (found ++ [first])
        | other => .path other [first]
      steps fuel start rest
    | none =>
      match mark "?" tokens with
      | some rest => steps fuel (.quiet start) rest
      | none => some (start, tokens)

/-- A step behind a filter. -/
def step : (fuel : Nat) → Parse (FilterStep Filter)
  | 0, _ => none
  | fuel + 1, tokens =>
    match tokens with
    | .field name :: rest =>
      let (silent, rest) := quiet rest
      some (.index (.value (.str name)) silent, rest)
    | .mark "." :: .string name :: rest =>
      let (silent, rest) := quiet rest
      some (.index (.value (.str name)) silent, rest)
    | .mark "." :: .mark "[" :: rest => bracket fuel rest
    | .mark "[" :: rest => bracket fuel rest
    | _ => none

/-- A step in brackets, of which the first has been read. -/
def bracket : (fuel : Nat) → Parse (FilterStep Filter)
  | 0, _ => none
  | fuel + 1, tokens => do
    match tokens with
    | .mark "]" :: rest =>
      let (silent, rest) := quiet rest
      return (.each silent, rest)
    | .mark ":" :: rest =>
      let (last, rest) ← filter fuel true 0 rest
      let (silent, rest) := quiet (← mark "]" rest)
      return (.slice none (some last) silent, rest)
    | _ =>
      let (first, rest) ← filter fuel true 0 tokens
      match rest with
      | .mark ":" :: .mark "]" :: rest =>
        let (silent, rest) := quiet rest
        return (.slice (some first) none silent, rest)
      | .mark ":" :: rest =>
        let (last, rest) ← filter fuel true 0 rest
        let (silent, rest) := quiet (← mark "]" rest)
        return (.slice (some first) (some last) silent, rest)
      | _ =>
        let (silent, rest) := quiet (← mark "]" rest)
        return (.index first silent, rest)

/-- A filter that begins with its first token. -/
def atom : (fuel : Nat) → Parse Filter
  | 0, _ => none
  | fuel + 1, tokens => do
    match tokens with
    | .mark "." :: .string name :: rest =>
      let (silent, rest) := quiet rest
      return (.path .identity [.index (.value (.str name)) silent], rest)
    | .mark "." :: .mark "[" :: rest =>
      let (first, rest) ← bracket fuel rest
      return (.path .identity [first], rest)
    | .mark "." :: rest => return (.identity, rest)
    | .field name :: rest =>
      let (silent, rest) := quiet rest
      return (.path .identity [.index (.value (.str name)) silent], rest)
    | .number text :: rest => return (.value (.num (← number? text)), rest)
    | .string s :: rest => return (.value (.str s), rest)
    | .variable name :: rest => return (.variable name, rest)
    | .mark "-" :: rest =>
      let (start, rest) ← atom fuel rest
      let (inner, rest) ← steps fuel start rest
      return (.negate inner, rest)
    | .mark "(" :: rest =>
      let (inner, rest) ← filter fuel true 0 rest
      return (.path inner [], ← mark ")" rest)
    | .mark "[" :: .mark "]" :: rest => return (.array none, rest)
    | .mark "[" :: rest =>
      let (items, rest) ← filter fuel true 0 rest
      return (.array (some items), ← mark "]" rest)
    | .mark "\x7b" :: .mark "\x7d" :: rest => return (.object [], rest)
    | .mark "\x7b" :: rest =>
      let (entries, rest) ← entries fuel rest
      return (.object entries, rest)
    | .word "if" :: rest => branches fuel rest
    | .word name :: .mark "(" :: rest =>
      let (argument, rest) ← filter fuel true 0 rest
      return (← applied? name argument, ← mark ")" rest)
    | .word name :: rest => return (← constant? name, rest)
    | _ => none

/-- The branches behind the word `if` or `elif`. -/
def branches : (fuel : Nat) → Parse Filter
  | 0, _ => none
  | fuel + 1, tokens => do
    let (condition, rest) ← filter fuel true 0 tokens
    let (yes, rest) ← filter fuel true 0 (← word "then" rest)
    match rest with
    | .word "elif" :: rest =>
      let (no, rest) ← branches fuel rest
      return (.conditional condition yes no, rest)
    | .word "else" :: rest =>
      let (no, rest) ← filter fuel true 0 rest
      return (.conditional condition yes no, ← word "end" rest)
    | _ => return (.conditional condition yes .identity, ← word "end" rest)

/-- The entries of an object up to its closing brace. -/
def entries : (fuel : Nat) → Parse (List (Filter × Filter))
  | 0, _ => none
  | fuel + 1, tokens => do
    let (first, rest) ← entry fuel tokens
    match rest with
    | .mark "\x7d" :: rest => return ([first], rest)
    | .mark "," :: rest =>
      let (others, rest) ← entries fuel rest
      return (first :: others, rest)
    | _ => none

/-- An entry of an object. The value of a key that stands alone is the field of that name, and a
variable that stands alone is the value under its name. -/
def entry : (fuel : Nat) → Parse (Filter × Filter)
  | 0, _ => none
  | fuel + 1, tokens => do
    let named (name : String) (rest : List Token) : Option ((Filter × Filter) × List Token) :=
      let key : Filter := .value (.str name)
      match rest with
      | .mark ":" :: rest => do
        let (content, rest) ← filter fuel false 0 rest
        return ((key, content), rest)
      | _ => some ((key, .path .identity [.index key false]), rest)
    match tokens with
    | .word name :: rest => named name rest
    | .string name :: rest => named name rest
    | .variable name :: rest => return ((.value (.str name), .variable name), rest)
    | .mark "(" :: rest =>
      let (key, rest) ← filter fuel true 0 rest
      let rest ← mark ":" (← mark ")" rest)
      let (content, rest) ← filter fuel false 0 rest
      return ((key, content), rest)
    | _ => none

end

end Parse

mutual

/-- Whether every variable of a filter is bound around it. -/
def isClosed (bound : List String) : Filter → Bool
  | .identity | .value _ | .empty | .length | .keys | .not | .array none => true
  | .variable name => bound.contains name
  | .path start steps => isClosed bound start && areClosed bound steps
  | .quiet f | .array (some f) | .negate f | .fail f | .select f | .map f => isClosed bound f
  | .binary _ left right => isClosed bound left && isClosed bound right
  | .bind values name body => isClosed bound values && isClosed (name :: bound) body
  | .object entries => entriesClosed bound entries
  | .conditional condition yes no =>
    isClosed bound condition && isClosed bound yes && isClosed bound no

def areClosed (bound : List String) : List (FilterStep Filter) → Bool
  | [] => true
  | .index key _ :: rest => isClosed bound key && areClosed bound rest
  | .slice first last _ :: rest =>
    optionClosed bound first && optionClosed bound last && areClosed bound rest
  | .each _ :: rest => areClosed bound rest

def optionClosed (bound : List String) : Option Filter → Bool
  | none => true
  | some f => isClosed bound f

def entriesClosed (bound : List String) : List (Filter × Filter) → Bool
  | [] => true
  | (key, content) :: rest =>
    isClosed bound key && isClosed bound content && entriesClosed bound rest

end

/-- The filter that a text is. A step of the reader is followed by at most a dozen others before it
takes a token. -/
def parse? (text : String) : Option Filter := do
  let tokens ← Token.list? text
  let (f, rest) ← Parse.filter (16 * tokens.length + 16) true 0 tokens
  if rest.isEmpty && isClosed [] f then some f else none

end Filter

end DecoderForge
