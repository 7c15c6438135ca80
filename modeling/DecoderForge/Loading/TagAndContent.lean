/-
This file loads values that have their tag and their content under two keys, which may come in
either order.
-/

import DecoderForge.Loading.Buffer

namespace DecoderForge

namespace Loading

/-- The keys of the tag and of the content, and what the values are called in messages. -/
structure TagAndContent where
  name : String
  tagKey : String
  contentKey : String

/-- What is known of a value behind some of its entries. -/
inductive Progress (τ α : Type) where
  | nothing
  | tag (tag : τ)
  | content (content : Json)
  | both (value : α)

/-- How to load the content of a tag. -/
structure ContentLoader (ν ε τ α : Type) where
  content : τ → ν → Except ε α
  /-- The value of a tag without content. -/
  bare : τ → Except ε α

namespace Buffer

variable {τ α : Type}

/-- What is known behind all entries. -/
def tagAndContentEntries (shape : TagAndContent) (tag : Json → Except Cause τ)
    (loader : ContentLoader Json Cause τ α) :
    List (String × Json) → Progress τ α → Except Cause (Progress τ α)
  | [], progress => .ok progress
  | (key, value) :: rest, progress =>
    let goOn := tagAndContentEntries shape tag loader rest
    if key = shape.tagKey then
      match progress with
      | .nothing => (tag value).bind fun t => goOn (.tag t)
      | .content content =>
        (tag value).bind fun t => (loader.content t content).bind fun a => goOn (.both a)
      | _ => .error (.repeatedField key)
    else if key = shape.contentKey then
      match progress with
      | .nothing => goOn (.content value)
      | .tag t => (loader.content t value).bind fun a => goOn (.both a)
      | _ => .error (.repeatedField key)
    else goOn progress

/-- A value with a tag and a content. In a list the content cannot be left out. -/
def tagAndContent (shape : TagAndContent) (names : List (String × τ))
    (loader : ContentLoader Json Cause τ α) : Json → Except Cause α
  | .obj es => do
    match ← tagAndContentEntries shape (choice names) loader es .nothing with
    | .both a => return a
    | .tag t => loader.bare t
    | _ => throw (.missingField shape.tagKey)
  | .arr [] => .error (.wrongLength 0 (.tagAndContent shape.name))
  | .arr [first] => do
    let _ ← variant names none first
    throw (.wrongLength 1 (.tagAndContent shape.name))
  | .arr (first :: second :: rest) => do
    let a ← loader.content (← variant names none first) second
    noMore (first :: second :: rest) 2
    return a
  | other => .error (.wrongType (.ofJson other) (.tagAndContent shape.name))

end Buffer

end Loading

end DecoderForge
