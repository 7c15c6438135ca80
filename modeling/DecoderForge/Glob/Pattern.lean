/-
This file holds patterns for the paths of files: their tokens, how they are read from a text, and
which names they match.
-/

namespace DecoderForge

/-- A place in a pattern and what is wrong there. -/
structure PatternError where
  position : Nat
  what : String
deriving Repr, DecidableEq

def PatternError.message (e : PatternError) : String :=
  "Pattern syntax error near position " ++ toString e.position ++ ": " ++ e.what

namespace Glob

/-- What a token of a pattern matches. -/
inductive Token where
  | char (c : Char)
  | anyChar
  /-- Characters in any number. -/
  | star
  /-- Directories in any number. -/
  | doubleStar
  /-- One character out of ranges, or out of all others. -/
  | oneOf (inside : Bool) (ranges : List (Char × Char))
deriving Repr, DecidableEq

namespace Token

def isWild : Token → Bool
  | .char _ => false
  | _ => true

/-- Whether a token matches a character, if it is one that matches single characters. -/
def accepts (c : Char) : Token → Bool
  | .char own => c = own
  | .anyChar => true
  | .oneOf inside ranges =>
    (ranges.any fun (low, high) => low.val ≤ c.val && c.val ≤ high.val) = inside
  | .star | .doubleStar => false

/-- Whether tokens match a whole name. -/
def matchAll : List Token → List Char → Bool
  | [], cs => cs.isEmpty
  | token :: rest, cs =>
    match token, cs with
    | .star, [] | .doubleStar, [] => matchAll rest []
    | .star, c :: cs => matchAll rest (c :: cs) || matchAll (.star :: rest) cs
    | .doubleStar, c :: cs => matchAll rest (c :: cs) || matchAll (.doubleStar :: rest) cs
    | _, [] => false
    | _, c :: cs => token.accepts c && matchAll rest cs
termination_by tokens cs => tokens.length + cs.length

end Token

def badRange : String := "invalid range pattern"

def badStars : String := "wildcards are either regular `*` or recursive `**`"

def badDoubleStar : String := "recursive wildcards must form a single path component"

/-- The ranges in brackets; a character alone is a range of its own. -/
def ranges : List Char → List (Char × Char)
  | low :: '-' :: high :: rest => (low, high) :: ranges rest
  | c :: rest => (c, c) :: ranges rest
  | [] => []

/-- What stands before the bracket that closes a range and what stands behind it. The bracket does
not close a range in which there is nothing yet. -/
def bracketed? : List Char → Option (List Char × List Char)
  | [] => none
  | first :: rest =>
    match rest.dropWhile (· != ']') with
    | [] => none
    | _ :: behind => some (first :: rest.takeWhile (· != ']'), behind)

theorem length_of_bracketed? {cs inside behind : List Char}
    (found : bracketed? cs = some (inside, behind)) : behind.length < cs.length := by
  cases cs with
  | nil => simp [bracketed?] at found
  | cons first rest =>
    have shorter : (rest.dropWhile (· != ']')).length ≤ rest.length :=
      (List.dropWhile_sublist _).length_le
    simp only [bracketed?] at found
    split at found
    · simp at found
    · next closing tail split =>
      rw [split] at shorter
      obtain ⟨-, rfl⟩ : first :: rest.takeWhile (· != ']') = inside ∧ tail = behind := by
        simpa using found
      simp only [List.length_cons] at shorter ⊢
      omega

/-- The tokens of a pattern. Two stars stand between slashes or at an end of the pattern, and take
the slash behind them along. `position` counts the characters in front, of which `last` is the
last. -/
def tokensFrom (position : Nat) (last : Option Char) (cs : List Char) :
    Except PatternError (List Token) :=
  match cs with
  | [] => .ok []
  | '?' :: rest => do return .anyChar :: (← tokensFrom (position + 1) (some '?') rest)
  | '*' :: '*' :: '*' :: _ => .error ⟨position + 2, badStars⟩
  | '*' :: '*' :: rest =>
    if last.all (· = '/') then
      match rest with
      | [] => .ok [.doubleStar]
      | '/' :: rest => do return .doubleStar :: (← tokensFrom (position + 3) (some '/') rest)
      | _ => .error ⟨position + 2, badDoubleStar⟩
    else .error ⟨position - 1, badDoubleStar⟩
  | '*' :: rest => do return .star :: (← tokensFrom (position + 1) (some '*') rest)
  | '[' :: '!' :: rest =>
    match found : bracketed? rest with
    | none => .error ⟨position, badRange⟩
    | some (inside, behind) =>
      have := length_of_bracketed? found
      do return .oneOf false (ranges inside) ::
        (← tokensFrom (position + inside.length + 3) (some ']') behind)
  | '[' :: rest =>
    match found : bracketed? rest with
    | none => .error ⟨position, badRange⟩
    | some (inside, behind) =>
      have := length_of_bracketed? found
      do return .oneOf true (ranges inside) ::
        (← tokensFrom (position + inside.length + 2) (some ']') behind)
  | c :: rest => do return .char c :: (← tokensFrom (position + 1) (some c) rest)
termination_by cs.length

def tokens (pattern : String) : Except PatternError (List Token) :=
  tokensFrom 0 none pattern.toList

/-- A text with one of these characters is taken for a pattern. A brace has no further meaning. -/
def isPattern (text : String) : Bool :=
  text.toList.any fun c => c = '*' || c = '?' || c = '[' || c = '\x7b'

/-- What a piece of a pattern between two slashes matches. -/
inductive Part where
  /-- One name. -/
  | name (text : String)
  | wild (tokens : List Token)
  /-- Directories in any number. -/
  | anyDepth
deriving Repr, DecidableEq

namespace Part

def ofText (text : String) : Except PatternError Part := do
  let tokens ← tokens text
  if .doubleStar ∈ tokens then return .anyDepth
  else if tokens.any Token.isWild then return .wild tokens
  else return .name text

def matchesName (name : String) : Part → Bool
  | .name text => name = text
  | .wild tokens => Token.matchAll tokens name.toList
  | .anyDepth => true

/-- The parts in which no two stand side by side that match directories in any number. -/
def merge : List Part → List Part
  | .anyDepth :: .anyDepth :: rest => merge (.anyDepth :: rest)
  | part :: rest => part :: merge rest
  | [] => []

end Part

end Glob

end DecoderForge
