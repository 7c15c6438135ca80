/-
This file runs filters. A filter has any number of results, some of which may be failures; what
comes behind a failure is still a result.
-/

import DecoderForge.Filter.Parser
import DecoderForge.Json.Printer
import DecoderForge.Loading.Reader

namespace DecoderForge

namespace Filter

/-- A value, or a failure. -/
abbrev Result := Option Json

/-- Null and false do not hold. -/
def holds : Json → Bool
  | .null | .bool false => false
  | _ => true

/-- The magnitude and the sign of a number as a binary number. -/
def binaryValue : Number → Bool × Magnitude
  | .int n => (n < 0, .ofNat n.natAbs)
  | .float negative m => (negative, m)

/-- Two numbers are the same when both are whole and equal, or equal as binary numbers. -/
def sameNumber (a b : Number) : Bool :=
  match a, b with
  | .int m, .int n => m == n
  | _, _ =>
    let (signA, a) := binaryValue a
    let (signB, b) := binaryValue b
    a == b && (signA == signB || a.isZero)

mutual

/-- Two values are the same when they have the same parts; the entries of an object have no
order. -/
def same : Json → Json → Bool
  | .null, .null => true
  | .bool a, .bool b => a == b
  | .num a, .num b => sameNumber a b
  | .str a, .str b => a == b
  | .arr a, .arr b => sameItems a b
  | .obj a, .obj b => a.length == b.length && sameEntries a b
  | _, _ => false

def sameItems : List Json → List Json → Bool
  | [], [] => true
  | a :: as, b :: bs => same a b && sameItems as bs
  | _, _ => false

def sameEntries : List (String × Json) → List (String × Json) → Bool
  | [], _ => true
  | (key, a) :: rest, others =>
    (match Entries.get? key others with
      | some b => same a b
      | none => false) && sameEntries rest others

end

/-- The place in a list that an index names; a negative one counts from the end. -/
def place? (i : Int) (length : Nat) : Option Nat :=
  if 0 ≤ i then some i.toNat else if (-i).toNat ≤ length then some (length - (-i).toNat) else none

/-- The part of a value under a key or at an index. -/
def part : Json → Json → Result
  | .arr items, .num (.int i) =>
    some (((place? i items.length).bind fun i => items[i]?).getD .null)
  | .obj entries, .str key => some ((Entries.get? key entries).getD .null)
  | _, _ => none

/-- The bound of a slice as a place in a list. -/
def bound (length missing : Nat) : Option Json → Option Nat
  | none => some missing
  | some (.num (.int i)) => some (if 0 ≤ i then min i.toNat length else length - (-i).toNat)
  | some _ => none

/-- What lies between two bounds. -/
def slice {α : Type} (items : List α) (first last : Option Json) : Option (List α) := do
  let first ← bound items.length 0 first
  let last ← bound items.length items.length last
  return (items.take last).drop first

def sliceOf (v : Json) (first last : Option Json) : Result :=
  match v with
  | .arr items => (slice items first last).map .arr
  | .str s => (slice s.toList first last).map fun chars => .str (String.ofList chars)
  | _ => none

/-- The values of a list or an object. -/
def parts : Json → Option (List Json)
  | .arr items => some items
  | .obj entries => some (entries.map Prod.snd)
  | _ => none

/-- The number of parts of a value, or of characters of a text, or the magnitude of a number. -/
def lengthOf : Json → Result
  | .null => some (.nat 0)
  | .bool _ => none
  | .num (.int n) =>
    some (if n < Number.signedLimit then .nat n.natAbs else .num (.float false (.ofNat n.natAbs)))
  | .num (.float _ m) => some (.num (.float false m))
  | .str s => some (.nat s.length)
  | .arr items => some (.nat items.length)
  | .obj entries => some (.nat entries.length)

/-- The keys of an object in order, or the indices of a list. -/
def keysOf : Json → Result
  | .arr items => some (.arr ((List.range items.length).map .nat))
  | .obj entries =>
    some (.arr (((entries.map Prod.fst).mergeSort fun a b => decide (a ≤ b)).map .str))
  | _ => none

def negated : Json → Result
  | .num (.int n) =>
    some (if n < Number.signedLimit then .num (.int (-n)) else .num (.float true (.ofNat n.natAbs)))
  | .num (.float negative m) => some (.num (.float (!negative) m))
  | _ => none

/-- The results of a function for each result that is no failure. -/
def andThen (results : List Result) (next : Json → List Result) : List Result :=
  results.flatMap fun result =>
    match result with
    | some v => next v
    | none => [none]

/-- The failures are left out where a step is quiet. -/
def hush (silent : Bool) (results : List Result) : List Result :=
  if silent then results.filter Option.isSome else results

/-- A list of all results, unless one is a failure. -/
def collect (results : List Result) : Result := (results.mapM id).map .arr

/-- A step of which the keys are known. -/
inductive Move where
  | part (key : Json) (silent : Bool)
  | slice (first last : Option Json) (silent : Bool)
  | each (silent : Bool)

def Move.results (v : Json) : Move → List Result
  | .part key silent => hush silent [Filter.part v key]
  | .slice first last silent => hush silent [sliceOf v first last]
  | .each silent =>
    match parts v with
    | some values => values.map some
    | none => hush silent [none]

/-- The results of moving through a value. -/
def follow (v : Json) : List Move → List Result
  | [] => [some v]
  | move :: rest => andThen (move.results v) fun next => follow next rest

/-- The entries of a value of a variable in front of the others. -/
abbrev Bindings := List (String × Json)

mutual

/-- The results of a filter for a value. -/
def run (bindings : Bindings) (v : Json) : Filter → List Result
  | .identity => [some v]
  | .value constant => [some constant]
  | .variable name => [bindings.lookup name]
  | .path start steps =>
    andThen (run bindings v start) fun found =>
      (moves bindings v steps).flatMap fun found? =>
        match found? with
        | some steps => follow found steps
        | none => [none]
  | .quiet f => hush true (run bindings v f)
  | .binary .pipe left right => andThen (run bindings v left) fun found => run bindings found right
  | .binary .comma left right => run bindings v left ++ run bindings v right
  | .binary .alternative left right =>
    let found := (run bindings v left).filter fun result => result.all holds
    if found.isEmpty then run bindings v right else found
  | .binary .or left right =>
    andThen (run bindings v left) fun l =>
      if holds l then [some (.bool true)]
      else andThen (run bindings v right) fun r => [some (.bool (holds r))]
  | .binary .and left right =>
    andThen (run bindings v left) fun l =>
      if holds l then andThen (run bindings v right) fun r => [some (.bool (holds r))]
      else [some (.bool false)]
  | .binary .equal left right =>
    andThen (run bindings v left) fun l =>
      andThen (run bindings v right) fun r => [some (.bool (same l r))]
  | .binary .unequal left right =>
    andThen (run bindings v left) fun l =>
      andThen (run bindings v right) fun r => [some (.bool (!same l r))]
  | .bind values name body =>
    andThen (run bindings v values) fun found => run ((name, found) :: bindings) v body
  | .array none => [some (.arr [])]
  | .array (some items) => [collect (run bindings v items)]
  | .object entries => objects bindings v entries []
  | .negate f => andThen (run bindings v f) fun found => [negated found]
  | .conditional condition yes no =>
    andThen (run bindings v condition) fun found =>
      if holds found then run bindings v yes else run bindings v no
  | .empty => []
  | .fail cause => andThen (run bindings v cause) fun _ => [none]
  | .select condition =>
    andThen (run bindings v condition) fun found => if holds found then [some v] else []
  | .map f =>
    match parts v with
    | some values => [collect (values.flatMap fun value => run bindings value f)]
    | none => [none]
  | .length => [lengthOf v]
  | .keys => [keysOf v]
  | .not => [some (.bool (!holds v))]

/-- The moves that steps stand for, once for each combination of the results of their keys. -/
def moves (bindings : Bindings) (v : Json) : List (FilterStep Filter) → List (Option (List Move))
  | [] => [some []]
  | .index key silent :: rest =>
    (run bindings v key).flatMap fun found =>
      (moves bindings v rest).map fun others => do return .part (← found) silent :: (← others)
  | .slice first last silent :: rest =>
    (bounds bindings v first).flatMap fun first =>
      (bounds bindings v last).flatMap fun last =>
        (moves bindings v rest).map fun others => do
          return .slice (← first) (← last) silent :: (← others)
  | .each silent :: rest =>
    (moves bindings v rest).map fun others => others.map (.each silent :: ·)

/-- The bounds that a filter has for results, if there is a filter. -/
def bounds (bindings : Bindings) (v : Json) : Option Filter → List (Option (Option Json))
  | none => [some none]
  | some f => (run bindings v f).map fun found => found.map some

/-- The objects that entries make, with the entries made so far. -/
def objects (bindings : Bindings) (v : Json) :
    List (Filter × Filter) → List (String × Json) → List Result
  | [], made => [some (.obj made)]
  | (key, content) :: rest, made =>
    andThen (run bindings v key) fun name =>
      match name with
      | .str name =>
        andThen (run bindings v content) fun found =>
          objects bindings v rest (Entries.put name found made)
      | _ => [none]

end

/-- The value that a result is when it is written and read again. -/
def reread : Result → Except String Json
  | none => .error "a step of the filter fails"
  | some found =>
    (Loading.Reader.anything.fromText found.compact).mapError fun problem =>
      "filter produced non-JSON output: " ++ problem.detail

/-- The values that the text of a filter makes of a value, if the text is a filter and no result is
a failure. -/
def evaluate (text : String) (input : Json) : Except String (List Json) :=
  match parse? text with
  | none => .error ("parse error in " ++ text)
  | some f => (run [] input f).mapM reread

end Filter

end DecoderForge
