/-
This file holds what a run tells while it goes on.
-/

import DecoderForge.Diagnostic

namespace DecoderForge

namespace CommandLine

/-- How much an event matters. -/
inductive Level where
  | debug
  | info
  | warn
deriving Repr, DecidableEq

namespace Level

def name : Level → String
  | .debug => "DEBUG"
  | .info => "INFO"
  | .warn => "WARN"

def rank : Level → Nat
  | .debug => 0
  | .info => 1
  | .warn => 2

end Level

inductive Event where
  | loaded (path : String)
  | compiled (binding : String)
  | leftUninitialized (binding : String) (reason : SkipReason)
  | assembled (declarations builtins diagnostics : Nat)
  | generated (declarations skipped : Nat)
  | reported (diagnostic : Diagnostic)
deriving Repr, DecidableEq

namespace Event

def level : Event → Level
  | .loaded _ | .compiled _ | .leftUninitialized .. | .assembled .. => .debug
  | .generated .. => .info
  | .reported _ => .warn

def message : Event → String
  | .loaded path => "loaded input path=" ++ path
  | .compiled binding => "compiled declaration binding=" ++ binding
  | .leftUninitialized binding reason =>
    "declaration left uninitialized binding=" ++ binding ++ " reason=" ++ reason.message
  | .assembled declarations builtins diagnostics =>
    "assembled module declarations=" ++ toString declarations ++ " builtins=" ++
      toString builtins ++ " diagnostics=" ++ toString diagnostics
  | .generated declarations skipped =>
    "generated decoders declarations=" ++ toString declarations ++ " skipped=" ++ toString skipped
  | .reported diagnostic => diagnostic.message

def line (event : Event) : String := event.level.name ++ " " ++ event.message

/-- The lines of the events that matter at least as much as a level. -/
def lines (least : Level) (events : List Event) : List String :=
  (events.filter fun event => least.rank ≤ event.level.rank).map line

end Event

end CommandLine

end DecoderForge
