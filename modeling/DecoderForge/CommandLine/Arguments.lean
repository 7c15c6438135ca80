/-
This file reads the arguments of a command line: which options there are, and which command they
make up.
-/

namespace DecoderForge

namespace CommandLine

/-- Why arguments are not those of a command. To ask for help is one reason. -/
inductive UsageError where
  | help
  /-- There are no arguments, which is taken for a question. -/
  | nothingGiven
  | missingInput
  /-- An option is without its value, or with one that it does not take. -/
  | invalidValue
  | invalidSubcommand
  | unknownArgument
  /-- An option is given more than once. -/
  | conflict
  /-- A switch is given a value. -/
  | tooManyValues
deriving Repr, DecidableEq

namespace UsageError

def message : UsageError → String
  | .help | .nothingGiven =>
    "usage: generate|inspect -i INPUT... [-o OUT] [--ndjson] [--json-pointer POINTER]\n" ++
      "  [--jq-expr FILTER] [--config FILE] [--tag-field FIELD] [--named-imports]\n" ++
      "  [--on-skip ignore|warn|deny]"
  | .missingInput => "no input is given"
  | .invalidValue => "an option is without its value, or has one that it does not take"
  | .invalidSubcommand => "there is no such subcommand"
  | .unknownArgument => "there is no such argument"
  | .conflict => "an option is given more than once"
  | .tooManyValues => "an option takes no value"

def isHelp : UsageError → Bool
  | .help => true
  | _ => false

/-- The status with which a program ends that does not get as far as a command. -/
def exitCode (e : UsageError) : Nat := if e.isHelp then 0 else 2

/-- What is written to the standard output: only help that is asked for. -/
def output (e : UsageError) : String := if e.isHelp then e.message ++ "\n" else ""

/-- The lines that are written to the standard error. -/
def notes (e : UsageError) : List String := if e.isHelp then [] else [e.message]

end UsageError

/-- What is done when a type has no decoder. -/
inductive SkipPolicy where
  | ignore
  | warn
  | deny
deriving Repr, DecidableEq

def SkipPolicy.ofName? : String → Option SkipPolicy
  | "ignore" => some .ignore
  | "warn" => some .warn
  | "deny" => some .deny
  | _ => none

/-- Where the documents are in the text of an input, and where the modules are in a document. -/
structure Selection where
  /-- Whether each line is a document. -/
  byLine : Bool := false
  pointer : Option String := none
  filter : Option String := none
deriving Repr, DecidableEq

/-- What is made of a generated module. -/
inductive Action where
  | generate
  | inspect
deriving Repr, DecidableEq

structure Command where
  action : Action
  inputs : List String
  selection : Selection
  config : Option String
  tagField : Option String
  namedImports : Bool
  onSkip : SkipPolicy
  out : Option String
deriving Repr, DecidableEq

/-- The options without a value. -/
inductive Switch where
  | help
  | ndjson
  | namedImports
deriving Repr, DecidableEq

/-- The options with a value. -/
inductive Setting where
  | jsonPointer
  | jqExpr
  | input
  | config
  | tagField
  | onSkip
  | out
deriving Repr, DecidableEq

def Switch.ofLong? : String → Option Switch
  | "help" => some .help
  | "ndjson" => some .ndjson
  | "named-imports" => some .namedImports
  | _ => none

def Setting.ofLong? : String → Option Setting
  | "json-pointer" => some .jsonPointer
  | "jq-expr" => some .jqExpr
  | "input" => some .input
  | "config" => some .config
  | "tag-field" => some .tagField
  | "on-skip" => some .onSkip
  | "out" => some .out
  | _ => none

def Switch.ofShort? : Char → Option Switch
  | 'h' => some .help
  | _ => none

def Setting.ofShort? : Char → Option Setting
  | 'i' => some .input
  | 'o' => some .out
  | _ => none

/-- The form of an argument. -/
inductive Argument where
  /-- No option follows. -/
  | dashes
  | long (name : String) (value : Option String)
  | short (name : Char) (attached : List Char)
  | word
deriving Repr, DecidableEq

/-- The text behind the first equals sign. -/
def valueOf? (cs : List Char) : Option String :=
  match cs.dropWhile (· != '=') with
  | [] => none
  | _ :: value => some (.ofList value)

def Argument.ofText (text : String) : Argument :=
  match text.toList with
  | ['-', '-'] => .dashes
  | '-' :: '-' :: cs => .long (.ofList (cs.takeWhile (· != '='))) (valueOf? cs)
  | '-' :: name :: attached => .short name attached
  | _ => .word

/-- The options that have been read. -/
structure Draft where
  selection : Selection := {}
  inputs : List String := []
  config : Option String := none
  tagField : Option String := none
  namedImports : Bool := false
  onSkip : Option SkipPolicy := none
  out : Option String := none
  /-- The option that was read last, with the values that have followed it so far. -/
  pending : Option (Setting × List String) := none
deriving Repr

namespace Draft

/-- A value that is not yet given may be given. -/
def once {α : Type} (old : Option α) (new : Option α) : Except UsageError (Option α) :=
  match old, new with
  | some _, _ => .error .conflict
  | none, none => .error .invalidValue
  | none, some value => .ok (some value)

/-- The path of a file is not empty. -/
def path? (text : String) : Option String := if text = "" then none else some text

/-- An option with its values. -/
def take (draft : Draft) (setting : Setting) (values : List String) : Except UsageError Draft :=
  match values with
  | [] => .error .invalidValue
  | value :: _ =>
    match setting with
    | .input => .ok { draft with inputs := draft.inputs ++ values }
    | .jsonPointer => do
      let pointer ← once draft.selection.pointer (some value)
      return { draft with selection := { draft.selection with pointer } }
    | .jqExpr => do
      let filter ← once draft.selection.filter (some value)
      return { draft with selection := { draft.selection with filter } }
    | .config => do return { draft with config := ← once draft.config (path? value) }
    | .tagField => do return { draft with tagField := ← once draft.tagField (some value) }
    | .onSkip => do return { draft with onSkip := ← once draft.onSkip (SkipPolicy.ofName? value) }
    | .out => do return { draft with out := ← once draft.out (path? value) }

/-- The draft in which no option waits for values. -/
def settle (draft : Draft) : Except UsageError Draft :=
  match draft.pending with
  | none => .ok draft
  | some (setting, values) => { draft with pending := none }.take setting values

def switch (draft : Draft) : Switch → Except UsageError Draft
  | .help => .error .help
  | .ndjson =>
    if draft.selection.byLine then .error .conflict
    else .ok { draft with selection := { draft.selection with byLine := true } }
  | .namedImports =>
    if draft.namedImports then .error .conflict else .ok { draft with namedImports := true }

/-- A setting whose value is attached to it, or follows. -/
def set (draft : Draft) (setting : Setting) (attached : Option String) :
    Except UsageError Draft := do
  let draft ← draft.settle
  match attached with
  | some value => draft.take setting [value]
  | none => return { draft with pending := some (setting, []) }

def long (draft : Draft) (name : String) (value : Option String) : Except UsageError Draft :=
  match Setting.ofLong? name, Switch.ofLong? name, value with
  | some setting, _, _ => draft.set setting value
  | none, some _, some _ => .error .tooManyValues
  | none, some switch, none => do (← draft.settle).switch switch
  | none, none, _ => .error .unknownArgument

/-- A short option has its value directly behind it, or behind an equals sign. -/
def short (draft : Draft) (name : Char) (attached : List Char) : Except UsageError Draft :=
  match Setting.ofShort? name, Switch.ofShort? name with
  | some setting, _ =>
    draft.set setting
      (match attached with
      | [] => none
      | '=' :: value => some (.ofList value)
      | value => some (.ofList value))
  | none, some switch => do (← draft.settle).switch switch
  | none, none => .error .unknownArgument

/-- A word is a value of the option before it. Only inputs take more than one. -/
def word (draft : Draft) (text : String) : Except UsageError Draft :=
  match draft.pending with
  | some (.input, values) => .ok { draft with pending := some (.input, values ++ [text]) }
  | some (setting, []) => .ok { draft with pending := some (setting, [text]) }
  | _ => .error .unknownArgument

def scan (draft : Draft) : List String → Except UsageError Draft
  | [] => draft.settle
  | text :: rest =>
    match Argument.ofText text with
    | .dashes => if rest.isEmpty then draft.settle else .error .unknownArgument
    | .long name value => do (← draft.long name value).scan rest
    | .short name attached => do (← draft.short name attached).scan rest
    | .word => do (← draft.word text).scan rest

/-- The command that a draft makes up. -/
def command (draft : Draft) (action : Action) : Except UsageError Command :=
  if draft.inputs.isEmpty then .error .missingInput
  else
    .ok
      { action
        inputs := draft.inputs
        selection := draft.selection
        config := draft.config
        tagField := draft.tagField
        namedImports := draft.namedImports
        onSkip := draft.onSkip.getD .warn
        out := draft.out }

end Draft

def Action.ofName? : String → Option Action
  | "generate" => some .generate
  | "inspect" => some .inspect
  | _ => none

def isSubcommand (name : String) : Bool := name = "help" || (Action.ofName? name).isSome

/-- What is asked for behind the word `help`. -/
def helpOn : List String → UsageError
  | [] => .help
  | [name] => if isSubcommand name then .help else .invalidSubcommand
  | _ => .invalidSubcommand

/-- Why an argument in front of a subcommand is none. -/
def misplaced (text : String) : UsageError :=
  match Argument.ofText text with
  | .long name value =>
    match name, value with
    | "help", none => .help
    | "help", some _ => .tooManyValues
    | _, _ => .unknownArgument
  | .short 'h' _ => .help
  | .short .. => .unknownArgument
  | .dashes | .word => .invalidSubcommand

/-- The command that arguments make up. -/
def Command.ofArguments : List String → Except UsageError Command
  | [] => .error .nothingGiven
  | "help" :: rest => .error (helpOn rest)
  | ["--"] => .error .nothingGiven
  | "--" :: text :: _ =>
    .error (if isSubcommand text then .unknownArgument else .invalidSubcommand)
  | text :: rest =>
    match Action.ofName? text with
    | some action => do (← ({} : Draft).scan rest).command action
    | none => .error (misplaced text)

end CommandLine

end DecoderForge
