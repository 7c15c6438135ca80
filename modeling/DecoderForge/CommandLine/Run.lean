/-
This file runs commands on a tree of files.
-/

import DecoderForge.CommandLine.Input
import DecoderForge.FileTree.Write
import DecoderForge.Loading.Settings
import DecoderForge.TypeScript.Printer

namespace DecoderForge

namespace CommandLine

open Loading

/-- Why a command fails. -/
inductive CommandError where
  | configuration (cause : RunError)
  | declarations (cause : RunError)
  | skipped (count : Nat)
  | uncreated (directory : String) (cause : FileError)
  | unwritten (path : String) (cause : FileError)
deriving Repr

/-- What failed, and what caused it, from the outside to the inside. -/
def CommandError.chain : CommandError → List String
  | .configuration cause => "failed to load configuration" :: cause.chain
  | .declarations cause => "failed to load declarations" :: cause.chain
  | .skipped count => (RunError.skippedNodes count).chain
  | .uncreated directory cause => ["failed to create " ++ directory, cause.message]
  | .unwritten path cause => ["failed to write " ++ path, cause.message]

/-- What a run leaves behind. -/
structure Outcome where
  events : List Event
  failure : Option CommandError
  /-- What is written to the standard output. -/
  output : String
  /-- The lines that are written to the standard error. -/
  notes : List String
  tree : FileTree

namespace Outcome

/-- The status with which a program ends. -/
def exitCode (outcome : Outcome) : Nat := if outcome.failure.isSome then 1 else 0

/-- A run that fails and gives nothing out. -/
def failed (tree : FileTree) (events : List Event) (notes : List String) (failure : CommandError) :
    Outcome :=
  ⟨events, some failure, "", notes, tree⟩

end Outcome

/-- The events of compiling one declaration. -/
def compilation (declaration : Declaration) (result : Except SkipReason DecoderExpr) : Event :=
  let binding := decoderName declaration.name
  match result with
  | .ok _ => .compiled binding
  | .error reason => .leftUninitialized binding reason

/-- The events of generating a module. -/
def generation (config : CompileConfig) (source : SourceModule) (m : GeneratedModule) :
    List Event :=
  let count := source.declarations.length
  source.declarations.zipWith compilation (Generate.run config source).2 ++
    [.assembled count m.usage.size m.diagnostics.length, .generated count m.skipCount]

namespace SkipPolicy

/-- The diagnostics of which something is said. -/
def reports (policy : SkipPolicy) (m : GeneratedModule) : List Diagnostic :=
  match policy with
  | .ignore => []
  | .warn | .deny => m.diagnostics

/-- A line on all the diagnostics, if there are any. -/
def notes (policy : SkipPolicy) (m : GeneratedModule) : List String :=
  let reports := policy.reports m
  if reports.isEmpty then [] else [Diagnostic.summary .plain reports]

def allows (policy : SkipPolicy) (m : GeneratedModule) : Bool :=
  policy ≠ .deny || m.skipCount = 0

end SkipPolicy

namespace Command

/-- The settings that the configuration and the options make up. -/
def settings (command : Command) (contents : Contents) : Loaded CompileConfig := do
  let base ←
    match command.config with
    | none => pure {}
    | some path => do
      let text ← decodeText path (contents path)
      (loadText Reader.config text).mapError (.inFile path)
  return base.override command.tagField command.namedImports

/-- What a command makes of a module. -/
def render (command : Command) (m : GeneratedModule) : String :=
  match command.action with
  | .generate => TypeScript.render m
  | .inspect => m.toJson.pretty

/-- Writes a file, and the directories around it that are missing. Directories are made also where
the file cannot be written. -/
def save (tree : FileTree) (path text : String) : FileTree × Option CommandError :=
  let around := (Path.lineage path).tail
  match tree.makeLineage around with
  | (tree, some e) => (tree, some (.uncreated (around.headD "") e))
  | (tree, none) =>
    match tree.write path text.toUTF8 with
    | .ok written => (written, none)
    | .error e => (tree, some (.unwritten path e))

/-- Brings a text to where the command says. -/
def deliver (command : Command) (tree : FileTree) (events : List Event) (notes : List String)
    (text : String) : Outcome :=
  match command.out with
  | none => ⟨events, none, text, notes, tree⟩
  | some path =>
    match save tree path text with
    | (tree, some failure) => .failed tree events notes failure
    | (tree, none) => ⟨events, none, "", notes ++ ["wrote " ++ path], tree⟩

/-- The declarations in all inputs of a command. -/
def load (command : Command) (evaluate : Evaluator) (tree : FileTree) (standardInput : ByteArray) :
    List Event × Loaded (List Declaration) :=
  match allInputPaths tree command.inputs with
  | .error e => ([], .error e)
  | .ok paths => loadInputs command.selection evaluate tree.read standardInput paths

/-- Generates a module and brings it to where the command says, unless too much was skipped. -/
def produce (command : Command) (tree : FileTree) (config : CompileConfig) (loading : List Event)
    (source : SourceModule) : Outcome :=
  let m := Generate.module config source
  let policy := command.onSkip
  let events := loading ++ generation config source m ++ (policy.reports m).map .reported
  if policy.allows m then
    command.deliver tree events (policy.notes m) (command.render m)
  else .failed tree events (policy.notes m) (.skipped m.skipCount)

/-- Runs a command on a tree of files. -/
def run (command : Command) (evaluate : Evaluator) (tree : FileTree) (standardInput : ByteArray) :
    Outcome :=
  match command.settings tree.read with
  | .error e => .failed tree [] [] (.configuration e)
  | .ok config =>
    match command.load evaluate tree standardInput with
    | (loading, .error e) => .failed tree loading [] (.declarations e)
    | (loading, .ok declarations) => command.produce tree config loading ⟨declarations⟩

end Command

/-- Runs the command that arguments make up. -/
def runArguments (evaluate : Evaluator) (arguments : List String) (tree : FileTree)
    (standardInput : ByteArray) : Except UsageError Outcome := do
  return (← Command.ofArguments arguments).run evaluate tree standardInput

/-- What is seen of the program when it has ended. -/
structure Ending where
  exitCode : Nat
  /-- What is on the standard output. -/
  output : String
  tree : FileTree

/-- How the program ends. Arguments that make up no command do not touch the files. -/
def ending (evaluate : Evaluator) (arguments : List String) (tree : FileTree)
    (standardInput : ByteArray) : Ending :=
  match runArguments evaluate arguments tree standardInput with
  | .error e => ⟨e.exitCode, e.output, tree⟩
  | .ok outcome => ⟨outcome.exitCode, outcome.output, outcome.tree⟩

end CommandLine

end DecoderForge
