/-
This file is the program. It shows a command the files of the machine as a tree, runs it on the
tree, and carries out what the run leaves behind.
-/

import DecoderForge.CommandLine.Run
import DecoderForge.Filter.Run

namespace DecoderForge

namespace CommandLine

namespace Machine

/-- Whether a path leads to a directory, if it leads anywhere. -/
def directory? (path : String) : IO (Option Bool) := do
  try
    let found ← IO.FS.realPath path
    if ← found.pathExists then return some (← found.isDir) else return none
  catch _ => return none

/-- The names of the entries of a directory. -/
def entryNames (path : String) : IO (List String) := do
  let found ← IO.FS.realPath path
  return (← found.readDir).toList.map (·.fileName)

/-- The tree with the directory or the file to which a path leads. -/
def place (tree : FileTree) (path : String) (content : IO ByteArray) : IO FileTree := do
  match ← directory? path with
  | some true => return (tree.makeDirectory path).toOption.getD tree
  | some false => return (tree.write path (← content)).toOption.getD tree
  | none => return tree

/-- The tree with what lies at a path and on the way to it. -/
def survey (tree : FileTree) (path : String) : IO FileTree :=
  (Path.lineage path).reverse.foldlM (fun tree way => place tree way (IO.FS.readBinFile way)) tree

/-- The tree with what lies below a directory, up to a depth. Files are left empty. -/
def explore : Nat → FileTree → String → IO FileTree
  | 0, tree, _ => return tree
  | depth + 1, tree, path => do
    if (← directory? path) != some true then return tree
    (← entryNames path).foldlM
      (fun tree name => do
        let entry := Path.join path name
        explore depth (← place tree entry (pure .empty)) entry)
      tree

/-- How far below a directory files are looked for. -/
def deepest : Nat := 64

/-- The tree with what a pattern can match. -/
def explorePattern (tree : FileTree) (pattern : String) : IO FileTree := do
  let parts := Glob.partTexts pattern
  let root := if Path.isRooted pattern then "/" else "."
  let scope := (parts.takeWhile fun part => !Glob.isPattern part).foldl Path.join root
  let depth := if parts.contains "**" then deepest else parts.length
  explore depth (← survey tree scope) scope

/-- The part of the machine's files with which a command has to do. -/
def treeFor (command : Command) : IO FileTree := do
  let here := (Path.pieces (← IO.currentDir).toString).filter fun piece => !Path.isIdle piece
  let shape ← (command.inputs.filter Glob.isPattern).foldlM explorePattern (FileTree.empty here)
  let inputs := (allInputPaths shape command.inputs).toOption.getD command.inputs
  let paths := command.config.toList ++ inputs ++ command.out.toList
  paths.foldlM survey shape

/-- The standard input, if a command reads it. -/
def standardInputFor (command : Command) (tree : FileTree) : IO ByteArray := do
  let inputs := (allInputPaths tree command.inputs).toOption.getD []
  if inputs.any isStandardInput then (← IO.getStdin).readBinToEnd else return .empty

/-- Makes the directories that a run has made, and writes the files that it has changed. -/
def carryOut (earlier later : FileTree) : IO Unit := do
  (FileTree.newDirectories earlier later).forM fun place =>
    IO.FS.createDirAll ("/" ++ "/".intercalate place)
  (FileTree.changes earlier later).forM fun (place, content) =>
    IO.FS.writeBinFile ("/" ++ "/".intercalate place) content

/-- Runs a command on the machine's files, and gives the status with which the program ends. -/
def run (command : Command) : IO UInt32 := do
  let tree ← treeFor command
  let outcome := command.run Filter.evaluate tree (← standardInputFor command tree)
  (Event.lines .info outcome.events).forM IO.eprintln
  carryOut tree outcome.tree
  outcome.notes.forM IO.eprintln
  IO.print outcome.output
  (outcome.failure.toList.flatMap CommandError.chain).forM IO.eprintln
  return outcome.exitCode.toUInt32

end Machine

end CommandLine

end DecoderForge

def main (arguments : List String) : IO UInt32 :=
  match DecoderForge.CommandLine.Command.ofArguments arguments with
  | .ok command => DecoderForge.CommandLine.Machine.run command
  | .error e => do
    e.notes.forM IO.eprintln
    IO.print e.output
    return e.exitCode.toUInt32
