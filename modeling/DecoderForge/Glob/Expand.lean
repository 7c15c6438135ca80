/-
This file finds the paths in a tree of files that a pattern matches, in the order of the names on
the way to them.
-/

import DecoderForge.FileTree.Basic
import DecoderForge.Glob.Pattern

namespace DecoderForge

namespace Glob

/-- Something that was found under a directory. -/
structure Found where
  path : String
  name : String
  node : FileNode

/-- The path of an entry of a directory. In the current directory it is the entry's name alone. -/
def entryPath (directory name : String) : String :=
  if Path.isOnly "." directory then name else Path.join directory name

mutual

/-- Everything below a directory: each entry and then what is below it. -/
def belowNode (path : String) : FileNode → List Found
  | .file _ => []
  | .directory entries => belowEntries path entries

def belowEntries (path : String) : List (String × FileNode) → List Found
  | [] => []
  | (name, node) :: rest =>
    ⟨entryPath path name, name, node⟩ :: belowNode (entryPath path name) node ++
      belowEntries path rest

end

def below (tree : FileTree) (path : String) : List Found :=
  match tree.node path with
  | .ok node => belowNode path node
  | .error _ => []

/-- The dotted names that a part matches, which are never found among the entries of a directory.
Only a part that begins with a dot matches them. -/
def dots (tokens : List Token) : List String :=
  match tokens with
  | .char '.' :: _ => ["..", "."].filter fun name => Token.matchAll tokens name.toList
  | _ => []

/-- The paths to which the parts of a pattern lead from a path. -/
def expandFrom (tree : FileTree) : List Part → String → List String
  | [], path => [path]
  | .name text :: rest, path =>
    let next := if Path.isOnly "." path then text else Path.join path text
    let there := if text = "." || text = ".." then tree.hasDirectory path else tree.has next
    if there then expandFrom tree rest next else []
  | .wild tokens :: rest, path =>
    if tree.hasDirectory path then
      let entries := (tree.list path).map Prod.fst
      (dots tokens).flatMap (fun name => expandFrom tree rest (Path.join path name)) ++
        (entries.filter fun name => Token.matchAll tokens name.toList).flatMap fun name =>
          expandFrom tree rest (entryPath path name)
    else []
  | [.anyDepth], path => ((below tree path).filter (·.node.isDirectory)).map Found.path
  | .anyDepth :: part :: rest, path =>
    ((below tree path).filter fun found => part.matchesName found.name).flatMap fun found =>
      expandFrom tree rest found.path

/-- The pieces of a pattern behind its root, without the empty one behind a slash at the end. -/
def partTexts (pattern : String) : List String :=
  let pieces := Path.pieces pattern
  let pieces := if Path.isRooted pattern then pieces.tail else pieces
  if pieces.getLast? = some "" then pieces.dropLast else pieces

/-- The paths that a pattern matches. A slash at its end asks for directories. -/
def expand (tree : FileTree) (pattern : String) : Except PatternError (List String) := do
  let _ ← tokens pattern
  let parts ← (partTexts pattern).mapM Part.ofText
  let paths := expandFrom tree (Part.merge parts) (if Path.isRooted pattern then "/" else ".")
  return if pattern.endsWith "/" then paths.filter tree.hasDirectory else paths

end Glob

end DecoderForge
