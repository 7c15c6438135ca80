/-
This file holds trees of files: where a path leads in a tree, and what can be read there.
-/

import DecoderForge.Entries
import DecoderForge.FileTree.Path

namespace DecoderForge

/-- A file with its content, or a directory with its entries in the order of their names. -/
inductive FileNode where
  | file (content : ByteArray)
  | directory (entries : List (String × FileNode))

namespace FileNode

instance : Inhabited FileNode := ⟨.directory []⟩

def isDirectory : FileNode → Bool
  | .directory _ => true
  | .file _ => false

def entries : FileNode → List (String × FileNode)
  | .directory entries => entries
  | .file _ => []

/-- The node to which names lead. -/
def at? : List String → FileNode → Option FileNode
  | [], node => some node
  | name :: rest, node => (Entries.get? name node.entries).bind (at? rest)

/-- Puts a node under a name, in the order of the names. -/
def insert (name : String) (node : FileNode) : List (String × FileNode) → List (String × FileNode)
  | [] => [(name, node)]
  | entry :: rest =>
    if entry.1 = name then (name, node) :: rest
    else if name < entry.1 then (name, node) :: entry :: rest
    else entry :: insert name node rest

/-- Puts a node where names lead. A directory that is missing on the way is made; behind a file
there is no way. -/
def put (node : FileNode) : List String → FileNode → FileNode
  | [], _ => node
  | _ :: _, .file content => .file content
  | name :: rest, .directory entries =>
    .directory (insert name (put node rest ((Entries.get? name entries).getD default)) entries)

mutual

/-- The files at and below a node, each with the names that lead to it. -/
def files : FileNode → List (List String × ByteArray)
  | .file content => [([], content)]
  | .directory entries => filesOf entries

def filesOf : List (String × FileNode) → List (List String × ByteArray)
  | [] => []
  | (name, node) :: rest =>
    (node.files.map fun (names, content) => (name :: names, content)) ++ filesOf rest

end

mutual

/-- The directories at and below a node, each behind the one around it. -/
def directories : FileNode → List (List String)
  | .file _ => []
  | .directory entries => [] :: directoriesOf entries

def directoriesOf : List (String × FileNode) → List (List String)
  | [] => []
  | (name, node) :: rest => (node.directories.map fun names => name :: names) ++ directoriesOf rest

end

end FileNode

/-- A tree of files, and the names that lead from its root to the directory from which paths lead
that are not rooted. -/
structure FileTree where
  root : FileNode
  here : List String

namespace FileTree

/-- The number of bytes that a name has at most. -/
def longestName : Nat := 255

/-- The number of bytes that a path has at most. -/
def longestPath : Nat := 4095

/-- The names that pieces add to those of a place. Every piece starts from a directory. -/
def walk (root : FileNode) (place : List String) :
    List String → Except FileError (List String)
  | [] => .ok place
  | piece :: rest =>
    match root.at? place with
    | some (.directory entries) =>
      if Path.isIdle piece then walk root place rest
      else if piece = ".." then walk root place.dropLast rest
      else if longestName < piece.utf8ByteSize then .error .nameTooLong
      else if (Entries.get? piece entries).isSome then walk root (place ++ [piece]) rest
      else .error .missing
    | _ => .error .notDirectory

/-- The place from which a path leads, if it can be the path of anything. -/
def start (tree : FileTree) (path : String) : Except FileError (List String) :=
  if path.toList.contains '\x00' then .error .zeroInName
  else if path = "" then .error .missing
  else if longestPath < path.utf8ByteSize then .error .nameTooLong
  else .ok (if Path.isRooted path then [] else tree.here)

/-- The node to which a path leads. -/
def node (tree : FileTree) (path : String) : Except FileError FileNode := do
  let place ← walk tree.root (← tree.start path) (Path.pieces path)
  match tree.root.at? place with
  | some node => return node
  | none => throw .missing

def has (tree : FileTree) (path : String) : Bool := (tree.node path).toOption.isSome

def hasDirectory (tree : FileTree) (path : String) : Bool :=
  (tree.node path).toOption.any FileNode.isDirectory

/-- The content of the file to which a path leads. -/
def read (tree : FileTree) (path : String) : Except FileError ByteArray := do
  match ← tree.node path with
  | .file content => return content
  | .directory _ => throw .isDirectory

/-- The entries of the directory to which a path leads. -/
def list (tree : FileTree) (path : String) : List (String × FileNode) :=
  match tree.node path with
  | .ok node => node.entries
  | .error _ => []

end FileTree

end DecoderForge
