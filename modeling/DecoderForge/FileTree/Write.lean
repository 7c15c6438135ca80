/-
This file changes trees of files: it makes directories, writes files, and says which files and
directories differ between two trees.
-/

import DecoderForge.FileTree.Basic

namespace DecoderForge

namespace FileTree

/-- The directory and the name that a path gives to something that need not be there. A path that
ends with dots, and the path of the root, give no name. -/
def target (tree : FileTree) (path : String) :
    Except FileError (Option (List String × String)) := do
  let place ← tree.start path
  match (Path.pieces path).reverse.dropWhile (· = "") with
  | [] => return none
  | name :: before =>
    let place ← walk tree.root place before.reverse
    match tree.root.at? place with
    | some (.directory _) =>
      if name = "." || name = ".." then return none
      else if longestName < name.utf8ByteSize then throw .nameTooLong
      else return some (place, name)
    | _ => throw .notDirectory

/-- The tree with a node at a place. -/
def put (tree : FileTree) (place : List String) (node : FileNode) : FileTree :=
  { tree with root := FileNode.put node place tree.root }

/-- A tree without files. -/
def empty (here : List String) : FileTree := ⟨FileNode.put (.directory []) here default, here⟩

/-- Makes a directory in one that is there. -/
def makeDirectory (tree : FileTree) (path : String) : Except FileError FileTree := do
  match ← tree.target path with
  | none => throw .alreadyThere
  | some (place, name) =>
    match tree.root.at? (place ++ [name]) with
    | some _ => throw .alreadyThere
    | none => return tree.put (place ++ [name]) (.directory [])

/-- Makes the first of the directories in a lineage, after the others where one is missing. That it
is there already is no failure. Those that are made remain, also where another one cannot be. -/
def makeLineage (tree : FileTree) : List String → FileTree × Option FileError
  | [] => (tree, none)
  | path :: around =>
    match tree.makeDirectory path with
    | .ok made => (made, none)
    | .error .missing =>
      match tree.makeLineage around with
      | (tree, none) => settle tree path (tree.makeDirectory path)
      | (tree, some e) => (tree, some e)
    | .error e => settle tree path (.error e)
where
  settle (tree : FileTree) (path : String) : Except FileError FileTree → FileTree × Option FileError
    | .ok made => (made, none)
    | .error e => (tree, if tree.hasDirectory path then none else some e)

/-- Writes a file in a directory that is there. -/
def write (tree : FileTree) (path : String) (content : ByteArray) : Except FileError FileTree := do
  match ← tree.target path with
  | none => throw .isDirectory
  | some (place, name) =>
    if path.endsWith "/" then throw .isDirectory
    match tree.root.at? (place ++ [name]) with
    | some (.directory _) => throw .isDirectory
    | _ => return tree.put (place ++ [name]) (.file content)

/-- The files of a tree that are not in an earlier one or have another content there. -/
def changes (earlier later : FileTree) : List (List String × ByteArray) :=
  later.root.files.filter fun (place, content) =>
    match earlier.root.at? place with
    | some (.file old) => !(old.data == content.data)
    | _ => true

/-- The directories of a tree that are not in an earlier one. -/
def newDirectories (earlier later : FileTree) : List (List String) :=
  later.root.directories.filter fun place =>
    match earlier.root.at? place with
    | some (.directory _) => false
    | _ => true

end FileTree

end DecoderForge
