/-
This file holds the texts by which files are named, and why a file that is named cannot be used.
-/

import DecoderForge.Text.Split

namespace DecoderForge

/-- Why a file cannot be used. -/
inductive FileError where
  | missing
  | alreadyThere
  | notDirectory
  | isDirectory
  | nameTooLong
  /-- The zero character ends a name. -/
  | zeroInName
  /-- The bytes of a file are not those of a text. -/
  | notText
deriving Repr, DecidableEq

def FileError.message : FileError → String
  | .missing => "No such file or directory (os error 2)"
  | .alreadyThere => "File exists (os error 17)"
  | .notDirectory => "Not a directory (os error 20)"
  | .isDirectory => "Is a directory (os error 21)"
  | .nameTooLong => "File name too long (os error 36)"
  | .zeroInName => "file name contained an unexpected NUL byte"
  | .notText => "stream did not contain valid UTF-8"

namespace Path

/-- The pieces of a path, which are separated by slashes. -/
def pieces (path : String) : List String := Text.split '/' path

/-- A piece that leads from a directory to the same directory. -/
def isIdle (piece : String) : Bool := piece = "" || piece = "."

/-- A path that begins with a slash leads from the root. -/
def isRooted (path : String) : Bool :=
  match pieces path with
  | "" :: _ :: _ => true
  | _ => false

/-- Whether a path is a single name, apart from what is idle behind it. -/
def isOnly (name path : String) : Bool :=
  match pieces path with
  | first :: rest => first = name && rest.all isIdle
  | [] => false

def join (directory name : String) : String :=
  if directory.endsWith "/" then directory ++ name else directory ++ "/" ++ name

/-- The paths in front of the pieces of a path, whose first piece and other pieces backwards are
given: the whole path first, and each path without what is idle at its end. -/
def lineageFrom (first : String) : List String → List String
  | [] => [if first = "" then "/" else first]
  | piece :: before =>
    if isIdle piece then lineageFrom first before
    else "/".intercalate (first :: (piece :: before).reverse) :: lineageFrom first before

/-- A path and those of the directories around it, from the inside to the outside. -/
def lineage (path : String) : List String :=
  match pieces path with
  | [] => []
  | first :: rest => lineageFrom first rest.reverse

end Path

end DecoderForge
