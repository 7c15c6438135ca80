/-
This file proves that no file is touched where directories are made.
-/

import DecoderForge.FileTree.Write
import DecoderForge.Proofs.Loading.Result

namespace DecoderForge

namespace FileNode

def content? : FileNode → Option ByteArray
  | .file content => some content
  | .directory _ => none

/-- The content of the file to which names lead, if they lead to one. -/
def fileAt? (place : List String) (node : FileNode) : Option ByteArray :=
  (node.at? place).bind content?

theorem get?_insert (name other : String) (node : FileNode) (entries : List (String × FileNode)) :
    Entries.get? other (insert name node entries) =
      if name = other then some node else Entries.get? other entries := by
  induction entries with
  | nil => rfl
  | cons entry rest ih =>
    by_cases same : entry.1 = name
    · by_cases wanted : name = other <;> simp [insert, Entries.get?, same, wanted]
    · by_cases before : name < entry.1
      · simp [insert, Entries.get?, same, before]
      · by_cases wanted : name = other
        · subst wanted
          simp [insert, Entries.get?, same, before, ih]
        · simp [insert, Entries.get?, same, before, ih, wanted]

@[simp] theorem fileAt?_empty (place : List String) : fileAt? place (.directory []) = none := by
  cases place <;> rfl

/-- Behind a name in a directory lies what lies in the node under the name. -/
theorem fileAt?_directory (name : String) (place : List String)
    (entries : List (String × FileNode)) :
    fileAt? (name :: place) (.directory entries) =
      (Entries.get? name entries).bind (fileAt? place) := by
  exact Option.bind_assoc _ _ _

/-- A new directory, with those that are missing on the way to it, has no files and takes none
away. -/
theorem fileAt?_put_directory (place names : List String) (node : FileNode)
    (absent : node.at? names = none) :
    fileAt? place (put (.directory []) names node) = fileAt? place node := by
  induction names generalizing place node with
  | nil => exact absurd absent (Option.some_ne_none node)
  | cons name rest ih =>
    cases node with
    | file content => rfl
    | directory entries =>
      cases place with
      | nil => rfl
      | cons other place =>
        rw [put, fileAt?_directory, fileAt?_directory, get?_insert]
        split
        · next same =>
          subst same
          change (Entries.get? name entries).bind (at? rest) = none at absent
          cases found : Entries.get? name entries with
          | some inner =>
            rw [found] at absent
            exact ih place inner absent
          | none =>
            rw [Option.bind_some, Option.bind_none, Option.getD_none]
            -- The directory under the name is new, and so is everything that is made in it.
            cases rest with
            | nil => exact fileAt?_empty place
            | cons next rest =>
              have inside := ih place default rfl
              exact inside.trans (fileAt?_empty place)
        · rfl

end FileNode

namespace FileTree

/-- Two trees have the same files at the same places. -/
def SameFiles (a b : FileTree) : Prop := ∀ place, a.root.fileAt? place = b.root.fileAt? place

theorem SameFiles.refl (tree : FileTree) : tree.SameFiles tree := fun _ => rfl

theorem SameFiles.trans {a b c : FileTree} (first : a.SameFiles b) (second : b.SameFiles c) :
    a.SameFiles c := fun place => (first place).trans (second place)

theorem makeDirectory_sameFiles {tree made : FileTree} {path : String}
    (success : tree.makeDirectory path = .ok made) : made.SameFiles tree := by
  obtain ⟨target, _, success⟩ := Except.step_eq_ok_iff.mp success
  cases target with
  | none => contradiction
  | some target =>
    obtain ⟨place, name⟩ := target
    cases absent : tree.root.at? (place ++ [name]) with
    | some node => simp [absent] at success
    | none =>
      simp only [absent, Except.pure_eq_ok_iff] at success
      subst success
      intro place
      exact FileNode.fileAt?_put_directory place _ tree.root absent

theorem settle_sameFiles {tree : FileTree} {path : String} {result : Except FileError FileTree}
    (success : ∀ made, result = .ok made → made.SameFiles tree) :
    (makeLineage.settle tree path result).1.SameFiles tree := by
  cases result with
  | ok made => exact success made rfl
  | error e => exact .refl tree

/-- Directories that are made on the way to a file leave the files as they are, whether or not all
of them can be made. -/
theorem makeLineage_sameFiles (tree : FileTree) (paths : List String) :
    (tree.makeLineage paths).1.SameFiles tree := by
  induction paths with
  | nil => exact .refl tree
  | cons path around ih =>
    unfold makeLineage
    split
    · next made success => exact makeDirectory_sameFiles success
    · split
      · next around made =>
        have before : around.SameFiles tree := by simpa [made] using ih
        exact (settle_sameFiles fun _ => makeDirectory_sameFiles).trans before
      · next around e made => simpa [made] using ih
    · exact settle_sameFiles nofun

end FileTree

end DecoderForge
