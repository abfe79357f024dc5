import FragmentLint.File.Path

/-!
Contract: directories and files, finding what a path leads to, and reading it.

Owns: file trees, the place from which relative paths start, and the reasons why a file cannot be
read.
Does not own: symbolic links, permissions, or changes to files.
-/

namespace FragmentLint

/-- A file with its bytes, or a directory with its entries by name. -/
inductive FileTree where
  | file (content : ByteArray)
  | directory (entries : List (Text × FileTree))
deriving Inhabited

/-- Why a file cannot be read. -/
inductive FileError where
  | notFound
  | notDirectory
  | isDirectory
  | notText
deriving DecidableEq, Repr, Inhabited

namespace FileError

def message : FileError → String
  | notFound => "No such file or directory (os error 2)"
  | notDirectory => "Not a directory (os error 20)"
  | isDirectory => "Is a directory (os error 21)"
  | notText => "stream did not contain valid UTF-8"

end FileError

namespace FileTree

def emptyDirectory : FileTree := directory []

def isDirectory : FileTree → Bool
  | file _ => false
  | directory _ => true

def text? : FileTree → Except FileError Text
  | directory _ => .error .isDirectory
  | file content =>
    match String.fromUTF8? content with
    | some text => .ok text.toList
    | none => .error .notText

/-- The entries of a directory without those of a name. -/
def without (name : Text) (entries : List (Text × FileTree)) : List (Text × FileTree) :=
  entries.filter (·.1 != name)

/-- A tree with another one put in at the end of a list of names; directories are made on the
way. -/
def insert (new : FileTree) : (names : List Text) → FileTree → FileTree
  | [], _ => new
  | name :: names, directory entries =>
    let old := (entries.lookup name).getD emptyDirectory
    directory (without name entries ++ [(name, insert new names old)])
  | name :: names, file _ => directory [(name, insert new names emptyDirectory)]

end FileTree

/-- All files, and the directory in which relative paths start. -/
structure Disk where
  root : FileTree
  /-- The names that lead from the root to the directory in which relative paths start. -/
  working : List Text

namespace Disk

def empty : Disk := ⟨.emptyDirectory, []⟩

/-- Follows the parts of a path, from a place with the directories above it, nearest first. -/
def follow : (place : FileTree) → (directories : List FileTree) → List Text →
    Except FileError FileTree
  | place, _, [] => .ok place
  | .file _, _, _ :: _ => .error .notDirectory
  | .directory entries, directories, part :: rest =>
    if Path.isIdle part then follow (.directory entries) directories rest
    else if part == Path.above then
      match directories with
      | [] => follow (.directory entries) [] rest
      | nearest :: others => follow nearest others rest
    else
      match entries.lookup part with
      | none => .error .notFound
      | some next => follow next (.directory entries :: directories) rest

/-- What a path leads to. An empty path leads nowhere. -/
def find? (disk : Disk) (path : Text) : Except FileError FileTree :=
  if path.isEmpty then .error .notFound
  else if Path.isAbsolute path then follow disk.root [] (Text.splitAt '/' path)
  else follow disk.root [] (disk.working ++ Text.splitAt '/' path)

def read (disk : Disk) (path : Text) : Except FileError Text := do
  let found ← disk.find? path
  found.text?

end Disk

end FragmentLint
