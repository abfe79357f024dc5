import FragmentLint.Dialect
import FragmentLint.Text

/-!
Contract: paths of files, and what can be told from a path alone.

A path is kept as it was spelled. Its parts are what stands between slashes; empty parts and single
dots say nothing, and two dots are no name.

Owns: the parts of a path, its file name and extension, and the dialect of a file.
Does not own: whether there is such a file.
-/

namespace FragmentLint

namespace Text

/-- The pieces of a text between the places where a mark stands. -/
def splitAt (mark : Char) : Text → List Text
  | [] => [[]]
  | c :: rest =>
    if c == mark then [] :: splitAt mark rest
    else
      match splitAt mark rest with
      | [] => [[c]]
      | first :: others => (c :: first) :: others

def joinWith (mark : Char) : List Text → Text
  | [] => []
  | [only] => only
  | first :: second :: rest => first ++ mark :: joinWith mark (second :: rest)

theorem splitAt_ne_nil (mark : Char) (text : Text) : splitAt mark text ≠ [] := by
  cases text with
  | nil => simp [splitAt]
  | cons c rest =>
    unfold splitAt
    split
    · simp
    · split <;> simp

end Text

namespace Path

/-- Whether a path starts at the root of all files. -/
def isAbsolute (path : Text) : Bool := path.head? == some '/'

def isIdle (part : Text) : Bool := part == [] || part == ['.']

/-- The part of a path that leads to the directory above. -/
def above : Text := ['.', '.']

def parts (path : Text) : List Text := (Text.splitAt '/' path).filter (!isIdle ·)

/-- The name of the file or directory that a path leads to, unless the path ends upwards. -/
def fileName? (path : Text) : Option Text := (parts path).getLast?.filter (· != above)

/-- What stands behind the last dot of a name; `none` if there is no dot, or none but the first
character. -/
def extensionOfName? (name : Text) : Option Text :=
  match (Text.splitAt '.' name).reverse with
  | [] => none
  | [_] => none
  | [_, []] => none
  | last :: _ => some last

/-- The extension of the file that a path leads to. -/
def extension? (path : Text) : Option Text := (fileName? path).bind extensionOfName?

/-- The path of something in a directory; one slash divides the two. -/
def child (directory name : Text) : Text :=
  if directory.getLast? == some '/' then directory ++ name else directory ++ '/' :: name

end Path

namespace Dialect

/-- The extensions of files that may hold markup, with their dialects. In other files a name in
angle brackets may be a type. -/
def extensions : List (Text × Dialect) := [
  ("js".toList, .javascript), ("jsx".toList, .javascript), ("mjs".toList, .javascript),
  ("cjs".toList, .javascript), ("tsx".toList, .tsx)]

/-- The dialect of the file that a path leads to; `none` if it cannot hold markup. -/
def ofPath? (path : Text) : Option Dialect :=
  (Path.extension? path).bind fun extension => extensions.lookup extension

end Dialect

end FragmentLint
