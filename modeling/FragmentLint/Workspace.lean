import FragmentLint.Editor.Document
import FragmentLint.File.Tree

/-!
Contract: the files of a workspace that can hold markup, and checking them.

A file is found if it lies at the root or below it, its extension is known, and no directory between
the two has a name under which other people's or generated files are kept. Of these files only
those with an absolute path and readable text are checked.

Owns: finding, reading and checking files.
Does not own: which documents are open.
-/

namespace FragmentLint.Workspace

def skippedDirectories : List Text :=
  ["node_modules".toList, ".git".toList, "dist".toList, "build".toList, "target".toList]

/-- Whether an entry that was found at a depth below the root is not entered. The root, at depth 0,
always is. -/
def isSkipped (depth : Nat) (name : Text) (tree : FileTree) : Bool :=
  0 < depth && tree.isDirectory && skippedDirectories.contains name

mutual
/-- The paths of the files that can hold markup, at a path that was found at a depth. -/
def filesAt (depth : Nat) (path : Text) : FileTree → List Text
  | .file _ => if (Dialect.ofPath? path).isSome then [path] else []
  | .directory entries => filesIn (depth + 1) path entries

/-- The paths of the files that can hold markup, below the entries of a directory, which were found
at a depth. -/
def filesIn (depth : Nat) (path : Text) : List (Text × FileTree) → List Text
  | [] => []
  | (name, tree) :: rest =>
    (if isSkipped depth name tree then [] else filesAt depth (Path.child path name) tree)
      ++ filesIn depth path rest
end

/-- The paths of the files at or below a root that can hold markup, in the order in which a
directory lists its entries. -/
def discover (disk : Disk) (root : Text) : List Text :=
  match disk.find? root with
  | .ok tree =>
    if isSkipped 0 ((Path.fileName? root).getD root) tree then [] else filesAt 0 root tree
  | .error _ => []

/-- A file and the outcome of its check. -/
structure CheckedFile where
  path : Text
  uri : Uri
  text : Text
  dialect : Dialect
  result : Except LintError (List Report)

namespace CheckedFile

def reportCount (file : CheckedFile) : Nat :=
  match file.result with
  | .ok reports => reports.length
  | .error _ => 0

def document (file : CheckedFile) : Document :=
  let unchecked := Document.unchecked file.uri file.text 0 file.dialect
  match file.result with
  | .ok reports => unchecked.withReports reports
  | .error _ => unchecked

/-- What is to be shown about a file. -/
def diagnostics? (file : CheckedFile) : Option (List Diagnostic) :=
  match file.result with
  | .ok _ => file.document.diagnostics?
  | .error error => (file.document.failure? error).map ([·])

end CheckedFile

/-- Why a file was not checked. -/
inductive CheckError where
  | noMarkup (path : Text)
  | unreadable (error : FileError)
  | relativePath
deriving DecidableEq, Repr

namespace CheckError

def message : CheckError → String
  | noMarkup path => "Not a JSX file: " ++ Text.toString (Text.Quoted.encode path)
  | unreadable error => error.message
  | relativePath => "Invalid path"

end CheckError

section Library

variable [SyntaxParser] [UriLibrary]

def checkFile (settings : Settings) (disk : Disk) (path : Text) :
    Except CheckError CheckedFile :=
  match Dialect.ofPath? path with
  | none => .error (.noMarkup path)
  | some dialect =>
    match disk.read path with
    | .error error => .error (.unreadable error)
    | .ok text =>
      match Uri.ofPath? path with
      | none => .error .relativePath
      | some uri => .ok ⟨path, uri, text, dialect, lint settings dialect text⟩

/-- The files below a root that can be checked, each with the outcome. -/
def check (settings : Settings) (disk : Disk) (root : Text) : List CheckedFile :=
  (discover disk root).filterMap fun path => (checkFile settings disk path).toOption

end Library

def reportCount (files : List CheckedFile) : Nat :=
  files.foldl (fun count file => count + file.reportCount) 0

end FragmentLint.Workspace
