import FragmentLint.Text

/-!
Contract: identifiers of documents.

An identifier is known by its normal form, so two are the same exactly when their texts are. The
library that reads them is not part of this one: it is a parameter, `UriLibrary`, of everything that
deals with them.

Does not own: what is guaranteed of the library.
-/

namespace FragmentLint

/-- An identifier of a document, in its normal form. -/
structure Uri where
  text : Text
deriving DecidableEq, Repr, Inhabited

/-- A library of identifiers: it reads them, and knows the way between them and absolute paths. -/
class UriLibrary where
  read? : Text → Option Uri
  /-- The identifier of the file that a path leads to. -/
  ofPath? : Text → Option Uri
  /-- The path of the file that an identifier stands for. -/
  filePath? : Uri → Option Text

namespace Uri

variable [UriLibrary]

def read? (written : Text) : Option Uri := UriLibrary.read? written

def ofPath? (path : Text) : Option Uri := UriLibrary.ofPath? path

def filePath? (uri : Uri) : Option Text := UriLibrary.filePath? uri

end Uri

end FragmentLint
