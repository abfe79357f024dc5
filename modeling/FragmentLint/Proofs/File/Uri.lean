import FragmentLint.File.Uri
import FragmentLint.Proofs.File.Path

/-!
Contract: what is guaranteed of a library of identifiers.

Only absolute paths have an identifier, and the identifier of a path leads back to a path of the
same parts. So it has the dialect of the path (`bind_filePath?_of_ofPath?`), and paths with the same
identifier have the same parts (`parts_eq_of_text_eq`).

Does not own: libraries that keep the guarantees, and identifiers that an editor has written.
-/

namespace FragmentLint

/-- A library that names absolute paths, and finds the parts of a path again in its name. -/
class LawfulUriLibrary [UriLibrary] : Prop where
  isAbsolute_of_ofPath? {path : Text} {uri : Uri} (named : Uri.ofPath? path = some uri) :
    Path.isAbsolute path = true
  exists_filePath? {path : Text} {uri : Uri} (named : Uri.ofPath? path = some uri) :
    ∃ found, uri.filePath? = some found ∧ Path.parts found = Path.parts path

namespace Uri

variable [UriLibrary] [LawfulUriLibrary]

/-- The identifier of a file has the dialect of its path. -/
theorem bind_filePath?_of_ofPath? {path : Text} {uri : Uri} (named : ofPath? path = some uri) :
    uri.filePath?.bind Dialect.ofPath? = Dialect.ofPath? path := by
  obtain ⟨found, leadsBack, same⟩ := LawfulUriLibrary.exists_filePath? named
  rw [leadsBack]
  exact Dialect.ofPath?_congr same

/-- Paths whose identifiers are the same have the same parts. -/
theorem parts_eq_of_text_eq {path other : Text} {uri otherUri : Uri}
    (named : ofPath? path = some uri) (namedToo : ofPath? other = some otherUri)
    (same : uri.text = otherUri.text) : Path.parts path = Path.parts other := by
  obtain ⟨written⟩ := uri
  obtain rfl : written = otherUri.text := same
  obtain ⟨found, leadsBack, parts⟩ := LawfulUriLibrary.exists_filePath? named
  obtain ⟨foundToo, leadsBackToo, partsToo⟩ := LawfulUriLibrary.exists_filePath? namedToo
  have equal := leadsBack.symm.trans leadsBackToo
  rw [← parts, ← partsToo, Option.some.inj equal]

end Uri

end FragmentLint
