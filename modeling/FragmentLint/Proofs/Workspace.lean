import FragmentLint.Proofs.Editor.Document
import FragmentLint.Proofs.File.Uri
import FragmentLint.Workspace

/-!
Contract: the files of a workspace and what their check shows.

Main statements: files with the same identifier are the same as far as a check is concerned
(`same_of_text_eq`), and the check of a file shows what the check of a document with the same text and
dialect shows (`diagnostics?_eq_check`).

Does not own: which files are found.
-/

namespace FragmentLint.Workspace

variable [SyntaxParser] [UriLibrary] {settings : Settings} {disk : Disk} {root path other : Text}
  {file otherFile : CheckedFile}

/-- A file is checked if its extension is known, it can be read, and its path is absolute. -/
theorem checkFile_eq_ok_iff :
    checkFile settings disk path = .ok file ↔ ∃ dialect text uri,
      Dialect.ofPath? path = some dialect ∧ disk.read path = .ok text
        ∧ Uri.ofPath? path = some uri
        ∧ file = ⟨path, uri, text, dialect, lint settings dialect text⟩ := by
  unfold checkFile
  cases Dialect.ofPath? path with
  | none => simp
  | some dialect =>
    cases disk.read path with
    | error reason => simp
    | ok text =>
      cases Uri.ofPath? path with
      | none => simp
      | some uri => simp [eq_comm]

theorem mem_check_iff :
    file ∈ check settings disk root
      ↔ ∃ path ∈ discover disk root, checkFile settings disk path = .ok file := by
  unfold check
  rw [List.mem_filterMap]
  constructor
  · rintro ⟨path, isFound, checked⟩
    exact ⟨path, isFound, ok_of_toOption checked⟩
  · rintro ⟨path, isFound, checked⟩
    refine ⟨path, isFound, ?_⟩
    rw [checked]
    rfl

/-- Files with the same identifier have the same text and the same dialect. -/
theorem same_of_text_eq [LawfulUriLibrary] (checked : checkFile settings disk path = .ok file)
    (checkedToo : checkFile settings disk other = .ok otherFile)
    (same : file.uri.text = otherFile.uri.text) :
    file.text = otherFile.text ∧ file.dialect = otherFile.dialect := by
  obtain ⟨dialect, text, uri, known, readable, named, rfl⟩ := checkFile_eq_ok_iff.1 checked
  obtain ⟨otherDialect, otherText, otherUri, knownToo, readableToo, namedToo, rfl⟩ :=
    checkFile_eq_ok_iff.1 checkedToo
  have sameParts := Uri.parts_eq_of_text_eq named namedToo same
  constructor
  · exact Disk.read_unique (LawfulUriLibrary.isAbsolute_of_ofPath? named)
      (LawfulUriLibrary.isAbsolute_of_ofPath? namedToo) sameParts readable readableToo
  · rw [Dialect.ofPath?_congr sameParts, knownToo] at known
    exact (Option.some.inj known).symm

/-- What is shown about a file is what the check of a document with its text and its dialect
shows. -/
theorem diagnostics?_eq_check (checked : checkFile settings disk path = .ok file) (uri : Uri)
    (version : Int) :
    file.diagnostics?
      = ((Document.unchecked uri file.text version file.dialect).check (.ok settings)).2 := by
  obtain ⟨dialect, text, ownUri, -, -, -, rfl⟩ := checkFile_eq_ok_iff.1 checked
  cases linted : lint settings dialect text with
  | ok reports =>
    simp only [CheckedFile.diagnostics?, CheckedFile.document, Document.check, Document.unchecked,
      linted]
    rfl
  | error reason =>
    simp only [CheckedFile.diagnostics?, CheckedFile.document, Document.check, Document.unchecked,
      linted]
    rfl

/-- Whatever is checked can be shown. -/
theorem exists_diagnostics? [LawfulSyntaxParser]
    (checked : checkFile settings disk path = .ok file) :
    ∃ shown, file.diagnostics? = some shown := by
  obtain ⟨shown, isShown, -⟩ := Document.exists_shows_check (.ok settings)
    (Document.unchecked file.uri file.text 0 file.dialect)
  exact ⟨shown, (diagnostics?_eq_check checked file.uri 0).trans isShown⟩

end FragmentLint.Workspace
