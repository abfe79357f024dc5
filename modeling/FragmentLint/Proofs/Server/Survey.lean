import FragmentLint.Proofs.File.Locator
import FragmentLint.Proofs.Grammar.Concrete
import FragmentLint.Proofs.Server.Agreement
import FragmentLint.Proofs.Workspace

/-!
Contract: what is published about the files of a workspace.

A survey of the workspace checks a file as it is on the disk, in the dialect of its path, and an
opened document is checked with the text that the editor has, in the dialect that its identifier has.
Main statement: of a file that is opened as it is on the disk, the two show the same
(`survey_shows_as_opening`).

Does not own: which files are found.
-/

namespace FragmentLint.Server

/-- The document of a file has the dialect of its path, whatever language it is said to be in. -/
theorem dialectOf_of_ofPath? [UriLibrary] [LawfulUriLibrary] {path : Text} {uri : Uri}
    {dialect : Dialect}
    (named : Uri.ofPath? path = some uri) (known : Dialect.ofPath? path = some dialect)
    (language : Option Text) : State.dialectOf uri language = dialect := by
  unfold State.dialectOf
  rw [Uri.bind_filePath?_of_ofPath? named, known]

theorem publishedAbout_hold [SyntaxParser] (state : State) (document : Document) :
    publishedAbout document.uri (state.hold document).2
      = [((document.check state.settings).2, some document.version)] := by
  rw [hold_eq, publication, publishedAbout_cons_self]
  rfl

section Library

variable [SyntaxParser] [UriLibrary]

/-- What a survey publishes about the documents of an identifier is what is shown about the files that
have it, unless they are open. -/
theorem mem_publishedAbout_surveyed {state : State} {disk : Disk} {uri : Uri}
    {entry : Option (List Diagnostic) × Option Int} :
    entry ∈ publishedAbout uri (state.surveyed disk)
      ↔ ∃ file ∈ state.workspaceFiles disk, state.documents.has file.uri = false
        ∧ file.uri.text = uri.text ∧ (file.diagnostics?, none) = entry := by
  have noLog : publishedAbout uri [.log ("JSX lint initialized: "
      ++ toString (state.workspaceFiles disk).length ++ " files checked")] = [] := rfl
  have isAbout (file : Workspace.CheckedFile) :
      Message.about? uri (.publish file.uri file.diagnostics? none) = some entry
        ↔ file.uri.text = uri.text ∧ (file.diagnostics?, none) = entry := by
    simp [Message.about?]
  unfold State.surveyed
  rw [publishedAbout_append, noLog, List.append_nil, publishedAbout, List.filterMap_map,
    List.mem_filterMap]
  constructor
  · rintro ⟨file, member, shown⟩
    obtain ⟨inWorkspace, closed⟩ := List.mem_filter.1 member
    exact ⟨file, inWorkspace, by simpa using closed, (isAbout file).1 shown⟩
  · rintro ⟨file, inWorkspace, closed, shown⟩
    refine ⟨file, List.mem_filter.2 ⟨inWorkspace, ?_⟩, (isAbout file).2 shown⟩
    rw [closed]
    rfl

variable [LawfulSyntaxParser] [LawfulUriLibrary]

/-- Disk and editor agree. Let a file that can hold markup be readable and have an absolute path, and
let the settings be accepted. Whatever a survey of the workspace publishes about it while it is not
open, with no version, is what is published when it is opened with the text that it has on the disk,
in whatever language it is said to be, with the version of that text. If the file is found in the
workspace, the survey does publish something about it. -/
theorem survey_shows_as_opening {state : State} {disk : Disk} {settings : Settings}
    {root path content : Text} {uri : Uri} (settingsEq : state.settings = .ok settings)
    (rootEq : state.root = some root) (holdsMarkup : (Dialect.ofPath? path).isSome = true)
    (readable : disk.read path = .ok content) (named : Uri.ofPath? path = some uri)
    (closed : state.documents.has uri = false) :
    ∃ shown,
      (path ∈ Workspace.discover disk root →
        publishedAbout uri (state.notify disk .initialized).2 ≠ [])
      ∧ (∀ entry ∈ publishedAbout uri (state.notify disk .initialized).2,
        entry = (some shown, none))
      ∧ ∀ (later : State) (laterDisk : Disk) (language : Text) (version : Int),
          later.settings = .ok settings →
            publishedAbout uri
              (later.notify laterDisk (.didOpen uri language version content)).2
              = [(some shown, some version)] := by
  obtain ⟨dialect, known⟩ := Option.isSome_iff_exists.1 holdsMarkup
  let file : Workspace.CheckedFile :=
    ⟨path, uri, content, dialect, lint settings dialect content⟩
  have checked : Workspace.checkFile settings disk path = .ok file :=
    Workspace.checkFile_eq_ok_iff.2 ⟨dialect, content, uri, known, readable, named, rfl⟩
  have files : state.workspaceFiles disk = Workspace.check settings disk root := by
    unfold State.workspaceFiles
    rw [rootEq, settingsEq]
  obtain ⟨shown, isShown, -⟩ := Document.exists_shows_check (.ok settings)
    (Document.unchecked uri content 0 dialect)
  have asChecked (version : Int) :
      ((Document.unchecked uri content version dialect).check (.ok settings)).2 = some shown :=
    (Workspace.diagnostics?_eq_check checked uri version).symm.trans
      ((Workspace.diagnostics?_eq_check checked uri 0).trans isShown)
  refine ⟨shown, ?_, ?_, ?_⟩
  · intro isFile
    apply List.ne_nil_of_mem
    apply mem_publishedAbout_surveyed.2
    refine ⟨file, ?_, closed, rfl, rfl⟩
    rw [files]
    exact Workspace.mem_check_iff.2 ⟨path, isFile, checked⟩
  · intro entry published
    obtain ⟨other, member, -, same, rfl⟩ := mem_publishedAbout_surveyed.1 published
    rw [files] at member
    obtain ⟨otherPath, -, checkedToo⟩ := Workspace.mem_check_iff.1 member
    -- Another file with the same identifier would be the same file under another spelling.
    obtain ⟨sameText, sameDialect⟩ := Workspace.same_of_text_eq checkedToo checked same
    rw [Workspace.diagnostics?_eq_check checkedToo uri 0, sameText, sameDialect, asChecked 0]
  · intro later laterDisk language version laterSettings
    have opened := publishedAbout_hold later
      (.unchecked uri content version (State.dialectOf uri (some language)))
    rw [dialectOf_of_ofPath? named known (some language), laterSettings, asChecked version]
      at opened
    rw [State.notify, dialectOf_of_ofPath? named known (some language)]
    exact opened

end Library

open Scripts

/-- A disk with one file, in whose name there is a space. -/
def sampleDisk : Disk :=
  ⟨.directory [("w".toList,
    .directory [("a b.tsx".toList, .file "a = <><b/></>".toByteArray)])], []⟩

/-- A server to which the directory of this file is the workspace. -/
def sampleState : State := ⟨.ok .unset, .empty, some "/w".toList⟩

/-- The identifier of the file. -/
def sampleFileUri : Uri := ⟨"file:///w/a%20b.tsx".toList⟩

/-- One warning is shown about the file, before and after it is opened as a document in a language
that is not known. -/
theorem survey_shows_as_opening_sample :
    ∃ shown, Uri.ofPath? "/w/a b.tsx".toList = some sampleFileUri
      ∧ publishedAbout sampleFileUri (sampleState.notify sampleDisk .initialized).2 ≠ []
      ∧ (∀ entry ∈ publishedAbout sampleFileUri (sampleState.notify sampleDisk .initialized).2,
          entry = (some shown, none))
      ∧ publishedAbout sampleFileUri (sampleState.notify sampleDisk
          (.didOpen sampleFileUri "plaintext".toList 7 "a = <><b/></>".toList)).2
        = [(some shown, some 7)]
      ∧ shown.length = 1 := by
  have isFile : "/w/a b.tsx".toList ∈ Workspace.discover sampleDisk "/w".toList := by
    decide +kernel
  have readable : (sampleDisk.read "/w/a b.tsx".toList).toOption
      = some "a = <><b/></>".toList := by
    decide +kernel
  have named : Uri.ofPath? "/w/a b.tsx".toList = some sampleFileUri := by
    decide +kernel
  have count : ((publishedAbout sampleFileUri (sampleState.notify sampleDisk
      (.didOpen sampleFileUri "plaintext".toList 7 "a = <><b/></>".toList)).2).map
        fun entry => entry.1.map List.length) = [some 1] := by
    decide +kernel
  obtain ⟨shown, published, same, opened⟩ := @survey_shows_as_opening _ _ _ _ sampleState sampleDisk
    .unset "/w".toList _ _ _ rfl rfl (by decide) (ok_of_toOption readable) named rfl
  have openedHere := opened sampleState sampleDisk "plaintext".toList 7 rfl
  rw [openedHere] at count
  exact ⟨shown, named, published isFile, same, openedHere,
    Option.some.inj (List.singleton_inj.1 count)⟩

end FragmentLint.Server
