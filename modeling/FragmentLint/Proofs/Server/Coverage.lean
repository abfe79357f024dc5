import FragmentLint.Proofs.Discovery
import FragmentLint.Proofs.File.Locator
import FragmentLint.Proofs.Grammar.Concrete
import FragmentLint.Proofs.Server.Run
import FragmentLint.Proofs.Server.Survey

/-!
Contract: which files of a workspace a survey shows, and that it changes nothing.

When the editor is ready, one message without a version is sent for each file that is checked and not
open, and none about an open document; the number that is logged is that of all files that are
checked. Main statement: `survey_shows_closed_files`.

Does not own: what is shown about a file, and which files are found.
-/

namespace FragmentLint.Server

/-- What is shown about a file as it is on the disk, which has no version. -/
def shownOnDisk (file : Workspace.CheckedFile) : Message :=
  .publish file.uri file.diagnostics? none

/-- What is logged after a survey of a number of files. -/
def surveyLog (count : Nat) : Message :=
  .log ("JSX lint initialized: " ++ toString count ++ " files checked")

theorem publishedAbout_surveyLog (uri : Uri) (count : Nat) :
    publishedAbout uri [surveyLog count] = [] := rfl

theorem publishedAbout_shownOnDisk_eq_nil {uri : Uri} {files : List Workspace.CheckedFile}
    (others : ∀ file ∈ files, file.uri.text ≠ uri.text) :
    publishedAbout uri (files.map shownOnDisk) = [] := by
  induction files with
  | nil => rfl
  | cons head rest inductionHypothesis =>
    rw [List.map_cons, shownOnDisk, publishedAbout_cons_of_ne (others head List.mem_cons_self)]
    exact inductionHypothesis fun file member => others file (List.mem_cons_of_mem _ member)

/-- Of files with different identifiers each is shown once. -/
theorem publishedAbout_shownOnDisk {files : List Workspace.CheckedFile}
    (apart : files.Pairwise fun first second => first.uri.text ≠ second.uri.text)
    {file : Workspace.CheckedFile} (member : file ∈ files) :
    publishedAbout file.uri (files.map shownOnDisk) = [(file.diagnostics?, none)] := by
  induction files with
  | nil => cases member
  | cons head rest inductionHypothesis =>
    obtain ⟨headApart, restApart⟩ := List.pairwise_cons.1 apart
    rcases List.mem_cons.1 member with rfl | inRest
    · have others : ∀ other ∈ rest, other.uri.text ≠ file.uri.text :=
        fun other inRest => (headApart other inRest).symm
      rw [List.map_cons, shownOnDisk, publishedAbout_cons_self,
        publishedAbout_shownOnDisk_eq_nil others]
    · rw [List.map_cons, shownOnDisk, publishedAbout_cons_of_ne (headApart file inRest)]
      exact inductionHypothesis restApart inRest

section Library

variable [SyntaxParser] [UriLibrary]

theorem surveyed_eq (state : State) (disk : Disk) :
    state.surveyed disk
      = ((state.workspaceFiles disk).filter fun file => !state.documents.has file.uri).map shownOnDisk
        ++ [surveyLog (state.workspaceFiles disk).length] := rfl

/-- A survey shows a file that is not open once, if no other file has its identifier. -/
theorem publishedAbout_surveyed_of_closed {state : State} {disk : Disk}
    (apart : (state.workspaceFiles disk).Pairwise fun first second =>
      first.uri.text ≠ second.uri.text)
    {file : Workspace.CheckedFile} (member : file ∈ state.workspaceFiles disk)
    (closed : state.documents.has file.uri = false) :
    publishedAbout file.uri (state.surveyed disk) = [(file.diagnostics?, none)] := by
  have shown : file ∈ (state.workspaceFiles disk).filter fun file =>
      !state.documents.has file.uri := by
    apply List.mem_filter.2
    rw [closed]
    exact ⟨member, rfl⟩
  rw [surveyed_eq, publishedAbout_append, publishedAbout_surveyLog, List.append_nil]
  exact publishedAbout_shownOnDisk (apart.filter _) shown

theorem workspaceFiles_eq_check {state : State} {settings : Settings} {root : Text}
    (rootEq : state.root = some root) (settingsEq : state.settings = .ok settings) (disk : Disk) :
    state.workspaceFiles disk = Workspace.check settings disk root := by
  unfold State.workspaceFiles
  rw [rootEq, settingsEq]

/-- Without a root, or with settings that are refused, there are no files. -/
theorem workspaceFiles_eq_nil {state : State}
    (refused : state.root = none ∨ ∃ reason, state.settings = .error reason) (disk : Disk) :
    state.workspaceFiles disk = [] := by
  unfold State.workspaceFiles
  rcases refused with noRoot | ⟨reason, invalid⟩
  · rw [noRoot]
  · rw [invalid]
    cases state.root with
    | none => rfl
    | some root => rfl

namespace Session

/-- Open documents are respected. In whatever state a running session is told that the editor is ready,
it stays as it is and sends nothing about open documents. Without a root or with settings that are
refused it only logs that no files were checked. Otherwise it sends, of the files that are found and
accepted, one message without a version for each that is not open, and then logs the number of all of
them. On a disk in whose directories every name stands once, no two of these files have the same
identifier, so exactly this one message is about the document of such a file. -/
theorem survey_shows_closed_files [LawfulSyntaxParser] [LawfulUriLibrary] {session : Session}
    {disk : Disk} {call : Call}
    (running : session.phase = .running) (read : call.notification? = some .initialized) :
    (session.step disk call).session = session
      ∧ (∀ uri, session.state.documents.has uri = true →
          publishedAbout uri (session.step disk call).sent = [])
      ∧ (session.state.root = none ∨ (∃ reason, session.state.settings = .error reason) →
          (session.step disk call).sent = [surveyLog 0])
      ∧ ∀ root settings, session.state.root = some root → session.state.settings = .ok settings →
          ∃ files, files = (Workspace.discover disk root).filterMap
              (fun path => (Workspace.checkFile settings disk path).toOption)
            ∧ (session.step disk call).sent
              = (files.filter fun file => !session.state.documents.has file.uri).map shownOnDisk
                ++ [surveyLog files.length]
            ∧ (disk.root.isNamed = true →
              files.Pairwise (fun first second => first.uri.text ≠ second.uri.text)
                ∧ ∀ file ∈ files, session.state.documents.has file.uri = false →
                  ∃ shown, file.diagnostics? = some shown
                    ∧ publishedAbout file.uri (session.step disk call).sent
                      = [(some shown, none)]) := by
  have stepEq := @step_eq_of_notification? _ _ session disk call _ running read
  have sentEq : (session.step disk call).sent = session.state.surveyed disk := by
    rw [stepEq]
    rfl
  rw [sentEq]
  refine ⟨?_, ?_, ?_, ?_⟩
  · rw [stepEq, ← running]
    rfl
  · intro uri isOpen
    exact publishedAbout_surveyed isOpen disk
  · intro refused
    rw [surveyed_eq, workspaceFiles_eq_nil refused]
    rfl
  · intro root settings rootEq settingsEq
    have filesEq := workspaceFiles_eq_check rootEq settingsEq disk
    refine ⟨Workspace.check settings disk root, rfl, ?_, ?_⟩
    · rw [surveyed_eq, filesEq]
    · intro named
      have apart := @Workspace.uri_ne_of_check disk _ _ _ settings named root
      refine ⟨apart, ?_⟩
      intro file isFile closed
      obtain ⟨path, -, checked⟩ := Workspace.mem_check_iff.1 isFile
      obtain ⟨shown, isShown⟩ := Workspace.exists_diagnostics? checked
      rw [← filesEq] at apart isFile
      refine ⟨shown, isShown, ?_⟩
      rw [publishedAbout_surveyed_of_closed apart isFile closed, isShown]

end Session

end Library

open Scripts

namespace Session

/-- A workspace of two files, and a directory that is not entered. -/
def sampleWorkspace : Disk :=
  ⟨.directory [("w".toList, .directory [
    ("a.jsx".toList, .file "a = <><b/></>".toByteArray),
    ("b.tsx".toList, .file "b = <><i/></>".toByteArray),
    ("dist".toList, .directory [("c.js".toList, .file "c = <><u/></>".toByteArray)])])], []⟩

/-- The calls after which one of the two files is open, with a text of its own. -/
def sampleWorkspaceCalls : List (Disk × Call) := [
  (sampleWorkspace, ⟨"initialize", some (.record [
    ("capabilities", .record []), ("rootUri", .ofString "file:///w")]), true⟩),
  (sampleWorkspace, ⟨"textDocument/didOpen", some (.record [("textDocument", .record [
    ("uri", .ofString "file:///w/a.jsx"), ("languageId", .ofString "javascript"),
    ("version", .ofNat 1), ("text", .ofString "a = <b/>")])]), false⟩)]

/-- The editor is ready. -/
def sampleReady : Call := ⟨"initialized", some (.record []), false⟩

/-- The identifier of the file that is open. -/
def sampleOpenUri : Uri := ⟨"file:///w/a.jsx".toList⟩

/-- The identifier of the other file. -/
def sampleClosedUri : Uri := ⟨"file:///w/b.tsx".toList⟩

/-- Of two files the one that is not open is shown, with one warning, and both are counted. -/
theorem survey_shows_closed_files_sample :
    ∃ session shown, session = (fresh.run sampleWorkspaceCalls).1
      ∧ session.phase = .running ∧ sampleReady.notification? = some .initialized
      ∧ (session.step sampleWorkspace sampleReady).session = session
      ∧ publishedAbout sampleOpenUri (session.step sampleWorkspace sampleReady).sent = []
      ∧ publishedAbout sampleClosedUri (session.step sampleWorkspace sampleReady).sent
        = [(some shown, none)]
      ∧ shown.length = 1
      ∧ (session.step sampleWorkspace sampleReady).sent.getLast? = some (surveyLog 2) := by
  have after : ((fresh.run sampleWorkspaceCalls).1.phase,
      (fresh.run sampleWorkspaceCalls).1.state.root,
      (fresh.run sampleWorkspaceCalls).1.state.settings.toOption,
      (fresh.run sampleWorkspaceCalls).1.state.documents.has sampleOpenUri,
      (fresh.run sampleWorkspaceCalls).1.state.documents.has sampleClosedUri)
      = (.running, some "/w".toList, some .unset, true, false) := by
    decide +kernel
  simp only [Prod.mk.injEq] at after
  obtain ⟨running, rootEq, accepted, isOpen, closed⟩ := after
  have read : sampleReady.notification? = some .initialized := rfl
  have checked : ((Workspace.discover sampleWorkspace "/w".toList).filterMap fun path =>
        (Workspace.checkFile .unset sampleWorkspace path).toOption).map
      (fun file => (file.uri, file.diagnostics?.map List.length))
        = [(sampleOpenUri, some 1), (sampleClosedUri, some 1)] := by
    decide +kernel
  obtain ⟨unchanged, spared, -, covered⟩ :=
    @survey_shows_closed_files _ _ _ _ _ sampleWorkspace _ running read
  obtain ⟨files, filesEq, sent, distinct⟩ := covered _ _ rootEq (ok_of_toOption accepted)
  rw [← filesEq] at checked
  obtain ⟨file, isFile, fileEq⟩ : ∃ file ∈ files,
      (file.uri, file.diagnostics?.map List.length) = (sampleClosedUri, some 1) := by
    apply List.mem_map.1
    rw [checked]
    decide
  obtain ⟨uriEq, warnings⟩ := Prod.mk.inj fileEq
  obtain ⟨-, once⟩ := distinct (by decide)
  obtain ⟨shown, isShown, published⟩ := once file isFile (by rw [uriEq]; exact closed)
  rw [uriEq] at published
  rw [isShown] at warnings
  have count : files.length = 2 := by
    rw [← List.length_map, checked]
    rfl
  refine ⟨_, shown, rfl, running, read, unchanged, spared _ isOpen, published,
    Option.some.inj warnings, ?_⟩
  rw [sent, List.getLast?_concat, count]

end Session

end FragmentLint.Server
