import FragmentLint.Server.Message
import FragmentLint.Workspace

/-!
Contract: what a language server knows, and what it does about what it is told.

The server keeps the settings, the open documents, and the root of the workspace. Whenever a
document or the settings change, the documents concerned are checked again and what is to be shown
about them is published. Main statements: a document that is put into the store is found there
(`find?_put`), no other one is disturbed by it (`find?_put_of_ne`), and one that is erased is gone
(`find?_erase`).

Owns: the store of open documents and the state of the server.
Does not own: in which order an editor may talk to the server.
-/

namespace FragmentLint.Server

/-- The open documents, in the order of their identifiers. -/
structure Store where
  documents : List Document
deriving DecidableEq, Repr, Inhabited

namespace Store

def empty : Store := ⟨[]⟩

def find? (store : Store) (uri : Uri) : Option Document :=
  store.documents.find? (·.uri.text == uri.text)

def has (store : Store) (uri : Uri) : Bool := (store.find? uri).isSome

/-- A list of documents with another one in its place, which takes the place of one with the same
identifier. -/
def putInto (new : Document) : List Document → List Document
  | [] => [new]
  | head :: rest =>
    if head.uri.text == new.uri.text then new :: rest
    else if Text.precedes new.uri.text head.uri.text then new :: head :: rest
    else head :: putInto new rest

def put (store : Store) (new : Document) : Store := ⟨putInto new store.documents⟩

/-- The store without the document of an identifier. -/
def erase (store : Store) (uri : Uri) : Store :=
  ⟨store.documents.filter (·.uri.text != uri.text)⟩

end Store

/-- What a server knows. -/
structure State where
  settings : Except SettingsError Settings
  documents : Store
  /-- The path of the root of the workspace. -/
  root : Option Text

namespace State

def fresh : State := ⟨.ok .unset, .empty, none⟩

instance : Inhabited State := ⟨fresh⟩

/-- Takes new settings, or the reason why they are refused. -/
def configure (state : State) (settings : Json) : State :=
  { state with settings := Settings.ofJson settings }

/-- Whether an action is of one of the kinds that are wanted: its name begins with that of the
kind. -/
def isWanted (only : Option (List Text)) (action : Action) : Bool :=
  match only with
  | none => true
  | some kinds => kinds.any fun kind => kind.isPrefixOf action.kind.id.toList

section Library

variable [SyntaxParser] [UriLibrary]

/-- The dialect of a document: that of its path, else that of the language it is said to be in. -/
def dialectOf (uri : Uri) (language : Option Text) : Dialect :=
  match uri.filePath?.bind Dialect.ofPath? with
  | some dialect => dialect
  | none =>
    if language == some "typescriptreact".toList || language == some "typescript".toList then .tsx
    else .javascript

def introduce (state : State) (introduction : Introduction) : State :=
  let configured := match introduction.settings with
    | some settings => state.configure settings
    | none => state
  match introduction.root.bind Uri.filePath? with
  | some path => { configured with root := some path }
  | none => configured

/-- Checks a document, keeps it, and publishes what is to be shown about it. -/
def hold (state : State) (document : Document) : State × List Message :=
  let (checked, shown) := document.check state.settings
  ({ state with documents := state.documents.put checked },
    [.publish checked.uri shown (some checked.version)])

def recheck (state : State) : State × List Message :=
  let results := state.documents.documents.map (Document.check state.settings)
  ({ state with documents := ⟨results.map Prod.fst⟩ },
    results.map fun (checked, shown) => .publish checked.uri shown (some checked.version))

/-- The files of the workspace, checked; none without a root or with settings that are refused. -/
def workspaceFiles (state : State) (disk : Disk) : List Workspace.CheckedFile :=
  match state.root, state.settings with
  | some root, .ok settings => Workspace.check settings disk root
  | _, _ => []

/-- Publishes what is to be shown about the files of the workspace that are not open, and reports
the number of all files. -/
def surveyed (state : State) (disk : Disk) : List Message :=
  let files := state.workspaceFiles disk
  (files.filter fun file => !state.documents.has file.uri).map
      (fun file => .publish file.uri file.diagnostics? none)
    ++ [.log ("JSX lint initialized: " ++ toString files.length ++ " files checked")]

/-- What the server does when it is told something. Of several changes the first one counts. -/
def notify (disk : Disk) (state : State) : Notification → State × List Message
  | .initialized => (state, state.surveyed disk)
  | .didOpen uri language version text =>
    state.hold (.unchecked uri text version (dialectOf uri (some language)))
  | .didChange uri version changes =>
    let dialect := ((state.documents.find? uri).map (·.dialect)).getD (dialectOf uri none)
    match changes with
    | [] => (state, [])
    | text :: _ => state.hold (.unchecked uri text version dialect)
  | .didClose uri =>
    ({ state with documents := state.documents.erase uri }, [.publish uri (some []) none])
  | .didChangeConfiguration settings => (state.configure settings).recheck

/-- The fix of a whole document, if any of its reports has a fix and fixing succeeds. -/
def fixAll? (state : State) (document : Document) : Option Action :=
  if document.reports.any (·.fix.isSome) then
    match state.settings with
    | .error _ => none
    | .ok settings =>
      match fix settings document.dialect document.text with
      | .ok outcome => if outcome.changed then some (document.fixAll outcome.output) else none
      | .error _ => none
  else none

/-- The actions of all kinds for a range of an open document; `none` if a span in one of them cannot
be shown. -/
def allActions? (state : State) (document : Document) (range : Range) : Option (List Action) := do
  let quick ← document.quickFixes? range
  return quick ++ (state.fixAll? document).toList

/-- The actions that are asked for. -/
def actions? (state : State) (request : ActionRequest) : Option (List Action) :=
  match state.documents.find? request.uri with
  | none => some []
  | some document =>
    (state.allActions? document request.range).map (·.filter (isWanted request.only))

end Library

end State

namespace Store

/-- A document that was put into the store is found there. -/
@[simp] theorem find?_put (store : Store) (new : Document) :
    (store.put new).find? new.uri = some new := by
  obtain ⟨documents⟩ := store
  show (putInto new documents).find? (·.uri.text == new.uri.text) = some new
  induction documents with
  | nil => simp [putInto]
  | cons head rest inductionHypothesis =>
    unfold putInto
    split
    next => simp
    next different =>
      split
      · simp
      · rw [List.find?_cons]
        simp [different, inductionHypothesis]

/-- Putting a document into the store disturbs no other one. -/
theorem find?_put_of_ne (store : Store) (new : Document) {uri : Uri}
    (other : uri.text ≠ new.uri.text) : (store.put new).find? uri = store.find? uri := by
  obtain ⟨documents⟩ := store
  show (putInto new documents).find? (·.uri.text == uri.text)
    = documents.find? (·.uri.text == uri.text)
  have skipped : (new.uri.text == uri.text) = false := by
    simpa using fun equal => other equal.symm
  induction documents with
  | nil => simp [putInto, skipped]
  | cons head rest inductionHypothesis =>
    unfold putInto
    split
    next same =>
      have replaced : (head.uri.text == uri.text) = false := by
        have equal : head.uri.text = new.uri.text := by simpa using same
        simpa [equal] using skipped
      simp [skipped, replaced]
    next =>
      split
      · rw [List.find?_cons, skipped]
      · rw [List.find?_cons, List.find?_cons, inductionHypothesis]

@[simp] theorem find?_erase (store : Store) (uri : Uri) : (store.erase uri).find? uri = none := by
  simp [erase, find?]

theorem find?_erase_of_ne (store : Store) {erased uri : Uri} (other : uri.text ≠ erased.text) :
    (store.erase erased).find? uri = store.find? uri := by
  obtain ⟨documents⟩ := store
  show (documents.filter (·.uri.text != erased.text)).find? (·.uri.text == uri.text)
    = documents.find? (·.uri.text == uri.text)
  induction documents with
  | nil => rfl
  | cons head rest inductionHypothesis =>
    rw [List.filter_cons]
    split
    next => rw [List.find?_cons, List.find?_cons, inductionHypothesis]
    next dropped =>
      have equal : head.uri.text = erased.text := by simpa using dropped
      have skipped : (head.uri.text == uri.text) = false := by
        simpa [equal] using fun same => other same.symm
      rw [List.find?_cons, skipped, inductionHypothesis]

end Store

end FragmentLint.Server
