import FragmentLint.Proofs.File.Locator
import FragmentLint.Proofs.Grammar.Concrete
import FragmentLint.Proofs.Server.Consistency

/-!
Contract: the texts that a language server holds, and those that its editor has.

The server announces that a change carries the whole text of a document. An editor that lists
several changes makes them one after the other, so the last of them is its text; the server takes the
first one. What is held for a document depends on the last notification that concerns it and on
nothing else (`textOf?_run`). Main statements: the server holds the text of its editor if and only if
that notification does not list changes of which the first and the last differ
(`textOf?_run_eq_iff`), and there is a session in which it holds another one
(`last_change_is_dropped`).
-/

namespace FragmentLint.Server

/-- The text that is held for the document of an identifier, if it is open. -/
def Store.textOf? (store : Store) (uri : Uri) : Option Text := (store.find? uri).map (·.text)

namespace Notification

/-- Whether a notification decides on the text of the document of an identifier: it opens or closes
that document, or lists a change of it. -/
def concerns (uri : Uri) : Notification → Bool
  | .initialized => false
  | .didOpen opened _ _ _ => opened.text == uri.text
  | .didChange changed _ changes => changed.text == uri.text && !changes.isEmpty
  | .didClose closed => closed.text == uri.text
  | .didChangeConfiguration _ => false

/-- The text that a notification leaves of the document that it concerns, if `counted` picks the
change that counts among those that it lists. -/
def textLeft (counted : List Text → Option Text) : Notification → Option Text
  | .didOpen _ _ _ text => some text
  | .didChange _ _ changes => counted changes
  | _ => none

end Notification

/-- The last of several notifications that concerns the document of an identifier. -/
def lastWord (uri : Uri) (told : List Notification) : Option Notification :=
  (told.filter (·.concerns uri)).getLast?

/-- What becomes of the text of a document under several notifications: what the last one that
concerns it leaves. -/
def textAfter (counted : List Text → Option Text) (uri : Uri) (before : Option Text)
    (told : List Notification) : Option Text :=
  match lastWord uri told with
  | some word => word.textLeft counted
  | none => before

variable {counted : List Text → Option Text} {uri : Uri}

@[simp] theorem textAfter_nil (before : Option Text) : textAfter counted uri before [] = before :=
  rfl

theorem textAfter_singleton (before : Option Text) (word : Notification) :
    textAfter counted uri before [word]
      = if word.concerns uri then word.textLeft counted else before := by
  unfold textAfter lastWord
  cases concerns : word.concerns uri with
  | true => simp [concerns]
  | false => simp [concerns]

theorem textAfter_append (before : Option Text) (earlier later : List Notification) :
    textAfter counted uri before (earlier ++ later)
      = textAfter counted uri (textAfter counted uri before earlier) later := by
  unfold textAfter lastWord
  rw [List.filter_append, List.getLast?_append]
  cases (later.filter (·.concerns uri)).getLast? <;> rfl

/-- The text of an editor and that of a server that counts the first change are the same if and only
if the last notification that concerns the document does not list changes of which the first and the
last differ. -/
theorem textAfter_head?_eq_getLast?_iff {before : Option Text} {told : List Notification} :
    textAfter List.head? uri before told = textAfter List.getLast? uri before told ↔
      ∀ changed version changes, lastWord uri told = some (.didChange changed version changes) →
        changes.head? = changes.getLast? := by
  unfold textAfter
  cases lastWord uri told with
  | none => simp
  | some word => cases word <;> simp [Notification.textLeft]

/-! ## The store -/

namespace Store

variable {store : Store}

theorem textOf?_put_of_eq {new : Document} (same : new.uri.text = uri.text) :
    (store.put new).textOf? uri = some new.text := by
  have found : (store.put new).find? uri = (store.put new).find? new.uri := by
    unfold find?
    rw [same]
  rw [textOf?, found, find?_put]
  rfl

theorem textOf?_put_of_ne {new : Document} (other : new.uri.text ≠ uri.text) :
    (store.put new).textOf? uri = store.textOf? uri := by
  rw [textOf?, find?_put_of_ne store new other.symm]
  rfl

theorem textOf?_erase_of_eq {erased : Uri} (same : erased.text = uri.text) :
    (store.erase erased).textOf? uri = none := by
  have found : (store.erase erased).find? uri = (store.erase erased).find? erased := by
    unfold find?
    rw [same]
  rw [textOf?, found, find?_erase]
  rfl

theorem textOf?_erase_of_ne {erased : Uri} (other : erased.text ≠ uri.text) :
    (store.erase erased).textOf? uri = store.textOf? uri := by
  rw [textOf?, find?_erase_of_ne store other.symm]
  rfl

end Store

section Library

variable [SyntaxParser]

theorem textOf?_hold_of_eq {state : State} {document : Document}
    (same : document.uri.text = uri.text) :
    (state.hold document).1.documents.textOf? uri = some document.text := by
  rw [hold_eq]
  have checked : (document.check state.settings).1.uri.text = uri.text := by
    rw [Document.uri_check]
    exact same
  exact (Store.textOf?_put_of_eq checked).trans
    (congrArg some (Document.text_check state.settings document))

theorem textOf?_hold_of_ne {state : State} {document : Document}
    (other : document.uri.text ≠ uri.text) :
    (state.hold document).1.documents.textOf? uri = state.documents.textOf? uri := by
  rw [hold_eq]
  apply Store.textOf?_put_of_ne
  rw [Document.uri_check]
  exact other

/-- Checking all documents again changes none of their texts. -/
theorem textOf?_recheck (state : State) :
    state.recheck.1.documents.textOf? uri = state.documents.textOf? uri := by
  have sameUri : ((·.uri.text == uri.text) ∘ fun document : Document =>
      (document.check state.settings).1) = (·.uri.text == uri.text) := by
    funext document
    simp only [Function.comp, Document.uri_check]
  rw [recheck_eq, Store.textOf?, Store.find?, List.find?_map, sameUri, Option.map_map]
  congr 1
  funext document
  exact Document.text_check state.settings document

variable [UriLibrary]

/-- One notification changes the text of the documents that it concerns, to what its first change
leaves, and of no other ones. -/
theorem textOf?_notify (disk : Disk) (state : State) (word : Notification) :
    (state.notify disk word).1.documents.textOf? uri
      = if word.concerns uri then word.textLeft List.head? else state.documents.textOf? uri := by
  cases word with
  | initialized => rfl
  | didOpen opened language version text =>
    by_cases same : opened.text = uri.text
    · rw [if_pos (by simpa [Notification.concerns] using same)]
      exact textOf?_hold_of_eq same
    · rw [if_neg (by simpa [Notification.concerns] using same)]
      exact textOf?_hold_of_ne same
  | didChange changed version changes =>
    cases changes with
    | nil => simp [Notification.concerns, State.notify]
    | cons text rest =>
      by_cases same : changed.text = uri.text
      · rw [if_pos (by simpa [Notification.concerns] using same)]
        exact textOf?_hold_of_eq same
      · rw [if_neg (by simpa [Notification.concerns] using same)]
        exact textOf?_hold_of_ne same
  | didClose closed =>
    by_cases same : closed.text = uri.text
    · rw [if_pos (by simpa [Notification.concerns] using same)]
      exact Store.textOf?_erase_of_eq same
    · rw [if_neg (by simpa [Notification.concerns] using same)]
      exact Store.textOf?_erase_of_ne same
  | didChangeConfiguration settings => exact textOf?_recheck (state.configure settings)

/-! ## Sessions -/

namespace Session

/-- The notification that a session takes a call for, if it listens to it. -/
def hears (session : Session) (call : Call) : List Notification :=
  if session.phase == .running then call.notification?.toList else []

/-- The notifications among several calls that a session listens to. -/
def heard (session : Session) : List (Disk × Call) → List Notification
  | [] => []
  | (disk, call) :: rest => session.hears call ++ (session.step disk call).session.heard rest

theorem textOf?_step (session : Session) (disk : Disk) (call : Call) :
    (session.step disk call).session.state.documents.textOf? uri
      = textAfter List.head? uri (session.state.documents.textOf? uri) (session.hears call) := by
  by_cases listens : session.phase = .running ∧ call.notification? ≠ none
  · obtain ⟨running, isNotification⟩ := listens
    obtain ⟨word, read⟩ := Option.ne_none_iff_exists'.1 isNotification
    have hears : session.hears call = [word] := by simp [Session.hears, running, read]
    rw [step_eq_of_notification? running read, hears, textAfter_singleton]
    exact textOf?_notify disk session.state word
  · have nothing : session.hears call = [] := by
      unfold hears
      split
      next running =>
        have unread : call.notification? = none := by
          by_contra read
          exact listens ⟨by simpa using running, read⟩
        rw [unread]
        rfl
      next => rfl
    rw [nothing, textAfter_nil]
    rcases step_cases disk session call with idle | ⟨-, introduced, final, -⟩
      | ⟨running, notification, read, -⟩
    · rw [idle.state]
    · rw [final]
      show (session.state.introduce introduced).documents.textOf? uri = _
      rw [documents_introduce]
    · rw [read] at listens
      exact absurd ⟨running, by simp⟩ listens

/-- After any calls, a session holds the text that the last notification that concerns a document
leaves by the first change that it lists. -/
theorem textOf?_run (session : Session) (calls : List (Disk × Call)) :
    (session.run calls).1.state.documents.textOf? uri
      = textAfter List.head? uri (session.state.documents.textOf? uri) (session.heard calls) := by
  induction calls generalizing session with
  | nil => rfl
  | cons head rest inductionHypothesis =>
    obtain ⟨disk, call⟩ := head
    have others := inductionHypothesis (session.step disk call).session
    rw [textOf?_step, ← textAfter_append] at others
    exact others

/-- A session that begins to run has announced what the server can do. -/
theorem response_of_introduced {disk : Disk} {call : Call}
    (introduced : (fresh.step disk call).session.phase = .running) :
    (fresh.step disk call).response = .result capabilities := by
  unfold step at introduced ⊢
  cases named : Method.ofName? call.method with
  | none => simp [named, fresh, refuse] at introduced
  | some method =>
    cases method with
    | introduction =>
      simp only [named, introduce] at introduced ⊢
      cases isRequest : call.isRequest with
      | false => simp [fresh, refuse, isRequest] at introduced
      | true =>
        cases read : decoded Params.introduction call with
        | error reason => simp [fresh, refuse, isRequest, read] at introduced
        | ok introduction => simp [fresh]
    | _ => simp [named, fresh, refuse, refusePhase, shutdown] at introduced

/-- Text synchronisation. The server announces that a change carries the whole text of a document.
After any calls, it holds for a document what the last notification that concerns it left, by the
first of the changes if it lists several: a text if it was opened or changed, none if it was closed.
The editor counts the last of these changes, so both have the same text if and only if the last
notification that concerns the document does not list changes of which the first and the last
differ. -/
theorem textOf?_run_eq_iff (calls : List (Disk × Call)) (uri : Uri) :
    (∀ disk call, (fresh.step disk call).session.phase = .running → ∃ options others,
      (fresh.step disk call).response = .result (.record
        (("capabilities", .record (("textDocumentSync", .ofNat 1) :: options)) :: others)))
    ∧ (fresh.run calls).1.state.documents.textOf? uri
      = textAfter List.head? uri none (fresh.heard calls)
    ∧ ((fresh.run calls).1.state.documents.textOf? uri
        = textAfter List.getLast? uri none (fresh.heard calls) ↔
      ∀ changed version changes,
        lastWord uri (fresh.heard calls) = some (.didChange changed version changes) →
          changes.head? = changes.getLast?) := by
  have held := @textOf?_run uri _ _ fresh calls
  have empty : fresh.state.documents.textOf? uri = none := rfl
  rw [empty] at held
  refine ⟨?_, held, ?_⟩
  · intro disk call introduced
    exact ⟨_, _, response_of_introduced introduced⟩
  · rw [held]
    exact textAfter_head?_eq_getLast?_iff

end Session

end Library

open Scripts

namespace Session

/-- The document is changed, in several steps at once. -/
def sampleChange (version : Nat) (texts : List String) : Call :=
  ⟨"textDocument/didChange", some (.record [
    ("textDocument", .record [("uri", .ofString "file:///a.jsx"), ("version", .ofNat version)]),
    ("contentChanges", .array (texts.map fun text => .record [("text", .ofString text)]))]), false⟩

/-- After a change in two steps and another one in one step, the server has the text of the
editor. -/
theorem textOf?_run_eq_iff_single_change :
    (fresh.run [(.empty, sampleIntroduction), (.empty, sampleOpening),
      (.empty, sampleChange 2 ["a = <b/>", "a = <i/>"]),
      (.empty, sampleChange 3 ["a = 1"])]).1.state.documents.textOf? sampleUri
      = textAfter List.getLast? sampleUri none (fresh.heard [(.empty, sampleIntroduction),
        (.empty, sampleOpening), (.empty, sampleChange 2 ["a = <b/>", "a = <i/>"]),
        (.empty, sampleChange 3 ["a = 1"])]) := by
  refine (textOf?_run_eq_iff _ sampleUri).2.2.2 ?_
  intro changed version changes last
  have single : (lastWord sampleUri (fresh.heard [(.empty, sampleIntroduction),
      (.empty, sampleOpening), (.empty, sampleChange 2 ["a = <b/>", "a = <i/>"]),
      (.empty, sampleChange 3 ["a = 1"])])).bind (·.textLeft fun changes =>
        if changes.head? = changes.getLast? then some [] else none) = some [] := by
    decide +kernel
  rw [last] at single
  simpa [Notification.textLeft] using single

/-- Of two changes at once the server drops the last one: it holds a text with a useless fragment,
and its editor one without. -/
theorem last_change_is_dropped :
    (fresh.run [(.empty, sampleIntroduction), (.empty, sampleOpening),
      (.empty, sampleChange 2 ["a = <><b/></>", "a = <b/>"])]).1.state.documents.textOf? sampleUri
      = some "a = <><b/></>".toList
    ∧ textAfter List.getLast? sampleUri none (fresh.heard [(.empty, sampleIntroduction),
      (.empty, sampleOpening), (.empty, sampleChange 2 ["a = <><b/></>", "a = <b/>"])])
      = some "a = <b/>".toList := by
  decide +kernel

end Session

end FragmentLint.Server
