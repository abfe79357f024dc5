import FragmentLint.Proofs.File.Locator
import FragmentLint.Proofs.Grammar.Concrete
import FragmentLint.Proofs.Server.Agreement
import FragmentLint.Proofs.Server.Run

/-!
Contract: a session is consistent at any time.

The invariant of a session is that what it holds agrees with what it has published, and that it
holds nothing before the introduction (`Session.Consistent`). Every call keeps it, so it holds
after any calls. A document that was closed stays published as empty until something is published
about it again (`lastAbout_or_republishes`). Main statement: `run_isConsistent`.
-/

namespace FragmentLint.Server

theorem Session.documents_introduce [UriLibrary] (state : State) (introduction : Introduction) :
    (state.introduce introduction).documents = state.documents := by
  unfold State.introduce
  cases introduction.settings <;> cases introduction.root.bind Uri.filePath? <;> rfl

section Library

variable [SyntaxParser]

/-- Any calls keep the order of the store. -/
theorem Session.ordered_run [UriLibrary] {session : Session}
    (ordered : session.state.documents.Ordered) (calls : List (Disk × Call)) :
    (session.run calls).1.state.documents.Ordered := by
  induction calls generalizing session with
  | nil => exact ordered
  | cons head rest inductionHypothesis =>
    obtain ⟨disk, call⟩ := head
    apply inductionHypothesis
    rcases step_cases disk session call with idle | ⟨-, introduced, final, -⟩
      | ⟨-, notification, -, final, -⟩
    · rw [idle.state]
      exact ordered
    · rw [final]
      show (session.state.introduce introduced).documents.Ordered
      rw [documents_introduce]
      exact ordered
    · rw [final]
      exact ordered_notify ordered disk notification

/-- What holds of a session and of all that was sent in it. -/
structure Session.Consistent (session : Session) (sent : List Message) : Prop where
  agrees : Agrees session.state.settings session.state.documents sent
  waiting : session.phase = .waiting → session.state.documents = .empty

namespace Session

variable {session : Session} {sent : List Message}

theorem consistent_fresh : fresh.Consistent [] :=
  ⟨⟨Store.ordered_empty, fun _ member => by cases member⟩, fun _ => rfl⟩

variable [UriLibrary]

theorem Consistent.step [LawfulSyntaxParser] (consistent : session.Consistent sent) (disk : Disk)
    (call : Call) :
    (session.step disk call).session.Consistent (sent ++ (session.step disk call).sent) := by
  rcases step_cases disk session call with idle | ⟨waiting, introduced, final, nothing⟩
    | ⟨-, notification, -, final, sentEq⟩
  · rw [idle.sent, List.append_nil]
    refine ⟨?_, ?_⟩
    · rw [idle.state]
      exact consistent.agrees
    · intro waiting
      rw [idle.state]
      exact consistent.waiting (idle.phase waiting)
  · -- The introduction replaces the settings, and there is no document yet that it would concern.
    rw [final, nothing, List.append_nil]
    have noDocuments : (session.state.introduce introduced).documents = .empty := by
      rw [documents_introduce]
      exact consistent.waiting waiting
    refine ⟨?_, ?_⟩
    · show Agrees _ (session.state.introduce introduced).documents sent
      rw [noDocuments]
      exact ⟨Store.ordered_empty, fun _ member => by cases member⟩
    · intro waiting
      cases waiting
  · rw [final, sentEq]
    refine ⟨consistent.agrees.notify disk notification, ?_⟩
    intro waiting
    cases waiting

/-- Any calls keep a session consistent. -/
theorem Consistent.run [LawfulSyntaxParser] (consistent : session.Consistent sent)
    (calls : List (Disk × Call)) :
    (session.run calls).1.Consistent (sent ++ (session.run calls).2) := by
  induction calls generalizing session sent with
  | nil =>
    simp only [Session.run, List.append_nil]
    exact consistent
  | cons head rest inductionHypothesis =>
    have final := inductionHypothesis (consistent.step head.1 head.2)
    rw [List.append_assoc] at final
    exact final

end Session

/-- Whether a notification may lead to something being published about the document of an identifier
that is not open: it opens or changes that document, or lets the workspace be surveyed. -/
def Notification.MayPublish (uri : Uri) : Notification → Prop
  | .initialized => True
  | .didOpen opened _ _ _ => opened.text = uri.text
  | .didChange changed _ _ => changed.text = uri.text
  | .didClose _ => False
  | .didChangeConfiguration _ => False

theorem hold_other {state : State} {uri : Uri} {document : Document}
    (ordered : state.documents.Ordered) (closed : state.documents.has uri = false)
    (other : document.uri.text ≠ uri.text) :
    (state.hold document).1.documents.has uri = false
      ∧ publishedAbout uri (state.hold document).2 = [] := by
  rw [hold_eq]
  refine ⟨?_, publishedAbout_cons_of_ne other _ _ []⟩
  rw [Bool.eq_false_iff]
  intro isOpen
  rcases Store.has_of_has_put ordered isOpen with wasOpen | same
  · rw [closed] at wasOpen
    cases wasOpen
  · rw [Document.uri_check] at same
    exact other same

theorem hold_self {state : State} {uri : Uri} {document : Document}
    (same : document.uri.text = uri.text) : publishedAbout uri (state.hold document).2 ≠ [] := by
  rw [hold_eq]
  simp [publishedAbout, publication, Message.about?, same]

/-- What is published about a document that is not open: nothing, or that there is nothing to show,
unless it is opened, changed or surveyed. -/
theorem notify_closed [UriLibrary] {state : State} {uri : Uri} (ordered : state.documents.Ordered)
    (closed : state.documents.has uri = false) (disk : Disk) (notification : Notification) :
    ((state.notify disk notification).1.documents.has uri = false
      ∧ (publishedAbout uri (state.notify disk notification).2 = []
        ∨ publishedAbout uri (state.notify disk notification).2 = [(some [], none)]))
      ∨ notification.MayPublish uri
        ∧ publishedAbout uri (state.notify disk notification).2 ≠ [] := by
  cases notification with
  | initialized =>
    by_cases nothing : publishedAbout uri (state.surveyed disk) = []
    · exact Or.inl ⟨closed, Or.inl nothing⟩
    · exact Or.inr ⟨trivial, nothing⟩
  | didOpen opened language version text =>
    by_cases same : opened.text = uri.text
    · exact Or.inr ⟨same, hold_self same⟩
    · obtain ⟨stillClosed, nothing⟩ := @hold_other _ state uri (.unchecked opened text version
        (State.dialectOf opened (some language))) ordered closed same
      exact Or.inl ⟨stillClosed, Or.inl nothing⟩
  | didChange changed version changes =>
    cases changes with
    | nil => exact Or.inl ⟨closed, Or.inl rfl⟩
    | cons text rest =>
      by_cases same : changed.text = uri.text
      · exact Or.inr ⟨same, hold_self same⟩
      · obtain ⟨stillClosed, nothing⟩ := @hold_other _ state uri (.unchecked changed text version
          (((state.documents.find? changed).map (·.dialect)).getD (State.dialectOf changed none)))
          ordered closed same
        exact Or.inl ⟨stillClosed, Or.inl nothing⟩
  | didClose other =>
    refine Or.inl ⟨?_, ?_⟩
    · rw [Bool.eq_false_iff]
      intro isOpen
      rw [(Store.has_of_has_erase isOpen).1] at closed
      cases closed
    · by_cases same : other.text = uri.text
      · exact Or.inr (by simp [State.notify, publishedAbout, Message.about?, same])
      · exact Or.inl (publishedAbout_cons_of_ne same _ _ [])
  | didChangeConfiguration settings =>
    show ((state.configure settings).recheck.1.documents.has uri = false ∧ _) ∨ _
    have configured : (state.configure settings).documents = state.documents := rfl
    have others : ∀ document ∈ state.documents.documents, document.uri.text ≠ uri.text := by
      intro document member same
      rw [Store.has_iff.2 ⟨document, member, same⟩] at closed
      cases closed
    refine Or.inl ⟨?_, Or.inl ?_⟩
    · rw [recheck_eq, configured, Bool.eq_false_iff]
      intro isOpen
      obtain ⟨checked, member, same⟩ := Store.has_iff.1 isOpen
      obtain ⟨document, inStore, rfl⟩ := List.mem_map.1 member
      rw [Document.uri_check] at same
      exact others document inStore same
    · show publishedAbout uri (state.configure settings).recheck.2 = []
      rw [recheck_eq, configured]
      exact publishedAbout_map_publication others

namespace Session

variable [UriLibrary] {session : Session} {sent : List Message}

/-- Whether one of several calls opens or changes a document, or is the one after which the
workspace is surveyed, and something is published about the document then. -/
def Republishes (session : Session) (uri : Uri) (calls : List (Disk × Call)) : Prop :=
  ∃ earlier disk call later notification, calls = earlier ++ (disk, call) :: later
    ∧ call.notification? = some notification ∧ notification.MayPublish uri
    ∧ publishedAbout uri ((session.run earlier).1.step disk call).sent ≠ []

/-- What is published about a document that is not open, by one call. -/
theorem step_closed (consistent : session.Consistent sent) {uri : Uri}
    (closed : session.state.documents.has uri = false) (disk : Disk) (call : Call) :
    ((session.step disk call).session.state.documents.has uri = false
      ∧ (publishedAbout uri (session.step disk call).sent = []
        ∨ publishedAbout uri (session.step disk call).sent = [(some [], none)]))
      ∨ (∃ notification, call.notification? = some notification ∧ notification.MayPublish uri)
        ∧ publishedAbout uri (session.step disk call).sent ≠ [] := by
  rcases step_cases disk session call with idle | ⟨-, introduced, final, nothing⟩
    | ⟨-, notification, read, final, sentEq⟩
  · rw [idle.state, idle.sent]
    exact Or.inl ⟨closed, Or.inl rfl⟩
  · rw [final, nothing]
    refine Or.inl ⟨?_, Or.inl rfl⟩
    show (session.state.introduce introduced).documents.has uri = false
    rw [documents_introduce]
    exact closed
  · rw [final, sentEq]
    rcases notify_closed consistent.agrees.ordered closed disk notification
      with still | ⟨mayPublish, published⟩
    · exact Or.inl still
    · exact Or.inr ⟨⟨notification, read, mayPublish⟩, published⟩

/-- A document that is not open and was last published as empty stays so until something is
published about it again. -/
theorem lastAbout_or_republishes [LawfulSyntaxParser] (consistent : session.Consistent sent)
    {uri : Uri} (closed : session.state.documents.has uri = false)
    (last : lastAbout uri sent = some (some [], none)) (calls : List (Disk × Call)) :
    lastAbout uri (sent ++ (session.run calls).2) = some (some [], none)
      ∨ session.Republishes uri calls := by
  induction calls generalizing session sent with
  | nil =>
    rw [Session.run, List.append_nil]
    exact Or.inl last
  | cons head rest inductionHypothesis =>
    obtain ⟨disk, call⟩ := head
    -- As long as nothing is published about it, the document stays closed.
    rcases step_closed consistent closed disk call with ⟨stillClosed, about⟩
      | ⟨⟨notification, read, mayPublish⟩, published⟩
    · have stillLast :
          lastAbout uri (sent ++ (session.step disk call).sent) = some (some [], none) := by
        rcases about with nothing | again
        · exact (lastAbout_append_of_nil nothing sent).trans last
        · refine lastAbout_append_of_some ?_ sent
          rw [lastAbout, again]
          rfl
      rcases inductionHypothesis (consistent.step disk call) stillClosed stillLast
        with staysLast | ⟨earlier, disk', call', later, notification, restEq, read⟩
      · rw [List.append_assoc] at staysLast
        exact Or.inl staysLast
      · refine Or.inr ⟨(disk, call) :: earlier, disk', call', later, notification, ?_, read⟩
        rw [restEq, List.cons_append]
    · exact Or.inr ⟨[], disk, call, rest, notification, rfl, read, mayPublish, published⟩

/-- A change of the settings keeps every open document but for its reports. -/
theorem identities_of_configuration (session : Session) (disk : Disk) {call : Call}
    {settings : Json} (read : call.notification? = some (.didChangeConfiguration settings)) :
    (session.step disk call).session.state.documents.documents.map Document.identity
      = session.state.documents.documents.map Document.identity := by
  rcases step_cases disk session call with idle | ⟨-, introduced, final, -⟩
    | ⟨-, notification, readToo, final, -⟩
  · rw [idle.state]
  · rw [final]
    show (session.state.introduce introduced).documents.documents.map Document.identity = _
    rw [documents_introduce]
  · rw [read] at readToo
    obtain rfl := Option.some.inj readToo
    rw [final]
    show (session.state.configure settings).recheck.1.documents.documents.map Document.identity = _
    rw [recheck_eq, List.map_map]
    apply List.map_congr_left
    intro document _
    exact Document.identity_check _ document

/-- Language server consistency. After any calls, every document in the store has the reports that
it ought to have under the settings that are stored, and was last published with them and with its
version. A change of the settings keeps all of a document but its reports. Once a document is
closed, it was last published as empty, until a later call publishes something about it again. -/
theorem run_isConsistent [LawfulSyntaxParser] (calls : List (Disk × Call)) :
    (∀ document ∈ (fresh.run calls).1.state.documents.documents, ∃ shown,
      document.Shows (fresh.run calls).1.state.settings shown
        ∧ lastAbout document.uri (fresh.run calls).2 = some (some shown, some document.version))
    ∧ (∀ disk call settings, call.notification? = some (.didChangeConfiguration settings) →
      ((fresh.run calls).1.step disk call).session.state.documents.documents.map Document.identity
        = (fresh.run calls).1.state.documents.documents.map Document.identity)
    ∧ ∀ disk call uri later, (fresh.run calls).1.phase = .running →
      call.notification? = some (.didClose uri) →
        lastAbout uri (fresh.run (calls ++ (disk, call) :: later)).2 = some (some [], none)
          ∨ (fresh.run (calls ++ [(disk, call)])).1.Republishes uri later := by
  have consistent := consistent_fresh.run calls
  rw [List.nil_append] at consistent
  refine ⟨consistent.agrees.shown, ?_, ?_⟩
  · intro disk call settings read
    exact identities_of_configuration _ disk read
  · intro disk call uri later running read
    have step := @step_eq_of_notification? _ _ _ disk _ _ running read
    have afterClosing := consistent.step disk call
    have closed : ((fresh.run calls).1.step disk call).session.state.documents.has uri = false := by
      rw [step]
      show ((fresh.run calls).1.state.documents.erase uri).has uri = false
      rw [Store.has, Store.find?_erase]
      rfl
    have last : lastAbout uri ((fresh.run calls).2 ++ ((fresh.run calls).1.step disk call).sent)
        = some (some [], none) := by
      rw [step]
      apply lastAbout_append_of_some
      show (publishedAbout uri [.publish uri (some []) none]).getLast? = some (some [], none)
      rw [publishedAbout_cons_self]
      rfl
    have later' := lastAbout_or_republishes afterClosing closed last later
    rw [run_append, run_append]
    simp only [run, List.append_nil]
    rw [List.append_assoc] at later'
    exact later'

end Session

end Library

open Scripts

namespace Session

/-- An editor introduces itself. -/
def sampleIntroduction : Call :=
  ⟨"initialize", some (.record [("capabilities", .record [])]), true⟩

/-- A document with a useless fragment is opened. -/
def sampleOpening : Call :=
  ⟨"textDocument/didOpen", some (.record [("textDocument", .record [
    ("uri", .ofString "file:///a.jsx"), ("languageId", .ofString "javascript"),
    ("version", .ofNat 1), ("text", .ofString "a = <><b/></>")])]), false⟩

/-- The document is closed. -/
def sampleClosing : Call :=
  ⟨"textDocument/didClose",
    some (.record [("textDocument", .record [("uri", .ofString "file:///a.jsx")])]), false⟩

/-- The settings are changed to those of someone who sets nothing. -/
def sampleConfiguration : Call :=
  ⟨"workspace/didChangeConfiguration", some (.record [("settings", .record [])]), false⟩

/-- The identifier of the document. -/
def sampleUri : Uri := ⟨"file:///a.jsx".toList⟩

/-- The calls after which the document is open. -/
def sampleCalls : List (Disk × Call) :=
  [(.empty, sampleIntroduction), (.empty, sampleOpening)]

/-- An open document with a report is shown with it, is kept when the settings change, and is shown
without it when it is closed. -/
theorem run_isConsistent_sample :
    ∃ document shown,
      (fresh.run [(.empty, sampleIntroduction), (.empty, sampleOpening)]).1.state.documents
        = ⟨[document]⟩
      ∧ document.uri = sampleUri ∧ document.reports.length = 1
      ∧ document.Shows
        (fresh.run [(.empty, sampleIntroduction), (.empty, sampleOpening)]).1.state.settings shown
      ∧ lastAbout document.uri
        (fresh.run [(.empty, sampleIntroduction), (.empty, sampleOpening)]).2
          = some (some shown, some 1)
      ∧ ((fresh.run [(.empty, sampleIntroduction), (.empty, sampleOpening)]).1.step .empty
          sampleConfiguration).session.state.documents.documents.map Document.identity
        = [document.identity]
      ∧ lastAbout sampleUri (fresh.run [(.empty, sampleIntroduction), (.empty, sampleOpening),
        (.empty, sampleClosing), (.empty, sampleConfiguration)]).2 = some (some [], none) := by
  have computed :
      (fresh.run [(.empty, sampleIntroduction), (.empty, sampleOpening)]).1.state.documents
      = ⟨[⟨sampleUri, "a = <><b/></>".toList, 1, .javascript,
        [⟨⟨4, 13⟩, .needsMoreChildren, some ⟨⟨4, 13⟩, "<b/>".toList⟩⟩]⟩]⟩ := by
    decide +kernel
  have running : (fresh.run [(.empty, sampleIntroduction), (.empty, sampleOpening)]).1.phase
      = .running := by
    decide +kernel
  obtain ⟨shown, kept, closed⟩ :=
    run_isConsistent [(.empty, sampleIntroduction), (.empty, sampleOpening)]
  rw [computed] at shown kept
  obtain ⟨warnings, shows, last⟩ := shown _ List.mem_cons_self
  have identities := kept .empty sampleConfiguration (.object []) rfl
  have configured : sampleConfiguration.notification?
      = some (.didChangeConfiguration (.object [])) :=
    rfl
  refine ⟨_, warnings, computed, rfl, rfl, shows, last, identities, ?_⟩
  rcases closed .empty sampleClosing sampleUri [(.empty, sampleConfiguration)] running rfl
    with lastOfAll | ⟨earlier, disk, call, later, notification, callsEq, read, mayPublish, -⟩
  · exact lastOfAll
  · -- The only later call changes the settings, which publishes nothing about it.
    cases earlier with
    | nil =>
      obtain ⟨callEq, -⟩ := List.cons.inj callsEq
      obtain ⟨-, rfl⟩ := Prod.mk.inj callEq
      rw [configured] at read
      obtain rfl := Option.some.inj read
      exact mayPublish.elim
    | cons head rest => simp at callsEq

end Session

end FragmentLint.Server
