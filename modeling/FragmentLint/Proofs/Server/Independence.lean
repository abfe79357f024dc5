import FragmentLint.Proofs.File.Locator
import FragmentLint.Proofs.Grammar.Concrete
import FragmentLint.Proofs.Server.Consistency

/-!
Contract: the documents of a session do not affect one another.

To open, change or close a document reads the settings and the entry of that document, and writes
that entry (`State.notify_affects`). So what becomes of a document, and what is published about it,
is the same as if nothing had been said about any other one (`Session.AgreeOn.run_callsAbout`). Main
statement: calls about some documents and calls about others may be interleaved in any way
(`Session.run_eq_of_interleaving`).

Does not own: changes of the settings and surveys of the workspace, which concern every document.
-/

namespace FragmentLint.Server

namespace Notification

/-- The document that is opened, changed or closed. -/
def document? : Notification → Option Uri
  | didOpen uri _ _ _ => some uri
  | didChange uri _ _ => some uri
  | didClose uri => some uri
  | initialized => none
  | didChangeConfiguration _ => none

end Notification

namespace State

/-- Whether a step of the server is no more than an effect on one document. -/
structure Affects (state : State) (uri : Uri) (effect : Option Document × List Message)
    (result : State × List Message) : Prop where
  settings : result.1.settings = state.settings
  root : result.1.root = state.root
  own : result.1.documents.find? uri = effect.1
  others : ∀ other : Uri, other.text ≠ uri.text →
    result.1.documents.find? other = state.documents.find? other
  sent : result.2 = effect.2
  silent : ∀ other : Uri, other.text ≠ uri.text → publishedAbout other result.2 = []

theorem affects_hold [SyntaxParser] (state : State) (document : Document) :
    state.Affects document.uri
      (some (document.check state.settings).1, [publication state.settings document])
      (state.hold document) := by
  have uriEq := Document.uri_check state.settings document
  rw [hold_eq]
  refine ⟨rfl, rfl, ?_, ?_, rfl, ?_⟩
  · have found := Store.find?_put state.documents (document.check state.settings).1
    rwa [uriEq] at found
  · intro other different
    apply Store.find?_put_of_ne
    rwa [uriEq]
  · intro other different
    exact publishedAbout_cons_of_ne different.symm _ _ []

theorem affects_self (state : State) (uri : Uri) :
    state.Affects uri (state.documents.find? uri, []) (state, []) :=
  ⟨rfl, rfl, rfl, fun _ _ => rfl, rfl, fun _ _ => rfl⟩

theorem affects_close (state : State) (uri : Uri) :
    state.Affects uri (none, [.publish uri (some []) none])
      ({ state with documents := state.documents.erase uri }, [.publish uri (some []) none]) := by
  refine ⟨rfl, rfl, Store.find?_erase _ _, ?_, rfl, ?_⟩
  · intro other different
    exact Store.find?_erase_of_ne state.documents different
  · intro other different
    exact publishedAbout_cons_of_ne different.symm _ _ []

end State

namespace Session

/-- Whether two sessions are the same as far as one document is concerned. -/
structure AgreeOn (uri : Uri) (session other : Session) : Prop where
  phase : session.phase = other.phase
  settings : session.state.settings = other.state.settings
  root : session.state.root = other.state.root
  found : session.state.documents.find? uri = other.state.documents.find? uri

theorem AgreeOn.refl (uri : Uri) (session : Session) : session.AgreeOn uri session :=
  ⟨rfl, rfl, rfl, rfl⟩

variable {uri : Uri} {session other : Session}

theorem AgreeOn.trans_symm {third : Session} (agree : session.AgreeOn uri other)
    (agreeToo : third.AgreeOn uri other) : session.AgreeOn uri third :=
  ⟨agree.phase.trans agreeToo.phase.symm, agree.settings.trans agreeToo.settings.symm,
    agree.root.trans agreeToo.root.symm, agree.found.trans agreeToo.found.symm⟩

/-- Sessions that agree on every document are the same. -/
theorem eq_of_agreeOn (ordered : session.state.documents.Ordered)
    (orderedToo : other.state.documents.Ordered) (agree : ∀ uri, session.AgreeOn uri other) :
    session = other := by
  obtain ⟨phase, settings, documents, root⟩ := session
  obtain ⟨phaseToo, settingsToo, documentsToo, rootToo⟩ := other
  have same := agree default
  obtain rfl : phase = phaseToo := same.phase
  obtain rfl : settings = settingsToo := same.settings
  obtain rfl : root = rootToo := same.root
  obtain rfl : documents = documentsToo := ordered.ext orderedToo fun uri => (agree uri).found
  rfl

end Session

/-- Whether a list has the elements of two lists, those of each in the order in which they are
there. -/
inductive Interleaving {α : Type} : List α → List α → List α → Prop where
  | done : Interleaving [] [] []
  | left {item : α} {first second whole : List α} (rest : Interleaving first second whole) :
      Interleaving (item :: first) second (item :: whole)
  | right {item : α} {first second whole : List α} (rest : Interleaving first second whole) :
      Interleaving first (item :: second) (item :: whole)

namespace Interleaving

variable {α : Type} {first second whole : List α}

theorem symm (interleaving : Interleaving first second whole) :
    Interleaving second first whole := by
  induction interleaving with
  | done => exact .done
  | left rest inductionHypothesis => exact .right inductionHypothesis
  | right rest inductionHypothesis => exact .left inductionHypothesis

theorem mem_or_mem (interleaving : Interleaving first second whole) {item : α}
    (member : item ∈ whole) : item ∈ first ∨ item ∈ second := by
  induction interleaving with
  | done => cases member
  | left rest inductionHypothesis =>
    rcases List.mem_cons.1 member with rfl | later
    · exact Or.inl List.mem_cons_self
    · exact (inductionHypothesis later).imp_left (List.mem_cons_of_mem _)
  | right rest inductionHypothesis =>
    rcases List.mem_cons.1 member with rfl | later
    · exact Or.inr List.mem_cons_self
    · exact (inductionHypothesis later).imp_right (List.mem_cons_of_mem _)

/-- What is not in the second list is in the order of the first one. -/
theorem filter_eq (interleaving : Interleaving first second whole) {keep : α → Bool}
    (none : ∀ item ∈ second, ¬ keep item = true) : whole.filter keep = first.filter keep := by
  induction interleaving with
  | done => rfl
  | left rest inductionHypothesis =>
    rw [List.filter_cons, List.filter_cons, inductionHypothesis none]
  | right rest inductionHypothesis =>
    rw [List.filter_cons_of_neg (none _ List.mem_cons_self)]
    exact inductionHypothesis fun item member => none item (List.mem_cons_of_mem _ member)

end Interleaving

section Library

variable [UriLibrary]

/-- The document that a call opens, changes or closes. -/
def Call.document? (call : Call) : Option Uri := call.notification?.bind Notification.document?

theorem Call.exists_notification_of_document? {uri : Uri} {call : Call}
    (about : call.document? = some uri) :
    ∃ notification, call.notification? = some notification ∧ notification.document? = some uri :=
  Option.bind_eq_some_iff.1 about

/-- Whether a call opens, changes or closes the document of an identifier. -/
def Call.isAbout (uri : Uri) (call : Call) : Bool :=
  call.document?.any fun subject => subject.text == uri.text

theorem Call.isAbout_iff {uri : Uri} {call : Call} :
    call.isAbout uri = true
      ↔ ∃ subject, call.document? = some subject ∧ subject.text = uri.text := by
  unfold isAbout
  cases call.document? with
  | none => simp
  | some subject => simp

/-- Those of several calls that are about the document of an identifier. -/
def callsAbout (uri : Uri) (calls : List (Disk × Call)) : List (Disk × Call) :=
  calls.filter fun item => item.2.isAbout uri

theorem callsAbout_cons_of_eq {uri about : Uri} {call : Call}
    (isAbout : call.document? = some about) (same : about.text = uri.text) (disk : Disk)
    (rest : List (Disk × Call)) :
    callsAbout uri ((disk, call) :: rest) = (disk, call) :: callsAbout uri rest := by
  simp [callsAbout, Call.isAbout, isAbout, same]

theorem callsAbout_cons_of_ne {uri about : Uri} {call : Call}
    (isAbout : call.document? = some about) (different : about.text ≠ uri.text) (disk : Disk)
    (rest : List (Disk × Call)) :
    callsAbout uri ((disk, call) :: rest) = callsAbout uri rest := by
  simp [callsAbout, Call.isAbout, isAbout, different]

/-- Of calls about different documents, interleaved in any way, those about one document are those of
one of the two lists. -/
theorem callsAbout_of_interleaving {first second whole other : List (Disk × Call)}
    (disjoint : ∀ item ∈ first, ∀ item' ∈ second, ∀ subject subject' : Uri,
      item.2.document? = some subject → item'.2.document? = some subject' →
        subject.text ≠ subject'.text)
    (interleaving : Interleaving first second whole) (another : Interleaving first second other)
    (uri : Uri) : callsAbout uri whole = callsAbout uri other := by
  unfold callsAbout
  by_cases inFirst : ∃ item ∈ first, item.2.isAbout uri = true
  · obtain ⟨item, member, isAbout⟩ := inFirst
    obtain ⟨subject, subjectEq, same⟩ := Call.isAbout_iff.1 isAbout
    have none : ∀ item' ∈ second, ¬ item'.2.isAbout uri = true := by
      intro item' member' isAboutToo
      obtain ⟨subject', subjectEq', sameToo⟩ := Call.isAbout_iff.1 isAboutToo
      apply disjoint item member item' member' subject subject' subjectEq subjectEq'
      exact same.trans sameToo.symm
    rw [interleaving.filter_eq none, another.filter_eq none]
  · have none : ∀ item ∈ first, ¬ item.2.isAbout uri = true :=
      fun item member isAbout => inFirst ⟨item, member, isAbout⟩
    rw [interleaving.symm.filter_eq none, another.symm.filter_eq none]

variable [SyntaxParser]

/-- What becomes of the document that is opened, changed or closed, and what is sent; `found` is the
document as it was open before. -/
def Notification.effect (settings : Except SettingsError Settings) (found : Option Document) :
    Notification → Option Document × List Message
  | .didOpen uri language version text =>
    let opened := Document.unchecked uri text version (State.dialectOf uri (some language))
    (some (opened.check settings).1, [publication settings opened])
  | .didChange uri version (text :: _) =>
    let dialect := (found.map (·.dialect)).getD (State.dialectOf uri none)
    let changed := Document.unchecked uri text version dialect
    (some (changed.check settings).1, [publication settings changed])
  | .didClose uri => (none, [.publish uri (some []) none])
  | _ => (found, [])

namespace State

/-- To open, change or close a document affects that document, in a way that depends on the settings
and on what it was before. -/
theorem notify_affects {notification : Notification} (about : notification.document? = some uri)
    (disk : Disk) (state : State) :
    state.Affects uri (notification.effect state.settings (state.documents.find? uri))
      (state.notify disk notification) := by
  cases notification with
  | didOpen opened language version text =>
    obtain rfl : opened = uri := Option.some.inj about
    exact state.affects_hold (.unchecked opened text version (dialectOf opened (some language)))
  | didChange changed version changes =>
    obtain rfl : changed = uri := Option.some.inj about
    cases changes with
    | nil => exact state.affects_self changed
    | cons text rest => exact state.affects_hold (.unchecked changed text version _)
  | didClose closed =>
    obtain rfl : closed = uri := Option.some.inj about
    exact state.affects_close closed
  | initialized => cases about
  | didChangeConfiguration settings => cases about

end State

namespace Session

variable {uri : Uri} {call : Call} {session other : Session}

/-- A call about another document changes nothing about the document, and publishes nothing about
it. -/
theorem AgreeOn.step_other (agree : session.AgreeOn uri other) {subject : Uri}
    (isAbout : call.document? = some subject) (different : subject.text ≠ uri.text) (disk : Disk) :
    (session.step disk call).session.AgreeOn uri other
      ∧ publishedAbout uri (session.step disk call).sent = [] := by
  obtain ⟨notification, read, about⟩ := Call.exists_notification_of_document? isAbout
  by_cases running : session.phase = .running
  · have affects := State.notify_affects about disk session.state
    rw [step_eq_of_notification? running read]
    refine ⟨⟨running ▸ agree.phase, ?_, ?_, ?_⟩, affects.silent uri different.symm⟩
    · exact affects.settings.trans agree.settings
    · exact affects.root.trans agree.root
    · exact (affects.others uri different.symm).trans agree.found
  · obtain ⟨same, nothing⟩ := step_eq_of_not_running disk running read
    rw [same, nothing]
    exact ⟨agree, rfl⟩

/-- A call about the document has the same effect on it, and publishes the same. -/
theorem AgreeOn.step_own (agree : session.AgreeOn uri other) {subject : Uri}
    (isAbout : call.document? = some subject) (same : subject.text = uri.text) (disk : Disk) :
    (session.step disk call).session.AgreeOn uri (other.step disk call).session
      ∧ (session.step disk call).sent = (other.step disk call).sent := by
  obtain ⟨notification, read, about⟩ := Call.exists_notification_of_document? isAbout
  by_cases running : session.phase = .running
  · have runningToo : other.phase = .running := agree.phase ▸ running
    have affects := State.notify_affects about disk session.state
    have affectsToo := State.notify_affects about disk other.state
    -- The effect depends on nothing but what the sessions agree on.
    have sameEffect : notification.effect session.state.settings
          (session.state.documents.find? subject)
        = notification.effect other.state.settings (other.state.documents.find? subject) := by
      rw [agree.settings, Store.find?_congr same, Store.find?_congr same, agree.found]
    rw [sameEffect] at affects
    rw [step_eq_of_notification? running read, step_eq_of_notification? runningToo read]
    refine ⟨⟨rfl, ?_, ?_, ?_⟩, affects.sent.trans affectsToo.sent.symm⟩
    · exact affects.settings.trans (agree.settings.trans affectsToo.settings.symm)
    · exact affects.root.trans (agree.root.trans affectsToo.root.symm)
    · rw [← Store.find?_congr same, ← Store.find?_congr same]
      exact affects.own.trans affectsToo.own.symm
  · have idleToo : other.phase ≠ .running := agree.phase ▸ running
    obtain ⟨unchanged, nothing⟩ := step_eq_of_not_running disk running read
    obtain ⟨unchangedToo, nothingToo⟩ := step_eq_of_not_running disk idleToo read
    rw [unchanged, nothing, unchangedToo, nothingToo]
    exact ⟨agree, rfl⟩

/-- What becomes of a document, and what is published about it, is the same as if nothing had been
said about any other one. -/
theorem AgreeOn.run_callsAbout (agree : session.AgreeOn uri other) {calls : List (Disk × Call)}
    (documents : ∀ item ∈ calls, ∃ subject, item.2.document? = some subject) :
    (session.run calls).1.AgreeOn uri (other.run (callsAbout uri calls)).1
      ∧ publishedAbout uri (session.run calls).2
        = publishedAbout uri (other.run (callsAbout uri calls)).2 := by
  induction calls generalizing session other with
  | nil => exact ⟨agree, rfl⟩
  | cons head rest inductionHypothesis =>
    obtain ⟨disk, call⟩ := head
    obtain ⟨subject, isAbout⟩ := documents (disk, call) List.mem_cons_self
    have restDocuments := fun item member => documents item (List.mem_cons_of_mem _ member)
    by_cases same : subject.text = uri.text
    · obtain ⟨agreeAfter, sameSent⟩ := agree.step_own isAbout same disk
      obtain ⟨agreeAtEnd, samePublished⟩ := inductionHypothesis agreeAfter restDocuments
      rw [callsAbout_cons_of_eq isAbout same]
      refine ⟨agreeAtEnd, ?_⟩
      simp only [run]
      rw [publishedAbout_append, publishedAbout_append, sameSent, samePublished]
    · obtain ⟨agreeAfter, nothing⟩ := agree.step_other isAbout same disk
      obtain ⟨agreeAtEnd, samePublished⟩ := inductionHypothesis agreeAfter restDocuments
      rw [callsAbout_cons_of_ne isAbout same]
      refine ⟨agreeAtEnd, ?_⟩
      simp only [run]
      rw [publishedAbout_append, nothing, List.nil_append, samePublished]

/-- Independence of documents. After any calls, let there be calls that open, change and close some
documents, and calls that do so with others. In whatever way these are interleaved, the session ends
up the same, with the same documents, and the same is published about each document, in the same
order. -/
theorem run_eq_of_interleaving (calls : List (Disk × Call))
    {first second whole other : List (Disk × Call)}
    (documents : ∀ item ∈ first, ∃ subject, item.2.document? = some subject)
    (documents' : ∀ item ∈ second, ∃ subject, item.2.document? = some subject)
    (disjoint : ∀ item ∈ first, ∀ item' ∈ second, ∀ subject subject' : Uri,
      item.2.document? = some subject → item'.2.document? = some subject' →
        subject.text ≠ subject'.text)
    (interleaving : Interleaving first second whole)
    (another : Interleaving first second other) :
    ((fresh.run calls).1.run whole).1 = ((fresh.run calls).1.run other).1
      ∧ ∀ uri, publishedAbout uri ((fresh.run calls).1.run whole).2
        = publishedAbout uri ((fresh.run calls).1.run other).2 := by
  have ordered (items : List (Disk × Call)) :
      ((fresh.run calls).1.run items).1.state.documents.Ordered :=
    ordered_run (ordered_run Store.ordered_empty calls) items
  have allDocuments {items : List (Disk × Call)} (isOne : Interleaving first second items) :
      ∀ item ∈ items, ∃ subject, item.2.document? = some subject := by
    intro item member
    exact (isOne.mem_or_mem member).elim (documents item) (documents' item)
  -- Both runs do to each document what the calls about it alone do.
  have alone (uri : Uri) := (AgreeOn.refl uri (fresh.run calls).1).run_callsAbout
    (allDocuments interleaving)
  have aloneToo (uri : Uri) := (AgreeOn.refl uri (fresh.run calls).1).run_callsAbout
    (allDocuments another)
  have sameCalls (uri : Uri) := callsAbout_of_interleaving disjoint interleaving another uri
  refine ⟨?_, ?_⟩
  · apply eq_of_agreeOn (ordered whole) (ordered other)
    intro uri
    apply (alone uri).1.trans_symm
    rw [sameCalls uri]
    exact (aloneToo uri).1
  · intro uri
    rw [(alone uri).2, (aloneToo uri).2, sameCalls uri]

end Session

end Library

open Scripts

namespace Session

/-- Another document is opened. -/
def sampleOtherOpening : Call :=
  ⟨"textDocument/didOpen", some (.record [("textDocument", .record [
    ("uri", .ofString "file:///b.jsx"), ("languageId", .ofString "javascript"),
    ("version", .ofNat 1), ("text", .ofString "<p><>b</></p>")])]), false⟩

/-- While a document is closed and opened again, another one is opened, before or in between. -/
theorem run_eq_of_interleaving_sample :
    (fresh.run sampleCalls).1.phase = .running
      ∧ ((fresh.run sampleCalls).1.run [(.empty, sampleClosing), (.empty, sampleOtherOpening),
          (.empty, sampleOpening)]).1
        = ((fresh.run sampleCalls).1.run [(.empty, sampleOtherOpening), (.empty, sampleClosing),
          (.empty, sampleOpening)]).1
      ∧ publishedAbout sampleUri ((fresh.run sampleCalls).1.run [(.empty, sampleClosing),
          (.empty, sampleOtherOpening), (.empty, sampleOpening)]).2
        = publishedAbout sampleUri ((fresh.run sampleCalls).1.run [(.empty, sampleOtherOpening),
          (.empty, sampleClosing), (.empty, sampleOpening)]).2 := by
  have running : (fresh.run sampleCalls).1.phase = .running := by decide +kernel
  have closes : sampleClosing.document? = some sampleUri := by decide +kernel
  have opens : sampleOpening.document? = some sampleUri := by decide +kernel
  have opensOther : sampleOtherOpening.document?
      = some ⟨"file:///b.jsx".toList⟩ := by
    decide +kernel
  have documents : ∀ item ∈ [(Disk.empty, sampleClosing), (.empty, sampleOpening)],
      item.2.document? = some sampleUri := by
    simp [closes, opens]
  have documents' : ∀ item ∈ [(Disk.empty, sampleOtherOpening)],
      item.2.document? = some ⟨"file:///b.jsx".toList⟩ := by
    simp [opensOther]
  obtain ⟨same, published⟩ := run_eq_of_interleaving sampleCalls
    (fun item member => ⟨_, documents item member⟩)
    (fun item member => ⟨_, documents' item member⟩)
    (by
      intro item member item' member' subject subject' isAbout isAbout'
      rw [documents item member] at isAbout
      rw [documents' item' member'] at isAbout'
      obtain rfl := Option.some.inj isAbout
      obtain rfl := Option.some.inj isAbout'
      decide)
    (.left (.right (.left .done))) (.right (.left (.left .done)))
  exact ⟨running, same, published sampleUri⟩

end Session

end FragmentLint.Server
