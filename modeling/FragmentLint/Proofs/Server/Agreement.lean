import FragmentLint.Proofs.Editor.Document
import FragmentLint.Proofs.Server.Store

/-!
Contract: what a language server holds and what it has published agree.

Every document in the store has the reports that it ought to have under the current settings, and
was last published with them (`Agrees`). Main statement: every notification keeps this so
(`Agrees.notify`).

Owns: what was published about a document, and the agreement.
Does not own: phases of a session, and what becomes of closed documents.
-/

namespace FragmentLint.Server

/-- What a message shows about the document of an identifier, and for which version of it. -/
def Message.about? (uri : Uri) : Message → Option (Option (List Diagnostic) × Option Int)
  | publish about diagnostics version =>
    if about.text == uri.text then some (diagnostics, version) else none
  | log _ => none

/-- All that was published about the document of an identifier. -/
def publishedAbout (uri : Uri) (sent : List Message) :
    List (Option (List Diagnostic) × Option Int) :=
  sent.filterMap (Message.about? uri)

/-- What was last published about the document of an identifier. -/
def lastAbout (uri : Uri) (sent : List Message) : Option (Option (List Diagnostic) × Option Int) :=
  (publishedAbout uri sent).getLast?

theorem publishedAbout_append (uri : Uri) (before after : List Message) :
    publishedAbout uri (before ++ after) = publishedAbout uri before ++ publishedAbout uri after :=
  List.filterMap_append

theorem publishedAbout_cons_self (uri : Uri) (diagnostics : Option (List Diagnostic))
    (version : Option Int) (rest : List Message) :
    publishedAbout uri (.publish uri diagnostics version :: rest)
      = (diagnostics, version) :: publishedAbout uri rest := by
  simp [publishedAbout, Message.about?]

theorem publishedAbout_cons_of_ne {uri other : Uri} (different : other.text ≠ uri.text)
    (diagnostics : Option (List Diagnostic)) (version : Option Int) (rest : List Message) :
    publishedAbout uri (.publish other diagnostics version :: rest) = publishedAbout uri rest := by
  simp [publishedAbout, Message.about?, different]

theorem lastAbout_append_of_nil {uri : Uri} {after : List Message}
    (nothing : publishedAbout uri after = []) (before : List Message) :
    lastAbout uri (before ++ after) = lastAbout uri before := by
  unfold lastAbout
  rw [publishedAbout_append, nothing, List.append_nil]

theorem lastAbout_append_of_some {uri : Uri} {after : List Message}
    {last : Option (List Diagnostic) × Option Int} (found : lastAbout uri after = some last)
    (before : List Message) : lastAbout uri (before ++ after) = some last := by
  unfold lastAbout at found ⊢
  rw [publishedAbout_append, List.getLast?_append, found]
  rfl

section Library

variable [SyntaxParser]

/-- What is published about a document when it is checked. -/
def publication (settings : Except SettingsError Settings) (document : Document) : Message :=
  .publish document.uri (document.check settings).2 (some document.version)

theorem hold_eq (state : State) (document : Document) :
    state.hold document
      = ({ state with documents := state.documents.put (document.check state.settings).1 },
        [publication state.settings document]) := by
  unfold State.hold publication
  rw [← Document.uri_check state.settings, ← Document.version_check state.settings]

/-- Checking all documents again changes each of them and publishes what is to be shown about
each. -/
theorem recheck_eq (state : State) :
    state.recheck
      = ({ state with
          documents := ⟨state.documents.documents.map fun document =>
            (document.check state.settings).1⟩ },
        state.documents.documents.map (publication state.settings)) := by
  have each : publication state.settings = fun document =>
      .publish (document.check state.settings).1.uri (document.check state.settings).2
        (some (document.check state.settings).1.version) := by
    funext document
    rw [publication, Document.uri_check, Document.version_check]
  unfold State.recheck
  rw [each]
  simp only [List.map_map]
  rfl

theorem publishedAbout_map_publication {settings : Except SettingsError Settings} {uri : Uri}
    {documents : List Document} (others : ∀ document ∈ documents, document.uri.text ≠ uri.text) :
    publishedAbout uri (documents.map (publication settings)) = [] := by
  induction documents with
  | nil => rfl
  | cons head rest inductionHypothesis =>
    rw [List.map_cons, publication, publishedAbout_cons_of_ne (others head List.mem_cons_self)]
    exact inductionHypothesis fun document member => others document (List.mem_cons_of_mem _ member)

/-- What is published about the files of the workspace is not about an open document. -/
theorem publishedAbout_surveyed [UriLibrary] {state : State} {uri : Uri}
    (isOpen : state.documents.has uri = true) (disk : Disk) :
      publishedAbout uri (state.surveyed disk) = [] := by
  unfold State.surveyed
  rw [publishedAbout_append, List.append_eq_nil_iff]
  refine ⟨?_, rfl⟩
  unfold publishedAbout
  rw [List.filterMap_map, List.filterMap_eq_nil_iff]
  intro file member
  have closed : state.documents.has file.uri = false := by
    simpa using (List.mem_filter.1 member).2
  have different : file.uri.text ≠ uri.text := by
    intro same
    obtain ⟨document, inStore, uriEq⟩ := Store.has_iff.1 isOpen
    have isOpenToo := Store.has_iff.2 ⟨document, inStore, uriEq.trans same.symm⟩
    rw [closed] at isOpenToo
    cases isOpenToo
  show (if file.uri.text == uri.text then some _ else none) = none
  rw [if_neg (by simpa using different)]

theorem ordered_recheck {state : State} (ordered : state.documents.Ordered) :
    state.recheck.1.documents.Ordered := by
  rw [recheck_eq]
  unfold Store.Ordered at ordered ⊢
  rw [List.pairwise_map]
  refine List.Pairwise.imp ?_ ordered
  intro first second before
  unfold Store.Before at before ⊢
  rw [Document.uri_check, Document.uri_check]
  exact before

/-- Every notification keeps the order of the store. -/
theorem ordered_notify [UriLibrary] {state : State} (ordered : state.documents.Ordered)
    (disk : Disk) (notification : Notification) :
    (state.notify disk notification).1.documents.Ordered := by
  cases notification with
  | initialized => exact ordered
  | didOpen uri language version text => exact Store.ordered_put ordered _
  | didChange uri version changes =>
    cases changes with
    | nil => exact ordered
    | cons text rest => exact Store.ordered_put ordered _
  | didClose uri => exact Store.ordered_erase ordered uri
  | didChangeConfiguration settings => exact @ordered_recheck _ (state.configure settings) ordered

/-- Whether documents are checked under some settings, and were last published as they are. -/
structure Agrees (settings : Except SettingsError Settings) (documents : Store)
    (sent : List Message) : Prop where
  ordered : documents.Ordered
  shown : ∀ document ∈ documents.documents, ∃ shown, document.Shows settings shown
    ∧ lastAbout document.uri sent = some (some shown, some document.version)

namespace Agrees

variable {state : State} {sent : List Message}

theorem close (agrees : Agrees state.settings state.documents sent) (uri : Uri) :
    Agrees state.settings (state.documents.erase uri) (sent ++ [.publish uri (some []) none]) := by
  refine ⟨Store.ordered_erase agrees.ordered uri, ?_⟩
  intro document member
  obtain ⟨inStore, other⟩ := Store.mem_erase.1 member
  obtain ⟨shown, shows, last⟩ := agrees.shown document inStore
  exact ⟨shown, shows, (lastAbout_append_of_nil
    (publishedAbout_cons_of_ne other.symm _ _ []) sent).trans last⟩

variable [LawfulSyntaxParser]

/-- A document that is published agrees with what is published about it, if nothing behind that is
about it. -/
theorem lastAbout_publication {settings : Except SettingsError Settings} {document : Document}
    {after : List Message} (nothing : publishedAbout document.uri after = [])
    (before : List Message) :
    ∃ shown, (document.check settings).1.Shows settings shown
      ∧ lastAbout (document.check settings).1.uri (before ++ publication settings document :: after)
        = some (some shown, some (document.check settings).1.version) := by
  obtain ⟨shown, isShown, shows⟩ := Document.exists_shows_check settings document
  refine ⟨shown, shows, ?_⟩
  rw [Document.uri_check, Document.version_check]
  refine lastAbout_append_of_some ?_ before
  unfold lastAbout publication
  rw [publishedAbout_cons_self, nothing, isShown]
  rfl

theorem hold (agrees : Agrees state.settings state.documents sent) (document : Document) :
    Agrees (state.hold document).1.settings (state.hold document).1.documents
      (sent ++ (state.hold document).2) := by
  rw [hold_eq]
  refine ⟨Store.ordered_put agrees.ordered _, ?_⟩
  intro held member
  rcases Store.mem_put agrees.ordered _ held member with rfl | ⟨inStore, other⟩
  · exact lastAbout_publication rfl sent
  · rw [Document.uri_check] at other
    obtain ⟨shown, shows, last⟩ := agrees.shown held inStore
    exact ⟨shown, shows, (lastAbout_append_of_nil
      (publishedAbout_cons_of_ne other.symm _ _ []) sent).trans last⟩

/-- Checking all documents again makes them agree, whatever was sent before. -/
theorem recheck (ordered : state.documents.Ordered) (sent : List Message) :
    Agrees state.recheck.1.settings state.recheck.1.documents (sent ++ state.recheck.2) := by
  refine ⟨ordered_recheck ordered, ?_⟩
  rw [recheck_eq]
  intro checked member
  obtain ⟨document, inStore, rfl⟩ := List.mem_map.1 member
  -- Of what is published now, nothing behind this document is about it.
  obtain ⟨before, after, split⟩ := List.append_of_mem inStore
  unfold Store.Ordered at ordered
  rw [split] at ordered
  have others := (List.pairwise_cons.1 (List.pairwise_append.1 ordered).2.1).1
  have nothing := @publishedAbout_map_publication _ state.settings document.uri after
    fun later isLater => (others later isLater).2.symm
  have last := @lastAbout_publication _ _ state.settings document _ nothing
    (sent ++ before.map (publication state.settings))
  have published : sent ++ before.map (publication state.settings)
      ++ publication state.settings document :: after.map (publication state.settings)
      = sent ++ state.documents.documents.map (publication state.settings) := by
    rw [split, List.map_append, List.map_cons, List.append_assoc]
  rw [published] at last
  exact last

/-- Every notification keeps the agreement. -/
theorem notify [UriLibrary] (agrees : Agrees state.settings state.documents sent) (disk : Disk)
    (notification : Notification) :
    Agrees (state.notify disk notification).1.settings (state.notify disk notification).1.documents
      (sent ++ (state.notify disk notification).2) := by
  cases notification with
  | initialized =>
    refine ⟨agrees.ordered, ?_⟩
    intro document member
    obtain ⟨shown, shows, last⟩ := agrees.shown document member
    have isOpen : state.documents.has document.uri = true :=
      Store.has_iff.2 ⟨document, member, rfl⟩
    refine ⟨shown, shows, ?_⟩
    exact (lastAbout_append_of_nil (publishedAbout_surveyed isOpen disk) sent).trans last
  | didOpen uri language version text => exact agrees.hold _
  | didChange uri version changes =>
    cases changes with
    | nil =>
      simp only [State.notify, List.append_nil]
      exact agrees
    | cons text rest => exact agrees.hold _
  | didClose uri => exact agrees.close uri
  | didChangeConfiguration settings =>
    have ordered : (state.configure settings).documents.Ordered := agrees.ordered
    exact recheck ordered sent

end Agrees

end Library

end FragmentLint.Server
