import FragmentLint.Proofs.Editor.Action
import FragmentLint.Proofs.File.Locator
import FragmentLint.Proofs.Grammar.Concrete
import FragmentLint.Proofs.Passes
import FragmentLint.Proofs.Server.Consistency

/-!
Contract: what a server offers for a range of a document.

The quick fixes come from the reports that are stored, and the fix of the whole document from
another check under the settings that are stored. These agree in every session, so a stored report
with a fix means that the fix of the whole document changes the text. Main statement:
`codeAction_offers`.

Does not own: which quick fixes a range has.
-/

namespace FragmentLint.Server

/-- The answer that lists some actions; there is no empty list, and no answer without a list. -/
def answer : Option (List Action) → Response
  | none => .failed
  | some found => .result (if found = [] then .null else .array (found.map Action.toJson))

/-- If all kinds are wanted, all actions are let through. -/
theorem State.filter_isWanted_none (found : List Action) :
    found.filter (isWanted none) = found := by
  rw [List.filter_eq_self]
  intro action _
  rfl

section Library

variable [SyntaxParser]

namespace State

variable {state : State} {document : Document}

/-- Whether a document that is stored has something to fix, and its text, fixed under the settings
that are stored, is the given one. -/
structure Fixes (state : State) (document : Document) (output : Text) : Prop where
  reported : ∃ report ∈ document.reports, report.fix.isSome = true
  fixed : ∃ settings outcome, state.settings = .ok settings
    ∧ fix settings document.dialect document.text = .ok outcome ∧ outcome.output = output

theorem Fixes.unique {output other : Text} (fixes : state.Fixes document output)
    (fixesToo : state.Fixes document other) : other = output := by
  obtain ⟨settings, outcome, settingsEq, fixed, rfl⟩ := fixes.fixed
  obtain ⟨settingsToo, outcomeToo, settingsEqToo, fixedToo, rfl⟩ := fixesToo.fixed
  rw [settingsEq] at settingsEqToo
  obtain rfl := Except.ok.inj settingsEqToo
  rw [fixed] at fixedToo
  rw [Except.ok.inj fixedToo]

/-- If all kinds of actions are wanted, all actions are answered. -/
theorem actions?_of_all {request : ActionRequest} (all : request.only = none)
    (found : state.documents.find? request.uri = some document) :
    state.actions? request = state.allActions? document request.range := by
  simp only [actions?, found, all]
  cases state.allActions? document request.range with
  | none => rfl
  | some offered => exact congrArg some (filter_isWanted_none offered)

variable [LawfulSyntaxParser]

/-- The fix of a whole document is offered if and only if there is one. -/
theorem fixAll?_of_shows {shown : List Diagnostic}
    (shows : document.Shows state.settings shown) :
    (state.fixAll? document = none ∧ ∀ output, ¬ state.Fixes document output)
      ∨ ∃ output, state.Fixes document output
        ∧ state.fixAll? document = some (document.fixAll output) := by
  unfold fixAll?
  by_cases reported : ∃ report ∈ document.reports, report.fix.isSome = true
  · rw [if_pos (List.any_eq_true.2 reported)]
    have noReports (empty : document.reports = []) : False := by
      obtain ⟨report, member, -⟩ := reported
      rw [empty] at member
      cases member
    cases shows with
    | refused settingsEq empty => exact (noReports empty).elim
    | failed settingsEq failed empty => exact (noReports empty).elim
    | @warnings active _ settingsEq checked each =>
      rw [settingsEq]
      have left : FragmentLint.fixes document.reports ≠ [] := by
        intro nothing
        obtain ⟨report, member, hasFix⟩ := reported
        rw [fixes_eq_nil_iff.1 nothing report member] at hasFix
        cases hasFix
      cases fixed : fix active document.dialect document.text with
      | error reason =>
        simp only [fixed]
        refine Or.inl ⟨trivial, ?_⟩
        rintro output ⟨-, settings, outcome, settingsEqToo, fixedToo, -⟩
        rw [settingsEq] at settingsEqToo
        obtain rfl := Except.ok.inj settingsEqToo
        rw [fixed] at fixedToo
        cases fixedToo
      | ok outcome =>
        simp only [fixed]
        rw [if_pos (changed_of_fix checked left fixed)]
        exact Or.inr ⟨outcome.output, ⟨reported, active, outcome, settingsEq, fixed, rfl⟩, rfl⟩
  · rw [if_neg (by rwa [List.any_eq_true])]
    exact Or.inl ⟨rfl, fun output fixes => reported fixes.reported⟩

/-- Whether actions are what is to be offered for a range of an open document: its quick fixes, and
behind them the fix of the whole document if there is one. -/
def Offers (state : State) (document : Document) (range : Range) (offered : List Action) : Prop :=
  ∃ (quick : List Action) (last : Option Action),
    document.quickFixes? range = some quick ∧ offered = quick ++ last.toList
    ∧ (last.isSome = true ↔ ∃ output, state.Fixes document output)
    ∧ ∀ action ∈ last, ∀ output, state.Fixes document output → action.Rewrites document output

/-- All actions for a range of a document that shows what it ought to can be put into words. -/
theorem exists_offers_of_shows {shown : List Diagnostic}
    (shows : document.Shows state.settings shown) (range : Range) :
    ∃ offered, state.allActions? document range = some offered
      ∧ state.Offers document range offered := by
  obtain ⟨quick, isQuick⟩ := shows.exists_quickFixes? range
  refine ⟨quick ++ (state.fixAll? document).toList, ?_, quick, state.fixAll? document, isQuick, rfl,
    ?_, ?_⟩
  · unfold allActions?
    rw [isQuick]
    rfl
  · rcases fixAll?_of_shows shows with ⟨none, nothing⟩ | ⟨output, fixes, some⟩
    · rw [none]
      exact iff_of_false Bool.false_ne_true (not_exists.2 nothing)
    · rw [some]
      exact iff_of_true rfl ⟨output, fixes⟩
  · intro action isLast output fixes
    rcases fixAll?_of_shows shows with ⟨none, nothing⟩ | ⟨other, fixesToo, some⟩
    · exact (nothing output fixes).elim
    · rw [some] at isLast
      obtain rfl := Option.some.inj isLast
      rw [fixes.unique fixesToo]
      exact document.rewrites_fixAll output

end State

variable [UriLibrary]

/-- What a call asks for, if it is a request for actions. -/
def Call.actionRequest? (call : Call) : Option ActionRequest :=
  match Method.ofName? call.method with
  | some .codeAction =>
    if call.isRequest then (Session.decoded Params.actions call).toOption else none
  | _ => none

namespace Session

/-- In a running session a request for actions is answered, and changes nothing. -/
theorem step_eq_of_actionRequest? {session : Session} {disk : Disk} {call : Call}
    {request : ActionRequest} (running : session.phase = .running)
    (asked : call.actionRequest? = some request) :
    session.step disk call = ⟨session, answer (session.state.actions? request), []⟩ := by
  unfold Call.actionRequest? at asked
  split at asked
  next method =>
    split at asked
    next isRequest =>
      cases decoded : Session.decoded Params.actions call with
      | error reason =>
        rw [decoded] at asked
        cases asked
      | ok found =>
        rw [decoded] at asked
        obtain rfl : found = request := Option.some.inj asked
        have answered : session.codeAction call
            = ⟨session, answer (session.state.actions? found), []⟩ := by
          simp only [codeAction, decoded, refuse, isRequest]
          cases session.state.actions? found with
          | none => rfl
          | some offered => cases offered <;> rfl
        simpa [step, method, running] using answered
    next => cases asked
  next => cases asked

/-- The answer to a request for actions. After any calls, a request for the actions of all kinds is
answered with the quick fixes of the range and, behind them, the fix of the whole document. There is
the latter if and only if a stored report has a fix and fixing the stored text under the stored
settings succeeds; it replaces all of the text by what that leads to. The answer is null if and only
if there is neither, and there is none for a document that is not open. -/
theorem codeAction_offers [LawfulSyntaxParser] (calls : List (Disk × Call)) (disk : Disk)
    {call : Call} {request : ActionRequest} (running : (fresh.run calls).1.phase = .running)
    (asked : call.actionRequest? = some request) (all : request.only = none) :
    ∃ offered : List Action,
      (fresh.run calls).1.step disk call = ⟨(fresh.run calls).1,
        .result (if offered = [] then .null else .array (offered.map Action.toJson)), []⟩
      ∧ ((fresh.run calls).1.state.documents.find? request.uri = none → offered = [])
      ∧ ∀ document, (fresh.run calls).1.state.documents.find? request.uri = some document →
          (fresh.run calls).1.state.Offers document request.range offered := by
  rw [step_eq_of_actionRequest? running asked]
  have consistent := consistent_fresh.run calls
  cases found : (fresh.run calls).1.state.documents.find? request.uri with
  | none =>
    refine ⟨[], ?_, fun _ => rfl, ?_⟩
    · unfold State.actions?
      rw [found]
      rfl
    · intro document isOpen
      cases isOpen
  | some document =>
    obtain ⟨shown, shows, -⟩ := consistent.agrees.shown document (List.mem_of_find?_eq_some found)
    obtain ⟨offered, isOffered, offers⟩ := State.exists_offers_of_shows shows request.range
    refine ⟨offered, ?_, ?_, ?_⟩
    · rw [State.actions?_of_all all found, isOffered]
      rfl
    · intro closed
      cases closed
    · intro other isOpen
      obtain rfl := Option.some.inj isOpen
      exact offers

end Session

end Library

open Scripts

namespace Session

/-- The actions at the end of the useless fragment are asked for. -/
def sampleQuestion : Call :=
  ⟨"textDocument/codeAction", some (.record [
    ("textDocument", .record [("uri", .ofString "file:///a.jsx")]),
    ("range", .record [("start", .record [("line", .ofNat 0), ("character", .ofNat 13)]),
      ("end", .record [("line", .ofNat 0), ("character", .ofNat 13)])]),
    ("context", .record [("diagnostics", .array [])])]), true⟩

/-- The document as it was opened, checked. -/
def sampleDocument : Document :=
  ⟨sampleUri, "a = <><b/></>".toList, 1, .javascript,
    [⟨⟨4, 13⟩, .needsMoreChildren, some ⟨⟨4, 13⟩, "<b/>".toList⟩⟩]⟩

/-- The fix of the fragment is offered, and behind it that of the whole document, which leads to the
same text. -/
theorem codeAction_offers_sample :
    ∃ quick last : Action,
      (fresh.run sampleCalls).1.state.documents.find? sampleUri = some sampleDocument
      ∧ (fresh.run sampleCalls).1.step .empty sampleQuestion
        = ⟨(fresh.run sampleCalls).1, .result (.array [quick.toJson, last.toJson]), []⟩
      ∧ sampleDocument.quickFixes? ⟨⟨0, 13⟩, ⟨0, 13⟩⟩ = some [quick]
      ∧ last.Rewrites sampleDocument "a = <b/>".toList := by
  have stored : (fresh.run sampleCalls).1.state.documents.find? sampleUri
      = some sampleDocument := by
    decide +kernel
  have running : (fresh.run sampleCalls).1.phase = .running := by
    decide +kernel
  have settingsEq : (fresh.run sampleCalls).1.state.settings.toOption = some .unset := by
    decide +kernel
  have fixed : (fix .unset .javascript "a = <><b/></>".toList).toOption.map FixOutcome.output
      = some "a = <b/>".toList := by
    decide +kernel
  have one : (sampleDocument.quickFixes? ⟨⟨0, 13⟩, ⟨0, 13⟩⟩).map List.length = some 1 := by
    decide +kernel
  have asked : sampleQuestion.actionRequest? = some ⟨sampleUri, ⟨⟨0, 13⟩, ⟨0, 13⟩⟩, none⟩ := rfl
  obtain ⟨outcome, isOutcome, outputEq⟩ := Option.map_eq_some_iff.1 fixed
  have fixes : (fresh.run sampleCalls).1.state.Fixes sampleDocument "a = <b/>".toList :=
    ⟨⟨_, List.mem_cons_self, rfl⟩, .unset, outcome, ok_of_toOption settingsEq,
      ok_of_toOption isOutcome, outputEq⟩
  obtain ⟨offered, answered, -, offers⟩ :=
    codeAction_offers sampleCalls .empty running asked rfl
  obtain ⟨quickFixes, last, isQuick, rfl, isOffered, rewrites⟩ := offers _ stored
  obtain ⟨last, rfl⟩ := Option.isSome_iff_exists.1 (isOffered.2 ⟨_, fixes⟩)
  rw [isQuick, Option.map_some, Option.some_inj] at one
  obtain ⟨quick, rfl⟩ := List.length_eq_one_iff.1 one
  refine ⟨quick, last, stored, ?_, isQuick, rewrites last rfl _ fixes⟩
  rw [answered]
  rfl

end Session

end FragmentLint.Server
