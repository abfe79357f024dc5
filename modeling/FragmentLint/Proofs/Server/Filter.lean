import FragmentLint.Proofs.Server.Offer

/-!
Contract: which of the actions that are offered answer a request for certain kinds.

The name of a kind is a row of words with dots between them, from the general to the particular, so
a kind that is wanted stands for itself and for all kinds below it (`Covers`). The server goes by the
characters with which a name begins. So it never leaves out what is wanted, but a name that breaks
off within a word lets kinds through that it does not cover. Main statements:
`codeAction_filters_iff`, and such a name (`broken_word_is_answered`).

Does not own: which actions are offered if all kinds are wanted.
-/

namespace FragmentLint.Server

/-- Whether a kind that is wanted stands for a kind: it is the empty one, which stands for all, or
that kind, or one above it. -/
def Covers (wanted kind : Text) : Prop :=
  wanted = [] ∨ wanted = kind ∨ wanted ++ ['.'] <+: kind

instance (wanted kind : Text) : Decidable (Covers wanted kind) :=
  inferInstanceAs (Decidable (_ ∨ _ ∨ _))

/-- Whether one of the kinds that are wanted stands for a kind of actions. -/
def isCovered (kinds : List Text) (kind : ActionKind) : Bool :=
  kinds.any fun wanted => Covers wanted kind.id.toList

/-- A name begins with those of the kinds that stand for it. -/
theorem Covers.prefix_kind {wanted kind : Text} (covers : Covers wanted kind) : wanted <+: kind := by
  rcases covers with rfl | rfl | ⟨rest, rfl⟩
  · exact List.nil_prefix
  · exact List.prefix_rfl
  · rw [List.append_assoc]
    exact List.prefix_append wanted _

theorem isWanted_iff {kinds : List Text} {action : Action} :
    State.isWanted (some kinds) action = true ↔
      ∃ wanted ∈ kinds, wanted <+: action.kind.id.toList := by
  simp [State.isWanted]

theorem isCovered_iff {kinds : List Text} {kind : ActionKind} :
    isCovered kinds kind = true ↔ ∃ wanted ∈ kinds, Covers wanted kind.id.toList := by
  simp [isCovered]

/-- An action of a kind that is wanted is let through. -/
theorem isWanted_of_isCovered {kinds : List Text} {action : Action}
    (covered : isCovered kinds action.kind = true) : State.isWanted (some kinds) action = true := by
  obtain ⟨wanted, member, covers⟩ := isCovered_iff.1 covered
  exact isWanted_iff.2 ⟨wanted, member, covers.prefix_kind⟩

/-- Answers tell apart lists of different lengths. -/
theorem length_eq_of_answer {found other : List Action}
    (same : answer (some found) = answer (some other)) : found.length = other.length := by
  simp only [answer, Response.result.injEq] at same
  cases found with
  | nil =>
    cases other with
    | nil => rfl
    | cons action rest => simp at same
  | cons action rest =>
    cases other with
    | nil => simp at same
    | cons actionToo restToo => simpa using congrArg List.length (Json.array.inj same)

/-- The answers with what is let through and with what is wanted are the same if and only if nothing
else is let through. -/
theorem answer_filter_eq_iff {kinds : List Text} {offered : List Action} :
    answer (some (offered.filter (State.isWanted (some kinds))))
        = answer (some (offered.filter fun action => isCovered kinds action.kind))
      ↔ ∀ action ∈ offered, State.isWanted (some kinds) action = true →
          isCovered kinds action.kind = true := by
  have narrower : (offered.filter (State.isWanted (some kinds))).filter
        (fun action => isCovered kinds action.kind)
      = offered.filter fun action => isCovered kinds action.kind := by
    rw [List.filter_filter]
    apply List.filter_congr
    intro action _
    by_cases covered : isCovered kinds action.kind = true
    · rw [covered, isWanted_of_isCovered covered]
      rfl
    · rw [Bool.eq_false_iff.2 covered, Bool.false_and]
  constructor
  · intro same action member wanted
    have lengths := length_eq_of_answer same
    rw [← narrower, eq_comm, List.length_filter_eq_length_iff] at lengths
    exact lengths action (List.mem_filter.2 ⟨member, wanted⟩)
  · intro nothingElse
    rw [← narrower]
    apply congrArg
    apply congrArg
    symm
    rw [List.filter_eq_self]
    intro action member
    obtain ⟨isOffered, wanted⟩ := List.mem_filter.1 member
    exact nothingElse action isOffered wanted

section Library

variable [SyntaxParser]

/-- The actions that a request would be answered with if it asked for all kinds. -/
def State.offered? (state : State) (request : ActionRequest) : Option (List Action) :=
  state.actions? { request with only := none }

/-- What a request is answered with, is let through of what is offered. -/
theorem State.actions?_eq (state : State) (request : ActionRequest) :
    state.actions? request
      = (state.offered? request).map (·.filter (isWanted request.only)) := by
  simp only [offered?, actions?, filter_isWanted_none]
  cases state.documents.find? request.uri with
  | none => rfl
  | some document =>
    show _ = ((state.allActions? document request.range).map id).map _
    rw [Option.map_id]
    rfl

namespace Session

variable [UriLibrary] {session : Session} {disk : Disk} {call : Call} {request : ActionRequest}

/-- In a running session the actions that a request lets through are answered, and nothing changes. -/
theorem step_eq_answer (running : session.phase = .running)
    (asked : call.actionRequest? = some request) :
    session.step disk call = ⟨session,
      answer ((session.state.offered? request).map (·.filter (State.isWanted request.only))),
      []⟩ := by
  rw [step_eq_of_actionRequest? running asked, State.actions?_eq]

/-- The answer to a request for certain kinds of actions, in any state of a running session. It lists,
in order, those of the actions that are answered if all kinds are wanted, whose name begins with that
of a kind that is wanted; it is null if there is none, and there is no answer only where there is
none if all kinds are wanted. These are exactly the actions whose kind a kind that is wanted stands
for, if and only if no other action that is offered has a name that begins with a kind that is
wanted. -/
theorem codeAction_filters_iff (running : session.phase = .running)
    (asked : call.actionRequest? = some request) {kinds : List Text}
    (wanted : request.only = some kinds) :
    (∀ other : Call, other.actionRequest? = some { request with only := none } →
      session.step disk other = ⟨session, answer (session.state.offered? request), []⟩)
    ∧ session.step disk call = ⟨session, answer ((session.state.offered? request).map
        (·.filter fun action => kinds.any (·.isPrefixOf action.kind.id.toList))), []⟩
    ∧ (session.step disk call = ⟨session, answer ((session.state.offered? request).map
          (·.filter fun action => isCovered kinds action.kind)), []⟩ ↔
        ∀ offered ∈ session.state.offered? request, ∀ action ∈ offered,
          isCovered kinds action.kind = false →
            ∀ kind ∈ kinds, ¬ kind <+: action.kind.id.toList) := by
  have answered := @step_eq_answer _ _ session disk call request running asked
  rw [wanted] at answered
  refine ⟨?_, answered, ?_⟩
  · intro other askedToo
    rw [step_eq_of_actionRequest? running askedToo]
    rfl
  · rw [answered]
    simp only [Outcome.mk.injEq, true_and, and_true]
    cases session.state.offered? request with
    | none => simp
    | some offered =>
      simp only [Option.map_some, Option.mem_some_iff, forall_eq']
      rw [answer_filter_eq_iff]
      refine forall₂_congr fun action _ => ?_
      rw [isWanted_iff]
      constructor
      · intro covered uncovered kind member begins
        rw [covered ⟨kind, member, begins⟩] at uncovered
        cases uncovered
      · rintro nothing ⟨kind, member, begins⟩
        by_contra uncovered
        exact nothing (Bool.eq_false_iff.2 uncovered) kind member begins

end Session

end Library

open Scripts

namespace Session

/-- The actions of some kinds at the end of the useless fragment are asked for. -/
def sampleQuestionFor (kinds : List String) : Call :=
  ⟨"textDocument/codeAction", some (.record [
    ("textDocument", .record [("uri", .ofString "file:///a.jsx")]),
    ("range", .record [("start", .record [("line", .ofNat 0), ("character", .ofNat 13)]),
      ("end", .record [("line", .ofNat 0), ("character", .ofNat 13)])]),
    ("context", .record [("diagnostics", .array []),
      ("only", .array (kinds.map Json.ofString))])]), true⟩

/-- What is asked for there. -/
def sampleRequestFor (kinds : List String) : ActionRequest :=
  ⟨sampleUri, ⟨⟨0, 13⟩, ⟨0, 13⟩⟩, some (kinds.map String.toList)⟩

theorem exists_sample_offered (kinds : List String) :
    ∃ quick last : Action, quick.kind = .quickFix ∧ last.kind = .fixAll
      ∧ (fresh.run sampleCalls).1.state.offered? (sampleRequestFor kinds) = some [quick, last] := by
  have two : ((fresh.run sampleCalls).1.state.offered? (sampleRequestFor [])).map
      (·.map Action.kind) = some [.quickFix, .fixAll] := by
    decide +kernel
  obtain ⟨offered, offeredEq, kindsEq⟩ := Option.map_eq_some_iff.1 two
  obtain ⟨quick, others, rfl, quickKind, othersKinds⟩ := List.map_eq_cons_iff.1 kindsEq
  obtain ⟨last, none, rfl, lastKind, noneKinds⟩ := List.map_eq_cons_iff.1 othersKinds
  obtain rfl := List.map_eq_nil_iff.1 noneKinds
  exact ⟨quick, last, quickKind, lastKind, offeredEq⟩

/-- A kind stands for the one below it, and one below a kind that is offered stands for nothing: what
is asked for is the fix of the whole document. -/
theorem codeAction_filters_source :
    (fresh.run sampleCalls).1.phase = .running
      ∧ (sampleQuestionFor ["source", "quickfix.inline"]).actionRequest?
        = some (sampleRequestFor ["source", "quickfix.inline"])
      ∧ ∃ last : Action, last.kind = .fixAll
        ∧ (fresh.run sampleCalls).1.step .empty (sampleQuestionFor ["source", "quickfix.inline"])
          = ⟨(fresh.run sampleCalls).1, .result (.array [last.toJson]), []⟩ := by
  have running : (fresh.run sampleCalls).1.phase = .running := by
    decide +kernel
  have asked : (sampleQuestionFor ["source", "quickfix.inline"]).actionRequest?
      = some (sampleRequestFor ["source", "quickfix.inline"]) := rfl
  obtain ⟨quick, last, quickKind, lastKind, offeredEq⟩ :=
    exists_sample_offered ["source", "quickfix.inline"]
  have uncovered : ¬ isCovered ["source".toList, "quickfix.inline".toList] quick.kind = true := by
    rw [quickKind]
    decide
  have covered : isCovered ["source".toList, "quickfix.inline".toList] last.kind = true := by
    rw [lastKind]
    decide
  have exactly := (@codeAction_filters_iff _ _ _ .empty _ _ running asked _ rfl).2.2
  rw [offeredEq] at exactly
  have answered := exactly.2 fun offered isOffered action member isUncovered kind isKind => by
    obtain rfl := Option.some.inj isOffered
    simp only [List.mem_cons, List.not_mem_nil, or_false] at member
    rcases member with rfl | rfl
    · rw [quickKind]
      revert kind
      decide
    · exact absurd covered (Bool.eq_false_iff.1 isUncovered)
  refine ⟨running, asked, last, lastKind, answered.trans ?_⟩
  rw [Option.map_some, List.filter_cons_of_neg, List.filter_cons_of_pos]
  · rfl
  · exact covered
  · exact uncovered

/-- The beginning of a word is taken for the whole kind: the quick fix is answered although nothing
that is asked for stands for it. -/
theorem broken_word_is_answered :
    (fresh.run sampleCalls).1.phase = .running
      ∧ (sampleQuestionFor ["quick"]).actionRequest? = some (sampleRequestFor ["quick"])
      ∧ answer (((fresh.run sampleCalls).1.state.offered? (sampleRequestFor ["quick"])).map
          (·.filter fun action => isCovered ["quick".toList] action.kind)) = .result .null
      ∧ ∃ quick : Action, quick.kind = .quickFix
        ∧ (fresh.run sampleCalls).1.step .empty (sampleQuestionFor ["quick"])
          = ⟨(fresh.run sampleCalls).1, .result (.array [quick.toJson]), []⟩ := by
  have running : (fresh.run sampleCalls).1.phase = .running := by
    decide +kernel
  have asked : (sampleQuestionFor ["quick"]).actionRequest? = some (sampleRequestFor ["quick"]) :=
    rfl
  obtain ⟨quick, last, quickKind, lastKind, offeredEq⟩ := exists_sample_offered ["quick"]
  have answered := @step_eq_answer _ _ _ .empty _ _ running asked
  rw [offeredEq] at answered ⊢
  have uncovered : ∀ action ∈ [quick, last], ¬ isCovered ["quick".toList] action.kind = true := by
    intro action _
    cases action.kind <;> decide
  have begins : State.isWanted (some ["quick".toList]) quick = true :=
    isWanted_iff.2 ⟨_, List.mem_cons_self, by rw [quickKind]; decide⟩
  have apart : ¬ State.isWanted (some ["quick".toList]) last = true := by
    unfold State.isWanted
    rw [lastKind]
    decide
  refine ⟨running, asked, ?_, quick, quickKind, answered.trans ?_⟩
  · rw [Option.map_some, List.filter_eq_nil_iff.2 uncovered]
    rfl
  · show Outcome.mk _ (answer (some (List.filter (State.isWanted (some ["quick".toList])) _))) _ = _
    rw [List.filter_cons_of_pos begins, List.filter_cons_of_neg apart]
    rfl

end Session

end FragmentLint.Server
