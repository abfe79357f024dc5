import FragmentLint.Proofs.Editor.Action
import FragmentLint.Proofs.Grammar.Concrete
import FragmentLint.Proofs.Rule.Selection

/-!
Contract: which quick fixes a range of a checked document has.

All reports on a fragment have the same fix, and no two fragments begin at the same place. So to keep
the first report for each range is to keep one for each fragment that has a report to fix
(`fixesTouching_append` for one of them, `fixesTouching_flatten` for all), and the reports on the range
of a fragment are its own (`filter_range_flatten`). Main statement: `quickFixes?_repair_fragments`.

Does not own: what else is offered for a range.
-/

namespace FragmentLint

/-- Whether a report has a fix and touches a span. -/
def Report.IsFixableIn (wanted : Span) (report : Report) : Prop :=
  report.fix.isSome = true ∧ report.range.touches wanted = true

namespace Document

variable {wanted : Span} {seen : List Span} {report : Report} {fix : Edit}

/-- A report is passed over if it cannot be fixed, does not touch the span, or is on a range that was
seen. -/
theorem fixesTouching_cons_of_idle
    (idle : report.IsFixableIn wanted → ∃ fix ∈ report.fix, fix.range ∈ seen) (rest : List Report) :
    fixesTouching wanted seen (report :: rest) = fixesTouching wanted seen rest := by
  rw [fixesTouching]
  cases fixed : report.fix with
  | none => rfl
  | some fix =>
    by_cases touches : report.range.touches wanted = true
    · obtain ⟨other, isFix, isSeen⟩ := idle ⟨Option.isSome_of_eq_some fixed, touches⟩
      obtain rfl : fix = other := Option.some.inj (fixed.symm.trans isFix)
      simp [isSeen]
    · simp [touches]

theorem fixesTouching_append_of_idle {own : List Report}
    (idle : ∀ report ∈ own, report.IsFixableIn wanted → ∃ fix ∈ report.fix, fix.range ∈ seen)
    (rest : List Report) :
    fixesTouching wanted seen (own ++ rest) = fixesTouching wanted seen rest := by
  induction own with
  | nil => rfl
  | cons report own inductionHypothesis =>
    rw [List.cons_append, fixesTouching_cons_of_idle (idle report List.mem_cons_self)]
    exact inductionHypothesis fun other member => idle other (List.mem_cons_of_mem _ member)

theorem fixesTouching_cons_of_new (fixed : report.fix = some fix)
    (touches : report.range.touches wanted = true) (new : fix.range ∉ seen) (rest : List Report) :
    fixesTouching wanted seen (report :: rest)
      = (report, fix) :: fixesTouching wanted (fix.range :: seen) rest := by
  rw [fixesTouching]
  simp [fixed, touches, new]

/-- Reports that have the same fix on a range that is new have one edit, that of the first of them. -/
theorem exists_fixesTouching_append_of_alike {own : List Report} {range : Span} (occupied : own ≠ [])
    (alike : ∀ report ∈ own, report.range = range ∧ report.fix = some fix)
    (touches : range.touches wanted = true) (new : fix.range ∉ seen) (rest : List Report) :
    ∃ first ∈ own, fixesTouching wanted seen (own ++ rest)
      = (first, fix) :: fixesTouching wanted (fix.range :: seen) rest := by
  obtain ⟨first, others, rfl⟩ := List.exists_cons_of_ne_nil occupied
  obtain ⟨sameRange, fixed⟩ := alike first List.mem_cons_self
  refine ⟨first, List.mem_cons_self, ?_⟩
  rw [List.cons_append, fixesTouching_cons_of_new fixed (sameRange ▸ touches) new,
    fixesTouching_append_of_idle]
  intro other inOthers _
  obtain ⟨-, fixedToo⟩ := alike other (List.mem_cons_of_mem _ inOthers)
  exact ⟨fix, fixedToo, List.mem_cons_self⟩

end Document

namespace Tree

variable {tree : Tree} {pragmas : Pragmas} {id : Nat} {report other : Report}

theorem ReportsOn.mem_elements (reportsOn : tree.ReportsOn pragmas id report) :
    id ∈ tree.elements := by
  obtain ⟨node, known, isWrapper, -⟩ := reportsOn.exists_node
  obtain ⟨tags, tagsEq⟩ := NodeKind.exists_tags_of_isWrapper isWrapper
  exact mem_elements_iff.2 ⟨node, known, NodeKind.isTagged_of_tags? tagsEq⟩

theorem ReportsOn.start_eq (reportsOn : tree.ReportsOn pragmas id report) :
    report.range.start = tree.startOf id := by
  obtain ⟨node, known, -, range⟩ := reportsOn.exists_node
  rw [range, startOf, known]
  rfl

/-- Whether a node has a report that can be fixed and touches a span. -/
def HasFixIn (tree : Tree) (pragmas : Pragmas) (wanted : Span) (id : Nat) : Prop :=
  ∃ report, tree.ReportsOn pragmas id report ∧ report.IsFixableIn wanted

/-! ## The reports on several nodes -/

variable {elements : List Nat} {lists : List (List Report)} {wanted : Span} {seen : List Span}

/-- Of the reports on nodes that begin at different places, those on the range of a node are its
own. -/
theorem filter_range_flatten
    (collected : List.Forall₂ (fun id own => tree.reportsAt pragmas id = .ok own) elements lists)
    (ordered : elements.Pairwise fun first second => tree.startOf first < tree.startOf second)
    (isElement : id ∈ elements) {own : List Report} (judged : tree.reportsAt pragmas id = .ok own)
    (member : report ∈ own) : lists.flatten.filter (·.range == report.range) = own := by
  have kept : own.filter (·.range == report.range) = own := by
    rw [List.filter_eq_self]
    intro other inOwn
    exact beq_iff_eq.2 (ReportsOn.same_fix ⟨own, judged, member⟩ ⟨own, judged, inOwn⟩).1
  have dropped : ∀ {apart : Nat}, tree.startOf apart ≠ tree.startOf id →
      ∀ other, tree.ReportsOn pragmas apart other → ¬ (other.range == report.range) = true := by
    intro apart differ other reportsOn same
    apply differ
    rw [← reportsOn.start_eq, beq_iff_eq.1 same]
    exact ReportsOn.start_eq ⟨own, judged, member⟩
  induction collected with
  | nil => cases isElement
  | @cons head reports elements lists judgedHead collected inductionHypothesis =>
    obtain ⟨behind, ordered⟩ := List.pairwise_cons.1 ordered
    rw [List.flatten_cons, List.filter_append]
    rcases List.mem_cons.1 isElement with rfl | inRest
    · -- The node is the first one, so all others begin behind it.
      rw [judged] at judgedHead
      obtain rfl := Except.ok.inj judgedHead
      have none : lists.flatten.filter (·.range == report.range) = [] := by
        rw [List.filter_eq_nil_iff]
        intro other inRest
        obtain ⟨later, isLater, reportsOn⟩ := exists_owner (mapM_eq_ok_iff.2 collected) inRest
        exact dropped (Nat.ne_of_gt (behind later isLater)) other reportsOn
      rw [kept, none, List.append_nil]
    · have none : reports.filter (·.range == report.range) = [] := by
        rw [List.filter_eq_nil_iff]
        intro other inHead
        exact dropped (Nat.ne_of_lt (behind id inRest)) other ⟨reports, judgedHead, inHead⟩
      rw [none, List.nil_append]
      exact inductionHypothesis ordered inRest

/-- The reports on a node that begins behind every range that was seen: one of them is taken with its
fix, if the node has a report to fix, and else all of them are passed over. -/
theorem fixesTouching_append {own : List Report} (judged : tree.reportsAt pragmas id = .ok own)
    (earlier : ∀ span ∈ seen, span.start < tree.startOf id) (rest : List Report) :
    (tree.HasFixIn pragmas wanted id ∧ ∃ first fix, tree.ReportsOn pragmas id first
        ∧ first.fix = some fix ∧ fix.range.start = tree.startOf id
        ∧ Document.fixesTouching wanted seen (own ++ rest)
          = (first, fix) :: Document.fixesTouching wanted (fix.range :: seen) rest)
      ∨ ¬ tree.HasFixIn pragmas wanted id
        ∧ Document.fixesTouching wanted seen (own ++ rest)
          = Document.fixesTouching wanted seen rest := by
  have mem_own : ∀ report, tree.ReportsOn pragmas id report ↔ report ∈ own := by
    intro report
    simp [ReportsOn, judged]
  by_cases fixable : tree.HasFixIn pragmas wanted id
  · left
    refine ⟨fixable, ?_⟩
    obtain ⟨report, reportsOn, hasFix, touches⟩ := fixable
    obtain ⟨fix, fixed⟩ := Option.isSome_iff_exists.1 hasFix
    have alike : ∀ other ∈ own, other.range = report.range ∧ other.fix = some fix := by
      intro other inOwn
      obtain ⟨sameRange, sameFix⟩ := reportsOn.same_fix ((mem_own other).2 inOwn)
      exact ⟨sameRange, sameFix.trans fixed⟩
    have place : fix.range.start = tree.startOf id := by
      rw [reportsOn.range_of_fix fixed, reportsOn.start_eq]
    have new : fix.range ∉ seen := by
      intro isSeen
      have before := earlier _ isSeen
      omega
    have occupied : own ≠ [] := List.ne_nil_of_mem ((mem_own report).1 reportsOn)
    obtain ⟨first, inOwn, taken⟩ :=
      Document.exists_fixesTouching_append_of_alike occupied alike touches new rest
    exact ⟨first, fix, (mem_own first).2 inOwn, (alike first inOwn).2, place, taken⟩
  · right
    refine ⟨fixable, ?_⟩
    apply Document.fixesTouching_append_of_idle
    intro report inOwn isFixable
    exact absurd ⟨report, (mem_own report).2 inOwn, isFixable⟩ fixable

/-- The edits that are offered for nodes that begin one behind the other, and behind every range that
was seen, are one for each node that has a report to fix. -/
theorem fixesTouching_flatten
    (collected : List.Forall₂ (fun id own => tree.reportsAt pragmas id = .ok own) elements lists)
    (ordered : elements.Pairwise fun first second => tree.startOf first < tree.startOf second)
    (earlier : ∀ span ∈ seen, ∀ id ∈ elements, span.start < tree.startOf id) :
    ∃ ids : List Nat, ids.Sublist elements
      ∧ (∀ id, id ∈ ids ↔ id ∈ elements ∧ tree.HasFixIn pragmas wanted id)
      ∧ List.Forall₂ (fun id item => tree.ReportsOn pragmas id item.1 ∧ item.1.fix = some item.2)
        ids (Document.fixesTouching wanted seen lists.flatten) := by
  -- What was seen grows by ranges that begin where the nodes begin, so it stays in front of the rest.
  induction collected generalizing seen with
  | nil => exact ⟨[], .slnil, by simp, .nil⟩
  | @cons head own elements lists judged collected inductionHypothesis =>
    obtain ⟨behind, ordered⟩ := List.pairwise_cons.1 ordered
    have earlierHead : ∀ span ∈ seen, span.start < tree.startOf head :=
      fun span isSeen => earlier span isSeen head List.mem_cons_self
    have earlierRest : ∀ span ∈ seen, ∀ id ∈ elements, span.start < tree.startOf id :=
      fun span isSeen id inRest => earlier span isSeen id (List.mem_cons_of_mem _ inRest)
    rw [List.flatten_cons]
    rcases fixesTouching_append judged earlierHead lists.flatten with
      ⟨hasFix, first, fix, reportsOn, fixed, place, taken⟩ | ⟨noFix, passed⟩
    · have earlierNext : ∀ span ∈ fix.range :: seen, ∀ id ∈ elements,
          span.start < tree.startOf id := by
        intro span isSeen id inRest
        rcases List.mem_cons.1 isSeen with rfl | isSeen
        · exact place ▸ behind id inRest
        · exact earlierRest span isSeen id inRest
      obtain ⟨ids, inOrder, mem_ids, each⟩ := inductionHypothesis ordered earlierNext
      refine ⟨head :: ids, inOrder.cons_cons head, ?_, ?_⟩
      · intro id
        rw [List.mem_cons, List.mem_cons, mem_ids, or_and_right]
        exact or_congr_left (iff_self_and.2 fun same => same ▸ hasFix)
      · rw [taken]
        exact .cons ⟨reportsOn, fixed⟩ each
    · obtain ⟨ids, inOrder, mem_ids, each⟩ := inductionHypothesis ordered earlierRest
      refine ⟨ids, inOrder.cons head, ?_, ?_⟩
      · intro id
        rw [List.mem_cons, mem_ids, or_and_right]
        refine (or_iff_right ?_).symm
        rintro ⟨rfl, hasFix⟩
        exact noFix hasFix
      · rw [passed]
        exact each

end Tree

/-! ## What an action does -/

/-- The range of a span stands for the text between its positions, and leads back to the span. -/
theorem Span.Delimits.exists_range {span : Span} {text piece : Text}
    (delimits : span.Delimits text piece) :
    ∃ front back, text = front ++ (piece ++ back) ∧ span.start = Text.bytes front
      ∧ span.stop = Text.bytes front + Text.bytes piece
      ∧ Range.ofSpan? text span = some ⟨.after front, .after (front ++ piece)⟩
      ∧ Range.spanIn ⟨.after front, .after (front ++ piece)⟩ text = span := by
  obtain ⟨front, back, rfl, start, stop⟩ := Text.slice?_eq_some_iff.1 delimits
  rw [← start] at stop
  have begins := Position.ofOffset?_bytes front (piece ++ back)
  have beginsBack := Position.offsetIn_after front (piece ++ back)
  have ends := Position.ofOffset?_bytes (front ++ piece) back
  have endsBack := Position.offsetIn_after (front ++ piece) back
  rw [List.append_assoc, Text.bytes_append, ← stop] at ends endsBack
  rw [start] at begins beginsBack
  refine ⟨front, back, rfl, start.symm, stop, ?_, ?_⟩
  · rw [Range.ofSpan?, begins, ends]
    rfl
  · rw [Range.spanIn, beginsBack, endsBack]

namespace Document

/-- Whether an action is the quick fix of a fragment of a document. -/
structure Repairs (document : Document) (tree : Tree) (pragmas : Pragmas) (id : Nat)
    (action : Action) : Prop where
  kind : action.kind = .quickFix
  uri : action.uri = document.uri
  /-- The edit that its range and its text stand for is the one that takes the fragment away. -/
  takesAway : ∃ node,
    tree.TakesAway pragmas id node ⟨document.spanOf action.range, action.replacement⟩
      ∧ node.kind.isWrapper pragmas = true
  /-- It names all that is shown about the fragment, and nothing else. -/
  shown : ∃ own, tree.reportsAt pragmas id = .ok own
    ∧ List.Forall₂ (fun report diagnostic => document.warning? report = some diagnostic) own
      action.diagnostics
  /-- To put its text in the place of what stands between its positions is to apply that edit
  alone. -/
  applied : ∃ front piece back, document.text = front ++ (piece ++ back)
    ∧ action.range = ⟨.after front, .after (front ++ piece)⟩
    ∧ Edit.applyAll document.text [⟨document.spanOf action.range, action.replacement⟩]
      = some (front ++ (action.replacement ++ back))

variable {document : Document} {tree : Tree} {pragmas : Pragmas} {id : Nat} {report : Report}
  {fix : Edit}

/-- The quick fix for a report of a fragment, in a document that has no other reports on its range. -/
theorem exists_quickFix?_repairs {own : List Report}
    (delimit : ∀ shown ∈ document.reports, ∃ piece, shown.range.Delimits document.text piece)
    (judged : tree.reportsAt pragmas id = .ok own) (member : report ∈ own)
    (fixed : report.fix = some fix)
    (alone : document.reports.filter (·.range == report.range) = own) :
    ∃ action, document.quickFix? report fix = some action
      ∧ document.Repairs tree pragmas id action := by
  have ownReports : ∀ other ∈ own, other ∈ document.reports := by
    intro other inOwn
    rw [← alone] at inOwn
    exact List.mem_of_mem_filter inOwn
  have showable : ∀ other ∈ own, ∃ diagnostic, document.warning? other = some diagnostic := by
    intro other inOwn
    obtain ⟨piece, delimits⟩ := delimit other (ownReports other inOwn)
    exact exists_warning? delimits
  obtain ⟨shown, isShown, each⟩ := exists_mapM_eq_some showable
  have reportsOn : tree.ReportsOn pragmas id report := ⟨own, judged, member⟩
  obtain ⟨node, takes, isWrapper⟩ := reportsOn.exists_takesAway fixed
  obtain ⟨piece, delimits⟩ := delimit report (ownReports report member)
  rw [← reportsOn.range_of_fix fixed] at delimits
  obtain ⟨front, back, textEq, start, stop, found, leadsBack⟩ := delimits.exists_range
  have known : document.rangeOf? fix.range = some ⟨.after front, .after (front ++ piece)⟩ := found
  have decoded : document.spanOf ⟨.after front, .after (front ++ piece)⟩ = fix.range := leadsBack
  refine ⟨⟨.quickFix, document.uri, ⟨.after front, .after (front ++ piece)⟩, fix.replacement, shown⟩,
    ?_, rfl, rfl, ⟨node, ?_, isWrapper⟩, ⟨own, judged, each⟩, front, piece, back, textEq, rfl, ?_⟩
  · unfold quickFix?
    rw [known, alone, isShown]
    rfl
  · rw [decoded]
    exact takes
  · rw [decoded, textEq]
    exact Edit.applyAll_singleton start stop

/-- What is made of related items one by one is related to them. -/
theorem exists_mapM_of_forall₂ {α β γ : Type} {R : α → β → Prop} {P : α → γ → Prop}
    {f : β → Option γ} {keys : List α} {items : List β} (related : List.Forall₂ R keys items)
    (step : ∀ key item, R key item → ∃ result, f item = some result ∧ P key result) :
    ∃ results, items.mapM f = some results ∧ List.Forall₂ P keys results := by
  induction related with
  | nil => exact ⟨[], rfl, .nil⟩
  | cons first _ inductionHypothesis =>
    obtain ⟨result, found, holds⟩ := step _ _ first
    obtain ⟨results, foundOthers, each⟩ := inductionHypothesis
    refine ⟨result :: results, ?_, .cons holds each⟩
    rw [List.mapM_cons, found, foundOthers]
    rfl

section Parser

variable [SyntaxParser] [LawfulSyntaxParser]

/-- The quick fixes for a range of a document that has the reports of a check. There is one for every
fragment that has a report to fix that touches the range, in the order in which these begin, and
there are no others. Each one takes its fragment away and does nothing else, and names all that is
shown about that fragment and nothing else. No edit is lost because the range of another one is the
same: it is the same edit then. -/
theorem quickFixes?_repair_fragments {settings : Settings}
    (checked : lint settings document.dialect document.text = .ok document.reports)
    (range : Range) :
    ∃ tree pragmas, Tree.ofSource document.dialect document.text = .ok tree
      ∧ Pragmas.resolve tree.comments settings = .ok pragmas
      ∧ (∃ ids actions, document.quickFixes? range = some actions
        ∧ (ids.Pairwise fun first second => tree.startOf first < tree.startOf second)
        ∧ (∀ id, id ∈ ids ↔ tree.HasFixIn pragmas (document.spanOf range) id)
        ∧ List.Forall₂ (document.Repairs tree pragmas) ids actions)
      ∧ ∀ edit ∈ fixes document.reports, ∀ other ∈ fixes document.reports,
          edit.range = other.range → edit = other := by
  obtain ⟨tree, pragmas, accepted, resolved, found⟩ := lint_eq_ok_iff.1 checked
  obtain ⟨lists, listsEq, reportsEq⟩ := Tree.reports_eq_ok_iff.1 found
  have collected := mapM_eq_ok_iff.1 listsEq
  have ordered := Tree.elements_pairwise accepted
  refine ⟨tree, pragmas, accepted, resolved, ?_, ?_⟩
  · obtain ⟨ids, inOrder, mem_ids, each⟩ := @Tree.fixesTouching_flatten tree pragmas tree.elements
      lists (document.spanOf range) [] collected ordered (List.forall_mem_nil _)
    rw [reportsEq] at each
    have step : ∀ id (item : Report × Edit),
        tree.ReportsOn pragmas id item.1 ∧ item.1.fix = some item.2 →
          ∃ action, document.quickFix? item.1 item.2 = some action
            ∧ document.Repairs tree pragmas id action := by
      rintro id ⟨report, fix⟩ ⟨⟨own, judged, member⟩, fixed⟩
      have isElement := Tree.ReportsOn.mem_elements ⟨own, judged, member⟩
      have alone := Tree.filter_range_flatten collected ordered isElement judged member
      rw [reportsEq] at alone
      apply exists_quickFix?_repairs _ judged member fixed alone
      intro shown isShown
      exact (report_delimits checked isShown).1
    obtain ⟨actions, offered, repairs⟩ := exists_mapM_of_forall₂ each step
    refine ⟨ids, actions, offered, ordered.sublist inOrder, ?_, repairs⟩
    intro id
    rw [mem_ids]
    constructor
    · exact And.right
    · rintro ⟨report, reportsOn, fixable⟩
      exact ⟨reportsOn.mem_elements, report, reportsOn, fixable⟩
  · intro edit isFix other isFixToo same
    rcases eq_or_laminar_of_fixes accepted checked isFix isFixToo with equal | laminar
    · exact equal
    · exact absurd (congrArg Span.start same) laminar.1

end Parser

open Scripts

/-- Two fragments side by side in a paragraph, behind a character that takes two columns, and the
reports of a check. -/
def sideBySide : Document :=
  (unchecked default "<p>😀<>{a}</><>{b}</></p>".toList 1 .javascript).withReports
    [⟨⟨7, 15⟩, .needsMoreChildren, some ⟨⟨7, 15⟩, "{a}".toList⟩⟩,
      ⟨⟨7, 15⟩, .childOfHostElement, some ⟨⟨7, 15⟩, "{a}".toList⟩⟩,
      ⟨⟨15, 23⟩, .needsMoreChildren, some ⟨⟨15, 23⟩, "{b}".toList⟩⟩,
      ⟨⟨15, 23⟩, .childOfHostElement, some ⟨⟨15, 23⟩, "{b}".toList⟩⟩]

/-- A range without a character in it, between the two fragments, touches both. -/
theorem quickFixes?_repair_fragments_side_by_side :
    lint .unset sideBySide.dialect sideBySide.text = .ok sideBySide.reports
      ∧ ∃ tree pragmas first second action other,
        Tree.ofSource sideBySide.dialect sideBySide.text = .ok tree
          ∧ sideBySide.quickFixes? ⟨⟨0, 13⟩, ⟨0, 13⟩⟩ = some [action, other]
          ∧ tree.startOf first < tree.startOf second
          ∧ sideBySide.Repairs tree pragmas first action
          ∧ sideBySide.Repairs tree pragmas second other
          ∧ (action.range, action.replacement, action.diagnostics.length)
            = (⟨⟨0, 5⟩, ⟨0, 13⟩⟩, "{a}".toList, 2)
          ∧ (other.range, other.replacement, other.diagnostics.length)
            = (⟨⟨0, 13⟩, ⟨0, 21⟩⟩, "{b}".toList, 2) := by
  have linted : (lint .unset sideBySide.dialect sideBySide.text).toOption
      = some sideBySide.reports := by
    decide +kernel
  have checked := ok_of_toOption linted
  have offered : (sideBySide.quickFixes? ⟨⟨0, 13⟩, ⟨0, 13⟩⟩).map
      (·.map fun action => (action.range, action.replacement, action.diagnostics.length))
      = some [(⟨⟨0, 5⟩, ⟨0, 13⟩⟩, "{a}".toList, 2), (⟨⟨0, 13⟩, ⟨0, 21⟩⟩, "{b}".toList, 2)] := by
    decide +kernel
  obtain ⟨tree, pragmas, accepted, -, ⟨ids, actions, found, ordered, -, repairs⟩, -⟩ :=
    quickFixes?_repair_fragments checked ⟨⟨0, 13⟩, ⟨0, 13⟩⟩
  rw [found, Option.map_some, Option.some.injEq] at offered
  cases repairs with
  | nil => cases offered
  | @cons first action ids actions repairsFirst repairs =>
    obtain ⟨isFirst, offered⟩ := List.cons.inj offered
    cases repairs with
    | nil => cases offered
    | @cons second other ids actions repairsSecond repairs =>
      obtain ⟨isSecond, offered⟩ := List.cons.inj offered
      obtain rfl := List.map_eq_nil_iff.1 offered
      have inFront := (List.pairwise_cons.1 ordered).1 second List.mem_cons_self
      exact ⟨checked, tree, pragmas, first, second, action, other, accepted, found, inFront,
        repairsFirst, repairsSecond, isFirst, isSecond⟩

end Document

end FragmentLint
