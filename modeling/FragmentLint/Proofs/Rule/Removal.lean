import FragmentLint.Proofs.Markup.Content
import FragmentLint.Proofs.Markup.Records

/-!
Contract: what a check reports, and that it always gets through.

The reports on a node are the reasons against it, each with the edit that takes the node away
(`judge_eq_of_removal`). Main statements: on the tree of an accepted source nothing is cut out that
is not there (`Records.exists_reports`), so the check of a source fails if and only if the source is
not read or its names for fragments are no identifiers (`lint_eq_ok_iff`, `lint_eq_error_iff`).
-/

namespace FragmentLint

theorem NodeKind.exists_tags_of_isWrapper {pragmas : Pragmas} {kind : NodeKind}
    (isWrapper : kind.isWrapper pragmas = true) : ∃ tags, kind.tags? = some tags := by
  cases kind <;> simp [NodeKind.isWrapper, NodeKind.tags?] at isWrapper ⊢

/-- Only fragments without a key are reported. -/
theorem Site.isWrapper_of_mem_reasons {pragmas : Pragmas} {site : Site} {reason : Reason}
    (isReason : reason ∈ site.reasons pragmas) :
    site.kind.isWrapper pragmas = true ∧ site.kind.isKeyed = false := by
  unfold Site.reasons at isReason
  split at isReason
  · cases isReason
  next passes => simpa using passes

/-- A vacant fragment is a fragment in shorthand whose only child is a vacant pair of braces. -/
theorem Site.isVacant_iff {site : Site} :
    site.isVacant = true ↔
      ∃ tags only, site.kind = .fragment tags ∧ site.children = [only] ∧ only.isVacant = true := by
  constructor
  · intro vacant
    unfold isVacant at vacant
    split at vacant
    next tags only kindEq childrenEq => exact ⟨tags, only, kindEq, childrenEq, vacant⟩
    next => cases vacant
  · rintro ⟨tags, only, kindEq, childrenEq, vacant⟩
    unfold isVacant
    rw [kindEq, childrenEq]
    exact vacant

namespace Tree

variable {tree : Tree} {pragmas : Pragmas} {site : Site}

/-- The edit that takes a node away puts in its place an empty fragment, if the node holds nothing
but empty braces, and else what stands between its tags, trimmed. -/
theorem removal_eq_some_iff {edit : Edit} :
    tree.removal pragmas site = .ok (some edit) ↔
      site.isRemovable pragmas = true ∧
        (site.isVacant = true ∧ edit = ⟨site.span, "<></>".toList⟩
          ∨ site.isVacant = false ∧ ∃ tags inner, site.kind.tags? = some tags
            ∧ tree.text? tags.inner = some inner ∧ edit = ⟨site.span, Text.trimLines inner⟩) := by
  unfold removal
  by_cases removable : site.isRemovable pragmas = true
  · by_cases vacant : site.isVacant = true
    · simp [removable, vacant, eq_comm]
    · rw [Bool.not_eq_true] at vacant
      cases tagsEq : site.kind.tags? with
      | none => simp [removable, vacant]
      | some tags =>
        cases inner : tree.text? tags.inner with
        | none => simp [removable, vacant, slice, inner, bind, Except.bind]
        | some piece =>
          simp [removable, vacant, slice, inner, bind, Except.bind, pure, Except.pure, eq_comm]
  · simp [removable]

/-- A node with tags is left in its place if and only if it may not be taken away. -/
theorem removal_eq_none_iff {fix : Option Edit} {tags : Tags} (tagsEq : site.kind.tags? = some tags)
    (removed : tree.removal pragmas site = .ok fix) :
    fix = none ↔ site.isRemovable pragmas = false := by
  unfold removal at removed
  rw [tagsEq] at removed
  by_cases removable : site.isRemovable pragmas = true
  · by_cases vacant : site.isVacant = true
    · simp only [removable, vacant, Bool.not_true, Bool.false_eq_true, if_false, if_true,
        Except.ok.injEq] at removed
      simp [← removed, removable]
    · cases cut : tree.slice tags.inner with
      | error badSlice => simp [removable, vacant, cut, bind, Except.bind] at removed
      | ok inner =>
        simp only [removable, vacant, cut, bind, Except.bind, pure, Except.pure, Bool.not_true,
          Bool.false_eq_true, if_false, Except.ok.injEq] at removed
        simp [← removed, removable]
  · rw [Bool.not_eq_true] at removable
    simp only [removable, Bool.not_false, if_true, Except.ok.injEq] at removed
    simp [← removed, removable]

theorem range_of_removal {edit : Edit} (removed : tree.removal pragmas site = .ok (some edit)) :
    edit.range = site.span := by
  obtain ⟨-, ⟨-, rfl⟩ | ⟨-, tags, inner, -, -, rfl⟩⟩ := removal_eq_some_iff.1 removed
  · rfl
  · rfl

/-- The reports on a node are the reasons against it, each with the same edit. -/
theorem judge_eq_of_removal {fix : Option Edit} (removed : tree.removal pragmas site = .ok fix) :
    tree.judge pragmas site = .ok ((site.reasons pragmas).map fun reason
      => ⟨site.span, reason, fix⟩) := by
  unfold judge
  rw [removed]
  exact List.mapM_pure

theorem mem_judge {own : List Report} {report : Report} (judged : tree.judge pragmas site = .ok own)
    (member : report ∈ own) :
    report.range = site.span ∧ report.reason ∈ site.reasons pragmas
      ∧ tree.removal pragmas site = .ok report.fix := by
  obtain ⟨reason, isReason, found⟩ := exists_item_of_mapM judged report member
  cases removed : tree.removal pragmas site with
  | error badSlice =>
    rw [removed] at found
    cases found
  | ok fix =>
    rw [removed] at found
    cases found
    exact ⟨rfl, isReason, rfl⟩

/-- A node is judged if and only if it is there; one that is no fragment is found blameless. -/
theorem reportsAt_eq_judge {id : Nat} (found : tree.site? id = some site) :
    tree.reportsAt pragmas id = tree.judge pragmas site := by
  obtain ⟨kind, span, parent, children⟩ := site
  unfold reportsAt
  rw [found]
  cases kind with
  | element element =>
    by_cases named : pragmas.nameFragment element.name = true
    · simp [onElement, named]
    · simp [onElement, named, judge, Site.reasons, NodeKind.isWrapper, pure, Except.pure]
  | fragment tags => rfl
  | text raw => rfl
  | container => rfl
  | empty => rfl
  | other construct => rfl

/-- Whether a report is one of those on the node of a number. -/
def ReportsOn (tree : Tree) (pragmas : Pragmas) (id : Nat) (report : Report) : Prop :=
  ∃ own, tree.reportsAt pragmas id = .ok own ∧ report ∈ own

/-- What a report on the node of a number says. -/
theorem ReportsOn.exists_site {id : Nat} {report : Report}
    (reportsOn : tree.ReportsOn pragmas id report) :
    ∃ site, tree.site? id = some site ∧ report.range = site.span
      ∧ report.reason ∈ site.reasons pragmas ∧ tree.removal pragmas site = .ok report.fix := by
  obtain ⟨own, judged, member⟩ := reportsOn
  cases found : tree.site? id with
  | none =>
    unfold reportsAt at judged
    rw [found] at judged
    cases judged
    cases member
  | some site =>
    rw [reportsAt_eq_judge found] at judged
    exact ⟨site, rfl, mem_judge judged member⟩

/-- The reports on a node have the same range and the same fix. -/
theorem ReportsOn.same_fix {id : Nat} {report other : Report} (first : tree.ReportsOn pragmas id report)
    (second : tree.ReportsOn pragmas id other) :
    other.range = report.range ∧ other.fix = report.fix := by
  obtain ⟨site, isSite, range, -, removed⟩ := first.exists_site
  obtain ⟨siteToo, isSiteToo, rangeToo, -, removedToo⟩ := second.exists_site
  rw [isSite] at isSiteToo
  obtain rfl := Option.some.inj isSiteToo
  rw [removed] at removedToo
  exact ⟨rangeToo.trans range.symm, (Except.ok.inj removedToo).symm⟩

/-- The node that is reported is a fragment, and its report is on its span. -/
theorem ReportsOn.exists_node {id : Nat} {report : Report}
    (reportsOn : tree.ReportsOn pragmas id report) :
    ∃ node, tree.node? id = some node ∧ node.kind.isWrapper pragmas = true
      ∧ report.range = node.span := by
  obtain ⟨site, isSite, range, isReason, -⟩ := reportsOn.exists_site
  obtain ⟨node, known, rfl⟩ := Option.map_eq_some_iff.1 isSite
  exact ⟨node, known, (Site.isWrapper_of_mem_reasons isReason).1, range⟩

/-- The fix of a report replaces the range of the report. -/
theorem ReportsOn.range_of_fix {id : Nat} {report : Report} {fix : Edit}
    (reportsOn : tree.ReportsOn pragmas id report)
    (fixed : report.fix = some fix) : fix.range = report.range := by
  obtain ⟨site, -, range, -, removed⟩ := reportsOn.exists_site
  rw [fixed] at removed
  rw [range_of_removal removed, range]

/-- Every report that is collected from some nodes is on one of them. -/
theorem exists_owner {elements : List Nat} {lists : List (List Report)} {report : Report}
    (collected : elements.mapM (tree.reportsAt pragmas) = .ok lists)
    (member : report ∈ lists.flatten) : ∃ id ∈ elements, tree.ReportsOn pragmas id report := by
  obtain ⟨own, isOwn, inOwn⟩ := List.mem_flatten.1 member
  obtain ⟨id, isElement, judged⟩ := exists_item_of_mapM collected own isOwn
  exact ⟨id, isElement, own, judged, inOwn⟩

/-- The reports on a tree are those on its elements and fragments, one after the other. -/
theorem reports_eq_ok_iff {reports : List Report} :
    tree.reports pragmas = .ok reports ↔
      ∃ lists, tree.elements.mapM (tree.reportsAt pragmas) = .ok lists ∧ lists.flatten = reports := by
  unfold Tree.reports
  cases tree.elements.mapM (tree.reportsAt pragmas) with
  | error badSlice => simp [bind, Except.bind]
  | ok lists => simp [bind, Except.bind, pure, Except.pure]

theorem exists_reportsOn {reports : List Report} (found : tree.reports pragmas = .ok reports) :
    ∀ report ∈ reports, ∃ id ∈ tree.elements, tree.ReportsOn pragmas id report := by
  intro report member
  obtain ⟨lists, collected, rfl⟩ := reports_eq_ok_iff.1 found
  exact exists_owner collected member

/-- The reports on a tree are those on its elements and fragments. -/
theorem mem_reports_iff {reports : List Report} (found : tree.reports pragmas = .ok reports)
    {report : Report} :
    report ∈ reports ↔ ∃ id ∈ tree.elements, tree.ReportsOn pragmas id report := by
  constructor
  · exact exists_reportsOn found report
  · rintro ⟨id, isElement, own, judged, inOwn⟩
    obtain ⟨lists, collected, rfl⟩ := reports_eq_ok_iff.1 found
    obtain ⟨ownToo, isOwn, judgedToo⟩ := exists_result_of_mapM collected id isElement
    rw [judged] at judgedToo
    obtain rfl := Except.ok.inj judgedToo
    exact List.mem_flatten.2 ⟨own, isOwn, inOwn⟩

variable {all : List Entry}

/-- What is cut out to take a node away is there. -/
theorem Records.exists_removal (records : tree.Records all) (pragmas : Pragmas) {entry : Entry}
    (member : entry ∈ all) : ∃ fix, tree.removal pragmas entry.site = .ok fix := by
  have placed := records.placed entry member
  unfold removal
  split
  · exact ⟨none, rfl⟩
  · split
    · exact ⟨_, rfl⟩
    · cases tagsEq : entry.site.kind.tags? with
      | none => exact ⟨none, rfl⟩
      | some tags =>
        have ownTags : entry.outline.kind.tags? = some tags := tagsEq
        obtain ⟨piece, inner⟩ := placed.exists_inner ownTags
        have cut : tree.text? tags.inner = some piece := inner
        simp only [slice, cut]
        exact ⟨_, rfl⟩

theorem Records.exists_reportsAt (records : tree.Records all) (pragmas : Pragmas) (id : Nat) :
    ∃ own, tree.reportsAt pragmas id = .ok own := by
  cases found : tree.site? id with
  | none =>
    unfold reportsAt
    rw [found]
    exact ⟨[], rfl⟩
  | some site =>
    rw [reportsAt_eq_judge found]
    rw [records.lists.site?_eq_map_entries] at found
    obtain ⟨entry, listed, rfl⟩ := Option.map_eq_some_iff.1 found
    obtain ⟨fix, removed⟩ := records.exists_removal pragmas (List.mem_of_getElem? listed)
    exact ⟨_, judge_eq_of_removal removed⟩

/-- The check of the markup of an accepted source gets through. -/
theorem Records.exists_reports (records : tree.Records all) (pragmas : Pragmas) :
    ∃ reports, tree.reports pragmas = .ok reports := by
  obtain ⟨lists, collected⟩ := exists_mapM_eq_ok fun id (_ : id ∈ tree.elements) =>
    records.exists_reportsAt pragmas id
  exact ⟨lists.flatten, reports_eq_ok_iff.2 ⟨lists, collected, rfl⟩⟩

end Tree

variable {settings : Settings} {dialect : Dialect} {source : Text}

theorem Tree.lint_eq_ok_iff {tree : Tree} {reports : List Report} :
    tree.lint settings = .ok reports ↔
      ∃ pragmas, Pragmas.resolve tree.comments settings = .ok pragmas
        ∧ tree.reports pragmas = .ok reports := by
  unfold Tree.lint
  cases Pragmas.resolve tree.comments settings with
  | error invalid => simp
  | ok pragmas =>
    cases found : tree.reports pragmas with
    | error badSlice => simp [found, Except.mapError]
    | ok own => simp [found, Except.mapError]

/-- Every report of a check is one on a node. -/
theorem Tree.exists_reportsOn_of_lint {tree : Tree} {reports : List Report} {report : Report}
    (checked : tree.lint settings = .ok reports) (member : report ∈ reports) :
    ∃ pragmas, Pragmas.resolve tree.comments settings = .ok pragmas
      ∧ ∃ id, tree.ReportsOn pragmas id report := by
  obtain ⟨pragmas, resolved, found⟩ := lint_eq_ok_iff.1 checked
  obtain ⟨id, -, reportsOn⟩ := exists_reportsOn found report member
  exact ⟨pragmas, resolved, id, reportsOn⟩

/-- The entry of a node that is reported: it has tags, there is a reason against it, and the fix of
the report takes it away. -/
theorem Tree.Records.exists_reported {tree : Tree} {all : List Entry} {pragmas : Pragmas}
    {id : Nat} {node : Node} {report : Report} (records : tree.Records all)
    (known : tree.node? id = some node) (reportsOn : tree.ReportsOn pragmas id report) :
    ∃ entry tags, all[id]? = some entry ∧ Outline.Describes all node entry
      ∧ entry.outline.kind.tags? = some tags ∧ report.reason ∈ entry.site.reasons pragmas
      ∧ tree.removal pragmas entry.site = .ok report.fix := by
  obtain ⟨site, isSite, -, isReason, removed⟩ := reportsOn.exists_site
  obtain ⟨entry, listed, describes⟩ := records.lists.exists_entry known
  rw [records.lists.site?_eq_map_entries, listed, Option.map_some] at isSite
  obtain rfl := Option.some.inj isSite
  obtain ⟨tags, tagsEq⟩ :=
    NodeKind.exists_tags_of_isWrapper (Site.isWrapper_of_mem_reasons isReason).1
  exact ⟨entry, tags, listed, describes, tagsEq, isReason, removed⟩

/-- The check of the markup of an accepted source fails if and only if the names for fragments are
no identifiers. -/
theorem Tree.Records.lint_eq_error_iff {tree : Tree} {all : List Entry} (records : tree.Records all)
    {reason : LintError} :
    tree.lint settings = .error reason ↔
      ∃ invalid, Pragmas.resolve tree.comments settings = .error invalid
        ∧ reason = .invalidPragma invalid := by
  unfold Tree.lint
  cases Pragmas.resolve tree.comments settings with
  | error invalid => simp [eq_comm]
  | ok pragmas =>
    obtain ⟨reports, found⟩ := records.exists_reports pragmas
    simp [found, Except.mapError]

section Parser

variable [SyntaxParser]

/-- A source is checked by checking its markup. -/
theorem lint_eq_ok_iff {reports : List Report} :
    lint settings dialect source = .ok reports ↔
      ∃ tree pragmas, Tree.ofSource dialect source = .ok tree
        ∧ Pragmas.resolve tree.comments settings = .ok pragmas
        ∧ tree.reports pragmas = .ok reports := by
  unfold lint
  cases Tree.ofSource dialect source with
  | error reason => simp [bind, Except.bind]
  | ok tree =>
    apply Tree.lint_eq_ok_iff.trans
    simp

variable [LawfulSyntaxParser]

/-- The check of a source fails if and only if there is no concrete tree of it or one with an error,
or its names for fragments are no identifiers. -/
theorem lint_eq_error_iff {reason : LintError} :
    lint settings dialect source = .error reason ↔
      Tree.ofSource dialect source = .error reason
        ∨ ∃ tree invalid, Tree.ofSource dialect source = .ok tree
          ∧ Pragmas.resolve tree.comments settings = .error invalid
          ∧ reason = .invalidPragma invalid := by
  unfold lint
  cases accepted : Tree.ofSource dialect source with
  | error other => simp [bind, Except.bind]
  | ok tree =>
    obtain ⟨all, records⟩ := Tree.exists_records accepted
    apply records.lint_eq_error_iff.trans
    simp

/-- A report stands on a piece of the source, and its fix replaces that piece. -/
theorem report_delimits {reports : List Report}
    (checked : lint settings dialect source = .ok reports)
    {report : Report} (member : report ∈ reports) :
    (∃ piece, report.range.Delimits source piece)
      ∧ ∀ edit, report.fix = some edit → edit.range = report.range := by
  obtain ⟨tree, pragmas, accepted, -, found⟩ := lint_eq_ok_iff.1 checked
  obtain ⟨all, records⟩ := Tree.exists_records accepted
  obtain ⟨id, -, reportsOn⟩ := Tree.exists_reportsOn found report member
  obtain ⟨site, isSite, rangeEq, -, -⟩ := reportsOn.exists_site
  rw [records.lists.site?_eq_map_entries] at isSite
  obtain ⟨entry, listed, rfl⟩ := Option.map_eq_some_iff.1 isSite
  obtain ⟨piece, delimits⟩ := (records.placed entry (List.mem_of_getElem? listed)).delimits
  rw [Tree.source_ofSource accepted] at delimits
  refine ⟨⟨piece, ?_⟩, fun edit fixed => reportsOn.range_of_fix fixed⟩
  rw [rangeEq]
  exact delimits

end Parser

end FragmentLint
