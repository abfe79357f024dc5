import FragmentLint.Proofs.Markup.Arena
import FragmentLint.Proofs.Markup.Laminar
import FragmentLint.Proofs.Rule.Removal

/-!
Contract: what the check of a tree reports, and in which order, for every tree whatever its spans
are.

Elements and fragments are checked in the order in which they begin, and those that begin at the
same place in the order of their numbers: sorting keeps the order of equal ones. Each is handled by
one of the two entry points of the rule and passed over by the other. Main statement:
`Tree.lint_reports_findings_in_order`.

Does not own: when there is a reason against a node.
-/

namespace FragmentLint

namespace StableSort

variable {α : Type} {before : α → α → Bool} {earlier : α → α → Prop}

theorem stable_insert (total : ∀ a b, before a b = true ∨ before b a = true)
    (transitive : ∀ a b c, before a b = true → before b c = true → before a c = true)
    {new : α} {list : List α} (first : ∀ other ∈ list, earlier new other)
    (ordered : list.Pairwise fun a b => before a b = true ∧ (before b a = true → earlier a b)) :
    (insert before new list).Pairwise fun a b =>
      before a b = true ∧ (before b a = true → earlier a b) := by
  induction list with
  | nil => exact List.pairwise_singleton _ _
  | cons head rest inductionHypothesis =>
    obtain ⟨headFirst, restOrdered⟩ := List.pairwise_cons.1 ordered
    unfold insert
    split
    case isTrue newFirst =>
      refine List.pairwise_cons.2 ⟨?_, ordered⟩
      intro other member
      refine ⟨?_, fun _ => first other member⟩
      rcases List.mem_cons.1 member with rfl | inRest
      · exact newFirst
      · exact transitive _ _ _ newFirst (headFirst other inRest).1
    case isFalse headBefore =>
      have others := inductionHypothesis
        (fun other member => first other (List.mem_cons_of_mem _ member)) restOrdered
      refine List.pairwise_cons.2 ⟨?_, others⟩
      intro other member
      rcases List.mem_cons.1 ((insert_perm before new rest).mem_iff.1 member) with rfl | inRest
      · exact ⟨(total head other).resolve_right headBefore,
          fun newFirst => absurd newFirst headBefore⟩
      · exact headFirst other inRest

/-- Sorting keeps the order of elements that are equal to each other. -/
theorem stable (total : ∀ a b, before a b = true ∨ before b a = true)
    (transitive : ∀ a b c, before a b = true → before b c = true → before a c = true)
    {list : List α} (inOrder : list.Pairwise earlier) :
    (sort before list).Pairwise fun a b =>
      before a b = true ∧ (before b a = true → earlier a b) := by
  induction list with
  | nil => exact .nil
  | cons head rest inductionHypothesis =>
    obtain ⟨headFirst, restInOrder⟩ := List.pairwise_cons.1 inOrder
    refine stable_insert total transitive ?_ (inductionHypothesis restInOrder)
    intro other member
    exact headFirst other ((perm before rest).mem_iff.1 member)

end StableSort

theorem exists_forall₂_iff {α β : Type} {related : α → β → Prop} {items : List α} :
    (∃ results, List.Forall₂ related items results)
      ↔ ∀ item ∈ items, ∃ result, related item result := by
  induction items with
  | nil => simp
  | cons head rest inductionHypothesis =>
    rw [List.forall_mem_cons, ← inductionHypothesis]
    constructor
    · rintro ⟨_, _ | ⟨relatedFirst, relatedOthers⟩⟩
      exact ⟨⟨_, relatedFirst⟩, _, relatedOthers⟩
    · rintro ⟨⟨first, relatedFirst⟩, others, relatedOthers⟩
      exact ⟨first :: others, .cons relatedFirst relatedOthers⟩

/-- Reasons are given in a fixed order. -/
theorem Site.reasons_sublist (pragmas : Pragmas) (site : Site) :
    (site.reasons pragmas).Sublist [.needsMoreChildren, .childOfHostElement] := by
  unfold reasons
  split
  · exact List.nil_sublist _
  · show List.Sublist _ ([Reason.needsMoreChildren] ++ [Reason.childOfHostElement])
    refine List.Sublist.append ?_ ?_
    · split
      · exact List.Sublist.refl _
      · exact List.nil_sublist _
    · split
      · exact List.Sublist.refl _
      · exact List.nil_sublist _

namespace Tree

variable {tree : Tree} {pragmas : Pragmas} {site : Site}

/-- The order in which nodes are checked: by where they begin, and from one place on by their
numbers. -/
def Before (tree : Tree) (first second : Nat) : Prop :=
  tree.startOf first < tree.startOf second
    ∨ tree.startOf first = tree.startOf second ∧ first < second

/-- Elements and fragments are listed in the order in which they are checked. -/
theorem pairwise_before_elements (tree : Tree) : tree.elements.Pairwise tree.Before := by
  have numbered : ((List.range tree.size).filter fun id =>
      (tree.node? id).any (·.kind.isTagged)).Pairwise (· < ·) := List.pairwise_lt_range.filter _
  have stable := @StableSort.stable Nat (fun left right => tree.startOf left ≤ tree.startOf right)
    (· < ·) (by simp only [decide_eq_true_eq]; omega)
    (by simp only [decide_eq_true_eq]; omega) _ numbered
  refine stable.imp ?_
  rintro first second ⟨notBehind, whenEqual⟩
  simp only [decide_eq_true_eq] at notBehind whenEqual
  by_cases together : tree.startOf first = tree.startOf second
  · exact Or.inr ⟨together, whenEqual (Nat.le_of_eq together.symm)⟩
  · exact Or.inl (by omega)

/-- Whether reports are the findings on a node: one for each reason against it, in the order of the
reasons, on the whole node and with the edit that takes the node away. -/
def FindingsOn (tree : Tree) (pragmas : Pragmas) (id : Nat) (own : List Report) : Prop :=
  ∃ site fix, tree.site? id = some site
    ∧ (site.reasons pragmas ≠ [] → tree.removal pragmas site = .ok fix)
    ∧ own = (site.reasons pragmas).map fun reason => ⟨site.span, reason, fix⟩

/-- Whether the text that a node would be replaced by can be cut out of the source. -/
def CutsWhole (tree : Tree) (pragmas : Pragmas) (site : Site) : Prop :=
  site.isRemovable pragmas = true → site.isVacant = false →
    ∀ tags ∈ site.kind.tags?, ∃ inner, tree.text? tags.inner = some inner

/-- There is an answer to how a node is taken away if and only if what it would leave can be cut
out. -/
theorem exists_removal_iff :
    (∃ fix, tree.removal pragmas site = .ok fix) ↔ tree.CutsWhole pragmas site := by
  unfold CutsWhole removal
  by_cases removable : site.isRemovable pragmas = true
  · by_cases vacant : site.isVacant = true
    · simp [removable, vacant]
    · rw [Bool.not_eq_true] at vacant
      cases tagsEq : site.kind.tags? with
      | none => simp [removable, vacant]
      | some tags =>
        cases cut : tree.text? tags.inner with
        | none => simp [removable, vacant, slice, cut, bind, Except.bind]
        | some inner =>
          simp [removable, vacant, slice, cut, bind, Except.bind, pure, Except.pure]
  · simp [removable]

/-- A node is judged by its findings. -/
theorem judge_eq_ok_iff {id : Nat} {own : List Report} (found : tree.site? id = some site) :
    tree.judge pragmas site = .ok own ↔ tree.FindingsOn pragmas id own := by
  constructor
  · intro judged
    cases removed : tree.removal pragmas site with
    | ok fix =>
      rw [judge_eq_of_removal removed] at judged
      exact ⟨site, fix, found, fun _ => removed, (Except.ok.inj judged).symm⟩
    | error badSlice =>
      refine ⟨site, none, found, ?_, ?_⟩
      · intro some
        obtain ⟨reason, rest, reasonsEq⟩ := List.exists_cons_of_ne_nil some
        unfold judge at judged
        rw [reasonsEq, List.mapM_cons, removed] at judged
        cases judged
      · cases reasonsEq : site.reasons pragmas with
        | nil =>
          unfold judge at judged
          rw [reasonsEq] at judged
          exact (Except.ok.inj judged).symm
        | cons reason rest =>
          unfold judge at judged
          rw [reasonsEq, List.mapM_cons, removed] at judged
          cases judged
  · rintro ⟨same, fix, foundToo, removed, rfl⟩
    rw [found] at foundToo
    obtain rfl := Option.some.inj foundToo
    cases reasonsEq : site.reasons pragmas with
    | nil =>
      unfold judge
      rw [reasonsEq]
      rfl
    | cons reason rest =>
      rw [← reasonsEq]
      exact judge_eq_of_removal (removed (by simp [reasonsEq]))

/-- Of the two entry points of the rule one answers the findings on an element or fragment, and the
other one nothing. -/
theorem entry_points {id : Nat} {node : Node} {own : List Report}
    (known : tree.node? id = some node) (tagged : node.kind.isTagged = true)
    (found : tree.site? id = some site)
    (findings : tree.FindingsOn pragmas id own) :
    tree.onElement pragmas site = .ok own ∧ tree.onFragment pragmas site = .ok []
      ∨ tree.onElement pragmas site = .ok [] ∧ tree.onFragment pragmas site = .ok own := by
  have judged := (judge_eq_ok_iff found).2 findings
  have reported : tree.reportsAt pragmas id = tree.judge pragmas site := reportsAt_eq_judge found
  have kindEq : node.kind = site.kind := by
    unfold site? at found
    rw [known] at found
    cases found
    rfl
  rw [kindEq] at tagged
  unfold reportsAt at reported
  rw [found, judged] at reported
  obtain ⟨kind, span, parent, children⟩ := site
  cases kind with
  | element element => exact Or.inl ⟨reported, rfl⟩
  | fragment tags => exact Or.inr ⟨rfl, reported⟩
  | _ => cases tagged

theorem exists_site_of_node {id : Nat} {node : Node} (known : tree.node? id = some node) :
    ∃ site, tree.site? id = some site := by
  unfold site?
  rw [known]
  exact ⟨_, rfl⟩

/-- There are findings on a node that is there, unless something cannot be cut out. -/
theorem exists_findingsOn_iff {id : Nat} (found : tree.site? id = some site) :
    (∃ own, tree.FindingsOn pragmas id own) ↔
      (site.reasons pragmas ≠ [] → tree.CutsWhole pragmas site) := by
  rw [← exists_removal_iff]
  constructor
  · rintro ⟨own, same, fix, foundToo, removed, -⟩ some
    rw [found] at foundToo
    obtain rfl := Option.some.inj foundToo
    exact ⟨fix, removed some⟩
  · intro removable
    by_cases some : site.reasons pragmas = []
    · exact ⟨_, site, none, found, fun others => absurd some others, rfl⟩
    · obtain ⟨fix, removed⟩ := removable some
      exact ⟨_, site, fix, found, fun _ => removed, rfl⟩

/-- The reports on a tree are the findings on its elements and fragments. -/
theorem reports_eq_ok_iff_findings {reports : List Report} :
    tree.reports pragmas = .ok reports ↔
      ∃ lists, List.Forall₂ (tree.FindingsOn pragmas) tree.elements lists
        ∧ reports = lists.flatten := by
  have each : ∀ id ∈ tree.elements, ∀ own,
      tree.reportsAt pragmas id = .ok own ↔ tree.FindingsOn pragmas id own := by
    intro id member own
    obtain ⟨node, known, -⟩ := mem_elements_iff.1 member
    obtain ⟨site, found⟩ := exists_site_of_node known
    rw [reportsAt_eq_judge found]
    exact judge_eq_ok_iff found
  rw [reports_eq_ok_iff]
  refine exists_congr fun lists => and_congr ?_ eq_comm
  rw [mapM_eq_ok_iff]
  constructor
  · intro collected
    have listed :=
      (List.forall₂_and_left tree.elements lists).2 ⟨fun id member => member, collected⟩
    exact listed.imp fun id own found => (each id found.1 own).1 found.2
  · intro collected
    have listed :=
      (List.forall₂_and_left tree.elements lists).2 ⟨fun id member => member, collected⟩
    exact listed.imp fun id own found => (each id found.1 own).2 found.2

/-- There are findings on the whole tree if and only if there are on each of its elements and
fragments. -/
theorem exists_reports_eq_ok_iff :
    (∃ reports, tree.reports pragmas = .ok reports) ↔
      ∀ id ∈ tree.elements, ∃ own, tree.FindingsOn pragmas id own := by
  rw [← exists_forall₂_iff]
  constructor
  · rintro ⟨reports, reported⟩
    obtain ⟨lists, found, -⟩ := reports_eq_ok_iff_findings.1 reported
    exact ⟨lists, found⟩
  · rintro ⟨lists, found⟩
    exact ⟨lists.flatten, reports_eq_ok_iff_findings.2 ⟨lists, found, rfl⟩⟩

/-- The check of any tree, with whatever spans and kinds of nodes, for which the names of fragments
are known. The elements and fragments are gone through in one order, each of them once: by where
they begin, and from one place on by their numbers. What is reported are the findings on each in
turn, at most two, how little it holds before where it stands; a fix replaces the node that is
reported. One entry point of the rule finds them and the other one finds nothing. There is an answer
if and only if what is to be cut out of the source delimits characters of it. -/
theorem lint_reports_findings_in_order {settings : Settings}
    (resolved : Pragmas.resolve tree.comments settings = .ok pragmas) :
    tree.elements.Pairwise tree.Before
      ∧ (∀ id, id ∈ tree.elements ↔ ∃ node, tree.node? id = some node ∧ node.kind.isTagged = true)
      ∧ (∀ reports, tree.lint settings = .ok reports ↔
          ∃ lists, List.Forall₂ (tree.FindingsOn pragmas) tree.elements lists
            ∧ reports = lists.flatten)
      ∧ ((∃ reports, tree.lint settings = .ok reports) ↔
          ∀ id ∈ tree.elements, ∀ site, tree.site? id = some site → site.reasons pragmas ≠ [] →
            tree.CutsWhole pragmas site)
      ∧ ∀ id ∈ tree.elements, ∀ own, tree.FindingsOn pragmas id own →
          (own.map (·.reason)).Sublist [.needsMoreChildren, .childOfHostElement]
          ∧ (∀ report ∈ own, ∀ edit, report.fix = some edit → edit.range = report.range)
          ∧ ∀ site, tree.site? id = some site →
            tree.onElement pragmas site = .ok own ∧ tree.onFragment pragmas site = .ok []
              ∨ tree.onElement pragmas site = .ok [] ∧ tree.onFragment pragmas site = .ok own := by
  have checked :
      ∀ reports, tree.lint settings = .ok reports ↔ tree.reports pragmas = .ok reports := by
    intro reports
    rw [lint_eq_ok_iff, resolved]
    simp
  refine ⟨tree.pairwise_before_elements, fun id => mem_elements_iff, ?_, ?_, ?_⟩
  · intro reports
    rw [checked]
    exact reports_eq_ok_iff_findings
  · simp only [checked, exists_reports_eq_ok_iff]
    constructor
    · intro each id member site found
      exact (exists_findingsOn_iff found).1 (each id member)
    · intro each id member
      obtain ⟨node, known, -⟩ := mem_elements_iff.1 member
      obtain ⟨site, found⟩ := exists_site_of_node known
      exact (exists_findingsOn_iff found).2 (each id member site found)
  · intro id member own findings
    obtain ⟨node, known, tagged⟩ := mem_elements_iff.1 member
    obtain ⟨site, fix, found, removed, ownEq⟩ := findings
    refine ⟨?_, ?_, ?_⟩
    · rw [ownEq, List.map_map]
      simpa [Function.comp_def] using site.reasons_sublist pragmas
    · intro report reported edit fixed
      rw [ownEq] at reported
      obtain ⟨reason, given, rfl⟩ := List.mem_map.1 reported
      obtain rfl : fix = some edit := fixed
      exact range_of_removal (removed (List.ne_nil_of_mem given))
    · intro other foundToo
      exact entry_points known tagged foundToo ⟨site, fix, found, removed, ownEq⟩

/-- Spans that coincide and spans out of order: the host element begins where the first fragment in
it does, and the second one before both. -/
theorem lint_reports_findings_out_of_order :
    ∃ tree pragmas, Grown tree [0, 1, 2]
      ∧ Pragmas.resolve tree.comments .unset = .ok pragmas ∧ tree.elements = [2, 0, 1]
      ∧ ∃ lists, List.Forall₂ (tree.FindingsOn pragmas) tree.elements lists
          ∧ [⟨⟨0, 2⟩, .childOfHostElement, some ⟨⟨0, 2⟩, []⟩⟩,
            ⟨⟨1, 9⟩, .childOfHostElement, some ⟨⟨1, 9⟩, ['b']⟩⟩] = lists.flatten := by
  have host := (Grown.empty "<><>b</></>".toList).push
    (.element ⟨.identifier ['p'], [], ⟨⟨1, 3⟩, some ⟨6, 9⟩⟩⟩) ⟨1, 9⟩ none (by decide)
  have first := host.push (.fragment ⟨⟨2, 4⟩, some ⟨5, 8⟩⟩) ⟨1, 9⟩ (some 0) (by decide)
  have grown := first.push (.fragment ⟨⟨0, 1⟩, some ⟨1, 1⟩⟩) ⟨0, 2⟩ (some 0) (by decide)
  have resolved : Pragmas.resolve [] .unset = .ok ⟨"React".toList, "Fragment".toList⟩ := by rfl
  refine ⟨_, ⟨"React".toList, "Fragment".toList⟩, grown, resolved, by decide, ?_⟩
  exact ((lint_reports_findings_in_order resolved).2.2.1 _).1 (by rfl)

/-- A fragment whose tags lie behind the end of the source: what stands between them cannot be cut
out, and there is no answer for the tree. -/
theorem lint_fails_behind_end_of_source :
    ∃ tree pragmas, Grown tree [0, 1] ∧ Pragmas.resolve tree.comments .unset = .ok pragmas
      ∧ ∀ reports, tree.lint .unset ≠ .ok reports := by
  have host := (Grown.empty []).push
    (.element ⟨.identifier ['p'], [], ⟨⟨0, 3⟩, some ⟨8, 12⟩⟩⟩) ⟨0, 12⟩ none (by decide)
  have grown := host.push (.fragment ⟨⟨3, 5⟩, some ⟨5, 8⟩⟩) ⟨3, 8⟩ (some 0) (by decide)
  refine ⟨_, ⟨"React".toList, "Fragment".toList⟩, grown, by rfl, ?_⟩
  rintro reports ⟨⟩

end Tree

end FragmentLint
