import FragmentLint.Proofs.Edit
import FragmentLint.Proofs.Grammar.Concrete
import FragmentLint.Proofs.Markup.Laminar
import FragmentLint.Proofs.Rule.Removal

/-!
Contract: which of the fixes of a check have to wait for the next pass.

Every fix replaces a whole element or fragment, and these keep apart or stand strictly within one
another. So a fix that is not applied is a copy of one that is, or what it replaces is replaced with
something around it, or it begins where one that is applied ends; two fixes that overlap in part
are never asked for. Main statement: `skipped_fixes_do_not_overlap`.

Does not own: what the fixes that are applied make of the source.
-/

namespace FragmentLint

/-- Whether an edit is the one that takes the element or fragment of a number away. -/
structure Tree.TakesAway (tree : Tree) (pragmas : Pragmas) (id : Nat) (node : Node) (edit : Edit) :
    Prop where
  known : tree.node? id = some node
  tagged : node.kind.isTagged = true
  range : edit.range = node.span
  removal : ∃ site, tree.site? id = some site ∧ tree.removal pragmas site = .ok (some edit)

namespace Tree.TakesAway

variable {tree : Tree} {pragmas : Pragmas} {id : Nat} {node other : Node} {edit edit' : Edit}

/-- There is one way only to take an element or fragment away. -/
theorem unique (first : tree.TakesAway pragmas id node edit)
    (second : tree.TakesAway pragmas id other edit') : edit = edit' := by
  obtain ⟨site, isSite, removed⟩ := first.removal
  obtain ⟨siteToo, isSiteToo, removedToo⟩ := second.removal
  rw [isSite] at isSiteToo
  obtain rfl := Option.some.inj isSiteToo
  rw [removed] at removedToo
  exact Option.some.inj (Except.ok.inj removedToo)

end Tree.TakesAway

/-- The fix of a report takes the node away. -/
theorem Tree.ReportsOn.exists_takesAway {tree : Tree} {pragmas : Pragmas} {id : Nat}
    {report : Report} {fix : Edit} (reportsOn : tree.ReportsOn pragmas id report)
    (fixed : report.fix = some fix) :
    ∃ node, tree.TakesAway pragmas id node fix ∧ node.kind.isWrapper pragmas = true := by
  obtain ⟨node, known, isWrapper, range⟩ := reportsOn.exists_node
  obtain ⟨tags, tagsEq⟩ := NodeKind.exists_tags_of_isWrapper isWrapper
  obtain ⟨site, isSite, -, -, removed⟩ := reportsOn.exists_site
  rw [fixed] at removed
  have tagged := NodeKind.isTagged_of_tags? tagsEq
  exact ⟨node, ⟨known, tagged, (reportsOn.range_of_fix fixed).trans range, site, isSite, removed⟩,
    isWrapper⟩

/-- A range that begins between the ends of another one, and is in no other way in conflict with it
than elements are, lies strictly within it or begins at its end. -/
theorem Span.Laminar.place {span taken : Span} (laminar : span.Laminar taken)
    (visible : span.start < span.stop) (behind : taken.start ≤ span.start)
    (touches : span.start ≤ taken.stop) :
    span.StrictlyWithin taken ∨ span.start = taken.stop := by
  unfold Laminar at laminar
  unfold StrictlyWithin at laminar ⊢
  omega

variable {settings : Settings} {dialect : Dialect} {source : Text} {tree : Tree}

section Parser

variable [SyntaxParser]

/-- Every fix of a check takes an element or fragment away. -/
theorem exists_takesAway (accepted : Tree.ofSource dialect source = .ok tree)
    {reports : List Report} (checked : lint settings dialect source = .ok reports) :
    ∃ pragmas, ∀ edit ∈ fixes reports, ∃ id node, tree.TakesAway pragmas id node edit := by
  obtain ⟨treeToo, pragmas, acceptedToo, -, found⟩ := lint_eq_ok_iff.1 checked
  rw [accepted] at acceptedToo
  obtain rfl := Except.ok.inj acceptedToo
  refine ⟨pragmas, ?_⟩
  intro edit member
  obtain ⟨report, isReport, fixed⟩ := List.mem_filterMap.1 member
  obtain ⟨id, -, reportsOn⟩ := Tree.exists_reportsOn found report isReport
  obtain ⟨node, takes, -⟩ := reportsOn.exists_takesAway fixed
  exact ⟨id, node, takes⟩

variable [LawfulSyntaxParser]

/-- Two fixes of a check are the same one, or their ranges keep apart or stand strictly within one
another. -/
theorem eq_or_laminar_of_fixes (accepted : Tree.ofSource dialect source = .ok tree)
    {reports : List Report} (checked : lint settings dialect source = .ok reports)
    {edit other : Edit} (isFix : edit ∈ fixes reports) (isFixToo : other ∈ fixes reports) :
    edit = other ∨ edit.range.Laminar other.range := by
  obtain ⟨pragmas, owners⟩ := exists_takesAway accepted checked
  obtain ⟨id, node, takes⟩ := owners edit isFix
  obtain ⟨idToo, nodeToo, takesToo⟩ := owners other isFixToo
  by_cases same : id = idToo
  · subst same
    exact Or.inl (takes.unique takesToo)
  · rw [takes.range, takesToo.range]
    exact Or.inr (Tree.laminar_of_ne accepted takes.known takesToo.known takes.tagged
      takesToo.tagged same)

theorem start_lt_stop_of_fix (accepted : Tree.ofSource dialect source = .ok tree)
    {reports : List Report} (checked : lint settings dialect source = .ok reports) {edit : Edit}
    (isFix : edit ∈ fixes reports) : edit.range.start < edit.range.stop := by
  obtain ⟨pragmas, owners⟩ := exists_takesAway accepted checked
  obtain ⟨id, node, takes⟩ := owners edit isFix
  rw [takes.range]
  exact Tree.start_lt_stop_of_isTagged accepted takes.known takes.tagged

/-- A fix that is left out is a copy of one that is applied, or stands strictly within it, or begins
where it ends. -/
theorem exists_applied_of_skipped (accepted : Tree.ofSource dialect source = .ok tree)
    {reports : List Report} (checked : lint settings dialect source = .ok reports) {edit : Edit}
    (skipped : edit ∈ Edit.skip (fixes reports)) :
    ∃ applied ∈ Edit.select (fixes reports),
      edit = applied ∨ edit.range.StrictlyWithin applied.range
        ∨ edit.range.start = applied.range.stop := by
  obtain ⟨applied, isApplied, earlier, touches⟩ := Edit.exists_selected_of_mem_skip skipped
  have isFix := Edit.mem_of_mem_skip skipped
  have isFixToo := Edit.mem_of_mem_select isApplied
  refine ⟨applied, isApplied, ?_⟩
  rcases eq_or_laminar_of_fixes accepted checked isFix isFixToo with same | laminar
  · exact Or.inl same
  · have behind : applied.range.start ≤ edit.range.start := by
      simp only [Edit.before, Bool.or_eq_true, Bool.and_eq_true, decide_eq_true_eq, beq_iff_eq]
        at earlier
      omega
    right
    exact laminar.place (start_lt_stop_of_fix accepted checked isFix) behind touches

/-- The fixes of a check that are not applied. Listed are all elements and fragments of the source,
each behind the beginning of the one before it, and any two of them keep apart unless one lies
strictly within the other. The same goes for the ranges of any two fixes that differ. Each fix is
applied or left out. One that is left out is a copy of one that is applied, or its range lies strictly
within that of one that is applied, or begins exactly where that ends. -/
theorem skipped_fixes_do_not_overlap (accepted : Tree.ofSource dialect source = .ok tree) :
    (∀ id, id ∈ tree.elements ↔ ∃ node, tree.node? id = some node ∧ node.kind.isTagged = true)
    ∧ (tree.elements.Pairwise fun first second => tree.startOf first < tree.startOf second)
    ∧ (∀ id other node below, tree.node? id = some node → tree.node? other = some below →
        node.kind.isTagged = true → below.kind.isTagged = true → id ≠ other →
          node.span.Laminar below.span)
    ∧ ∀ settings reports, lint settings dialect source = .ok reports →
        (∀ edit ∈ fixes reports, ∀ other ∈ fixes reports,
            edit = other ∨ edit.range.Laminar other.range)
          ∧ (Edit.select (fixes reports) ++ Edit.skip (fixes reports)).Perm (fixes reports)
          ∧ ∀ edit ∈ Edit.skip (fixes reports), ∃ applied ∈ Edit.select (fixes reports),
              edit = applied ∨ edit.range.StrictlyWithin applied.range
                ∨ edit.range.start = applied.range.stop := by
  refine ⟨fun id => Tree.mem_elements_iff, Tree.elements_pairwise accepted, ?_, ?_⟩
  · intro id other node below known knownToo tagged taggedToo apart
    exact Tree.laminar_of_ne accepted known knownToo tagged taggedToo apart
  · intro settings reports checked
    refine ⟨?_, Edit.select_append_skip_perm _, ?_⟩
    · intro edit isFix other isFixToo
      exact eq_or_laminar_of_fixes accepted checked isFix isFixToo
    · intro edit skipped
      exact exists_applied_of_skipped accepted checked skipped

end Parser

open Scripts

/-- Three fragments of a paragraph. The fix of the first one is applied. A copy of it is left out,
and so are the fix of the fragment in it and that of the fragment right behind it. -/
theorem skipped_fixes_of_paragraph :
    ∃ tree reports, Tree.ofSource .javascript "<p><><><b/></></><>c</></p>".toList = .ok tree
      ∧ lint .unset .javascript "<p><><><b/></></><>c</></p>".toList = .ok reports
      ∧ (Edit.select (fixes reports)).map Edit.range = [⟨3, 17⟩]
      ∧ (Edit.skip (fixes reports)).map Edit.range = [⟨3, 17⟩, ⟨5, 14⟩, ⟨17, 23⟩, ⟨17, 23⟩]
      ∧ ∀ edit ∈ Edit.skip (fixes reports), ∃ applied ∈ Edit.select (fixes reports),
          edit = applied ∨ edit.range.StrictlyWithin applied.range
            ∨ edit.range.start = applied.range.stop := by
  have parsed : (Tree.ofSource .javascript "<p><><><b/></></><>c</></p>".toList).toOption.isSome
      = true := by
    decide +kernel
  have linted : (lint .unset .javascript "<p><><><b/></></><>c</></p>".toList).toOption.map
      (fun reports => ((Edit.select (fixes reports)).map Edit.range,
        (Edit.skip (fixes reports)).map Edit.range))
      = some ([⟨3, 17⟩], [⟨3, 17⟩, ⟨5, 14⟩, ⟨17, 23⟩, ⟨17, 23⟩]) := by
    decide +kernel
  obtain ⟨tree, isTree⟩ := Option.isSome_iff_exists.1 parsed
  obtain ⟨reports, isReports, ranges⟩ := Option.map_eq_some_iff.1 linted
  obtain ⟨applied, skipped⟩ := Prod.mk.inj ranges
  have accepted := ok_of_toOption isTree
  have checked := ok_of_toOption isReports
  obtain ⟨-, -, -, apart⟩ := skipped_fixes_do_not_overlap accepted
  obtain ⟨-, -, covered⟩ := apart _ _ checked
  exact ⟨tree, reports, accepted, checked, applied, skipped, covered⟩

end FragmentLint
