import FragmentLint.Proofs.Grammar.Concrete
import FragmentLint.Proofs.Rule.ValuePosition

/-!
Contract: which reports have a fix.

Whether a node may be taken away is decided apart from whether it is reported, by tests of its own.
On a node that is reported all of these pass but one: the parent must not be a component. Main
statement: `fix_eq_none_iff`.

Does not own: what a fix puts in the place of a node.
-/

namespace FragmentLint

theorem NodeKind.not_isVisible_of_isPadding {kind : NodeKind} (padding : kind.isPadding = true) :
    kind.isVisibleTextOrContainer = false := by
  cases kind with
  | text raw =>
    simp only [isPadding, text?, Option.any_some, Bool.and_eq_true] at padding
    simp [isVisibleTextOrContainer, padding.1]
  | _ => cases padding

theorem NodeKind.not_isVisible_of_isTagged {kind : NodeKind} (tagged : kind.isTagged = true) :
    kind.isVisibleTextOrContainer = false := by
  cases kind with
  | element => rfl
  | fragment => rfl
  | _ => cases tagged

theorem NodeKind.isTagged_of_isComponent {pragmas : Pragmas} {kind : NodeKind}
    (component : kind.isComponent pragmas = true) : kind.isTagged = true := by
  cases kind with
  | element => rfl
  | _ => cases component

theorem NodeKind.not_isComponent_of_isHost {pragmas : Pragmas} {kind : NodeKind}
    (host : kind.isHost = true) : kind.isComponent pragmas = false := by
  cases kind with
  | element found =>
    have isHost : found.name.isHost = true := host
    simp [isComponent, element?, isHost]
  | _ => cases host

namespace Site

variable {site : Site} {pragmas : Pragmas} {reason : Reason}

/-- A fragment is reported as a child of a host element only where it is one. -/
theorem isInHost_of_mem_reasons (isReason : .childOfHostElement ∈ site.reasons pragmas) :
    site.isInHost = true := by
  unfold reasons at isReason
  split at isReason
  · cases isReason
  · rcases List.mem_append.1 isReason with few | inHost
    · split at few
      · cases List.mem_singleton.1 few
      · cases few
    · split at inHost
      next host => exact host
      next => cases inHost

theorem not_isInComponent_of_isInHost (inHost : site.isInHost = true) :
    site.isInComponent pragmas = false := by
  obtain ⟨kind, isParent, host⟩ := (Option.any_eq_true _ _).1 inHost
  unfold isInComponent
  rw [Option.mem_def.1 isParent, Option.any_some]
  exact NodeKind.not_isComponent_of_isHost host

/-- A component is markup. -/
theorem not_isInComponent_of_value (value : site.isInMarkup = false) :
    site.isInComponent pragmas = false := by
  rw [Bool.eq_false_iff]
  intro inComponent
  obtain ⟨kind, isParent, component⟩ := (Option.any_eq_true _ _).1 inComponent
  have inMarkup : site.isInMarkup = true :=
    (Option.any_eq_true _ _).2 ⟨kind, isParent, NodeKind.isTagged_of_isComponent component⟩
  rw [value] at inMarkup
  cases inMarkup

theorem kind_ne_container_of_holdsSafely {only : Child} (safe : site.holdsSafely = true)
    (counted : site.countedChildren = [only]) (noHost : site.isInHost = false) :
    only.kind ≠ .container := by
  intro isContainer
  unfold holdsSafely at safe
  rw [counted, noHost] at safe
  simp [isContainer] at safe

end Site

namespace Outline

variable {source : Text}

/-- A node that is used as a value and reported for how little it holds, holds something, and
neither text to see nor braces. -/
theorem not_visible_of_value {entry : Entry} {tags : Tags} (placed : Placed source entry.outline)
    (tagsEq : entry.outline.kind.tags? = some tags) (value : entry.site.isInMarkup = false)
    (few : entry.site.hasFewChildren = true) (noText : entry.site.isTextValue = false)
    (safe : entry.site.holdsSafely = true) :
    entry.site.children ≠ []
      ∧ ∀ child ∈ entry.site.children, child.kind.isVisibleTextOrContainer = false := by
  have siteOccupied : entry.site.children ≠ [] := by
    intro nothing
    unfold Site.holdsSafely at safe
    rw [nothing] at safe
    cases safe
  have occupied : entry.outline.children ≠ [] := fun nothing =>
    siteOccupied (congrArg (List.map child) nothing)
  obtain ⟨lone, before, after, split, padding, counted, kinds⟩ :=
    exists_lone placed tagsEq value few noText occupied
  have noHost : entry.site.isInHost = false := by
    rw [Bool.eq_false_iff]
    intro inHost
    rw [Site.isInMarkup_of_isInHost inHost] at value
    cases value
  have tagged : lone.kind.isTagged = true :=
    kinds.resolve_right (Site.kind_ne_container_of_holdsSafely safe counted noHost)
  refine ⟨siteOccupied, ?_⟩
  intro child isChild
  obtain ⟨outline, member, rfl⟩ := List.mem_map.1 isChild
  show outline.kind.isVisibleTextOrContainer = false
  rw [split] at member
  rcases List.mem_append.1 member with inBefore | inRest
  · exact NodeKind.not_isVisible_of_isPadding (padding outline (List.mem_append_left _ inBefore))
  · rcases List.mem_cons.1 inRest with rfl | inAfter
    · exact NodeKind.not_isVisible_of_isTagged tagged
    · exact NodeKind.not_isVisible_of_isPadding (padding outline (List.mem_append_right _ inAfter))

/-- A reported node may not be taken away if and only if its parent is a component, unless it holds
nothing but empty braces. -/
theorem isRemovable_eq_false_iff {entry : Entry} {pragmas : Pragmas} {reason : Reason}
    (placed : Placed source entry.outline) (isReason : reason ∈ entry.site.reasons pragmas) :
    entry.site.isRemovable pragmas = false ↔
      entry.site.isInComponent pragmas = true ∧ entry.site.isVacant = false := by
  have passes : entry.site.isVacant = false → entry.site.isInMarkup = false →
      entry.site.children ≠ []
        ∧ ∀ child ∈ entry.site.children, child.kind.isVisibleTextOrContainer = false := by
    intro occupied value
    obtain ⟨tags, tagsEq⟩ :=
      NodeKind.exists_tags_of_isWrapper (Site.isWrapper_of_mem_reasons isReason).1
    rcases Site.reported_as_value isReason value with vacant | ⟨few, noText, safe⟩
    · rw [occupied] at vacant
      cases vacant
    · exact not_visible_of_value placed tagsEq value few noText safe
  unfold Site.isRemovable
  constructor
  · intro refused
    simp only [Bool.or_eq_false_iff] at refused
    obtain ⟨occupied, others⟩ := refused
    refine ⟨?_, occupied⟩
    cases inMarkup : entry.site.isInMarkup with
    | true =>
      rw [inMarkup] at others
      simpa using others
    | false =>
      -- Outside markup the tests of the children pass, so the one of the parent does not.
      obtain ⟨something, hidden⟩ := passes occupied inMarkup
      have unseen : (entry.site.children.any fun child => child.kind.isVisibleTextOrContainer)
          = false := by
        rw [List.any_eq_false]
        intro child member visible
        rw [hidden child member] at visible
        cases visible
      rw [inMarkup, unseen, List.isEmpty_eq_false_iff.2 something] at others
      simpa using others
  · rintro ⟨inComponent, occupied⟩
    rw [inComponent, occupied]
    simp

end Outline

namespace Tree

variable {tree : Tree} {all : List Entry}

/-- A node holds nothing but empty braces if and only if its entry is seen to. -/
theorem Records.isVacant_iff (records : tree.Records all) {id : Nat} {node : Node} {entry : Entry}
    (found : tree.node? id = some node) (listed : all[id]? = some entry)
    (describes : Outline.Describes all node entry) :
    entry.site.isVacant = true ↔ tree.WrapsNothing node := by
  constructor
  · exact records.wrapsNothing describes (List.mem_of_getElem? listed)
  · rintro ⟨tags, only, braces, inside, kindEq, childrenEq, known, isContainer, insideEq, isEmpty⟩
    have siteEq : tree.site? id = some entry.site := by
      rw [records.lists.site?_eq_map_entries, listed, Option.map_some]
    unfold site? at siteEq
    rw [found, Option.map_some] at siteEq
    rw [← Option.some.inj siteEq]
    have isChild : tree.child? only = some ⟨.container, some .empty⟩ := by
      unfold child?
      rw [known, Option.map_some, insideEq, isContainer, List.head?_cons, Option.bind_some,
        isEmpty]
    refine Site.isVacant_iff.2 ⟨tags, ⟨.container, some .empty⟩, kindEq, ?_, rfl⟩
    rw [childrenEq, List.filterMap_cons_some isChild, List.filterMap_nil]

end Tree

section Parser

variable [SyntaxParser] [LawfulSyntaxParser]

/-- Which reports have no fix: those on a fragment whose parent is an element of a component, unless
it is a fragment in shorthand around nothing but empty braces. So every report on a child of a host
element has a fix, and so has every report on a fragment that is used as a value. -/
theorem fix_eq_none_iff {dialect : Dialect} {source : Text} {settings : Settings} {tree : Tree}
    {reports : List Report} {report : Report}
    (accepted : Tree.ofSource dialect source = .ok tree)
    (checked : tree.lint settings = .ok reports) (member : report ∈ reports) :
    ∃ pragmas, Pragmas.resolve tree.comments settings = .ok pragmas
      ∧ (∃ id, tree.ReportsOn pragmas id report)
      ∧ ∀ id node, tree.node? id = some node → tree.ReportsOn pragmas id report →
        (report.fix = none ↔
          (node.parent.bind tree.kind?).any (NodeKind.isComponent pragmas) = true
            ∧ ¬ tree.WrapsNothing node)
        ∧ (report.reason = .childOfHostElement → report.fix ≠ none)
        ∧ ((node.parent.bind tree.kind?).any NodeKind.isTagged = false → report.fix ≠ none) := by
  obtain ⟨all, records⟩ := Tree.exists_records accepted
  obtain ⟨pragmas, resolved, reported⟩ := Tree.exists_reportsOn_of_lint checked member
  refine ⟨pragmas, resolved, reported, ?_⟩
  intro id node known reportsOn
  obtain ⟨entry, tags, listed, describes, tagsEq, isReason, removed⟩ :=
    records.exists_reported known reportsOn
  have placed := records.placed entry (List.mem_of_getElem? listed)
  have parentEq : node.parent.bind tree.kind? = entry.site.parent := by
    rw [records.lists.kind?_eq, describes.parent]
    rfl
  have occupiedIff : entry.site.isVacant = false ↔ ¬ tree.WrapsNothing node := by
    rw [← Bool.not_eq_true, not_iff_not]
    exact records.isVacant_iff known listed describes
  have refused : report.fix = none ↔
      entry.site.isInComponent pragmas = true ∧ entry.site.isVacant = false :=
    (Tree.removal_eq_none_iff tagsEq removed).trans
      (Outline.isRemovable_eq_false_iff placed isReason)
  rw [parentEq]
  refine ⟨?_, ?_, ?_⟩
  · rw [refused, occupiedIff]
    rfl
  · intro isHostReason none
    rw [isHostReason] at isReason
    have inHost := Site.isInHost_of_mem_reasons isReason
    obtain ⟨inComponent, -⟩ := refused.1 none
    rw [Site.not_isInComponent_of_isInHost inHost] at inComponent
    cases inComponent
  · intro value none
    obtain ⟨inComponent, -⟩ := refused.1 none
    rw [Site.not_isInComponent_of_value value] at inComponent
    cases inComponent

end Parser

open Scripts

/-- A fragment around a text in an element of a component is reported without a fix. -/
theorem fix_eq_none_in_component :
    ∃ tree reports report pragmas node,
      Tree.ofSource .javascript "<Ab><>foo</></Ab>".toList = .ok tree
      ∧ tree.lint .unset = .ok reports ∧ report ∈ reports ∧ report.fix = none
      ∧ Pragmas.resolve tree.comments .unset = .ok pragmas
      ∧ tree.node? 2 = some node ∧ tree.ReportsOn pragmas 2 report
      ∧ (node.parent.bind tree.kind?).any (NodeKind.isComponent pragmas) = true
      ∧ ¬ tree.WrapsNothing node ∧ report.reason ≠ .childOfHostElement := by
  have checks : (Tree.ofSource .javascript "<Ab><>foo</></Ab>".toList).toOption.map
      (fun tree => ((tree.lint .unset).toOption, (Pragmas.resolve tree.comments .unset).toOption,
        (tree.reportsAt default 2).toOption, tree.node? 2))
      = some (some [⟨⟨4, 12⟩, .needsMoreChildren, none⟩], some default,
        some [⟨⟨4, 12⟩, .needsMoreChildren, none⟩],
        some ⟨.fragment ⟨⟨4, 6⟩, some ⟨9, 12⟩⟩, ⟨4, 12⟩, some 1, [3]⟩) := by
    decide +kernel
  obtain ⟨tree, isTree, checksEq⟩ := Option.map_eq_some_iff.1 checks
  simp only [Prod.mk.injEq] at checksEq
  obtain ⟨linted, resolved, own, known⟩ := checksEq
  have accepted := ok_of_toOption isTree
  have checked := ok_of_toOption linted
  have reportsOn : tree.ReportsOn default 2 _ := ⟨_, ok_of_toOption own, List.mem_singleton_self _⟩
  obtain ⟨pragmas, resolvedAgain, -, exactly⟩ :=
    fix_eq_none_iff accepted checked (List.mem_singleton_self _)
  rw [ok_of_toOption resolved] at resolvedAgain
  obtain rfl := Except.ok.inj resolvedAgain
  obtain ⟨refused, hostFixed, -⟩ := exactly 2 _ known reportsOn
  obtain ⟨inComponent, notVacant⟩ := refused.1 rfl
  exact ⟨tree, _, _, default, _, accepted, checked, List.mem_singleton_self _, rfl,
    ok_of_toOption resolved, known, reportsOn, inComponent, notVacant,
    fun isHostReason => hostFixed isHostReason rfl⟩

end FragmentLint
