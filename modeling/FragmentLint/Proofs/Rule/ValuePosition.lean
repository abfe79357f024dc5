import FragmentLint.Proofs.Grammar.Concrete
import FragmentLint.Proofs.Rule.Counted

/-!
Contract: what becomes of a fragment that is used as a value.

Where the parent of a fragment is no element and no fragment, its value is handed on, so it may only
be replaced by one element. Main statement: every fix there puts in place of the fragment the source
of its one child that is no padding, an element or fragment, or an empty fragment in place of a
fragment around empty braces (`fix_of_value_is_one_element`).

Owns: the cases in which a fragment that is used as a value is reported and may be taken away.
Does not own: fragments in the content of elements.
-/

namespace FragmentLint

theorem NodeKind.isTagged_of_isHost {kind : NodeKind} (host : kind.isHost = true) :
    kind.isTagged = true := by
  cases kind <;> simp [isHost, element?, isTagged] at host ⊢

namespace Site

variable {site : Site} {pragmas : Pragmas}

theorem isInMarkup_of_isInHost (inHost : site.isInHost = true) : site.isInMarkup = true := by
  obtain ⟨kind, isParent, host⟩ := (Option.any_eq_true _ _).1 inHost
  exact (Option.any_eq_true _ _).2 ⟨kind, isParent, NodeKind.isTagged_of_isHost host⟩

/-- A node that is used as a value is reported for what it holds, and for nothing else. -/
theorem reported_as_value {reason : Reason} (isReason : reason ∈ site.reasons pragmas)
    (value : site.isInMarkup = false) :
    site.isVacant = true
      ∨ site.hasFewChildren = true ∧ site.isTextValue = false ∧ site.holdsSafely = true := by
  have noHost : site.isInHost = false := by
    rw [Bool.eq_false_iff]
    intro inHost
    rw [isInMarkup_of_isInHost inHost] at value
    cases value
  unfold reasons at isReason
  split at isReason
  · cases isReason
  · rw [noHost] at isReason
    simp only [Bool.false_eq_true, if_false, List.append_nil] at isReason
    split at isReason
    next few =>
      simp only [Bool.or_eq_true, Bool.and_eq_true, Bool.not_eq_true'] at few
      rcases few with vacant | ⟨⟨few, noText⟩, safe⟩
      · exact Or.inl vacant
      · exact Or.inr ⟨few, noText, safe⟩
    next => cases isReason

/-- A node that is used as a value may be taken away if it holds something, and neither text to see
nor braces. -/
theorem removable_as_value (removable : site.isRemovable pragmas = true)
    (value : site.isInMarkup = false) (occupied : site.isVacant = false) :
    site.children ≠ [] ∧ ∀ child ∈ site.children, child.kind.isVisibleTextOrContainer = false := by
  unfold isRemovable at removable
  rw [value, occupied] at removable
  simp only [Bool.false_or, Bool.and_eq_true, Bool.not_eq_true', List.isEmpty_eq_false_iff,
    List.any_eq_false, Bool.not_eq_true] at removable
  exact removable.1

end Site

namespace Outline

variable {source : Text}

/-- Whether outlines are one element or fragment with padding around it. -/
def IsOneAmong (only : Outline) (children : List Outline) : Prop :=
  only.kind.isTagged = true ∧ ∃ before after, children = before ++ only :: after
    ∧ ∀ other ∈ before ++ after, other.kind.isPadding = true

/-- A node that is used as a value and reported for how little it holds, holds one element, fragment
or pair of braces and padding around it. -/
theorem exists_lone {entry : Entry} {tags : Tags} (placed : Placed source entry.outline)
    (tagsEq : entry.outline.kind.tags? = some tags) (value : entry.site.isInMarkup = false)
    (few : entry.site.hasFewChildren = true) (noText : entry.site.isTextValue = false)
    (occupied : entry.outline.children ≠ []) :
    ∃ lone before after, entry.outline.children = before ++ lone :: after
      ∧ (∀ other ∈ before ++ after, other.kind.isPadding = true)
      ∧ entry.site.countedChildren = [lone.child]
      ∧ (lone.kind.isTagged = true ∨ lone.kind = .container) := by
  have notAllText : ¬ ∀ child ∈ entry.outline.children, child.kind.text?.isSome = true := by
    intro texts
    rw [isTextValue_of_texts placed tagsEq texts occupied, value] at noText
    cases noText
  unfold Site.hasFewChildren at few
  rw [countedChildren_eq] at few ⊢
  match counted : withoutPadding entry.outline.children with
  | [] => exact absurd (texts_of_withoutPadding_eq_nil counted) notAllText
  | only :: second :: rest =>
    rw [counted] at few
    cases few
  | [only] =>
    obtain ⟨before, after, split, beforePadding, counts, afterPadding⟩ :=
      List.filter_eq_cons_iff.1 counted
    have others : ∀ other ∈ before ++ after, other.kind.isPadding = true := by
      intro other member
      rcases List.mem_append.1 member with inBefore | inAfter
      · simpa using beforePadding other inBefore
      · simpa using List.filter_eq_nil_iff.1 afterPadding other inAfter
    refine ⟨only, before, after, split, others, rfl, ?_⟩
    rcases lone_cases placed tagsEq counted with tagged | isContainer | texts
    · exact Or.inl tagged
    · exact Or.inr isContainer
    · exact absurd texts notAllText

/-- A node that is used as a value, is reported, and may be taken away, holds one element or
fragment and padding around it. -/
theorem exists_isOneAmong {entry : Entry} {tags : Tags} (placed : Placed source entry.outline)
    (tagsEq : entry.outline.kind.tags? = some tags) (value : entry.site.isInMarkup = false)
    (few : entry.site.hasFewChildren = true) (noText : entry.site.isTextValue = false)
    (occupied : entry.outline.children ≠ [])
    (noOther : ∀ child ∈ entry.outline.children, child.kind.isVisibleTextOrContainer = false) :
    ∃ only, IsOneAmong only entry.outline.children := by
  obtain ⟨lone, before, after, split, padding, -, tagged | isContainer⟩ :=
    exists_lone placed tagsEq value few noText occupied
  · exact ⟨lone, tagged, before, after, split, padding⟩
  · have isChild : lone ∈ entry.outline.children := by
      rw [split]
      exact List.mem_append_right _ List.mem_cons_self
    have visible := noOther lone isChild
    rw [isContainer] at visible
    cases visible

theorem exists_pieces_of_padding {outlines : List Outline}
    (padding : ∀ outline ∈ outlines, outline.kind.isPadding = true)
    (placed : ∀ outline ∈ outlines, Placed source outline) :
    ∃ pieces, List.Forall₂ (fun outline piece => outline.span.Delimits source piece) outlines pieces
      ∧ Text.IsPadding pieces.flatten := by
  induction outlines with
  | nil => exact ⟨[], .nil, Or.inl rfl⟩
  | cons head rest inductionHypothesis =>
    obtain ⟨pieces, delimit, others⟩ := inductionHypothesis
      (fun outline member => padding outline (List.mem_cons_of_mem _ member))
      (fun outline member => placed outline (List.mem_cons_of_mem _ member))
    have headPadding := padding head List.mem_cons_self
    have headPlaced := placed head List.mem_cons_self
    cases headPlaced with
    | @text span raw delimits =>
      have blank : Text.isBlank raw = true ∧ '\n' ∈ raw := by
        simpa [kind, NodeKind.isPadding, NodeKind.text?] using headPadding
      exact ⟨raw :: pieces, .cons delimits delimit, Text.IsPadding.append (Or.inr blank) others⟩
    | empty => cases headPadding
    | other => cases headPadding
    | container => cases headPadding
    | @tagged kind _ _ _ _ tagsEq =>
      cases kind <;> simp [Outline.kind, NodeKind.isPadding, NodeKind.text?, NodeKind.tags?]
        at headPadding tagsEq
    | @root kind _ _ _ context =>
      cases kind <;> simp [Outline.kind, NodeKind.isPadding, NodeKind.text?, NodeKind.isContext]
        at headPadding context

/-- What stands between the tags of a node that holds one element or fragment is, when trimmed, the
source of that. -/
theorem trimLines_of_isOneAmong {outline only : Outline} {tags : Tags} {inner : Text}
    (placed : Placed source outline) (tagsEq : outline.kind.tags? = some tags)
    (isOne : IsOneAmong only outline.children) (cut : tags.inner.Delimits source inner) :
    only.span.Delimits source (Text.trimLines inner) ∧ (Text.trimLines inner).Bracketed := by
  obtain ⟨tagged, before, after, split, padding⟩ := isOne
  have childrenPlaced := placed.children
  rw [split] at childrenPlaced
  have onlyPlaced := childrenPlaced only (List.mem_append_right _ List.mem_cons_self)
  obtain ⟨onlyTags, onlyTagsEq⟩ := NodeKind.exists_tags tagged
  obtain ⟨piece, delimits, bracketed⟩ := (onlyPlaced.holds onlyTagsEq).delimit.bracketed
  obtain ⟨beforePieces, delimitBefore, front⟩ := exists_pieces_of_padding
    (fun other member => padding other (List.mem_append_left _ member))
    (fun other member => childrenPlaced other (List.mem_append_left _ member))
  obtain ⟨afterPieces, delimitAfter, back⟩ := exists_pieces_of_padding
    (fun other member => padding other (List.mem_append_right _ member))
    (fun other member => childrenPlaced other
      (List.mem_append_right _ (List.mem_cons_of_mem _ member)))
  have delimit : List.Forall₂ (fun child piece => child.span.Delimits source piece)
      outline.children (beforePieces ++ piece :: afterPieces) := by
    rw [split]
    exact List.rel_append delimitBefore (.cons delimits delimitAfter)
  have whole := placed.inner tagsEq delimit
  rw [List.flatten_append, List.flatten_cons] at whole
  rw [cut.unique whole, Text.trimLines_padded front back bracketed]
  exact ⟨delimits, bracketed⟩

theorem Placed.children_of_isVacant {outline : Outline} (placed : Placed source outline)
    (vacant : outline.child.isVacant = true) :
    outline.kind = .container ∧ ∃ inside, outline.children = [inside] ∧ inside.kind = .empty := by
  obtain ⟨kind, span, aside, children⟩ := outline
  have isContainer : kind = .container ∧ children.head?.map Outline.kind = some .empty := by
    simpa [Child.isVacant, child, Outline.kind, Outline.children] using vacant
  obtain ⟨rfl, first⟩ := isContainer
  refine ⟨rfl, ?_⟩
  cases placed with
  | container =>
    exact ⟨_, rfl, Option.some.inj first⟩
  | tagged tagsEq => cases tagsEq
  | root => exact ⟨_, rfl, Option.some.inj first⟩

end Outline

namespace Tree

/-- Whether the children of a node are one element or fragment, which has a given source, and
padding around it. -/
def WrapsOne (tree : Tree) (node : Node) (piece : Text) : Prop :=
  ∃ before only after found, node.children = before ++ only :: after
    ∧ tree.node? only = some found ∧ found.kind.isTagged = true
    ∧ tree.text? found.span = some piece
    ∧ ∀ other ∈ before ++ after, ∃ padding,
      tree.node? other = some padding ∧ padding.kind.isPadding = true

/-- Whether a node is a fragment in shorthand whose only child is a pair of braces without an
expression. -/
def WrapsNothing (tree : Tree) (node : Node) : Prop :=
  ∃ tags only found inside, node.kind = .fragment tags ∧ node.children = [only]
    ∧ tree.node? only = some found ∧ found.kind = .container
    ∧ found.children = [inside] ∧ tree.kind? inside = some .empty

/-- Whether an edit puts one element or fragment in the place of a node: the source of the one
child of the node that is no padding, or an empty fragment if the node holds empty braces. -/
structure ReplacesByOne (tree : Tree) (node : Node) (edit : Edit) : Prop where
  range : edit.range = node.span
  bracketed : edit.replacement.Bracketed
  one : tree.WrapsOne node edit.replacement
    ∨ tree.WrapsNothing node ∧ edit.replacement = "<></>".toList

open Outline

variable {tree : Tree} {all : List Entry} {node : Node} {entry : Entry}

/-- A node holds one element or fragment and padding if its entry does. -/
theorem Lists.wrapsOne (lists : tree.Lists all) (describes : Describes all node entry)
    {only : Outline} {piece : Text} (isOne : IsOneAmong only entry.outline.children)
    (delimits : only.span.Delimits tree.source piece) : tree.WrapsOne node piece := by
  obtain ⟨tagged, before, after, split, padding⟩ := isOne
  have children := describes.children
  rw [split, List.map_append, List.map_cons] at children
  obtain ⟨idsBefore, rest, childrenEq, mapBefore, mapRest⟩ := List.map_eq_append_iff.1 children
  obtain ⟨id, idsAfter, rfl, listed, mapAfter⟩ := List.map_eq_cons_iff.1 mapRest
  obtain ⟨found, known, describesOnly⟩ := lists.exists_node listed
  refine ⟨idsBefore, id, idsAfter, found, childrenEq, known, ?_, ?_, ?_⟩
  · rw [describesOnly.kind]
    exact tagged
  · show found.span.Delimits tree.source piece
    rw [describesOnly.span]
    exact delimits
  · intro other member
    have mapped : all[other]? ∈ (before ++ after).map fun child =>
        some (Entry.mk (some entry.outline.kind) child) := by
      rw [List.map_append, ← mapBefore, ← mapAfter, ← List.map_append]
      exact List.mem_map_of_mem member
    obtain ⟨child, isChild, listedChild⟩ := List.mem_map.1 mapped
    obtain ⟨foundChild, knownChild, describesChild⟩ := lists.exists_node listedChild.symm
    refine ⟨foundChild, knownChild, ?_⟩
    rw [describesChild.kind]
    exact padding child isChild

theorem Records.wrapsNothing (records : tree.Records all) (describes : Describes all node entry)
    (member : entry ∈ all) (vacant : entry.site.isVacant = true) : tree.WrapsNothing node := by
  obtain ⟨tags, only, kindEq, childrenEq, onlyVacant⟩ := Site.isVacant_iff.1 vacant
  obtain ⟨child, others, split, rfl, none⟩ := List.map_eq_cons_iff.1 childrenEq
  obtain rfl := List.map_eq_nil_iff.1 none
  have isChild : child ∈ entry.outline.children := by
    rw [split]
    exact List.mem_cons_self
  obtain ⟨isContainer, inside, insideEq, isEmpty⟩ :=
    ((records.placed entry member).children child isChild).children_of_isVacant onlyVacant
  have children := describes.children
  rw [split] at children
  obtain ⟨id, rest, childrenOfNode, listed, noMore⟩ := List.map_eq_cons_iff.1 children
  obtain rfl := List.map_eq_nil_iff.1 noMore
  obtain ⟨found, known, describesChild⟩ := records.lists.exists_node listed
  have inner := describesChild.children
  rw [insideEq] at inner
  obtain ⟨innerId, innerRest, childrenOfFound, innerListed, noInner⟩ :=
    List.map_eq_cons_iff.1 inner
  obtain rfl := List.map_eq_nil_iff.1 noInner
  refine ⟨tags, id, found, innerId, ?_, childrenOfNode, known, ?_, childrenOfFound, ?_⟩
  · rw [describes.kind]
    exact kindEq
  · rw [describesChild.kind]
    exact isContainer
  · rw [records.lists.kind?_eq]
    show all[innerId]?.map (·.outline.kind) = some .empty
    rw [innerListed, Option.map_some, isEmpty]

end Tree

section Parser

variable [SyntaxParser] [LawfulSyntaxParser]

/-- Value-position safety: where the parent of a reported fragment is no element and no fragment,
its fix replaces the whole of it, by the source of its one child that is no padding, which is an
element or fragment, or by an empty fragment if it holds nothing but empty braces. -/
theorem fix_of_value_is_one_element {dialect : Dialect} {source : Text} {settings : Settings}
    {tree : Tree} {reports : List Report} {report : Report} {edit : Edit}
    (accepted : Tree.ofSource dialect source = .ok tree)
    (checked : tree.lint settings = .ok reports)
    (member : report ∈ reports) (fixed : report.fix = some edit) :
    ∃ pragmas, Pragmas.resolve tree.comments settings = .ok pragmas
      ∧ (∃ id, tree.ReportsOn pragmas id report)
      ∧ ∀ id node, tree.node? id = some node → tree.ReportsOn pragmas id report →
        (node.parent.bind tree.kind?).any NodeKind.isTagged = false →
          tree.ReplacesByOne node edit := by
  obtain ⟨all, records⟩ := Tree.exists_records accepted
  obtain ⟨pragmas, resolved, found⟩ := Tree.lint_eq_ok_iff.1 checked
  obtain ⟨reportedId, -, reportedOn⟩ := Tree.exists_reportsOn found report member
  refine ⟨pragmas, resolved, ⟨reportedId, reportedOn⟩, ?_⟩
  intro id node known reportsOn value
  obtain ⟨site, isSite, -, isReason, removed⟩ := reportsOn.exists_site
  obtain ⟨entry, listed, describes⟩ := records.lists.exists_entry known
  have isEntry : entry ∈ all := List.mem_of_getElem? listed
  rw [records.lists.site?_eq_map_entries, listed, Option.map_some] at isSite
  obtain rfl := Option.some.inj isSite
  rw [records.lists.kind?_eq, describes.parent] at value
  rw [fixed] at removed
  have range : edit.range = node.span := (Tree.range_of_removal removed).trans describes.span.symm
  obtain ⟨removable, ⟨vacant, rfl⟩ | ⟨occupied, tags, inner, tagsEq, cut, rfl⟩⟩ :=
    Tree.removal_eq_some_iff.1 removed
  · have bracketed : Text.Bracketed "<></>".toList := ⟨"></".toList, by decide⟩
    exact ⟨range, bracketed, Or.inr ⟨records.wrapsNothing describes isEntry vacant, rfl⟩⟩
  · have placed := records.placed entry isEntry
    rcases Site.reported_as_value isReason value with vacant | ⟨few, noText, -⟩
    · rw [vacant] at occupied
      cases occupied
    · obtain ⟨someChild, noOther⟩ := Site.removable_as_value removable value occupied
      have someOutline : entry.outline.children ≠ [] := fun none =>
        someChild (List.map_eq_nil_iff.2 none)
      obtain ⟨only, isOne⟩ := Outline.exists_isOneAmong placed tagsEq value few noText someOutline
        fun child isChild => noOther child.child (List.mem_map_of_mem isChild)
      obtain ⟨delimits, bracketed⟩ := Outline.trimLines_of_isOneAmong placed tagsEq isOne cut
      exact ⟨range, bracketed, Or.inl (records.lists.wrapsOne describes isOne delimits)⟩

end Parser

open Scripts

/-- A fragment over three lines is replaced by the element in it. -/
theorem fix_of_value_over_lines :
    ∃ tree reports report edit pragmas node,
      Tree.ofSource .javascript "a = <>\n  <b/>\n</>".toList = .ok tree
      ∧ tree.lint .unset = .ok reports ∧ report ∈ reports ∧ report.fix = some edit
      ∧ Pragmas.resolve tree.comments .unset = .ok pragmas
      ∧ tree.node? 1 = some node ∧ tree.ReportsOn pragmas 1 report
      ∧ (node.parent.bind tree.kind?).any NodeKind.isTagged = false
      ∧ tree.ReplacesByOne node edit ∧ edit.replacement = "<b/>".toList := by
  have checks : (Tree.ofSource .javascript "a = <>\n  <b/>\n</>".toList).toOption.map
      (fun tree => ((tree.lint .unset).toOption, (Pragmas.resolve tree.comments .unset).toOption,
        (tree.reportsAt default 1).toOption))
      = some (some [⟨⟨4, 17⟩, .needsMoreChildren, some ⟨⟨4, 17⟩, "<b/>".toList⟩⟩], some default,
        some [⟨⟨4, 17⟩, .needsMoreChildren, some ⟨⟨4, 17⟩, "<b/>".toList⟩⟩]) := by
    decide +kernel
  have places : (Tree.ofSource .javascript "a = <>\n  <b/>\n</>".toList).toOption.map
      (fun tree => (tree.node? 1, tree.kind? 0))
      = some (some ⟨.fragment ⟨⟨4, 6⟩, some ⟨14, 17⟩⟩, ⟨4, 17⟩, some 0, [2, 3, 4]⟩,
        some (.other .assignment)) := by
    decide +kernel
  obtain ⟨tree, isTree, checksEq⟩ := Option.map_eq_some_iff.1 checks
  rw [isTree, Option.map_some, Option.some.injEq] at places
  simp only [Prod.mk.injEq] at checksEq places
  obtain ⟨linted, resolved, own⟩ := checksEq
  obtain ⟨known, parentKind⟩ := places
  have accepted := ok_of_toOption isTree
  have checked := ok_of_toOption linted
  have reportsOn : tree.ReportsOn default 1 _ := ⟨_, ok_of_toOption own, List.mem_singleton_self _⟩
  have value : (Option.bind (some 0) tree.kind?).any NodeKind.isTagged = false := by
    rw [Option.bind_some, parentKind]
    rfl
  obtain ⟨pragmas, resolvedAgain, -, replaces⟩ :=
    fix_of_value_is_one_element accepted checked (List.mem_singleton_self _) rfl
  rw [ok_of_toOption resolved] at resolvedAgain
  obtain rfl := Except.ok.inj resolvedAgain
  exact ⟨tree, _, _, _, default, _, accepted, checked, List.mem_singleton_self _, rfl,
    ok_of_toOption resolved, known, reportsOn, value, replaces 1 _ known reportsOn value, rfl⟩

end FragmentLint
