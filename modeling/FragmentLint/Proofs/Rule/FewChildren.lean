import FragmentLint.Proofs.Grammar.Concrete
import FragmentLint.Proofs.Markup.Laminar
import FragmentLint.Proofs.Markup.Shape
import FragmentLint.Proofs.Rule.Fixability

/-!
Contract: which fragments are reported for how little they hold.

The verdict weighs four tests against each other, some of which count all children and some only those
that are no padding. Between tags there are only elements, fragments, texts and pairs of braces, and
no two texts in a row, so the tests come down to a table of four cases (`Tree.HoldsTooLittle`). Main
statement: `needsMoreChildren_iff`.

Does not own: reports on fragments for where they stand.
-/

namespace FragmentLint

theorem NodeKind.eq_text_of_text? {kind : NodeKind} {raw : Text} (isText : kind.text? = some raw) :
    kind = .text raw := by
  cases kind with
  | text found => exact congrArg NodeKind.text (Option.some.inj isText)
  | _ => cases isText

namespace Site

/-- What the verdict on how little a node holds weighs up. -/
def IsScant (site : Site) : Prop :=
  site.isVacant = true
    ∨ site.hasFewChildren = true ∧ site.isTextValue = false ∧ site.holdsSafely = true

/-- A fragment without a key is reported for how little it holds if and only if the tests say so. -/
theorem needsMoreChildren_mem_reasons_iff {site : Site} {pragmas : Pragmas}
    (isWrapper : site.kind.isWrapper pragmas = true) (unkeyed : site.kind.isKeyed = false) :
    .needsMoreChildren ∈ site.reasons pragmas ↔ site.IsScant := by
  have passes : ¬ (!site.kind.isWrapper pragmas || site.kind.isKeyed) = true := by
    rw [isWrapper, unkeyed]
    decide
  unfold reasons IsScant
  rw [if_neg passes, List.mem_append]
  have notHere : Reason.needsMoreChildren
      ∉ (if site.isInHost then [Reason.childOfHostElement] else []) := by
    split <;> simp
  rw [or_iff_left notHere]
  simp [Bool.and_eq_true, and_assoc]

end Site

/-! ## The tests, by the children that are no padding -/

namespace Outline

variable {source : Text} {entry : Entry} {tags : Tags}

/-- A vacant pair of braces is all that a vacant fragment holds, and it is no padding. -/
theorem withoutPadding_of_isVacant (vacant : entry.site.isVacant = true) :
    ∃ only, withoutPadding entry.outline.children = [only] ∧ only.kind = .container := by
  obtain ⟨tags, only, -, childrenEq, onlyVacant⟩ := Site.isVacant_iff.1 vacant
  obtain ⟨lone, rest, split, rfl, none⟩ := List.map_eq_cons_iff.1 childrenEq
  obtain rfl := List.map_eq_nil_iff.1 none
  have isContainer : lone.kind = .container := by
    unfold Child.isVacant at onlyVacant
    simp only [Bool.and_eq_true, beq_iff_eq] at onlyVacant
    exact onlyVacant.1
  refine ⟨lone, ?_, isContainer⟩
  unfold withoutPadding
  rw [split, List.filter_cons_of_pos, List.filter_nil]
  rw [isContainer]
  rfl

theorem isTextValue_of_mem {other : Outline} (member : other ∈ entry.outline.children)
    (noText : other.kind.text? = none) : entry.site.isTextValue = false := by
  unfold Site.isTextValue
  split
  next only single =>
    have isOnly : other.child ∈ entry.site.children := List.mem_map_of_mem member
    rw [single, List.mem_singleton] at isOnly
    rw [← isOnly]
    show (other.kind.text?.isSome && _) = false
    rw [noText]
    rfl
  next => rfl

theorem holdsSafely_iff_of_ne_nil (occupied : entry.outline.children ≠ []) :
    entry.site.holdsSafely = true
      ↔ ∀ only, withoutPadding entry.outline.children = [only] → only.kind = .container →
          entry.site.isInHost = true := by
  have some : entry.site.children.isEmpty = false := by
    rw [List.isEmpty_eq_false_iff]
    exact fun none => occupied (List.map_eq_nil_iff.1 none)
  unfold Site.holdsSafely
  rw [some, countedChildren_eq]
  match withoutPadding entry.outline.children with
  | [] => simp
  | [only] =>
    simp only [List.map_cons, List.map_nil, Bool.not_false, Bool.true_and, Bool.or_eq_true,
      bne_iff_ne, List.cons.injEq, and_true, forall_eq']
    show only.kind ≠ .container ∨ _ ↔ (only.kind = .container → _)
    exact Decidable.imp_iff_not_or.symm
  | first :: second :: rest => simp

/-- A lone element or fragment is too little. -/
theorem isScant_of_isTagged {only : Outline} (lone : withoutPadding entry.outline.children = [only])
    (tagged : only.kind.isTagged = true) : entry.site.IsScant := by
  have member : only ∈ entry.outline.children := mem_of_withoutPadding (by rw [lone]; simp)
  have notContainer : only.kind ≠ .container := by
    intro isContainer
    rw [isContainer] at tagged
    cases tagged
  refine Or.inr ⟨?_, ?_, ?_⟩
  · unfold Site.hasFewChildren
    rw [countedChildren_eq, lone]
    simp [Child.isCall, child, notContainer]
  · exact isTextValue_of_mem member (Option.isNone_iff_eq_none.1 (text?_of_isTagged tagged))
  · apply (holdsSafely_iff_of_ne_nil (List.ne_nil_of_mem member)).2
    intro other isOther isContainer
    obtain rfl := List.singleton_inj.1 (lone.symm.trans isOther)
    exact absurd isContainer notContainer

/-- A lone pair of braces is too little in a host element, unless it holds a call. -/
theorem isScant_iff_of_container {only : Outline}
    (lone : withoutPadding entry.outline.children = [only]) (isContainer : only.kind = .container) :
    entry.site.IsScant ↔ entry.site.isVacant = true
      ∨ only.child.isCall = false ∧ entry.site.isInHost = true := by
  have member : only ∈ entry.outline.children := mem_of_withoutPadding (by rw [lone]; simp)
  have noText : entry.site.isTextValue = false :=
    isTextValue_of_mem member (by rw [isContainer]; rfl)
  have few : entry.site.hasFewChildren = !only.child.isCall := by
    unfold Site.hasFewChildren
    rw [countedChildren_eq, lone]
    rfl
  have safe : entry.site.holdsSafely = true ↔ entry.site.isInHost = true := by
    rw [holdsSafely_iff_of_ne_nil (List.ne_nil_of_mem member), lone]
    simp [isContainer]
  unfold Site.IsScant
  rw [few, noText, safe]
  simp

section Texts

variable (texts : ∀ child ∈ entry.outline.children, child.kind.text?.isSome = true)

include texts

/-- There are no braces among texts. -/
theorem ne_container_of_texts {only : Outline}
    (lone : withoutPadding entry.outline.children = [only]) : only.kind ≠ .container := by
  intro isContainer
  have isText := texts only (mem_of_withoutPadding (by rw [lone]; simp))
  rw [isContainer] at isText
  cases isText

theorem isVacant_of_texts : entry.site.isVacant = false := by
  rw [Bool.eq_false_iff]
  intro vacant
  obtain ⟨only, lone, isContainer⟩ := withoutPadding_of_isVacant vacant
  exact ne_container_of_texts texts lone isContainer

theorem hasFewChildren_of_texts (placed : Placed source entry.outline)
    (tagsEq : entry.outline.kind.tags? = some tags) (occupied : entry.outline.children ≠ []) :
    entry.site.hasFewChildren = true := by
  obtain ⟨only, single⟩ := eq_singleton_of_texts (placed.holds tagsEq).apart texts occupied
  unfold Site.hasFewChildren
  rw [countedChildren_eq]
  by_cases padding : only.kind.isPadding = true
  · have none : withoutPadding entry.outline.children = [] := by
      rw [single, withoutPadding, List.filter_cons_of_neg (by simp [padding]), List.filter_nil]
    rw [none]
    rfl
  · have lone : withoutPadding entry.outline.children = [only] := by
      rw [single, withoutPadding, List.filter_cons_of_pos (by simp [padding]), List.filter_nil]
    have notContainer := ne_container_of_texts texts lone
    rw [lone]
    simp [Child.isCall, child, notContainer]

/-- Nothing but text is too little in markup. -/
theorem isScant_iff_of_texts (placed : Placed source entry.outline)
    (tagsEq : entry.outline.kind.tags? = some tags) :
    entry.site.IsScant ↔ entry.site.isInMarkup = true ∧ entry.outline.children ≠ [] := by
  have occupiedBraces := isVacant_of_texts texts
  by_cases occupied : entry.outline.children = []
  · have unsafeEmpty : entry.site.holdsSafely = false := by
      have nothing : entry.site.children = [] := congrArg (List.map child) occupied
      unfold Site.holdsSafely
      rw [nothing]
      rfl
    simp [Site.IsScant, occupiedBraces, unsafeEmpty, occupied]
  · have few := hasFewChildren_of_texts texts placed tagsEq occupied
    have safe : entry.site.holdsSafely = true := by
      apply (holdsSafely_iff_of_ne_nil occupied).2
      intro only lone isContainer
      exact absurd isContainer (ne_container_of_texts texts lone)
    rw [Site.IsScant, occupiedBraces, few, safe, isTextValue_of_texts placed tagsEq texts occupied]
    simp [occupied]

end Texts

/-- Two children that are no padding are never too little. -/
theorem not_isScant_of_two (several : 2 ≤ (withoutPadding entry.outline.children).length) :
    ¬ entry.site.IsScant := by
  rintro (vacant | ⟨few, -, -⟩)
  · obtain ⟨only, lone, -⟩ := withoutPadding_of_isVacant vacant
    rw [lone] at several
    simp at several
  · unfold Site.hasFewChildren at few
    rw [countedChildren_eq] at few
    match counted : withoutPadding entry.outline.children with
    | [] =>
      rw [counted] at several
      simp at several
    | [only] =>
      rw [counted] at several
      simp at several
    | first :: second :: rest =>
      rw [counted] at few
      cases few

end Outline

/-! ## The table -/

namespace Tree

/-- The children of a node that are no padding. -/
def counted (tree : Tree) (node : Node) : List Nat :=
  node.children.filter fun id => !(tree.kind? id).any NodeKind.isPadding

/-- Whether the parent of a node is of one of the kinds that are asked for. -/
def StandsUnder (tree : Tree) (node : Node) (asked : NodeKind → Bool) : Prop :=
  (node.parent.bind tree.kind?).any asked = true

/-- The four ways in which a fragment holds too little. -/
inductive HoldsTooLittle (tree : Tree) (node : Node) : Prop where
  /-- A fragment in shorthand holds a pair of braces without an expression, and nothing else. -/
  | vacant : tree.WrapsNothing node → HoldsTooLittle tree node
  /-- There is one element or fragment, and padding. -/
  | markup {only : Nat} : tree.counted node = [only] →
      (tree.kind? only).any NodeKind.isTagged = true → HoldsTooLittle tree node
  /-- There is one pair of braces, and padding, in a host element; the expression is no plain
  call. -/
  | expression {only inside : Nat} {braces : Node} : tree.counted node = [only] →
      tree.node? only = some braces → braces.kind = .container → braces.children = [inside] →
      tree.kind? inside ≠ some (.other .call) → tree.StandsUnder node NodeKind.isHost →
      HoldsTooLittle tree node
  /-- There is one text, or padding alone, in markup. -/
  | text : tree.StandsUnder node NodeKind.isTagged → node.children ≠ [] →
      (tree.counted node = []
        ∨ ∃ only raw, tree.counted node = [only] ∧ tree.kind? only = some (.text raw)) →
      HoldsTooLittle tree node

open Outline

variable {tree : Tree} {all : List Entry} {node : Node} {entry : Entry}

/-- The children of a node that are no padding are those of its entry. -/
theorem Lists.counted_related (lists : tree.Lists all) (describes : Describes all node entry) :
    List.Forall₂ (fun id child => all[id]? = some ⟨some entry.outline.kind, child⟩)
      (tree.counted node) (withoutPadding entry.outline.children) := by
  have related : List.Forall₂
      (fun id child => all[id]? = some ⟨some entry.outline.kind, child⟩)
      node.children entry.outline.children := by
    have listed := List.forall₂_eq_eq_eq ▸ describes.children
    rw [List.forall₂_map_left_iff, List.forall₂_map_right_iff] at listed
    exact listed
  refine List.rel_filter ?_ related
  intro id child listed
  show (!(tree.kind? id).any NodeKind.isPadding) = true ↔ (!child.kind.isPadding) = true
  rw [lists.kind?_of_getElem? listed, Option.any_some]

theorem children_eq_nil_iff (describes : Describes all node entry) :
    node.children = [] ↔ entry.outline.children = [] := by
  constructor
  · intro nothing
    have listed := describes.children
    rw [nothing, List.map_nil] at listed
    exact List.map_eq_nil_iff.1 listed.symm
  · exact children_of_describes describes

theorem Lists.standsUnder_iff (lists : tree.Lists all) (describes : Describes all node entry)
    (asked : NodeKind → Bool) :
    tree.StandsUnder node asked ↔ entry.site.parent.any asked = true := by
  unfold StandsUnder
  rw [lists.kind?_eq, describes.parent]
  rfl

/-- The one child of a node that is no padding is the one of its entry. -/
theorem Lists.counted_eq_singleton (lists : tree.Lists all) (describes : Describes all node entry)
    {only : Outline} (lone : withoutPadding entry.outline.children = [only]) :
    ∃ id, tree.counted node = [id] ∧ all[id]? = some ⟨some entry.outline.kind, only⟩ := by
  have related := lists.counted_related describes
  rw [lone] at related
  obtain ⟨id, rest, listed, none, countedEq⟩ := List.forall₂_cons_right_iff.1 related
  obtain rfl := List.forall₂_nil_right_iff.1 none
  exact ⟨id, countedEq, listed⟩

theorem Lists.withoutPadding_eq_singleton (lists : tree.Lists all)
    (describes : Describes all node entry) {id : Nat} (lone : tree.counted node = [id]) :
    ∃ only, withoutPadding entry.outline.children = [only]
      ∧ all[id]? = some ⟨some entry.outline.kind, only⟩ := by
  have related := lists.counted_related describes
  rw [lone] at related
  obtain ⟨only, rest, listed, none, countedEq⟩ := List.forall₂_cons_left_iff.1 related
  obtain rfl := List.forall₂_nil_left_iff.1 none
  exact ⟨only, countedEq, listed⟩

/-- Whether a pair of braces holds a plain call shows in its one child. -/
theorem Lists.isCall_eq_false_iff (lists : tree.Lists all) {braces : Node} {above : Option NodeKind}
    {only : Outline} {inside : Nat} (describes : Describes all braces ⟨above, only⟩)
    (isContainer : only.kind = .container) (childrenEq : braces.children = [inside]) :
    only.child.isCall = false ↔ tree.kind? inside ≠ some (.other .call) := by
  have firstEq : tree.kind? inside = only.child.first := by
    have heads := lists.first?_eq describes
    rw [childrenEq] at heads
    exact heads
  have kindEq : only.child.kind = .container := isContainer
  unfold Child.isCall
  rw [firstEq, kindEq]
  simp

/-- A fragment that is reported for how little it holds is in the table. -/
theorem Records.holdsTooLittle_of_isScant (records : tree.Records all)
    (describes : Describes all node entry) (member : entry ∈ all) {tags : Tags}
    (tagsEq : entry.outline.kind.tags? = some tags) (scant : entry.site.IsScant) :
    tree.HoldsTooLittle node := by
  have lists := records.lists
  have placed := records.placed entry member
  have ofTexts : (∀ child ∈ entry.outline.children, child.kind.text?.isSome = true) →
      tree.StandsUnder node NodeKind.isTagged ∧ node.children ≠ [] := by
    intro texts
    obtain ⟨inMarkup, occupied⟩ := (isScant_iff_of_texts texts placed tagsEq).1 scant
    exact ⟨(lists.standsUnder_iff describes _).2 inMarkup,
      fun nothing => occupied ((children_eq_nil_iff describes).1 nothing)⟩
  match counted : withoutPadding entry.outline.children with
  | [] =>
    obtain ⟨inMarkup, occupied⟩ := ofTexts (texts_of_withoutPadding_eq_nil counted)
    have none : tree.counted node = [] := by
      have related := lists.counted_related describes
      rw [counted] at related
      exact List.forall₂_nil_right_iff.1 related
    exact .text inMarkup occupied (Or.inl none)
  | [only] =>
    obtain ⟨id, lone, listed⟩ := lists.counted_eq_singleton describes counted
    have kindEq : tree.kind? id = some only.kind := lists.kind?_of_getElem? listed
    rcases lone_cases placed tagsEq counted with tagged | isContainer | texts
    · exact .markup lone (by rw [kindEq]; exact tagged)
    · rcases (isScant_iff_of_container counted isContainer).1 scant with vacant | ⟨noCall, inHost⟩
      · exact .vacant (records.wrapsNothing describes member vacant)
      · obtain ⟨braces, known, describesOnly⟩ := lists.exists_node listed
        have isBraces : braces.kind = .container := describesOnly.kind.trans isContainer
        have onlyPlaced := placed.children only (mem_of_withoutPadding (by rw [counted]; simp))
        obtain ⟨held, single, expression⟩ := onlyPlaced.children_of_container isContainer
        obtain ⟨inside, _, childrenEq, -, -⟩ := lists.holdsOne describesOnly single expression
        exact .expression lone known isBraces childrenEq
          ((lists.isCall_eq_false_iff describesOnly isContainer childrenEq).1 noCall)
          ((lists.standsUnder_iff describes _).2 inHost)
    · obtain ⟨inMarkup, occupied⟩ := ofTexts texts
      have isText := texts only (mem_of_withoutPadding (by rw [counted]; simp))
      obtain ⟨raw, rawEq⟩ := Option.isSome_iff_exists.1 isText
      rw [NodeKind.eq_text_of_text? rawEq] at kindEq
      exact .text inMarkup occupied (Or.inr ⟨id, raw, lone, kindEq⟩)
  | first :: second :: rest =>
    refine absurd scant (not_isScant_of_two ?_)
    rw [counted]
    exact Nat.le_add_left 2 rest.length

/-- A fragment that is in the table is reported for how little it holds. -/
theorem Records.isScant_of_holdsTooLittle (records : tree.Records all) {id : Nat}
    (found : tree.node? id = some node) (listed : all[id]? = some entry)
    (describes : Describes all node entry) {tags : Tags}
    (tagsEq : entry.outline.kind.tags? = some tags) (little : tree.HoldsTooLittle node) :
    entry.site.IsScant := by
  have lists := records.lists
  have placed := records.placed entry (List.mem_of_getElem? listed)
  cases little with
  | vacant nothing => exact Or.inl ((records.isVacant_iff found listed describes).2 nothing)
  | markup lone tagged =>
    obtain ⟨only, counted, listedOnly⟩ := lists.withoutPadding_eq_singleton describes lone
    rw [lists.kind?_of_getElem? listedOnly] at tagged
    exact isScant_of_isTagged counted tagged
  | expression lone known isBraces childrenEq noCall inHost =>
    obtain ⟨only, counted, listedOnly⟩ := lists.withoutPadding_eq_singleton describes lone
    obtain ⟨braces, knownToo, describesOnly⟩ := lists.exists_node listedOnly
    rw [known] at knownToo
    obtain rfl := Option.some.inj knownToo
    have isContainer : only.kind = .container := describesOnly.kind.symm.trans isBraces
    refine (isScant_iff_of_container counted isContainer).2 (Or.inr ⟨?_, ?_⟩)
    · exact (lists.isCall_eq_false_iff describesOnly isContainer childrenEq).2 noCall
    · exact (lists.standsUnder_iff describes _).1 inHost
  | text inMarkup occupied few =>
    have texts : ∀ child ∈ entry.outline.children, child.kind.text?.isSome = true := by
      rcases few with none | ⟨only, raw, lone, isText⟩
      · have related := lists.counted_related describes
        rw [none] at related
        exact texts_of_withoutPadding_eq_nil (List.forall₂_nil_left_iff.1 related)
      · obtain ⟨child, counted, listedOnly⟩ := lists.withoutPadding_eq_singleton describes lone
        rw [lists.kind?_of_getElem? listedOnly] at isText
        rcases lone_cases placed tagsEq counted with tagged | isContainer | texts
        · rw [Option.some.inj isText] at tagged
          cases tagged
        · have impossible := (Option.some.inj isText).symm.trans isContainer
          cases impossible
        · exact texts
    refine (isScant_iff_of_texts texts placed tagsEq).2 ⟨?_, ?_⟩
    · exact (lists.standsUnder_iff describes _).1 inMarkup
    · exact fun nothing => occupied ((children_eq_nil_iff describes).2 nothing)

/-- A fragment in the table has at most one child that is no padding. -/
theorem HoldsTooLittle.length_counted (little : tree.HoldsTooLittle node) :
    (tree.counted node).length ≤ 1 := by
  cases little with
  | vacant nothing =>
    obtain ⟨_, only, _, _, -, childrenEq, -⟩ := nothing
    have fewer := List.length_filter_le (fun id => !(tree.kind? id).any NodeKind.isPadding)
      node.children
    rw [childrenEq, List.length_singleton] at fewer
    unfold counted
    rw [childrenEq]
    exact fewer
  | markup lone => rw [lone, List.length_singleton]
  | expression lone => rw [lone, List.length_singleton]
  | text _ _ few =>
    rcases few with none | ⟨only, raw, lone, -⟩
    · rw [none]
      exact Nat.zero_le 1
    · rw [lone, List.length_singleton]

/-! ## Reports, by the spans of nodes -/

/-- Whether a report gives a reason against what stands at a span. -/
def IsReported (reports : List Report) (reason : Reason) (span : Span) : Prop :=
  ∃ report ∈ reports, report.range = span ∧ report.reason = reason

variable {dialect : Dialect} {source : Text} {pragmas : Pragmas} {reports : List Report}

/-- What the rule looks at in judging a node is of its kind and stands where it stands. -/
theorem kind_and_span_of_site? {id : Nat} {site : Site} (known : tree.node? id = some node)
    (siteEq : tree.site? id = some site) : site.kind = node.kind ∧ site.span = node.span := by
  unfold site? at siteEq
  rw [known, Option.map_some] at siteEq
  obtain rfl := Option.some.inj siteEq
  exact ⟨rfl, rfl⟩

section Parser

variable [SyntaxParser] [LawfulSyntaxParser]

/-- No two elements or fragments stand at the same span, so a node is reported if and only if there
is a reason against it. -/
theorem isReported_iff (accepted : ofSource dialect source = .ok tree)
    (found : tree.reports pragmas = .ok reports) {id : Nat} {site : Site} {reason : Reason}
    (known : tree.node? id = some node) (tagged : node.kind.isTagged = true)
    (siteEq : tree.site? id = some site) :
    IsReported reports reason node.span ↔ reason ∈ site.reasons pragmas := by
  constructor
  · rintro ⟨report, member, rangeEq, rfl⟩
    obtain ⟨other, isElement, reportsOn⟩ := (mem_reports_iff found).1 member
    obtain ⟨around, aroundEq, rangeToo, isReason, -⟩ := reportsOn.exists_site
    obtain ⟨below, knownBelow, taggedBelow⟩ := mem_elements_iff.1 isElement
    have same : other = id := by
      by_contra apart
      have keepApart := laminar_of_ne accepted knownBelow known taggedBelow tagged apart
      apply keepApart.1
      rw [← (kind_and_span_of_site? knownBelow aroundEq).2, ← rangeToo, rangeEq]
    rw [same, siteEq] at aroundEq
    rw [Option.some.inj aroundEq]
    exact isReason
  · intro isReason
    obtain ⟨all, records⟩ := exists_records accepted
    have siteToo := siteEq
    rw [records.lists.site?_eq_map_entries] at siteToo
    obtain ⟨entry, listed, rfl⟩ := Option.map_eq_some_iff.1 siteToo
    obtain ⟨fix, removed⟩ := records.exists_removal pragmas (List.mem_of_getElem? listed)
    have judged := (reportsAt_eq_judge siteEq).trans (judge_eq_of_removal removed)
    have isElement : id ∈ tree.elements := mem_elements_iff.2 ⟨node, known, tagged⟩
    refine ⟨⟨entry.site.span, reason, fix⟩, ?_, (kind_and_span_of_site? known siteEq).2, rfl⟩
    exact (mem_reports_iff found).2 ⟨id, isElement, _, judged, List.mem_map_of_mem isReason⟩

end Parser

end Tree

section Parser

variable [SyntaxParser] [LawfulSyntaxParser]

/-- When fragments are reported for how little they hold. On an accepted source with valid names for
fragments, a fragment without a key is reported for that if and only if it is in one of the four
cases of the table; nothing else is, and in particular no fragment with two children that are no
padding. -/
theorem needsMoreChildren_iff {dialect : Dialect} {source : Text} {settings : Settings}
    {tree : Tree} {pragmas : Pragmas} (accepted : Tree.ofSource dialect source = .ok tree)
    (resolved : Pragmas.resolve tree.comments settings = .ok pragmas) :
    ∃ reports, tree.lint settings = .ok reports
      ∧ (∀ id node, tree.node? id = some node → node.kind.isWrapper pragmas = true →
          node.kind.isKeyed = false →
          (Tree.IsReported reports .needsMoreChildren node.span ↔ tree.HoldsTooLittle node)
            ∧ (2 ≤ (tree.counted node).length →
              ¬ Tree.IsReported reports .needsMoreChildren node.span))
      ∧ ∀ report ∈ reports, report.reason = .needsMoreChildren →
          ∃ id node, tree.node? id = some node ∧ node.kind.isWrapper pragmas = true
            ∧ node.kind.isKeyed = false ∧ report.range = node.span := by
  obtain ⟨all, records⟩ := Tree.exists_records accepted
  obtain ⟨reports, found⟩ := records.exists_reports pragmas
  refine ⟨reports, Tree.lint_eq_ok_iff.2 ⟨pragmas, resolved, found⟩, ?_, ?_⟩
  · intro id node known isWrapper unkeyed
    obtain ⟨entry, listed, describes⟩ := records.lists.exists_entry known
    have siteEq : tree.site? id = some entry.site := by
      rw [records.lists.site?_eq_map_entries, listed, Option.map_some]
    have tagged : node.kind.isTagged = true := by
      obtain ⟨tags, tagsEq⟩ := NodeKind.exists_tags_of_isWrapper isWrapper
      exact NodeKind.isTagged_of_tags? tagsEq
    rw [describes.kind] at isWrapper unkeyed
    obtain ⟨tags, tagsEq⟩ := NodeKind.exists_tags_of_isWrapper isWrapper
    have table : Tree.IsReported reports .needsMoreChildren node.span
        ↔ tree.HoldsTooLittle node := by
      rw [Tree.isReported_iff accepted found known tagged siteEq,
        Site.needsMoreChildren_mem_reasons_iff isWrapper unkeyed]
      constructor
      · exact records.holdsTooLittle_of_isScant describes (List.mem_of_getElem? listed) tagsEq
      · exact records.isScant_of_holdsTooLittle known listed describes tagsEq
    refine ⟨table, ?_⟩
    intro several reported
    have few := (table.1 reported).length_counted
    omega
  · intro report member _
    obtain ⟨id, isElement, reportsOn⟩ := (Tree.mem_reports_iff found).1 member
    obtain ⟨site, siteEq, rangeEq, isReason, -⟩ := reportsOn.exists_site
    obtain ⟨node, known, -⟩ := Tree.mem_elements_iff.1 isElement
    obtain ⟨isWrapper, unkeyed⟩ := Site.isWrapper_of_mem_reasons isReason
    obtain ⟨kindEq, spanEq⟩ := Tree.kind_and_span_of_site? known siteEq
    rw [kindEq] at isWrapper unkeyed
    exact ⟨id, node, known, isWrapper, unkeyed, rangeEq.trans spanEq⟩

end Parser

open Scripts

/-- In a paragraph, a fragment around a name in braces holds too little, and one around a call does
not. -/
theorem needsMoreChildren_iff_in_paragraph :
    ∃ tree reports name call,
      Tree.ofSource .javascript "<p><>\x7ba\x7d</><>\x7bf()\x7d</></p>".toList = .ok tree
      ∧ Pragmas.resolve tree.comments .unset = .ok default ∧ tree.lint .unset = .ok reports
      ∧ reports.map (fun report => (report.range, report.reason))
        = [(⟨3, 11⟩, .needsMoreChildren), (⟨3, 11⟩, .childOfHostElement),
          (⟨11, 21⟩, .childOfHostElement)]
      ∧ tree.node? 2 = some name ∧ tree.HoldsTooLittle name
      ∧ tree.node? 5 = some call ∧ ¬ tree.HoldsTooLittle call := by
  have checks : (Tree.ofSource .javascript
        "<p><>\x7ba\x7d</><>\x7bf()\x7d</></p>".toList).toOption.map
      (fun tree => (
        (tree.lint .unset).toOption.map (·.map fun report => (report.range, report.reason)),
        (Pragmas.resolve tree.comments .unset).toOption, tree.node? 2, tree.node? 5))
      = some (
        some [(⟨3, 11⟩, .needsMoreChildren), (⟨3, 11⟩, .childOfHostElement),
          (⟨11, 21⟩, .childOfHostElement)],
        some default, some ⟨.fragment ⟨⟨3, 5⟩, some ⟨8, 11⟩⟩, ⟨3, 11⟩, some 1, [3]⟩,
        some ⟨.fragment ⟨⟨11, 13⟩, some ⟨18, 21⟩⟩, ⟨11, 21⟩, some 1, [6]⟩) := by
    decide +kernel
  obtain ⟨tree, isTree, checksEq⟩ := Option.map_eq_some_iff.1 checks
  simp only [Prod.mk.injEq] at checksEq
  obtain ⟨linted, resolved, nameKnown, callKnown⟩ := checksEq
  have accepted := ok_of_toOption isTree
  obtain ⟨reports, checked, table, -⟩ := needsMoreChildren_iff accepted (ok_of_toOption resolved)
  have reportsEq : reports.map (fun report => (report.range, report.reason))
      = [(⟨3, 11⟩, .needsMoreChildren), (⟨3, 11⟩, .childOfHostElement),
        (⟨11, 21⟩, .childOfHostElement)] := by
    rw [checked] at linted
    exact Option.some.inj linted
  have reported : ∀ span, Tree.IsReported reports .needsMoreChildren span
      ↔ (span, Reason.needsMoreChildren)
        ∈ reports.map (fun report => (report.range, report.reason)) := by
    intro span
    simp only [Tree.IsReported, List.mem_map, Prod.mk.injEq]
  refine ⟨tree, reports, _, _, accepted, ok_of_toOption resolved, checked, reportsEq, nameKnown, ?_,
    callKnown, ?_⟩
  · apply (table 2 _ nameKnown rfl rfl).1.1
    rw [reported, reportsEq]
    exact List.mem_cons_self
  · intro little
    have listed := (table 5 _ callKnown rfl rfl).1.2 little
    rw [reported, reportsEq] at listed
    revert listed
    decide

end FragmentLint
