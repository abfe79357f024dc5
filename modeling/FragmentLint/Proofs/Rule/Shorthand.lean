import FragmentLint.Grammar.Concrete
import FragmentLint.Proofs.Rule.Removal
import Mathlib.Data.List.Forall2

/-!
Contract: it makes no difference whether a fragment is written in shorthand or by its name.

Two kinds of nodes are alike if they are the same, or if one is a fragment in shorthand and the other
is an element with the same tags, without a key, whose name is one of a fragment and not one of a host
element. Whatever the rule looks at in a node, in its parent, in its children and in theirs is the same
for kinds that are alike, with one exception: only a fragment in shorthand is known to hold nothing
when it holds a pair of braces without an expression. Main statement: a fragment that is written out
changes no verdict but its own, and its own in this case only (`verdict?_withKind_eq`).

Does not own: names under which no fragment is known.
-/

namespace FragmentLint

/-- Related values are taken to related ones by functions that keep the relation. -/
theorem rel_map {α β γ δ : Type} {before : α → β → Prop} {after : γ → δ → Prop} {f : α → γ}
    {g : β → δ} {left : Option α} {right : Option β} (related : Option.Rel before left right)
    (keeps : ∀ a b, before a b → after (f a) (g b)) :
    Option.Rel after (left.map f) (right.map g) := by
  cases related with
  | none => exact .none
  | some related => exact .some (keeps _ _ related)

namespace NodeKind

/-- Whether a node of one kind does as well as one of another kind: they are of the same kind, or
a fragment in shorthand is written out under its name. -/
inductive Alike (pragmas : Pragmas) : NodeKind → NodeKind → Prop where
  | same (kind : NodeKind) : Alike pragmas kind kind
  | written {tags : Tags} {found : Element} (sameTags : found.tags = tags)
      (named : pragmas.nameFragment found.name = true) (noHost : found.name.isHost = false)
      (unkeyed : (element found).isKeyed = false) : Alike pragmas (fragment tags) (element found)

namespace Alike

variable {pragmas : Pragmas} {kind other : NodeKind}

theorem isWrapper (alike : Alike pragmas kind other) :
    kind.isWrapper pragmas = other.isWrapper pragmas := by
  cases alike with
  | same => rfl
  | written _ named => exact named.symm

theorem isKeyed (alike : Alike pragmas kind other) : kind.isKeyed = other.isKeyed := by
  cases alike with
  | same => rfl
  | written _ _ _ unkeyed => exact unkeyed.symm

theorem tags? (alike : Alike pragmas kind other) : kind.tags? = other.tags? := by
  cases alike with
  | same => rfl
  | written sameTags => exact congrArg some sameTags.symm

theorem text? (alike : Alike pragmas kind other) : kind.text? = other.text? := by
  cases alike <;> rfl

theorem isTagged (alike : Alike pragmas kind other) : kind.isTagged = other.isTagged := by
  cases alike <;> rfl

theorem isPadding (alike : Alike pragmas kind other) : kind.isPadding = other.isPadding := by
  cases alike <;> rfl

theorem isVisibleTextOrContainer (alike : Alike pragmas kind other) :
    kind.isVisibleTextOrContainer = other.isVisibleTextOrContainer := by
  cases alike <;> rfl

/-- A fragment is no host element, and neither is one that is written out. -/
theorem isHost (alike : Alike pragmas kind other) : kind.isHost = other.isHost := by
  cases alike with
  | same => rfl
  | written _ _ noHost => exact noHost.symm

/-- A fragment is no component, and one that is written out is known by its name. -/
theorem isComponent (alike : Alike pragmas kind other) :
    kind.isComponent pragmas = other.isComponent pragmas := by
  cases alike with
  | same => rfl
  | @written tags found _ named =>
    show false = (!found.name.isHost && !pragmas.nameFragment found.name)
    rw [named, Bool.not_true, Bool.and_false]

/-- Neither of two kinds that are alike is that of a node without tags, or both are. -/
theorem eq_iff (alike : Alike pragmas kind other) {plain : NodeKind}
    (untagged : plain.isTagged = false) : kind = plain ↔ other = plain := by
  cases alike with
  | same => exact Iff.rfl
  | written =>
    constructor
    · rintro rfl
      cases untagged
    · rintro rfl
      cases untagged

/-- What holds alike of kinds that are alike, holds alike of a node if there is one. -/
theorem any_eq {property : NodeKind → Bool} {found foundOther : Option NodeKind}
    (blind : ∀ kind other, Alike pragmas kind other → property kind = property other)
    (alike : Option.Rel (Alike pragmas) found foundOther) :
    found.any property = foundOther.any property := by
  cases alike with
  | none => rfl
  | some alike => exact blind _ _ alike

theorem some_eq_iff {found foundOther : Option NodeKind} {plain : NodeKind}
    (untagged : plain.isTagged = false) (alike : Option.Rel (Alike pragmas) found foundOther) :
    found = some plain ↔ foundOther = some plain := by
  cases alike with
  | none => exact Iff.rfl
  | some alike => rw [Option.some.injEq, Option.some.injEq, alike.eq_iff untagged]

end Alike

end NodeKind

/-- Children that are alike, as are the first nodes in them. -/
structure Child.Alike (pragmas : Pragmas) (child other : Child) : Prop where
  kind : child.kind.Alike pragmas other.kind
  first : Option.Rel (NodeKind.Alike pragmas) child.first other.first

namespace Child.Alike

variable {pragmas : Pragmas} {child other : Child}

theorem isCall (alike : child.Alike pragmas other) : child.isCall = other.isCall := by
  rw [Bool.eq_iff_iff]
  simp only [Child.isCall, Bool.and_eq_true, beq_iff_eq]
  rw [alike.kind.eq_iff rfl, NodeKind.Alike.some_eq_iff rfl alike.first]

theorem isVacant (alike : child.Alike pragmas other) : child.isVacant = other.isVacant := by
  rw [Bool.eq_iff_iff]
  simp only [Child.isVacant, Bool.and_eq_true, beq_iff_eq]
  rw [alike.kind.eq_iff rfl, NodeKind.Alike.some_eq_iff rfl alike.first]

theorem counts (alike : child.Alike pragmas other) : child.counts = other.counts := by
  unfold Child.counts
  rw [alike.kind.isPadding]

/-- Of children that are alike there are none, or one on either side, or several. -/
theorem none_or_one_or_several {children others : List Child}
    (alike : List.Forall₂ (Child.Alike pragmas) children others) :
    children = [] ∧ others = []
      ∨ (∃ child other, child.Alike pragmas other ∧ children = [child] ∧ others = [other])
      ∨ ∃ first second rest first' second' rest',
          children = first :: second :: rest ∧ others = first' :: second' :: rest' := by
  cases alike with
  | nil => exact Or.inl ⟨rfl, rfl⟩
  | cons first rest =>
    cases rest with
    | nil => exact Or.inr (Or.inl ⟨_, _, first, rfl, rfl⟩)
    | cons second rest => exact Or.inr (Or.inr ⟨_, _, _, _, _, _, rfl, rfl⟩)

theorem any_isVisibleTextOrContainer {children others : List Child}
    (alike : List.Forall₂ (Child.Alike pragmas) children others) :
    (children.any fun child => child.kind.isVisibleTextOrContainer)
      = others.any fun child => child.kind.isVisibleTextOrContainer := by
  induction alike with
  | nil => rfl
  | cons first _ inductionHypothesis =>
    rw [List.any_cons, List.any_cons, first.kind.isVisibleTextOrContainer, inductionHypothesis]

end Child.Alike

/-- Nodes at the same place that are alike with all that the rule looks at around them. -/
structure Site.Alike (pragmas : Pragmas) (site other : Site) : Prop where
  kind : site.kind.Alike pragmas other.kind
  span : site.span = other.span
  parent : Option.Rel (NodeKind.Alike pragmas) site.parent other.parent
  children : List.Forall₂ (Child.Alike pragmas) site.children other.children

namespace Site.Alike

variable {pragmas : Pragmas} {site other : Site}

theorem isInMarkup (alike : site.Alike pragmas other) : site.isInMarkup = other.isInMarkup :=
  NodeKind.Alike.any_eq (fun _ _ same => same.isTagged) alike.parent

theorem isInHost (alike : site.Alike pragmas other) : site.isInHost = other.isInHost :=
  NodeKind.Alike.any_eq (fun _ _ same => same.isHost) alike.parent

theorem isInComponent (alike : site.Alike pragmas other) :
    site.isInComponent pragmas = other.isInComponent pragmas :=
  NodeKind.Alike.any_eq (fun _ _ same => same.isComponent) alike.parent

theorem countedChildren (alike : site.Alike pragmas other) :
    List.Forall₂ (Child.Alike pragmas) site.countedChildren other.countedChildren := by
  refine List.rel_filter ?_ alike.children
  intro child otherChild same
  simp only [same.counts]

theorem isEmpty (alike : site.Alike pragmas other) :
    site.children.isEmpty = other.children.isEmpty := by
  rw [Bool.eq_iff_iff, List.isEmpty_iff, List.isEmpty_iff]
  have children := alike.children
  constructor
  · intro none
    rw [none] at children
    exact List.forall₂_nil_left_iff.1 children
  · intro none
    rw [none] at children
    exact List.forall₂_nil_right_iff.1 children

theorem hasFewChildren (alike : site.Alike pragmas other) :
    site.hasFewChildren = other.hasFewChildren := by
  unfold Site.hasFewChildren
  rcases Child.Alike.none_or_one_or_several alike.countedChildren with
    ⟨none, none'⟩ | ⟨child, only, same, one, one'⟩ | ⟨_, _, _, _, _, _, several, several'⟩
  · rw [none, none']
  · rw [one, one']
    exact congrArg (!·) same.isCall
  · rw [several, several']

theorem isTextValue (alike : site.Alike pragmas other) : site.isTextValue = other.isTextValue := by
  unfold Site.isTextValue
  rw [alike.isInMarkup]
  rcases Child.Alike.none_or_one_or_several alike.children with
    ⟨none, none'⟩ | ⟨child, only, same, one, one'⟩ | ⟨_, _, _, _, _, _, several, several'⟩
  · rw [none, none']
  · rw [one, one']
    simp only [same.kind.text?]
  · rw [several, several']

theorem holdsSafely (alike : site.Alike pragmas other) : site.holdsSafely = other.holdsSafely := by
  unfold Site.holdsSafely
  rw [alike.isEmpty, alike.isInHost]
  rcases Child.Alike.none_or_one_or_several alike.countedChildren with
    ⟨none, none'⟩ | ⟨child, only, same, one, one'⟩ | ⟨_, _, _, _, _, _, several, several'⟩
  · rw [none, none']
  · rw [one, one']
    have container : (child.kind == .container) = (only.kind == .container) := by
      rw [Bool.eq_iff_iff, beq_iff_eq, beq_iff_eq]
      exact same.kind.eq_iff rfl
    simp only [bne, container]
  · rw [several, several']

/-- Nodes of the same kind are both fragments in shorthand around empty braces, or neither is. -/
theorem isVacant_of_kind_eq (alike : site.Alike pragmas other) (kindEq : site.kind = other.kind) :
    site.isVacant = other.isVacant := by
  unfold Site.isVacant
  rw [kindEq]
  rcases Child.Alike.none_or_one_or_several alike.children with
    ⟨none, none'⟩ | ⟨child, only, same, one, one'⟩ | ⟨_, _, _, _, _, _, several, several'⟩
  · rw [none, none']
  · rw [one, one']
    cases other.kind with
    | fragment => exact same.isVacant
    | _ => rfl
  · rw [several, several']
    cases other.kind <;> rfl

theorem reasons (alike : site.Alike pragmas other) (vacant : site.isVacant = other.isVacant) :
    site.reasons pragmas = other.reasons pragmas := by
  unfold Site.reasons
  rw [alike.kind.isWrapper, alike.kind.isKeyed, vacant, alike.hasFewChildren, alike.isTextValue,
    alike.holdsSafely, alike.isInHost]

theorem isRemovable (alike : site.Alike pragmas other) (vacant : site.isVacant = other.isVacant) :
    site.isRemovable pragmas = other.isRemovable pragmas := by
  unfold Site.isRemovable
  rw [vacant, alike.isInMarkup, alike.isInComponent, alike.isEmpty,
    Child.Alike.any_isVisibleTextOrContainer alike.children]

end Site.Alike

/-- Around anything but empty braces a fragment is not vacant. -/
theorem Site.isVacant_eq_false (site : Site)
    (occupied : site.children ≠ [⟨.container, some .empty⟩]) : site.isVacant = false := by
  rw [Bool.eq_false_iff]
  intro vacant
  obtain ⟨tags, ⟨kind, first⟩, -, childrenEq, onlyVacant⟩ := Site.isVacant_iff.1 vacant
  simp only [Child.isVacant, Bool.and_eq_true, beq_iff_eq] at onlyVacant
  obtain ⟨rfl, rfl⟩ := onlyVacant
  exact occupied childrenEq

/-- An element is not vacant, whatever its name. -/
theorem Site.isVacant_of_element (site : Site) {found : Element}
    (written : site.kind = .element found) : site.isVacant = false := by
  unfold isVacant
  rw [written]

/-! ## Names of fragments -/

section Names

variable {pragmas : Pragmas} {found : Element}

theorem nameFragment_iff {name : ElementName} : pragmas.nameFragment name = true
    ↔ name = .identifier pragmas.fragment
      ∨ name = .member (.identifier pragmas.react) pragmas.fragment := by
  cases name with
  | identifier word => simp [Pragmas.nameFragment]
  | member object property => cases object <;> simp [Pragmas.nameFragment, ElementName.word?]
  | namespaced => simp [Pragmas.nameFragment]

/-- A name of two words is not that of a host element. -/
theorem isHost_of_nameFragment {name : ElementName} (named : pragmas.nameFragment name = true)
    (noHost : (ElementName.identifier pragmas.fragment).isHost = false) : name.isHost = false := by
  rcases nameFragment_iff.1 named with rfl | rfl
  · exact noHost
  · rfl

theorem isKeyed_of_unkeyed (unkeyed : ∀ given ∈ found.attributes, given.key ≠ some "key".toList) :
    (NodeKind.element found).isKeyed = false := by
  show found.attributes.any Attribute.isExempt = false
  rw [List.any_eq_false]
  intro given member exempt
  exact unkeyed given member (eq_of_beq exempt)

end Names

/-! ## Trees that differ in one node -/

/-- What the rule says about a node: the reasons against it, whether it may be taken away, and the edit
that does it. -/
structure Verdict where
  reasons : List Reason
  isRemovable : Bool
  removal : Except BadSlice (Option Edit)
deriving DecidableEq

namespace Tree

variable {tree : Tree} {pragmas : Pragmas} {id : Nat} {node : Node} {kind : NodeKind}

/-- The verdict on a node, if there is such a node. -/
def verdict? (tree : Tree) (pragmas : Pragmas) (id : Nat) : Option Verdict :=
  (tree.site? id).map fun site =>
    ⟨site.reasons pragmas, site.isRemovable pragmas, tree.removal pragmas site⟩

/-- A tree in which one node is of another kind. -/
def withKind (tree : Tree) (id : Nat) (kind : NodeKind) : Tree :=
  { tree with nodes := tree.nodes.modify id fun node => { node with kind } }

theorem node?_withKind_of_ne {other : Nat} (apart : other ≠ id) :
    (tree.withKind id kind).node? other = tree.node? other := by
  unfold withKind node?
  rw [Array.getElem?_modify, if_neg apart.symm]

theorem node?_withKind (known : tree.node? id = some node) :
    (tree.withKind id kind).node? id = some { node with kind } := by
  have listed : tree.nodes[id]? = some node := known
  unfold withKind node?
  rw [Array.getElem?_modify, if_pos rfl, listed, Option.map_some]

/-- A node is where it was and as it was, but for its kind, which is alike. -/
theorem node?_alike (known : tree.node? id = some node) (alike : node.kind.Alike pragmas kind)
    (other : Nat) :
    Option.Rel (fun before after => before.kind.Alike pragmas after.kind
        ∧ after = { before with kind := after.kind })
      (tree.node? other) ((tree.withKind id kind).node? other) := by
  by_cases same : other = id
  · rw [same, node?_withKind known, known]
    exact .some ⟨alike, rfl⟩
  · rw [node?_withKind_of_ne same]
    cases tree.node? other with
    | none => exact .none
    | some found => exact .some ⟨.same _, rfl⟩

theorem kind?_alike (known : tree.node? id = some node) (alike : node.kind.Alike pragmas kind)
    (other : Nat) :
    Option.Rel (NodeKind.Alike pragmas) (tree.kind? other) ((tree.withKind id kind).kind? other) :=
  rel_map (node?_alike known alike other) fun _ _ related => related.1

/-- What is looked up in both trees is alike, if there is something to look up. -/
theorem bind_kind?_alike (known : tree.node? id = some node)
    (alike : node.kind.Alike pragmas kind) (other : Option Nat) :
    Option.Rel (NodeKind.Alike pragmas) (other.bind tree.kind?)
      (other.bind (tree.withKind id kind).kind?) := by
  cases other with
  | none => exact .none
  | some other => exact kind?_alike known alike other

theorem child?_alike (known : tree.node? id = some node) (alike : node.kind.Alike pragmas kind)
    (other : Nat) :
    Option.Rel (Child.Alike pragmas) (tree.child? other)
      ((tree.withKind id kind).child? other) := by
  refine rel_map (node?_alike known alike other) ?_
  rintro before after ⟨kinds, rest⟩
  rw [rest]
  exact ⟨kinds, bind_kind?_alike known alike _⟩

/-- All that the rule looks at in judging a node is alike in both trees. -/
theorem site?_alike (known : tree.node? id = some node) (alike : node.kind.Alike pragmas kind)
    (other : Nat) :
    Option.Rel (Site.Alike pragmas) (tree.site? other)
      ((tree.withKind id kind).site? other) := by
  refine rel_map (node?_alike known alike other) ?_
  rintro before after ⟨kinds, rest⟩
  rw [rest]
  refine ⟨kinds, rfl, bind_kind?_alike known alike _, ?_⟩
  refine List.rel_filterMap ?_ (List.forall₂_same.2 fun _ _ => rfl)
  rintro child _ rfl
  exact child?_alike known alike child

theorem removal_withKind {site other : Site} (alike : site.Alike pragmas other)
    (vacant : site.isVacant = other.isVacant) :
    (tree.withKind id kind).removal pragmas other = tree.removal pragmas site := by
  unfold removal
  rw [alike.isRemovable vacant, vacant, alike.span, alike.kind.tags?]
  rfl

theorem kind?_of_site? {site : Site} (siteEq : tree.site? id = some site) :
    tree.kind? id = some site.kind := by
  obtain ⟨found, foundEq, rfl⟩ := Option.map_eq_some_iff.1 siteEq
  unfold kind?
  rw [foundEq]
  rfl

/-- The verdict on a node is the same in both trees if it holds in neither or in both of them that the
node is a fragment in shorthand around empty braces. -/
theorem verdict?_withKind_of_alike (known : tree.node? id = some node)
    (alike : node.kind.Alike pragmas kind) {other : Nat}
    (vacant : ∀ site changed, tree.site? other = some site →
      (tree.withKind id kind).site? other = some changed → site.Alike pragmas changed →
      site.isVacant = changed.isVacant) :
    (tree.withKind id kind).verdict? pragmas other = tree.verdict? pragmas other := by
  have related := site?_alike known alike other
  unfold verdict?
  generalize tree.site? other = site at related vacant ⊢
  generalize (tree.withKind id kind).site? other = changed at related vacant ⊢
  cases related with
  | none => rfl
  | some alikeSites =>
    have same := vacant _ _ rfl rfl alikeSites
    rw [Option.map_some, Option.map_some, alikeSites.reasons same, alikeSites.isRemovable same,
      removal_withKind alikeSites same]

/-- It makes no difference to the rule whether a fragment is written in shorthand or under one of its
two names, if the shorter one is not that of a host element. Let a fragment in shorthand be made an
element of such a name, with the same tags and without a key. The verdicts on all other nodes stay as
they are, and so does the one on the fragment itself, unless a pair of braces without an expression is
its only child. -/
theorem verdict?_withKind_eq {tags : Tags} {found : Element} (known : tree.node? id = some node)
    (shorthand : node.kind = .fragment tags)
    (noHost : (ElementName.identifier pragmas.fragment).isHost = false)
    (named : found.name = .identifier pragmas.fragment
      ∨ found.name = .member (.identifier pragmas.react) pragmas.fragment)
    (sameTags : found.tags = tags)
    (unkeyed : ∀ given ∈ found.attributes, given.key ≠ some "key".toList) :
    (∀ other, other ≠ id →
        (tree.withKind id (.element found)).verdict? pragmas other = tree.verdict? pragmas other)
      ∧ (node.children.filterMap tree.child? ≠ [⟨.container, some .empty⟩] →
        (tree.withKind id (.element found)).verdict? pragmas id = tree.verdict? pragmas id) := by
  have alike : node.kind.Alike pragmas (.element found) := by
    rw [shorthand]
    have isFragment := nameFragment_iff.2 named
    exact .written sameTags isFragment (isHost_of_nameFragment isFragment noHost)
      (isKeyed_of_unkeyed unkeyed)
  constructor
  · intro other apart
    refine verdict?_withKind_of_alike known alike ?_
    intro site changed siteEq changedEq alikeSites
    apply alikeSites.isVacant_of_kind_eq
    have kinds : (tree.withKind id (.element found)).kind? other = tree.kind? other := by
      unfold kind?
      rw [node?_withKind_of_ne apart]
    rw [kind?_of_site? siteEq, kind?_of_site? changedEq] at kinds
    exact (Option.some.inj kinds).symm
  · intro occupied
    refine verdict?_withKind_of_alike known alike ?_
    intro site changed siteEq changedEq _
    have written : changed.kind = .element found := by
      have kindEq := kind?_of_site? changedEq
      unfold kind? at kindEq
      rw [node?_withKind known] at kindEq
      exact (Option.some.inj kindEq).symm
    have holds : site.children = node.children.filterMap tree.child? := by
      unfold site? at siteEq
      rw [known] at siteEq
      rw [← Option.some.inj siteEq]
    rw [site.isVacant_eq_false (by rw [holds]; exact occupied), changed.isVacant_of_element written]

open Scripts

/-- A fragment that is written out in two words, with an attribute that is no key. -/
def writtenOut (tags : Tags) : Element :=
  ⟨.member (.identifier "React".toList) "Fragment".toList,
    [⟨some "id".toList, none, tags.opening⟩], tags⟩

/-- The fragment of a paragraph is written out. The verdict on the fragment in it is the same, and so
is its own. -/
theorem verdict?_withKind_eq_in_paragraph :
    ∃ tree tags, ofSource .javascript "<p><> a <>b</></></p>".toList = .ok tree
      ∧ tree.node? 2 = some ⟨.fragment tags, ⟨3, 17⟩, some 1, [3, 4]⟩
      ∧ (ElementName.identifier (default : Pragmas).fragment).isHost = false
      ∧ [3, 4].filterMap tree.child? ≠ [⟨.container, some .empty⟩]
      ∧ (tree.withKind 2 (.element (writtenOut tags))).verdict? default 4
        = some ⟨[.needsMoreChildren], true, .ok (some ⟨⟨8, 14⟩, "b".toList⟩)⟩
      ∧ (tree.withKind 2 (.element (writtenOut tags))).verdict? default 2
        = some ⟨[.childOfHostElement], true, .ok (some ⟨⟨3, 17⟩, " a <>b</>".toList⟩)⟩ := by
  have checks : (ofSource .javascript "<p><> a <>b</></></p>".toList).toOption.map
      (fun tree => (tree.node? 2, [3, 4].filterMap tree.child?, tree.verdict? default 4,
        tree.verdict? default 2))
      = some (some ⟨.fragment ⟨⟨3, 5⟩, some ⟨14, 17⟩⟩, ⟨3, 17⟩, some 1, [3, 4]⟩,
        [⟨.text " a ".toList, none⟩,
          ⟨.fragment ⟨⟨8, 10⟩, some ⟨11, 14⟩⟩, some (.text "b".toList)⟩],
        some ⟨[.needsMoreChildren], true, .ok (some ⟨⟨8, 14⟩, "b".toList⟩)⟩,
        some ⟨[.childOfHostElement], true, .ok (some ⟨⟨3, 17⟩, " a <>b</>".toList⟩)⟩) := by
    decide +kernel
  obtain ⟨tree, isTree, checksEq⟩ := Option.map_eq_some_iff.1 checks
  simp only [Prod.mk.injEq] at checksEq
  obtain ⟨known, childrenEq, inner, outer⟩ := checksEq
  have noHost : (ElementName.identifier (default : Pragmas).fragment).isHost = false := by decide
  have occupied : [3, 4].filterMap tree.child? ≠ [⟨.container, some .empty⟩] := by
    rw [childrenEq]
    decide
  obtain ⟨others, itself⟩ := @verdict?_withKind_eq tree default 2 _ _
    (writtenOut ⟨⟨3, 5⟩, some ⟨14, 17⟩⟩) known rfl noHost (Or.inr rfl) rfl (by decide)
  exact ⟨tree, _, ok_of_toOption isTree, known, noHost, occupied,
    (others 4 (by decide)).trans inner, (itself occupied).trans outer⟩

/-- Of a fragment in shorthand around empty braces these are dropped; one that is written out gives way
to them. -/
example :
    (ofSource .javascript "<p><>\x7b\x7d</></p>".toList).toOption.map (fun tree =>
      let changed := tree.withKind 2 (.element (writtenOut ⟨⟨3, 5⟩, some ⟨7, 10⟩⟩))
      ((tree.verdict? default 2).map Verdict.removal,
        (changed.verdict? default 2).map Verdict.removal))
      = some (some (.ok (some ⟨⟨3, 10⟩, "<></>".toList⟩)),
        some (.ok (some ⟨⟨3, 10⟩, "\x7b\x7d".toList⟩))) := by
  decide +kernel

end Tree

end FragmentLint
