import FragmentLint.Proofs.Grammar.Concrete
import FragmentLint.Proofs.Markup.Content
import FragmentLint.Proofs.Markup.Records

/-!
Contract: the children of an element or a fragment make up what stands between its tags.

White space is no token, so the text between elements and braces is what these leave. Main
statement: the spans of the children tile the place between the tags, none of them is empty, texts
are what the source has there, and no two texts are neighbours (`children_fill_inner`).
-/

namespace FragmentLint

namespace Outline

variable {source : Text}

/-- What stands between two tags is not empty. -/
theorem Placed.start_lt_stop {outline : Outline} (placed : Placed source outline)
    (isContent : outline.kind.isContent = true) : outline.span.start < outline.span.stop := by
  cases placed with
  | text delimits visible => exact delimits.start_lt_stop visible
  | empty => cases isContent
  | other => cases isContent
  | container delimits braced =>
    obtain ⟨inside, rfl⟩ := braced
    exact delimits.start_lt_stop (List.cons_ne_nil _ _)
  | tagged _ delimit =>
    obtain ⟨_, delimits, inside, rfl⟩ := delimit.bracketed
    exact delimits.start_lt_stop (List.cons_ne_nil _ _)
  | @root kind _ _ _ context delimits braced =>
    have isContainer : kind = .container := by
      cases kind <;>
        simp [NodeKind.isContext, NodeKind.isContent, Outline.kind] at context isContent ⊢
    obtain ⟨inside, rfl⟩ := braced isContainer
    exact delimits.start_lt_stop (List.cons_ne_nil _ _)

/-- Outlines that tile a place do so by their spans, if none of them is empty. -/
theorem Tiled.tile {outlines : List Outline} {start stop : Nat} (tiled : Tiled start outlines stop)
    (positive : ∀ outline ∈ outlines, outline.span.start < outline.span.stop) :
    Span.Tile start (outlines.map Outline.span) stop := by
  induction outlines generalizing start with
  | nil => exact tiled
  | cons first rest inductionHypothesis =>
    refine ⟨tiled.1, positive first List.mem_cons_self, inductionHypothesis tiled.2 ?_⟩
    exact fun outline member => positive outline (List.mem_cons_of_mem _ member)

end Outline

/-- Whether nodes are what stands between two tags: their spans tile the place and make up its text,
and the texts among them are read off the source and kept apart. -/
structure Node.Fill (source : Text) (inner : Span) (children : List Node) : Prop where
  tile : Span.Tile inner.start (children.map (·.span)) inner.stop
  nothing : children = [] ↔ inner.start = inner.stop
  texts : ∀ child ∈ children, ∀ raw, child.kind = .text raw →
    raw ≠ [] ∧ child.span.Delimits source raw
  apart : children.IsChain fun left right =>
    left.kind.text?.isNone = true ∨ right.kind.text?.isNone = true
  whole : ∃ pieces, List.Forall₂ (fun child piece => child.span.Delimits source piece)
    children pieces ∧ inner.Delimits source pieces.flatten

namespace Tree

open Outline

variable {dialect : Dialect} {source : Text} {tree : Tree} {all : List Entry}

/-- The children of a node are the numbered forms of those of its entry. -/
theorem Lists.exists_children (lists : tree.Lists all) {node : Node} {entry : Entry}
    (describes : Describes all node entry) :
    ∃ children, node.children.map tree.node? = children.map some
      ∧ List.Forall₂ (fun child outline => Describes all child ⟨some entry.outline.kind, outline⟩)
        children entry.outline.children := by
  have listed := describes.children
  generalize node.children = ids at listed ⊢
  generalize entry.outline.children = outlines at listed ⊢
  induction outlines generalizing ids with
  | nil =>
    rw [List.map_nil, List.map_eq_nil_iff] at listed
    exact ⟨[], by rw [listed]; rfl, .nil⟩
  | cons outline rest inductionHypothesis =>
    cases ids with
    | nil => cases listed
    | cons id ids =>
      obtain ⟨first, others⟩ := List.cons.inj listed
      obtain ⟨child, found, describesChild⟩ := lists.exists_node first
      obtain ⟨children, foundAll, describeAll⟩ := inductionHypothesis ids others
      refine ⟨child :: children, ?_, .cons describesChild describeAll⟩
      rw [List.map_cons, List.map_cons, found, foundAll]

/-- Nodes have the kinds and the spans of the outlines that they are the numbered forms of. -/
theorem labels_of_describes {parent : Option NodeKind} {children : List Node}
    {outlines : List Outline}
    (describe : List.Forall₂ (fun child outline => Describes all child ⟨parent, outline⟩)
      children outlines) :
    children.map (fun child => (child.kind, child.span))
      = outlines.map fun outline => (outline.kind, outline.span) := by
  rw [← List.forall₂_eq_eq_eq, List.forall₂_map_left_iff, List.forall₂_map_right_iff]
  exact describe.imp fun _ _ describes => Prod.ext describes.kind describes.span

/-- The numbered forms of the children of a placed outline with tags are what stands between
these. -/
theorem fill_of_describes {outline : Outline} {tags : Tags} {children : List Node}
    (placed : outline.Placed source) (tagsEq : outline.kind.tags? = some tags)
    (describe : List.Forall₂ (fun child below => Describes all child ⟨some outline.kind, below⟩)
      children outline.children) :
    Node.Fill source tags.inner children := by
  have holds := placed.holds tagsEq
  have labels := labels_of_describes describe
  have spans : children.map (·.span) = outline.children.map Outline.span := by
    have seconds := congrArg (List.map Prod.snd) labels
    rw [List.map_map, List.map_map] at seconds
    exact seconds
  have kinds : children.map (·.kind) = outline.children.map Outline.kind := by
    have firsts := congrArg (List.map Prod.fst) labels
    rw [List.map_map, List.map_map] at firsts
    exact firsts
  have tile : Span.Tile tags.inner.start (children.map (·.span)) tags.inner.stop := by
    rw [spans]
    exact holds.tiled.tile fun below member =>
      (placed.children below member).start_lt_stop (holds.content below member)
  refine ⟨tile, ?_, ?_, ?_, ?_⟩
  · rw [← tile.eq_nil_iff, List.map_eq_nil_iff]
  · intro child member raw isText
    have listed := List.mem_map_of_mem (f := fun child : Node => (child.kind, child.span)) member
    rw [labels] at listed
    obtain ⟨below, isBelow, same⟩ := List.mem_map.1 listed
    obtain ⟨kindEq, spanEq⟩ := Prod.mk.inj same
    rw [← spanEq]
    refine (placed.children below isBelow).visible_text ?_
    rw [kindEq, isText]
    rfl
  · have apart : (outline.children.map Outline.kind).IsChain
        fun left right => left.text?.isNone = true ∨ right.text?.isNone = true :=
      (List.isChain_map Outline.kind).2 holds.apart
    rw [← kinds] at apart
    exact (List.isChain_map Node.kind).1 apart
  · obtain ⟨pieces, delimit⟩ := exists_pieces placed.children
    refine ⟨pieces, ?_, placed.inner tagsEq delimit⟩
    have bySpan : List.Forall₂ (fun span piece => Span.Delimits span source piece)
        (outline.children.map Outline.span) pieces := List.forall₂_map_left_iff.2 delimit
    rw [← spans] at bySpan
    exact List.forall₂_map_left_iff.1 bySpan

section Parser

variable [SyntaxParser] [LawfulSyntaxParser]

/-- Lossless children. In the tree of an accepted source, the children of an element or a fragment
tile what stands between its tags, and there are none if and only if nothing stands there. Every
text among them is not empty, is what the source has in its place, and has no other text next to
it. -/
theorem children_fill_inner (accepted : ofSource dialect source = .ok tree) {id : Nat} {node : Node}
    {tags : Tags} (found : tree.node? id = some node) (tagsEq : node.kind.tags? = some tags) :
    ∃ children, node.children.map tree.node? = children.map some
      ∧ Node.Fill source tags.inner children := by
  obtain ⟨all, records⟩ := exists_records accepted
  obtain ⟨entry, listed, describes⟩ := records.lists.exists_entry found
  obtain ⟨children, foundAll, describeAll⟩ := records.lists.exists_children describes
  have placed := records.placed entry (List.mem_of_getElem? listed)
  rw [source_ofSource accepted] at placed
  rw [describes.kind] at tagsEq
  exact ⟨children, foundAll, fill_of_describes placed tagsEq describeAll⟩

end Parser

open Scripts

/-- Text of two bytes, a comment in braces, a line feed, an element and text fill a paragraph. -/
theorem children_fill_inner_paragraph :
    ∃ tree node children,
      ofSource .javascript "<p>é\x7b/* x */\x7d\n<b/>c</p>".toList = .ok tree
      ∧ tree.node? 1 = some node ∧ node.children.map tree.node? = children.map some
      ∧ children.map (·.span) = [⟨3, 5⟩, ⟨5, 14⟩, ⟨14, 15⟩, ⟨15, 19⟩, ⟨19, 20⟩]
      ∧ Node.Fill "<p>é\x7b/* x */\x7d\n<b/>c</p>".toList ⟨3, 20⟩ children := by
  have computed : ((ofSource .javascript "<p>é\x7b/* x */\x7d\n<b/>c</p>".toList).toOption.bind
      fun tree => (tree.node? 1).map fun node =>
        (node.kind.tags?, node.children.map fun child => (tree.node? child).map (·.span)))
      = some (some ⟨⟨0, 3⟩, some ⟨20, 24⟩⟩,
        [some ⟨3, 5⟩, some ⟨5, 14⟩, some ⟨14, 15⟩, some ⟨15, 19⟩, some ⟨19, 20⟩]) := by
    decide +kernel
  obtain ⟨tree, isTree, fromTree⟩ := Option.bind_eq_some_iff.1 computed
  obtain ⟨node, found, parts⟩ := Option.map_eq_some_iff.1 fromTree
  obtain ⟨tagsEq, spans⟩ := Prod.mk.inj parts
  obtain ⟨children, foundAll, fill⟩ := children_fill_inner (ok_of_toOption isTree) found tagsEq
  refine ⟨tree, node, children, ok_of_toOption isTree, found, foundAll, ?_, fill⟩
  have known := congrArg (List.map (Option.map (·.span))) foundAll
  rw [List.map_map, List.map_map] at known
  have optional : (children.map (·.span)).map some
      = [⟨3, 5⟩, ⟨5, 14⟩, ⟨14, 15⟩, ⟨15, 19⟩, ⟨19, 20⟩].map some := by
    rw [List.map_map]
    exact known.symm.trans spans
  exact (List.map_inj_right fun _ _ => Option.some.inj).1 optional

end Tree

end FragmentLint
