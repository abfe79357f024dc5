import FragmentLint.Proofs.Markup.Lowered

/-!
Contract: a concrete tree of a text, and the same tree where the text stands further back in a
source.

Every offset in it is greater by that of the text (`SyntaxNode.shift`), and nothing else is changed.
What the lowering slices out of the source for a tag is what it slices out of the text. Main
statements: a tree whose shifted form stands in the source stands in the text
(`StandsIn.of_shift`), and a tag gives rise to the same name and the same attributes in both
(`lowerElement_shift`).

Owns: shifting spans and nodes.
Does not own: what is rendered of a tree.
-/

namespace FragmentLint

namespace Span

variable {source text piece : Text} {offset : Nat} {span : Span}

/-- A span that begins and ends further back. -/
def shift (offset : Nat) (span : Span) : Span := ⟨span.start + offset, span.stop + offset⟩

/-- What stands in a text stands further back in a source where the text does. -/
theorem Delimits.shift (window : Text.StandsAt source offset text)
    (delimits : span.Delimits text piece) : (span.shift offset).Delimits source piece := by
  obtain ⟨before, after, rfl, beforeSize, stopEq⟩ := Text.slice?_eq_some_iff.1 delimits
  have part := Text.slice?_part window
  have startEq : offset + Text.bytes before = span.start + offset := by omega
  have sizeEq : span.start + offset + Text.bytes piece = span.stop + offset := by omega
  rw [startEq, sizeEq] at part
  exact part

/-- What stands in a source within the place of a text stands in the text. -/
theorem Delimits.of_shift (window : Text.StandsAt source offset text)
    (delimits : (span.shift offset).Delimits source piece)
    (inside : span.stop ≤ Text.bytes text) : span.Delimits text piece := by
  obtain ⟨front, back, whole, rfl, -⟩ := Text.slice?_eq_some_iff.1 window
  obtain ⟨before, after, whole', beforeSize, stopEq⟩ := Text.slice?_eq_some_iff.1 delimits
  have stop : span.stop = span.start + Text.bytes piece := by
    have stopEq' : span.stop + Text.bytes front
      = span.start + Text.bytes front + Text.bytes piece := stopEq
    omega
  have beforeSize' : Text.bytes before = span.start + Text.bytes front := beforeSize
  obtain ⟨middle, rfl, behind⟩ :=
    Text.exists_append_of_bytes_le (whole.symm.trans whole') (by omega)
  rw [← List.append_assoc] at behind
  obtain ⟨rest, rfl, -⟩ := Text.exists_append_of_bytes_le behind.symm (by
    rw [Text.bytes_append] at beforeSize' ⊢
    omega)
  refine Text.slice?_eq_some_iff.2 ⟨middle, rest, List.append_assoc _ _ _, ?_, stop⟩
  rw [Text.bytes_append] at beforeSize'
  omega

/-- Spans in order are so where they stood before. -/
theorem InOrder.of_shift {spans : List Span} {start stop : Nat}
    (inOrder : InOrder (start + offset) (spans.map (shift offset)) (stop + offset)) :
    InOrder start spans stop := by
  induction spans generalizing start with
  | nil => exact Nat.add_le_add_iff_right.1 inOrder
  | cons first rest inductionHypothesis =>
    obtain ⟨behind, ordered, others⟩ := inOrder
    exact ⟨Nat.add_le_add_iff_right.1 behind, Nat.add_le_add_iff_right.1 ordered,
      inductionHypothesis others⟩

end Span

namespace SyntaxNode

mutual
/-- A tree with the spans of its nodes changed. -/
def mapSpans (change : Span → Span) : SyntaxNode → SyntaxNode
  | mk info children =>
    mk { info with span := change info.span } (mapSpansAll change children)

/-- Trees with the spans of their nodes changed. -/
def mapSpansAll (change : Span → Span) : List SyntaxNode → List SyntaxNode
  | [] => []
  | first :: rest => mapSpans change first :: mapSpansAll change rest
end

/-- A tree that stands further back. -/
def shift (offset : Nat) (node : SyntaxNode) : SyntaxNode := node.mapSpans (Span.shift offset)

variable {source text : Text} {offset : Nat} {node : SyntaxNode}

/-! ## Nodes of a shifted tree -/

theorem mapSpansAll_eq_map (change : Span → Span) (nodes : List SyntaxNode) :
    mapSpansAll change nodes = nodes.map (mapSpans change) := by
  induction nodes with
  | nil => rw [mapSpansAll, List.map_nil]
  | cons first rest inductionHypothesis => rw [mapSpansAll, inductionHypothesis, List.map_cons]

@[simp] theorem info_shift (node : SyntaxNode) :
    (node.shift offset).info = { node.info with span := node.info.span.shift offset } := by
  cases node with
  | mk info children => rw [shift, mapSpans, info_mk, info_mk]

@[simp] theorem children_shift (node : SyntaxNode) :
    (node.shift offset).children = node.children.map (shift offset) := by
  cases node with
  | mk info children =>
    rw [shift, mapSpans, children_mk, children_mk, mapSpansAll_eq_map]
    rfl

@[simp] theorem kind_shift (node : SyntaxNode) : (node.shift offset).kind = node.kind := by
  rw [kind, info_shift, kind]

@[simp] theorem isNamed_shift (node : SyntaxNode) :
    (node.shift offset).isNamed = node.isNamed := by
  rw [isNamed, info_shift, isNamed]

@[simp] theorem field_shift (node : SyntaxNode) : (node.shift offset).field = node.field := by
  rw [field, info_shift, field]

@[simp] theorem span_shift (node : SyntaxNode) :
    (node.shift offset).span = node.span.shift offset := by
  rw [span, info_shift, span]

@[simp] theorem isMarkup_shift (node : SyntaxNode) :
    (node.shift offset).isMarkup = node.isMarkup := by
  rw [isMarkup, kind_shift, isMarkup]

theorem filter_map_shift {test : SyntaxNode → Bool}
    (same : ∀ node, test (node.shift offset) = test node) (nodes : List SyntaxNode) :
    (nodes.map (shift offset)).filter test = (nodes.filter test).map (shift offset) := by
  rw [List.filter_map]
  congr 1
  exact List.filter_congr fun node _ => same node

theorem find?_map_shift {test : SyntaxNode → Bool}
    (same : ∀ node, test (node.shift offset) = test node) (nodes : List SyntaxNode) :
    (nodes.map (shift offset)).find? test = (nodes.find? test).map (shift offset) := by
  rw [List.find?_map]
  congr 2
  exact funext same

@[simp] theorem namedChildren_shift (node : SyntaxNode) :
    (node.shift offset).namedChildren = node.namedChildren.map (shift offset) := by
  rw [namedChildren, children_shift, filter_map_shift isNamed_shift, namedChildren]

theorem childByField?_shift (node : SyntaxNode) (field : Field) :
    (node.shift offset).childByField? field = (node.childByField? field).map (shift offset) := by
  rw [childByField?, children_shift,
    find?_map_shift (fun child => by rw [field_shift]), childByField?]

theorem childOfKind?_shift (node : SyntaxNode) (kind : Grammar.Construct) :
    (node.shift offset).childOfKind? kind = (node.childOfKind? kind).map (shift offset) := by
  rw [childOfKind?, namedChildren_shift,
    find?_map_shift (fun child => by rw [kind_shift]), childOfKind?]

theorem expression?_shift (node : SyntaxNode) :
    (node.shift offset).expression? = node.expression?.map (shift offset) := by
  rw [expression?, namedChildren_shift,
    find?_map_shift (fun child => by rw [kind_shift]), expression?]

theorem or_map_shift (first second : Option SyntaxNode) :
    (first.map (shift offset)).or (second.map (shift offset))
      = (first.or second).map (shift offset) := by
  cases first <;> rfl

theorem tagName?_shift (tag : SyntaxNode) :
    (tag.shift offset).tagName? = tag.tagName?.map (shift offset) := by
  rw [tagName?, childByField?_shift, namedChildren_shift,
    find?_map_shift (fun child => by simp only [isName, kind_shift]), or_map_shift, tagName?]

theorem attributes_shift (tag : SyntaxNode) :
    (tag.shift offset).attributes = tag.attributes.map (shift offset) := by
  rw [attributes, namedChildren_shift,
    filter_map_shift (fun child => by simp only [isAttribute, kind_shift]), attributes]

theorem openingTag?_shift (element : SyntaxNode) :
    (element.shift offset).openingTag? = element.openingTag?.map (shift offset) := by
  rw [openingTag?, childByField?_shift, childOfKind?_shift, or_map_shift, openingTag?]

theorem closingTag?_shift (element : SyntaxNode) :
    (element.shift offset).closingTag? = element.closingTag?.map (shift offset) := by
  rw [closingTag?, childByField?_shift, childOfKind?_shift, or_map_shift, closingTag?]

theorem object?_shift (name : SyntaxNode) :
    (name.shift offset).object? = name.object?.map (shift offset) := by
  rw [object?, childByField?_shift, namedChildren_shift, List.getElem?_map, or_map_shift, object?]

theorem property?_shift (name : SyntaxNode) :
    (name.shift offset).property? = name.property?.map (shift offset) := by
  rw [property?, childByField?_shift, namedChildren_shift, List.length_map, List.getElem?_map,
    or_map_shift, property?]

theorem structuralIn_shift (offset : Nat) (element : SyntaxNode) (inner : Span) :
    (element.shift offset).structuralIn (inner.shift offset)
      = (element.structuralIn inner).map (shift offset) := by
  rw [structuralIn, namedChildren_shift, List.filter_map, structuralIn]
  congr 1
  refine List.filter_congr fun child _ => ?_
  simp only [Function.comp_apply, span_shift, Span.shift, Nat.add_le_add_iff_right, isStructural,
    isMarkup_shift, kind_shift]

/-- The parts of a tree are shifted with it. -/
theorem shift_mem_parts (offset : Nat) {part node : SyntaxNode} (inNode : part ∈ node.parts) :
    part.shift offset ∈ (node.shift offset).parts := by
  rcases mem_parts_iff.1 inNode with rfl | ⟨child, member, inChild⟩
  · exact mem_parts_self _
  · have smaller := count_lt_of_mem member
    refine mem_parts_iff.2 (Or.inr ⟨child.shift offset, ?_, shift_mem_parts offset inChild⟩)
    rw [children_shift]
    exact List.mem_map_of_mem member
termination_by node.count

/-- A tree stands in a text if its shifted form stands where the text does. -/
theorem StandsIn.of_shift (window : Text.StandsAt source offset text)
    (stands : (node.shift offset).StandsIn source) (inside : node.span.stop ≤ Text.bytes text) :
    node.StandsIn text := by
  constructor
  · intro part inNode
    have inShifted := shift_mem_parts offset inNode
    obtain ⟨piece, delimits⟩ := stands.delimits _ inShifted
    have within := (stands.within inShifted).2
    rw [span_shift] at delimits
    simp only [span_shift, Span.shift, Nat.add_le_add_iff_right] at within
    exact ⟨piece, delimits.of_shift window (Nat.le_trans within inside)⟩
  · intro part inNode
    have inOrder := stands.inOrder _ (shift_mem_parts offset inNode)
    have spans : ((part.shift offset).children.map (·.span))
        = (part.children.map (·.span)).map (Span.shift offset) := by
      simp [Function.comp_def]
    rw [spans, span_shift] at inOrder
    exact inOrder.of_shift

end SyntaxNode

/-! ## Lowering -/

namespace Lowering

open SyntaxNode

variable {source text : Text} {offset : Nat}

theorem slice_shift (window : Text.StandsAt source offset text) {span : Span} {piece : Text}
    (sliced : slice text span = .ok piece) : slice source (span.shift offset) = .ok piece :=
  slice_eq_ok_iff.2 ((slice_eq_ok_iff.1 sliced).shift window)

theorem textOf_shift (window : Text.StandsAt source offset text) {found : Option SyntaxNode}
    {piece : Text} (sliced : textOf text found = .ok piece) :
    textOf source (found.map (SyntaxNode.shift offset)) = .ok piece := by
  cases found with
  | none => exact sliced
  | some node =>
    rw [Option.map_some, textOf, span_shift]
    exact slice_shift window sliced

theorem lowerName_shift (window : Text.StandsAt source offset text) {node : SyntaxNode}
    {name : ElementName} (lowered : lowerName text node = .ok name) :
    lowerName source (node.shift offset) = .ok name := by
  have half (node : SyntaxNode) (index : Nat) :
      (node.shift offset).namedChildren[index]?
        = node.namedChildren[index]?.map (SyntaxNode.shift offset) := by
    rw [namedChildren_shift, List.getElem?_map]
  fun_induction lowerName text node generalizing name with
  | case1 node dotted _ object found =>
    rename_i inductionHypothesis
    obtain ⟨objectName, objectEq, lowered⟩ := bind_eq_ok_iff.1 lowered
    obtain ⟨property, propertyEq, lowered⟩ := bind_eq_ok_iff.1 lowered
    have foundShifted : (node.shift offset).object? = some (object.shift offset) := by
      rw [object?_shift, found, Option.map_some]
    have propertyShifted := textOf_shift window propertyEq
    rw [← property?_shift] at propertyShifted
    rw [lowerName, kind_shift, if_pos dotted]
    split
    next object' found' =>
      obtain rfl := Option.some.inj (foundShifted.symm.trans found')
      exact bind_eq_ok_iff.2 ⟨_, inductionHypothesis objectEq,
        bind_eq_ok_iff.2 ⟨_, propertyShifted, lowered⟩⟩
    next missing =>
      rw [foundShifted] at missing
      cases missing
  | case2 node dotted _ =>
    rename_i missing
    obtain ⟨objectName, objectEq, lowered⟩ := bind_eq_ok_iff.1 lowered
    obtain ⟨property, propertyEq, lowered⟩ := bind_eq_ok_iff.1 lowered
    have missingShifted : (node.shift offset).object? = none := by
      rw [object?_shift, missing, Option.map_none]
    have propertyShifted := textOf_shift window propertyEq
    rw [← property?_shift] at propertyShifted
    rw [lowerName, kind_shift, if_pos dotted]
    split
    next object' found' =>
      rw [missingShifted] at found'
      cases found'
    next =>
      exact bind_eq_ok_iff.2 ⟨_, objectEq, bind_eq_ok_iff.2 ⟨_, propertyShifted, lowered⟩⟩
  | case3 node undotted qualified =>
    obtain ⟨space, spaceEq, lowered⟩ := bind_eq_ok_iff.1 lowered
    obtain ⟨suffix, suffixEq, lowered⟩ := bind_eq_ok_iff.1 lowered
    rw [lowerName, kind_shift, if_neg undotted, if_pos qualified, half, half]
    exact bind_eq_ok_iff.2 ⟨_, textOf_shift window spaceEq,
      bind_eq_ok_iff.2 ⟨_, textOf_shift window suffixEq, lowered⟩⟩
  | case4 node undotted unqualified =>
    obtain ⟨word, wordEq, lowered⟩ := bind_eq_ok_iff.1 lowered
    rw [lowerName, kind_shift, if_neg undotted, if_neg unqualified, span_shift]
    exact bind_eq_ok_iff.2 ⟨_, slice_shift window wordEq, lowered⟩

theorem lowerTagName_shift (window : Text.StandsAt source offset text) {tag : SyntaxNode}
    {name : ElementName} (lowered : lowerTagName text tag = .ok name) :
    lowerTagName source (tag.shift offset) = .ok name := by
  unfold lowerTagName at lowered ⊢
  rw [tagName?_shift]
  cases found : tag.tagName? with
  | none =>
    rw [found] at lowered
    exact lowered
  | some node =>
    rw [found] at lowered
    exact lowerName_shift window lowered

theorem lowerValue_shift (window : Text.StandsAt source offset text) {node : SyntaxNode}
    {value : AttributeValue} (lowered : lowerValue text node = .ok value) :
    lowerValue source (node.shift offset) = .ok value := by
  unfold lowerValue at lowered ⊢
  rw [kind_shift, isMarkup_shift, span_shift]
  split at lowered
  · rw [if_pos ‹_›]
    exact lowered
  · rw [if_neg ‹_›]
    split at lowered
    · rw [if_pos ‹_›]
      exact lowered
    · rw [if_neg ‹_›]
      obtain ⟨word, wordEq, lowered⟩ := bind_eq_ok_iff.1 lowered
      exact bind_eq_ok_iff.2 ⟨_, slice_shift window wordEq, lowered⟩

/-- What succeeds for an item that may be there succeeds where it is shifted. -/
theorem mapM_shift {α : Type} {lower lower' : SyntaxNode → Except BadSlice α}
    (shifts : ∀ node value, lower node = .ok value → lower' (node.shift offset) = .ok value)
    {item : Option SyntaxNode} {result : Option α} (lowered : item.mapM lower = .ok result) :
    (item.map (SyntaxNode.shift offset)).mapM lower' = .ok result := by
  cases item with
  | none => exact lowered
  | some node =>
    rw [Option.mapM_some] at lowered
    rw [Option.map_some, Option.mapM_some]
    cases found : lower node with
    | error reason =>
      rw [found] at lowered
      cases lowered
    | ok value =>
      rw [found] at lowered
      rw [shifts node value found]
      exact lowered

theorem lowerAttribute_shift (window : Text.StandsAt source offset text) {given : SyntaxNode}
    {lowered : Attribute} (isLowered : lowerAttribute text given = .ok lowered) :
    lowerAttribute source (given.shift offset)
      = .ok { lowered with span := lowered.span.shift offset } := by
  unfold lowerAttribute at isLowered ⊢
  rw [kind_shift, namedChildren_shift, filter_map_shift fun child => by rw [kind_shift], span_shift]
  split at isLowered
  · rw [if_pos ‹_›]
    cases isLowered
    rfl
  · rw [if_neg ‹_›]
    obtain ⟨key, keyEq, isLowered⟩ := bind_eq_ok_iff.1 isLowered
    obtain ⟨value, valueEq, isLowered⟩ := bind_eq_ok_iff.1 isLowered
    cases isLowered
    simp only [List.getElem?_map]
    refine bind_eq_ok_iff.2 ⟨key, mapM_shift (fun node piece sliced => ?_) keyEq,
      bind_eq_ok_iff.2 ⟨value, mapM_shift (fun node _ => lowerValue_shift window) valueEq, rfl⟩⟩
    rw [span_shift]
    exact slice_shift window sliced

/-- A shifted tag opens an element with the same name and the same attributes. -/
theorem lowerElement_shift (window : Text.StandsAt source offset text) {tag : SyntaxNode}
    {tags : Tags} (tags' : Tags) {name : ElementName} {attributes : List Attribute}
    (lowered : lowerElement text tag tags = .ok (.element ⟨name, attributes, tags⟩)) :
    lowerElement source (tag.shift offset) tags'
      = .ok (.element ⟨name,
        attributes.map fun given => { given with span := given.span.shift offset }, tags'⟩) := by
  obtain ⟨name', attributes', kindEq, named, given⟩ := lowerElement_eq_ok_iff.1 lowered
  obtain ⟨rfl, rfl, -⟩ := Element.mk.inj (NodeKind.element.inj kindEq)
  refine lowerElement_eq_ok_iff.2 ⟨_, _, rfl, lowerTagName_shift window named, ?_⟩
  rw [attributes_shift, List.forall₂_map_left_iff, List.forall₂_map_right_iff]
  exact given.imp fun _ _ isLowered => lowerAttribute_shift window isLowered

end Lowering

end FragmentLint
