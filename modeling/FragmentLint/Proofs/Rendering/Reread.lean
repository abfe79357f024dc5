import FragmentLint.Proofs.Rendering.Decomposition
import FragmentLint.Proofs.Rendering.Moved

/-!
Contract: what stands between two tags is read from its own text.

Tags, and what stands between tags, are told from what follows them by nothing but their own text,
wherever this stands; text ends at the first tag or brace, but for hidden lines. Of a parser that
reads like this any two sources have the same content where they have the same text. Main
statements: `rendered_ofChild_eq`, `contents_eq`.

Owns: what is asked of a parser about reading a source again (`LocalSyntaxParser`).
-/

namespace FragmentLint

open Rendering

namespace SyntaxNode

/-! ## Guarantees -/

/-- Whether markup begins with a node: an opening tag, or a tag that closes itself. -/
def isOpening (node : SyntaxNode) : Bool := node.kind == .jsxOpening || node.kind == .jsxSelfClosing

/-- Whether a node behind an opening tag is no text: a child of its own, or the closing tag. -/
def isNext (node : SyntaxNode) : Bool :=
  node.isNamed && node.isStructural || node.kind == .jsxClosing

/-- The nodes behind the opening tags of a tree that are no text. -/
def nexts (root : SyntaxNode) : List SyntaxNode :=
  (root.parts.filter (·.kind == .jsxElement)).flatMap fun element => element.children.filter isNext

/-- Whether the text at a span is of some sort. -/
def isTextAt (source : Text) (sort : Text → Bool) (span : Span) : Bool :=
  (Text.slice? source span.start span.stop).any sort

/-- Whether what stands between two tags is text without tags and braces, but for children of their
own and for hidden lines. -/
def fillsTags (source : Text) (start : Nat) (nodes : List SyntaxNode) (stop : Nat) : Bool :=
  match nodes with
  | [] => isTextAt source Text.isPlain ⟨start, stop⟩
  | node :: rest =>
    isTextAt source Text.isPlain ⟨start, node.span.start⟩
      && (node.isNamed && node.isStructural || isTextAt source Text.isMarked node.span)
      && fillsTags source node.span.stop rest stop

/-- Whether text between tags is set apart from everything else there. -/
structure SetsTextApart (source : Text) (root : SyntaxNode) : Prop where
  texts : ∀ element ∈ root.parts, element.kind = .jsxElement → ∀ opening content closing,
    element.children = opening :: (content ++ [closing]) →
      fillsTags source opening.span.stop content closing.span.start = true
  /-- Nothing but text begins as a hidden line. -/
  visible : ∀ next ∈ root.nexts, ∀ piece, next.span.Delimits source piece →
    ¬ Text.Comparable piece Text.hiddenMark
  /-- Nothing but a fragment begins as an empty one. -/
  emptyFragment : ∀ next ∈ root.nexts, ∀ piece, next.span.Delimits source piece →
    Text.Comparable piece "<></>".toList → piece = "<></>".toList ∧ next.kind = .jsxElement
      ∧ ∀ opening ∈ next.openingTag?, opening.tagName? = none

/-- Whether two trees have the same tags, and the same nodes behind tags, where those in one of them
begin with the text of those in the other. -/
structure ReadsAlike (source source' : Text) (root root' : SyntaxNode) : Prop where
  opening : ∀ tag ∈ root.parts, tag.isOpening = true → ∀ tag' ∈ root'.parts, tag'.isOpening = true →
    ∀ piece piece', tag.span.Delimits source piece → tag'.span.Delimits source' piece' →
      piece <+: piece' → piece = piece' ∧ tag.kind = tag'.kind
  next : ∀ next ∈ root.nexts, ∀ next' ∈ root'.nexts,
    ∀ piece piece', next.span.Delimits source piece → next'.span.Delimits source' piece' →
      piece <+: piece' →
        ∃ own : SyntaxNode, next = own.shift next.span.start ∧ next' = own.shift next'.span.start

variable {source source' : Text} {root root' : SyntaxNode}

theorem mem_nexts_iff {next : SyntaxNode} :
    next ∈ root.nexts ↔
      ∃ element ∈ root.parts, element.kind = .jsxElement ∧ next ∈ element.children
        ∧ next.isNext = true := by
  simp [nexts, and_assoc]

theorem mem_parts_of_mem_nexts {next : SyntaxNode} (member : next ∈ root.nexts) :
    next ∈ root.parts := by
  obtain ⟨element, inRoot, -, isChild, -⟩ := mem_nexts_iff.1 member
  exact mem_parts_of_child isChild inRoot

theorem Pair.closing_mem_nexts {element opening closing : SyntaxNode} {nodes : List SyntaxNode}
    (pair : element.Pair opening closing nodes) (inRoot : element ∈ root.parts)
    (isElement : element.kind = .jsxElement) : closing ∈ root.nexts := by
  refine mem_nexts_iff.2 ⟨element, inRoot, isElement, pair.mem_closing, ?_⟩
  rw [isNext, pair.kindClosing]
  exact Bool.or_true _

theorem isTextAt_iff {sort : Text → Bool} {span : Span} :
    isTextAt source sort span = true ↔ ∃ piece, span.Delimits source piece ∧ sort piece = true := by
  unfold isTextAt Span.Delimits
  rw [Option.any_eq_true]

theorem isTextAt_of_plain {span : Span} (plain : isTextAt source Text.isPlain span = true) :
    isTextAt source Text.isMarked span = true := by
  obtain ⟨piece, delimits, isPlain⟩ := isTextAt_iff.1 plain
  exact isTextAt_iff.2 ⟨piece, delimits, Text.isMarked_of_isPlain isPlain⟩

theorem isTextAt_trans {start middle stop : Nat}
    (first : isTextAt source Text.isMarked ⟨start, middle⟩ = true)
    (second : isTextAt source Text.isMarked ⟨middle, stop⟩ = true) :
    isTextAt source Text.isMarked ⟨start, stop⟩ = true := by
  obtain ⟨left, delimits, isMarked⟩ := isTextAt_iff.1 first
  obtain ⟨right, delimits', isMarked'⟩ := isTextAt_iff.1 second
  exact isTextAt_iff.2
    ⟨left ++ right, Text.slice?_trans delimits delimits', Text.isMarked_append isMarked isMarked'⟩

/-- There is no text in front of what stands between two tags. -/
theorem isTextAt_start {nodes : List SyntaxNode} {start stop : Nat}
    (fills : fillsTags source start nodes stop = true) :
    isTextAt source Text.isMarked ⟨start, start⟩ = true := by
  have boundary : Text.isBoundary source start = true := by
    unfold fillsTags at fills
    split at fills
    · obtain ⟨piece, delimits, -⟩ := isTextAt_iff.1 fills
      exact Text.isBoundary_start delimits
    · rw [Bool.and_eq_true, Bool.and_eq_true] at fills
      obtain ⟨piece, delimits, -⟩ := isTextAt_iff.1 fills.1.1
      exact Text.isBoundary_start delimits
  exact isTextAt_iff.2 ⟨[], Text.slice?_self boundary, rfl⟩

end SyntaxNode

/-- A parser that reads tags, and what stands between tags, from their own text. -/
class LocalSyntaxParser [SyntaxParser] : Prop where
  setsTextApart {dialect : Dialect} {source : Text} {root : SyntaxNode}
    (parsed : SyntaxParser.parse? dialect source = some root) (sound : root.hasError = false) :
    root.SetsTextApart source
  readsAlike {dialect : Dialect} {source source' : Text} {root root' : SyntaxNode}
    (parsed : SyntaxParser.parse? dialect source = some root) (sound : root.hasError = false)
    (parsed' : SyntaxParser.parse? dialect source' = some root') (sound' : root'.hasError = false) :
    SyntaxNode.ReadsAlike source source' root root'

namespace Outline

open SyntaxNode

variable {source source' : Text} {root root' : SyntaxNode} {pragmas : Pragmas}

/-! ## Reading a child again -/

/-- Copies of one node of which one begins with the text of the other have the same text and render
the same. -/
theorem rendered_of_copies (pragmas : Pragmas) {own : SyntaxNode} {start start' : Nat}
    {piece piece' : Text} (first : own.span.start = 0) (stands : (own.shift start).StandsIn source)
    (delimits : (own.shift start).span.Delimits source piece)
    (delimits' : (own.shift start').span.Delimits source' piece') (shorter : piece <+: piece') :
    piece = piece' ∧ ∀ above above',
      rendered source pragmas (ofChild source above (own.shift start))
        = rendered source' pragmas (ofChild source' above' (own.shift start')) := by
  rw [span_shift] at delimits delimits'
  have stop : own.span.stop + start = own.span.start + start + Text.bytes piece := delimits.stop_eq
  have stop' : own.span.stop + start' = own.span.start + start' + Text.bytes piece' :=
    delimits'.stop_eq
  obtain ⟨rest, rfl⟩ := shorter
  rw [Text.bytes_append] at stop'
  obtain rfl : rest = [] := (Text.bytes_eq_zero_iff rest).1 (by omega)
  rw [List.append_nil] at delimits' ⊢
  refine ⟨rfl, fun above above' => ?_⟩
  have window {source : Text} {start : Nat}
      (delimits : (own.span.shift start).Delimits source piece)
      (stop : own.span.stop + start = own.span.start + start + Text.bytes piece) :
      Text.StandsAt source start piece := by
    unfold Span.Delimits Span.shift at delimits
    rw [first, Nat.zero_add, show own.span.stop + start = start + Text.bytes piece by omega]
      at delimits
    exact delimits
  have ownStands : own.StandsIn piece := .of_shift (window delimits stop) stands (by omega)
  rw [@rendered_ofChild_shift source piece pragmas start [] own (window delimits stop) ownStands,
    @rendered_ofChild_shift source' piece pragmas start' [] own (window delimits' (by omega))
      ownStands]

section Parser

variable [SyntaxParser] [LawfulSyntaxParser] [LocalSyntaxParser] {dialect : Dialect}

/-- Nodes behind tags of which one begins with the text of the other have the same text and render
the same. -/
theorem rendered_ofChild_of_prefix (pragmas : Pragmas)
    (parsed : SyntaxParser.parse? dialect source = some root) (sound : root.hasError = false)
    (parsed' : SyntaxParser.parse? dialect source' = some root') (sound' : root'.hasError = false)
    {next next' : SyntaxNode} (isNext : next ∈ root.nexts) (isNext' : next' ∈ root'.nexts)
    {piece piece' : Text} (delimits : next.span.Delimits source piece)
    (delimits' : next'.span.Delimits source' piece') (shorter : piece <+: piece') :
    piece = piece' ∧ next.kind = next'.kind ∧ ∀ above above',
      rendered source pragmas (ofChild source above next)
        = rendered source' pragmas (ofChild source' above' next') := by
  have stands :=
    (LawfulSyntaxParser.lawful parsed sound).stands.part (mem_parts_of_mem_nexts isNext)
  obtain ⟨own, isCopy, isCopy'⟩ := (LocalSyntaxParser.readsAlike parsed sound parsed' sound').next
    next isNext next' isNext' piece piece' delimits delimits' shorter
  have starts := congrArg (·.span.start) isCopy
  simp only [span_shift, Span.shift] at starts
  have kinds := (congrArg SyntaxNode.kind isCopy).trans
    ((kind_shift own).trans ((congrArg SyntaxNode.kind isCopy').trans (kind_shift own)).symm)
  generalize next.span.start = start at isCopy starts
  generalize next'.span.start = start' at isCopy'
  subst isCopy isCopy'
  obtain ⟨same, rendersAlike⟩ := rendered_of_copies pragmas (by omega) stands delimits
    delimits' shorter
  exact ⟨same, kinds, rendersAlike⟩

/-- Nodes behind tags one of which begins as the other have the same text and render the same. -/
theorem rendered_ofChild_eq (pragmas : Pragmas)
    (parsed : SyntaxParser.parse? dialect source = some root) (sound : root.hasError = false)
    (parsed' : SyntaxParser.parse? dialect source' = some root') (sound' : root'.hasError = false)
    {next next' : SyntaxNode} (isNext : next ∈ root.nexts) (isNext' : next' ∈ root'.nexts)
    {piece piece' : Text} (delimits : next.span.Delimits source piece)
    (delimits' : next'.span.Delimits source' piece') (comparable : Text.Comparable piece piece') :
    piece = piece' ∧ next.kind = next'.kind ∧ ∀ above above',
      rendered source pragmas (ofChild source above next)
        = rendered source' pragmas (ofChild source' above' next') := by
  rcases comparable with shorter | longer
  · exact rendered_ofChild_of_prefix pragmas parsed sound parsed' sound' isNext isNext' delimits
      delimits' shorter
  · obtain ⟨same, kinds, rendersAlike⟩ := rendered_ofChild_of_prefix pragmas parsed'
      sound' parsed sound isNext' isNext delimits' delimits longer
    exact ⟨same.symm, kinds.symm, fun above above' => (rendersAlike above' above).symm⟩

end Parser

/-! ## What stands between the tags of markup -/

/-- What is no text behind a tag begins as such. -/
theorem beginsNext_of_mem_nexts (lawful : root.Lawful source) (apart : root.SetsTextApart source)
    {next : SyntaxNode} (isNext : next ∈ root.nexts) {piece : Text}
    (delimits : next.span.Delimits source piece) : Text.BeginsNext piece := by
  refine ⟨?_, apart.visible next isNext piece delimits⟩
  obtain ⟨-, -, -, -, named⟩ := mem_nexts_iff.1 isNext
  have own := lawful.part (mem_parts_of_mem_nexts isNext)
  rw [SyntaxNode.isNext, Bool.or_eq_true, Bool.and_eq_true, isStructural, Bool.or_eq_true,
    beq_iff_eq, beq_iff_eq] at named
  rcases named with ⟨-, markup | braces⟩ | closing
  · obtain ⟨tagged, span, placed⟩ := @taggedAt_ofMarkup source [] next own markup
    obtain ⟨tags, tagsEq⟩ := NodeKind.exists_tags tagged
    obtain ⟨_, bracketed, inside, rfl⟩ := (placed.holds tagsEq).delimit.bracketed
    rw [span] at bracketed
    rw [delimits.unique bracketed]
    exact ⟨'<', rfl, rfl⟩
  · obtain ⟨⟨inside, written⟩, -⟩ := own.isComplete.braces braces
    rw [delimits.unique written]
    exact ⟨'\x7b', rfl, rfl⟩
  · obtain ⟨⟨inside, written⟩, -⟩ := own.isComplete.closing closing
    rw [delimits.unique written]
    exact ⟨'<', rfl, rfl⟩

theorem isMarked_of_mem_ofText {start stop : Nat}
    (marked : isTextAt source Text.isMarked ⟨start, stop⟩ = true) {outline : Outline}
    (member : outline ∈ ofText source start stop) {raw : Text}
    (isText : outline.kind.text? = some raw) : raw.isMarked = true := by
  obtain ⟨piece, delimits, isMarked⟩ := isTextAt_iff.1 marked
  unfold ofText at member
  split at member
  · obtain rfl := List.mem_singleton.1 member
    obtain rfl : textAt source ⟨start, stop⟩ = raw := Option.some.inj isText
    unfold textAt
    rw [show Text.slice? source start stop = some piece from delimits]
    exact isMarked
  · cases member

/-- Text between tags is set apart from what else stands there. -/
theorem isMarked_of_fillsTags {nodes : List SyntaxNode} {start middle stop : Nat}
    (pending : isTextAt source Text.isMarked ⟨start, middle⟩ = true)
    (fills : fillsTags source middle nodes stop = true) {above : List SyntaxNode}
    {outline : Outline} (member : outline ∈ childrenIn source above start stop (between nodes))
    {raw : Text} (isText : outline.kind.text? = some raw) : raw.isMarked = true := by
  induction nodes generalizing start middle with
  | nil =>
    rw [fillsTags] at fills
    rw [between, List.filter_nil, childrenIn_nil] at member
    exact isMarked_of_mem_ofText (isTextAt_trans pending (isTextAt_of_plain fills)) member isText
  | cons node rest inductionHypothesis =>
    rw [fillsTags, Bool.and_eq_true, Bool.and_eq_true, Bool.or_eq_true] at fills
    obtain ⟨⟨gap, own⟩, behind⟩ := fills
    have upToNode := isTextAt_trans pending (isTextAt_of_plain gap)
    rw [between, List.filter_cons] at member
    split at member
    next structural =>
      rw [childrenIn_cons] at member
      rcases List.mem_append.1 member with inText | inRest
      · exact isMarked_of_mem_ofText upToNode inText isText
      · rcases List.mem_cons.1 inRest with rfl | inRest
        · rw [text?_ofChild] at isText
          cases isText
        · exact inductionHypothesis (isTextAt_start behind) behind inRest
    next other =>
      exact inductionHypothesis (isTextAt_trans upToNode (own.resolve_left other)) behind member

/-- Content that is read from the text between two tags. -/
inductive ReadFrom (source : Text) (root : SyntaxNode) (pragmas : Pragmas) : Content → Prop where
  | text {raw : Text} (visible : raw ≠ []) (marked : raw.isMarked = true) :
      ReadFrom source root pragmas (.text raw)
  | next {next : SyntaxNode} {above : List SyntaxNode} {piece : Text} (isNext : next ∈ root.nexts)
      (structural : next.isStructural = true) (delimits : next.span.Delimits source piece) :
      ReadFrom source root pragmas
        (.other piece (rendered source pragmas (ofChild source above next)))

/-- What stands between two tags and is no text is read off a node there. -/
theorem exists_child_of_mem_childrenIn {structural : List SyntaxNode} {start stop : Nat}
    {above : List SyntaxNode} {outline : Outline}
    (member : outline ∈ childrenIn source above start stop structural)
    (noText : outline.kind.text? = none) :
    ∃ child ∈ structural, outline = ofChild source above child := by
  have notText {start stop : Nat} : outline ∉ ofText source start stop := by
    unfold ofText
    split
    · rw [List.mem_singleton]
      rintro rfl
      cases noText
    · exact List.not_mem_nil
  induction structural generalizing start with
  | nil =>
    rw [childrenIn_nil] at member
    exact absurd member notText
  | cons child rest inductionHypothesis =>
    rw [childrenIn_cons] at member
    rcases List.mem_cons.1 ((List.mem_append.1 member).resolve_left notText) with own | inRest
    · exact ⟨child, List.mem_cons_self, own⟩
    · obtain ⟨node, inRest, isNode⟩ := inductionHypothesis inRest
      exact ⟨node, List.mem_cons_of_mem _ inRest, isNode⟩

theorem span_ofChild {above : List SyntaxNode} {child : SyntaxNode} (lawful : child.Lawful source)
    (structural : child.isStructural = true) : (ofChild source above child).span = child.span := by
  unfold ofChild
  split
  next braces => exact (placed_ofBraces lawful (by simpa using braces)).2.1
  next other =>
    exact (taggedAt_ofMarkup lawful (isMarkup_of_isStructural structural other)).span

/-- What stands between the tags of an element is read from the text there. -/
theorem readFrom_of_pair (lawful : root.Lawful source) (apart : root.SetsTextApart source)
    {element opening closing : SyntaxNode} {nodes : List SyntaxNode}
    (inRoot : element ∈ root.parts) (isElement : element.kind = .jsxElement)
    (pair : element.Pair opening closing nodes) {above : List SyntaxNode} {outline : Outline}
    (member : outline ∈ childrenIn source above opening.span.stop closing.span.start
      (between nodes)) (placed : Placed source outline) :
    ReadFrom source root pragmas (outline.content source pragmas) := by
  have fills := apart.texts element inRoot isElement opening nodes closing pair.children
  unfold content
  cases isText : outline.kind.text? with
  | some raw =>
    exact .text (placed.visible_text isText).1
      (isMarked_of_fillsTags (isTextAt_start fills) fills member isText)
  | none =>
    obtain ⟨child, isBetween, rfl⟩ := exists_child_of_mem_childrenIn member isText
    obtain ⟨inContent, kept⟩ := List.mem_filter.1 isBetween
    obtain ⟨named, structural⟩ := Bool.and_eq_true_iff.1 kept
    have isChild := pair.mem_content inContent
    have isNext : child ∈ root.nexts := by
      refine mem_nexts_iff.2 ⟨element, inRoot, isElement, isChild, ?_⟩
      rw [SyntaxNode.isNext, named, structural]
      rfl
    have lawfulChild := lawful.part (mem_parts_of_mem_nexts isNext)
    obtain ⟨piece, delimits⟩ := placed.delimits
    rw [sourceIn_eq delimits]
    rw [span_ofChild lawfulChild structural] at delimits
    exact .next isNext structural delimits

/-- What stands between the tags of markup is read from the text there. -/
theorem readFrom_of_markup (lawful : root.Lawful source) (apart : root.SetsTextApart source)
    {part : SyntaxNode} (inRoot : part ∈ root.parts) (markup : part.isMarkup = true)
    {above : List SyntaxNode} :
    ∀ content ∈ contents source pragmas (ofMarkup source above part).children,
      ReadFrom source root pragmas content := by
  intro content member
  obtain ⟨outline, isChild, rfl⟩ := List.mem_map.1 member
  have own := @taggedAt_ofMarkup source above part (lawful.part inRoot) markup
  have placed := own.placed.children outline isChild
  rcases kind_of_isMarkup markup with single | ⟨paired, isElement⟩
  · rw [ofMarkup_of_selfClosing (by simpa using single)] at isChild
    cases isChild
  · rcases ofMarkup_cases above (lawful.part inRoot) markup with
      ⟨single, -⟩ | ⟨opening, closing, nodes, pair, outlineEq⟩
    · exact absurd (by simpa using single) paired
    · rw [outlineEq, children_ofTags] at isChild
      exact readFrom_of_pair lawful apart inRoot isElement pair isChild placed

/-- Content that is read from a text is set apart where it is text and begins as such where not. -/
theorem ReadFrom.fits (lawful : root.Lawful source) (apart : root.SetsTextApart source)
    {content : Content} (readFrom : ReadFrom source root pragmas content) :
    content.Fits Text.isMarked := by
  cases readFrom with
  | text visible marked => exact ⟨visible, marked⟩
  | next isNext _ delimits => exact beginsNext_of_mem_nexts lawful apart isNext delimits

theorem eq_nil_of_spellAll_eq_nil {sort : Text → Bool} {contents : List Content}
    (fits : ∀ content ∈ contents, content.Fits sort) (nothing : Content.spellAll contents = []) :
    contents = [] := by
  cases contents with
  | nil => rfl
  | cons head rest =>
    rw [Content.spellAll_cons, List.append_eq_nil_iff] at nothing
    have own := fits head List.mem_cons_self
    cases head with
    | text raw => exact absurd nothing.1 own.1
    | other source rendered =>
      obtain ⟨c, isFirst, -⟩ := Text.BeginsNext.first own
      have none : source = [] := nothing.1
      rw [none] at isFirst
      cases isFirst

/-- An empty fragment in shorthand renders nothing. -/
theorem rendered_of_emptyFragment (lawful : root.Lawful source) (apart : root.SetsTextApart source)
    {next : SyntaxNode} (isNext : next ∈ root.nexts)
    (delimits : next.span.Delimits source "<></>".toList) (above : List SyntaxNode) :
    rendered source pragmas (ofChild source above next) = [] := by
  obtain ⟨-, isElement, nameless⟩ := apart.emptyFragment next isNext _ delimits
    (Or.inl (List.prefix_refl _))
  have inRoot := mem_parts_of_mem_nexts isNext
  have own := lawful.part inRoot
  have markup : next.isMarkup = true := by
    rw [isMarkup, isElement]
    rfl
  have notBraces : ¬ (next.kind == .jsxExpression) = true := by
    rw [isElement]
    decide
  have readFrom := @readFrom_of_markup source root pragmas lawful apart next inRoot markup above
  have placed := (@taggedAt_ofMarkup source above next own markup).placed
  rw [ofChild, if_neg notBraces]
  rcases ofMarkup_cases above own markup with
    ⟨single, -⟩ | ⟨opening, closing, nodes, pair, outlineEq⟩
  · rw [isElement] at single
    cases single
  · rw [ofTags, nameless opening pair.opens, if_neg (by simp)] at outlineEq
    generalize childrenIn source (next :: above) opening.span.stop closing.span.start
      (between nodes) = children at outlineEq
    rw [outlineEq] at readFrom placed ⊢
    -- The tags take two and three bytes at least, so nothing stands between them.
    have nothing : Content.spellAll (contents source pragmas children) = [] := by
      have inner := @Placed.inner_contents source pragmas _ _ placed rfl
      have size := inner.stop_eq
      have whole := delimits.stop_eq
      have five : Text.bytes "<></>".toList = 5 := by decide
      apply (Text.bytes_eq_zero_iff _).1
      rcases (pair.delimit own).inner_cases with ⟨innerEq, -⟩ | ⟨first, ordered, last⟩
      · rw [innerEq] at size
        exact Nat.add_left_cancel size.symm
      · rw [Outline.children] at size
        omega
    have noContents : contents source pragmas children = [] :=
      eq_nil_of_spellAll_eq_nil (fun content member => (readFrom content member).fits lawful apart)
        nothing
    rw [rendered_of_tags rfl]
    show renderedAll source pragmas children = []
    rw [renderedAll_eq, noContents]
    rfl

/-! ## Reading content again -/

/-- Content to be put between two tags: plain text, content read from a source, and empty fragments.
-/
inductive Spliced (source : Text) (root : SyntaxNode) (pragmas : Pragmas) : Content → Prop where
  | text {raw : Text} (visible : raw ≠ []) (plain : raw.isPlain = true) :
      Spliced source root pragmas (.text raw)
  | next {next : SyntaxNode} {above : List SyntaxNode} {piece : Text} (isNext : next ∈ root.nexts)
      (structural : next.isStructural = true) (delimits : next.span.Delimits source piece) :
      Spliced source root pragmas
        (.other piece (rendered source pragmas (ofChild source above next)))
  | emptyFragment : Spliced source root pragmas (.other "<></>".toList [])

theorem Spliced.fits (lawful : root.Lawful source) (apart : root.SetsTextApart source)
    {content : Content} (spliced : Spliced source root pragmas content) :
    content.Fits Text.isPlain := by
  cases spliced with
  | text visible plain => exact ⟨visible, plain⟩
  | next isNext _ delimits => exact beginsNext_of_mem_nexts lawful apart isNext delimits
  | emptyFragment => exact ⟨⟨'<', rfl, rfl⟩, by decide⟩

theorem kind_ne_of_isStructural {node : SyntaxNode} (structural : node.isStructural = true) :
    node.kind ≠ .jsxClosing := by
  intro closing
  rw [isStructural, isMarkup, closing] at structural
  cases structural

section Parser

variable [SyntaxParser] [LawfulSyntaxParser] [LocalSyntaxParser] {dialect : Dialect}

/-- Where the text of a tag stands, this tag is read. -/
theorem opening_eq
    (parsed : SyntaxParser.parse? dialect source = some root) (sound : root.hasError = false)
    (parsed' : SyntaxParser.parse? dialect source' = some root') (sound' : root'.hasError = false)
    {tag tag' : SyntaxNode} (inRoot : tag ∈ root.parts) (isOpening : tag.isOpening = true)
    (inRoot' : tag' ∈ root'.parts) (isOpening' : tag'.isOpening = true) {front piece rest : Text}
    (delimits : tag.span.Delimits source piece) (whole : source' = front ++ (piece ++ rest))
    (starts : tag'.span.start = Text.bytes front) :
    tag'.kind = tag.kind ∧ tag'.span.stop = Text.bytes front + Text.bytes piece := by
  have lawful' := LawfulSyntaxParser.lawful parsed' sound'
  obtain ⟨piece', delimits'⟩ := (lawful'.part inRoot').stands.own
  have stop' := delimits'.stop_eq
  obtain ⟨front', rest', whole', starts', -⟩ := Text.slice?_eq_some_iff.1 delimits'
  obtain ⟨-, same⟩ :=
    Text.append_inj_of_bytes (whole.symm.trans whole') (starts.symm.trans starts'.symm)
  obtain ⟨samePiece, sameKind⟩ : piece = piece' ∧ tag.kind = tag'.kind := by
    rcases Text.comparable_of_append same with shorter | longer
    · exact (LocalSyntaxParser.readsAlike parsed sound parsed' sound').opening tag inRoot isOpening
        tag' inRoot' isOpening' piece piece' delimits delimits' shorter
    · obtain ⟨samePiece, sameKind⟩ := (LocalSyntaxParser.readsAlike parsed' sound' parsed
        sound).opening tag' inRoot' isOpening' tag inRoot isOpening piece' piece delimits' delimits
        longer
      exact ⟨samePiece.symm, sameKind.symm⟩
  rw [stop', starts, samePiece]
  exact ⟨sameKind.symm, rfl⟩

section Spliced

variable (parsed : SyntaxParser.parse? dialect source = some root) (sound : root.hasError = false)
  (parsed' : SyntaxParser.parse? dialect source' = some root') (sound' : root'.hasError = false)

include parsed sound parsed' sound'

/-- Content to be put between two tags is never read as a closing tag. -/
theorem Spliced.not_comparable_closing {content : Content}
    (spliced : Spliced source root pragmas content) (noText : content.isText = false)
    {closing : SyntaxNode} (isNext : closing ∈ root'.nexts) (isClosing : closing.kind = .jsxClosing)
    {last : Text} (closes : closing.span.Delimits source' last) :
    ¬ Text.Comparable content.spell last := by
  intro comparable
  cases spliced with
  | text => cases noText
  | next isChild structural delimits =>
    have kinds := (rendered_ofChild_eq pragmas parsed sound parsed' sound' isChild isNext delimits
      closes comparable).2.1
    exact kind_ne_of_isStructural structural (kinds.trans isClosing)
  | emptyFragment =>
    have textApart' := LocalSyntaxParser.setsTextApart parsed' sound'
    have isFragment := (textApart'.emptyFragment closing isNext last closes comparable.symm).2.1
    rw [isClosing] at isFragment
    cases isFragment

/-- Where a closing tag is put no content is read. -/
theorem ReadFrom.not_comparable_closing {closing : SyntaxNode} (isNext : closing ∈ root.nexts)
    (isClosing : closing.kind = .jsxClosing) {last : Text}
    (closes : closing.span.Delimits source last) {content : Content}
    (readFrom : ReadFrom source' root' pragmas content) (noText : content.isText = false) :
    ¬ Text.Comparable last content.spell := by
  intro comparable
  cases readFrom with
  | text => cases noText
  | next isChild structural delimits =>
    have kinds := (rendered_ofChild_eq pragmas parsed sound parsed' sound' isNext isChild closes
      delimits comparable).2.1
    exact kind_ne_of_isStructural structural (kinds.symm.trans isClosing)

/-- Where content other than text is put the same content is read. -/
theorem Spliced.eq_of_comparable {content content' : Content}
    (spliced : Spliced source root pragmas content)
    (readFrom : ReadFrom source' root' pragmas content') (noText : content.isText = false)
    (noText' : content'.isText = false)
    (comparable : Text.Comparable content.spell content'.spell) : content = content' := by
  cases readFrom with
  | text => cases noText'
  | next isChild' structural' delimits' =>
    cases spliced with
    | text => cases noText
    | next isChild structural delimits =>
      obtain ⟨samePiece, -, rendersAlike⟩ := rendered_ofChild_eq pragmas parsed sound
        parsed' sound' isChild isChild' delimits delimits' comparable
      rw [samePiece, rendersAlike]
    | emptyFragment =>
      have lawful' := LawfulSyntaxParser.lawful parsed' sound'
      have textApart' := LocalSyntaxParser.setsTextApart parsed' sound'
      obtain ⟨samePiece, -, -⟩ := textApart'.emptyFragment _ isChild' _ delimits' comparable.symm
      subst samePiece
      rw [rendered_of_emptyFragment lawful' textApart' isChild' delimits']

end Spliced

/-- Content that is put between two tags is what is read there again. -/
theorem contents_eq
    (parsed : SyntaxParser.parse? dialect source = some root) (sound : root.hasError = false)
    (parsed' : SyntaxParser.parse? dialect source' = some root') (sound' : root'.hasError = false)
    {put : List Content} (apart : put.IsChain Content.Apart)
    (spliced : ∀ content ∈ put, Spliced source root pragmas content)
    {closing : SyntaxNode} (isNext : closing ∈ root.nexts) (isClosing : closing.kind = .jsxClosing)
    {last : Text} (closes : closing.span.Delimits source last)
    {element opening' closing' : SyntaxNode} {nodes : List SyntaxNode}
    (inRoot : element ∈ root'.parts) (isElement : element.kind = .jsxElement)
    (pair : element.Pair opening' closing' nodes) {above : List SyntaxNode} {front rest : Text}
    (whole : source' = front ++ (Content.spellAll put ++ (last ++ rest)))
    (opens : Text.bytes front = opening'.span.stop) :
    contents source' pragmas (ofMarkup source' above element).children = put := by
  have lawful := LawfulSyntaxParser.lawful parsed sound
  have lawful' := LawfulSyntaxParser.lawful parsed' sound'
  have textApart := LocalSyntaxParser.setsTextApart parsed sound
  have textApart' := LocalSyntaxParser.setsTextApart parsed' sound'
  have markup : element.isMarkup = true := by
    rw [isMarkup, isElement]
    rfl
  have paired : ¬ (element.kind == .jsxSelfClosing) = true := by
    rw [isElement]
    decide
  have isNext' := pair.closing_mem_nexts inRoot isElement
  have placed := (@taggedAt_ofMarkup source' above element (lawful'.part inRoot) markup).placed
  have readFrom := @readFrom_of_markup source' root' pragmas lawful' textApart' element inRoot
    markup above
  have tagsEq : (ofMarkup source' above element).kind.tags?
      = some ⟨opening'.span, some closing'.span⟩ := by
    rw [ofMarkup_of_tags paired pair.opens pair.closes, tags?_ofTags]
  have holds := placed.holds tagsEq
  have inner := @Placed.inner_contents source' pragmas _ _ placed tagsEq
  obtain ⟨last', closes'⟩ := (lawful'.part (mem_parts_of_mem_nexts isNext')).stands.own
  obtain ⟨front', rest', whole', opens', -⟩ :=
    Text.slice?_eq_some_iff.1 (Text.slice?_trans inner closes')
  obtain ⟨-, same⟩ := Text.append_inj_of_bytes (whole.symm.trans whole') (opens.trans opens'.symm)
  rw [List.append_assoc] at same
  refine (Content.eq_of_spellAll_eq apart (isChain_contents holds.apart)
    (fun content member => (spliced content member).fits lawful textApart)
    (fun content member => (readFrom content member).fits lawful' textApart')
    (beginsNext_of_mem_nexts lawful textApart isNext closes)
    (beginsNext_of_mem_nexts lawful' textApart' isNext' closes') ?_ ?_ ?_ same).symm
  · intro content member noText
    exact (spliced content member).not_comparable_closing parsed sound parsed' sound' noText isNext'
      pair.kindClosing closes'
  · intro content member noText
    exact (readFrom content member).not_comparable_closing parsed sound parsed' sound' isNext
      isClosing closes noText
  · intro content member content' member' noText noText'
    exact (spliced content member).eq_of_comparable parsed sound parsed' sound'
      (readFrom content' member') noText noText'

end Parser

end Outline

end FragmentLint
