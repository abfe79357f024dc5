import FragmentLint.Grammar.Concrete
import FragmentLint.Proofs.Grammar.Statements
import FragmentLint.Proofs.Markup.Guarantees

/-!
Contract: the parser of this library's own grammar is lawful.

Phrases keep every character, so a node that is made of a phrase stands where the sizes of the
phrases in front of it say, and tags and braces have their delimiters by construction. Main
statement: `lawful_concrete`, and with it the instance for the parser.
-/

namespace FragmentLint

namespace SyntaxNode

variable {source : Text} {start stop : Nat}

/-- Whether lawful nodes stand one behind the other between two offsets. -/
structure Row (source : Text) (start stop : Nat) (nodes : List SyntaxNode) : Prop where
  inOrder : Span.InOrder start (nodes.map (·.span)) stop
  lawful : ∀ node ∈ nodes, node.Lawful source

namespace Row

theorem nil (ordered : start ≤ stop) : Row source start stop [] := ⟨ordered, by simp⟩

theorem append {middle : Nat} {left right : List SyntaxNode} (first : Row source start middle left)
    (second : Row source middle stop right) : Row source start stop (left ++ right) := by
  refine ⟨?_, fun node member => ?_⟩
  · rw [List.map_append]
    exact first.inOrder.append second.inOrder
  · rcases List.mem_append.1 member with inLeft | inRight
    · exact first.lawful node inLeft
    · exact second.lawful node inRight

theorem mono {start' stop' : Nat} {nodes : List SyntaxNode} (row : Row source start stop nodes)
    (earlier : start' ≤ start) (later : stop ≤ stop') : Row source start' stop' nodes :=
  ⟨row.inOrder.mono earlier later, row.lawful⟩

theorem singleton {node : SyntaxNode} (lawful : node.Lawful source) :
    Row source node.span.start node.span.stop [node] :=
  ⟨⟨Nat.le_refl _, lawful.sound.ordered, Nat.le_refl _⟩, by simpa using lawful⟩

end Row

/-- A node is lawful if it stands where it says, around lawful nodes one behind the other, and is
complete itself. -/
theorem lawful_mk_iff {info : NodeInfo} {children : List SyntaxNode} :
    (mk info children).Lawful source ↔
      (∃ piece, info.span.Delimits source piece)
        ∧ Row source info.span.start info.span.stop children
        ∧ (mk info children).IsComplete source := by
  constructor
  · intro lawful
    exact ⟨lawful.stands.own, ⟨lawful.stands.childrenInOrder, fun child member =>
      lawful.child member⟩, lawful.isComplete⟩
  · rintro ⟨own, row, complete⟩
    have parts (property : SyntaxNode → Prop) (here : property (mk info children))
        (below : ∀ child ∈ children, ∀ node ∈ child.parts, property node) :
        ∀ node ∈ (mk info children).parts, property node := by
      intro node member
      rcases mem_parts_iff.1 member with rfl | ⟨child, isChild, inChild⟩
      · exact here
      · exact below child isChild node inChild
    exact ⟨⟨parts _ own fun child member => (row.lawful child member).stands.delimits,
      parts _ row.inOrder fun child member => (row.lawful child member).stands.inOrder⟩,
      parts _ complete fun child member => (row.lawful child member).complete⟩

end SyntaxNode

namespace Grammar

open SyntaxNode

/-- Whether nodes of a kind are made up of delimiters and what stands between them. -/
def Construct.isDelimited : Construct → Bool
  | .jsxElement => true
  | .jsxOpening => true
  | .jsxClosing => true
  | .jsxSelfClosing => true
  | .jsxExpression => true
  | _ => false

theorem Construct.isDelimited_of_isPlain {kind : Construct} (plain : kind.isPlain = true) :
    kind.isDelimited = false := by
  cases kind <;> first | rfl | cases plain

variable {source : Text} {start : Nat}

theorem isComplete_of_other {node : SyntaxNode} (other : node.kind.isDelimited = false) :
    node.IsComplete source := by
  constructor <;> intro kindEq <;> rw [kindEq] at other <;> cases other

/-! ## Leaves -/

theorem lawful_leaf {info : NodeInfo} {text : Text}
    (delimits : info.span.Delimits source text) (other : info.kind.isDelimited = false) :
    (mk info []).Lawful source := by
  refine lawful_mk_iff.2 ⟨⟨text, delimits⟩, .nil ?_, isComplete_of_other other⟩
  exact delimits.sound.ordered

theorem row_leaf {kind : Construct} {isNamed : Bool} {text : Text}
    (stands : Text.StandsAt source start text) (other : kind.isDelimited = false) :
    Row source start (start + Text.bytes text) [leaf kind isNamed start text] := by
  exact .singleton
    (@lawful_leaf source ⟨kind, isNamed, false, none, ⟨start, _⟩⟩ text stands other)

theorem row_sign {text : Text} (stands : Text.StandsAt source start text) :
    Row source start (start + Text.bytes text) [sign start text] :=
  row_leaf stands rfl

/-! ## Inner nodes -/

section Roles

variable {kind : Construct} {isFirst : Bool} {node : SyntaxNode} {children : List SyntaxNode}

theorem span_give : (give kind isFirst node).span = node.span := by
  cases node
  rfl

theorem kind_give : (give kind isFirst node).kind = node.kind := by
  cases node
  rfl

theorem isNamed_give : (give kind isFirst node).isNamed = node.isNamed := by
  cases node
  rfl

theorem field_give {field : Field} (given : node.field = some field) :
    (give kind isFirst node).field = some field := by
  cases node with
  | mk info below =>
    have fieldEq : info.field = some field := given
    show info.field.or _ = _
    rw [fieldEq]
    rfl

theorem lawful_give (lawful : node.Lawful source) : (give kind isFirst node).Lawful source := by
  cases node with
  | mk info below =>
    obtain ⟨own, row, complete⟩ := lawful_mk_iff.1 lawful
    have enclosed {opening closing : Text}
        (own : (mk info below).EnclosedBy source opening closing) :
        (give kind isFirst (mk info below)).EnclosedBy source opening closing :=
      ⟨own.written, own.within⟩
    exact lawful_mk_iff.2 ⟨own, row, ⟨complete.element,
      fun kindEq => enclosed (complete.opening kindEq),
      fun kindEq => enclosed (complete.closing kindEq),
      fun kindEq => enclosed (complete.selfClosing kindEq),
      fun kindEq => enclosed (complete.braces kindEq)⟩⟩

theorem exists_of_mem_giveAll (member : node ∈ giveAll kind children) :
    ∃ child ∈ children, ∃ isFirst, node = give kind isFirst child := by
  cases children with
  | nil => cases member
  | cons head rest =>
    rcases List.mem_cons.1 member with rfl | inRest
    · exact ⟨head, List.mem_cons_self, true, rfl⟩
    · obtain ⟨child, isChild, rfl⟩ := List.mem_map.1 inRest
      exact ⟨child, List.mem_cons_of_mem _ isChild, false, rfl⟩

theorem map_span_giveAll : (giveAll kind children).map (·.span) = children.map (·.span) := by
  cases children with
  | nil => rfl
  | cons head rest => simp [giveAll, span_give]

theorem row_giveAll {stop : Nat} (row : Row source start stop children) :
    Row source start stop (giveAll kind children) := by
  refine ⟨?_, fun node member => ?_⟩
  · rw [map_span_giveAll]
    exact row.inOrder
  · obtain ⟨child, isChild, isFirst, rfl⟩ := exists_of_mem_giveAll member
    exact lawful_give (row.lawful child isChild)

end Roles

/-- A node around a row of nodes is lawful if it is complete. -/
theorem lawful_inner {kind : Construct} {field : Option Field} {text : Text}
    {children : List SyntaxNode} (stands : Text.StandsAt source start text)
    (row : Row source start (start + Text.bytes text) children)
    (complete : (inner kind field ⟨start, start + Text.bytes text⟩ children).IsComplete source) :
    (inner kind field ⟨start, start + Text.bytes text⟩ children).Lawful source :=
  lawful_mk_iff.2 ⟨⟨text, stands⟩, row_giveAll row, complete⟩

section Enclosed

variable {kind : Construct} {field : Option Field} {opening inside closing : Text}
  {between : List SyntaxNode}
  (stands : Text.StandsAt source start (opening ++ (inside ++ closing)))
  (row : Row source (start + Text.bytes opening) (start + Text.bytes opening + Text.bytes inside)
    between)

theorem span_enclosed (size : Nat) :
    (enclosed kind field start opening closing size between).span
      = ⟨start, start + Text.bytes opening + size + Text.bytes closing⟩ := rfl

include stands

theorem delimits_enclosed :
    Span.Delimits ⟨start, start + Text.bytes opening + Text.bytes inside + Text.bytes closing⟩
      source (opening ++ (inside ++ closing)) := by
  have whole : Span.Delimits ⟨start, start + Text.bytes (opening ++ (inside ++ closing))⟩ source
    (opening ++ (inside ++ closing)) := stands
  simpa only [Text.bytes_append, Nat.add_assoc] using whole

include row

theorem enclosedBy_enclosed :
    (enclosed kind field start opening closing (Text.bytes inside) between).EnclosedBy source
      opening closing := by
  refine ⟨⟨inside, delimits_enclosed stands⟩, fun child member => ?_⟩
  obtain ⟨isChild, named⟩ := List.mem_filter.1 member
  obtain ⟨own, isOwn, isFirst, rfl⟩ := @exists_of_mem_giveAll kind child
    (sign start opening :: between
      ++ [sign (start + Text.bytes opening + Text.bytes inside) closing]) isChild
  rw [span_give]
  rw [isNamed_give] at named
  rcases List.mem_append.1 isOwn with inFront | isLast
  · rcases List.mem_cons.1 inFront with rfl | inBetween
    · cases named
    · obtain ⟨begins, ends⟩ := row.inOrder.within own.span (List.mem_map_of_mem inBetween)
      exact ⟨begins, Nat.add_le_add_right ends _⟩
  · rw [List.mem_singleton.1 isLast] at named
    cases named

/-- A node with two delimiters is lawful if these make it complete. -/
theorem lawful_enclosed (complete : ∀ node : SyntaxNode, node.kind = kind →
      node.EnclosedBy source opening closing → node.IsComplete source) :
    (enclosed kind field start opening closing (Text.bytes inside) between).Lawful source := by
  have first := row_sign stands.front
  have last := row_sign stands.back.back
  exact lawful_mk_iff.2 ⟨⟨_, delimits_enclosed stands⟩,
    row_giveAll ((first.append row).append last), complete _ rfl (enclosedBy_enclosed stands row)⟩

end Enclosed

/-- An element is lawful if its tags are, and what it holds stands in a row between them. -/
theorem lawful_element {text : Text} {opening closing : SyntaxNode} {content : List SyntaxNode}
    (stands : Text.StandsAt source start text) (lawfulOpening : opening.Lawful source)
    (kindOpening : opening.kind = .jsxOpening) (openField : opening.field = some .openTag)
    (first : opening.span.start = start)
    (row : Row source opening.span.stop closing.span.start content)
    (lawfulClosing : closing.Lawful source) (kindClosing : closing.kind = .jsxClosing)
    (closeField : closing.field = some .closeTag)
    (last : closing.span.stop = start + Text.bytes text)
    (others : ∀ child ∈ content, child.field = none) :
    (inner .jsxElement none ⟨start, start + Text.bytes text⟩
      (opening :: content ++ [closing])).Lawful source := by
  have whole := ((Row.singleton lawfulOpening).append row).append (Row.singleton lawfulClosing)
  rw [first, last] at whole
  refine lawful_inner stands whole ⟨fun _ => ?_, ?_, ?_, ?_, ?_⟩
  · refine ⟨give .jsxElement true opening, content.map (give .jsxElement false),
      give .jsxElement false closing, ?_, ?_, field_give openField, ?_, ?_, field_give closeField,
      ?_, ?_⟩
    · show giveAll .jsxElement (opening :: content ++ [closing]) = _
      simp [giveAll]
    · rw [kind_give, kindOpening]
    · rw [span_give, first]
      rfl
    · rw [kind_give, kindClosing]
    · rw [span_give, last]
      rfl
    · intro child member
      obtain ⟨own, isOwn, rfl⟩ := List.mem_map.1 member
      have fieldEq := others own isOwn
      cases own with
      | mk info below =>
        have none : info.field = none := fieldEq
        show info.field.or (role .jsxElement info.kind false) ≠ _
        rw [none]
        simp [role]
  all_goals
    intro kindEq
    cases kindEq

/-! ## Trivia and names -/

theorem Trivia.row_concrete {trivia : Trivia}
    (stands : Text.StandsAt source start trivia.spell) :
    Row source start (start + Text.bytes trivia.spell) (trivia.concrete start) := by
  cases trivia with
  | space => exact .nil (Nat.le_add_right _ _)
  | line => exact row_leaf stands rfl
  | block => exact row_leaf stands rfl
  | hidden => exact row_leaf stands rfl

theorem Trivia.row_concreteAll {pieces : List Trivia}
    (stands : Text.StandsAt source start (Trivia.spellAll pieces)) :
    Row source start (start + Text.bytes (Trivia.spellAll pieces))
      (Trivia.concreteAll start pieces) := by
  induction pieces generalizing start with
  | nil => exact .nil (Nat.le_add_right _ _)
  | cons first rest inductionHypothesis =>
    have spelled : Trivia.spellAll (first :: rest) = first.spell ++ Trivia.spellAll rest :=
      List.flatMap_cons
    rw [spelled] at stands ⊢
    rw [Text.bytes_append, ← Nat.add_assoc]
    exact (Trivia.row_concrete stands.front).append (inductionHypothesis stands.back)

/-- The parts of a name with trivia around a sign stand one behind the other. -/
theorem Trivia.stands_around {left right : Text} {before after : List Trivia} {sign : Char}
    (short : sign.utf8Size = 1)
    (stands : Text.StandsAt source start
      (left ++ Trivia.spellAll before ++ sign :: (Trivia.spellAll after ++ right))) :
    Text.StandsAt source start left
      ∧ Text.StandsAt source (start + Text.bytes left) (Trivia.spellAll before)
      ∧ Text.StandsAt source (start + Text.bytes left + Text.bytes (Trivia.spellAll before)) [sign]
      ∧ Text.StandsAt source (start + Text.bytes left + Text.bytes (Trivia.spellAll before) + 1)
        (Trivia.spellAll after)
      ∧ Text.StandsAt source (start + Text.bytes left + Text.bytes (Trivia.spellAll before) + 1
        + Text.bytes (Trivia.spellAll after)) right := by
  have size : Text.bytes [sign] = 1 := by rw [Text.bytes_cons, short, Text.bytes_nil]
  have spelled : left ++ Trivia.spellAll before ++ sign :: (Trivia.spellAll after ++ right)
      = left ++ (Trivia.spellAll before ++ ([sign] ++ (Trivia.spellAll after ++ right))) := by
    simp
  rw [spelled] at stands
  have behind := stands.back.back.back
  rw [size] at behind
  exact ⟨stands.front, stands.back.front, stands.back.back.front, behind.front, behind.back⟩

/-- What a name with trivia around a sign becomes stands where it does. -/
theorem Trivia.row_around {left right : Text} {before after : List Trivia} {sign : Char}
    {first last : SyntaxNode} (short : sign.utf8Size = 1)
    (stands : Text.StandsAt source start
      (left ++ Trivia.spellAll before ++ sign :: (Trivia.spellAll after ++ right)))
    (inFirst : Row source start (start + Text.bytes left) [first])
    (inLast : Row source (start + Text.bytes left + Text.bytes (Trivia.spellAll before) + 1
      + Text.bytes (Trivia.spellAll after)) (start + Text.bytes
        (left ++ Trivia.spellAll before ++ sign :: (Trivia.spellAll after ++ right))) [last]) :
    Row source start (start + Text.bytes
        (left ++ Trivia.spellAll before ++ sign :: (Trivia.spellAll after ++ right)))
      (first :: Trivia.concreteAll (start + Text.bytes left) before
        ++ Grammar.sign (start + Text.bytes left + Text.bytes (Trivia.spellAll before)) [sign]
          :: Trivia.concreteAll
            (start + Text.bytes left + Text.bytes (Trivia.spellAll before) + 1) after
        ++ [last]) := by
  have size : Text.bytes [sign] = 1 := by rw [Text.bytes_cons, short, Text.bytes_nil]
  obtain ⟨-, inFront, here, behind, -⟩ := Trivia.stands_around short stands
  have rowSign := row_sign here
  rw [size] at rowSign
  exact ((inFirst.append (Trivia.row_concreteAll inFront)).append
    (rowSign.append (Trivia.row_concreteAll behind))).append inLast

theorem Trivia.stop_around {left right : Text} {before after : List Trivia} {sign : Char}
    (short : sign.utf8Size = 1) :
    start + Text.bytes (left ++ Trivia.spellAll before ++ sign :: (Trivia.spellAll after ++ right))
      = start + Text.bytes left + Text.bytes (Trivia.spellAll before) + 1
        + Text.bytes (Trivia.spellAll after) + Text.bytes right := by
  simp only [Text.bytes_append, Text.bytes_cons, short]
  omega

/-- A name becomes a node that stands where the name does. -/
theorem TagName.lawful_concrete {written : TagName} {field : Option Field}
    (stands : Text.StandsAt source start written.spell) :
    (written.concrete start field).Lawful source
      ∧ (written.concrete start field).span = ⟨start, start + Text.bytes written.spell⟩ := by
  have whole : Span.Delimits ⟨start, start + Text.bytes written.spell⟩ source _ := stands
  induction written generalizing start field with
  | simple word =>
    exact ⟨@lawful_leaf source ⟨.identifier, true, false, field, ⟨start, _⟩⟩ word stands rfl, rfl⟩
  | member object before after property inductionHypothesis =>
    have stop := @Trivia.stop_around start object.spell property before after '.' rfl
    obtain ⟨inObject, -, -, -, inProperty⟩ := Trivia.stands_around rfl stands
    obtain ⟨lawful, span⟩ := @inductionHypothesis start (some .object) inObject inObject
    have first := Row.singleton lawful
    rw [span] at first
    have last := Row.singleton (@lawful_leaf source
      ⟨.propertyIdentifier, true, false, some .property, ⟨_, _⟩⟩ property inProperty rfl)
    have row := Trivia.row_around rfl stands first (by rw [stop]; exact last)
    rw [spell, stop] at whole ⊢
    rw [stop] at row
    exact ⟨lawful_mk_iff.2 ⟨⟨_, whole⟩, row, isComplete_of_other rfl⟩, rfl⟩
  | qualified space before after suffix =>
    have stop := @Trivia.stop_around start space suffix before after ':' rfl
    obtain ⟨inSpace, -, -, -, inSuffix⟩ := Trivia.stands_around rfl stands
    have first := @row_leaf source start .identifier true space inSpace rfl
    have last := @row_leaf source _ .identifier true suffix inSuffix rfl
    have row := Trivia.row_around rfl stands first (by rw [stop]; exact last)
    rw [spell, stop] at whole ⊢
    rw [stop] at row
    exact ⟨lawful_mk_iff.2 ⟨⟨_, whole⟩, row, isComplete_of_other rfl⟩, rfl⟩

/-! ## Phrases -/

namespace Phrase

variable {dialect : Dialect}

theorem field_of_mem_concrete {phrase : Phrase} {node : SyntaxNode}
    (member : node ∈ concrete start phrase) : node.field = none := by
  cases phrase with
  | gap trivia =>
    cases trivia <;> simp [concrete, Trivia.concrete] at member <;> rw [member] <;> rfl
  | name written =>
    cases written <;> simp [concrete, TagName.concrete] at member <;> rw [member] <;> rfl
  | _ =>
    simp only [concrete, List.mem_singleton] at member
    rw [member]
    rfl

theorem field_of_mem_concreteContent {content : List Phrase} {node : SyntaxNode}
    (member : node ∈ concreteContent start content) : node.field = none := by
  induction content generalizing start with
  | nil => simp only [concreteContent, List.not_mem_nil] at member
  | cons phrase rest inductionHypothesis =>
    cases phrase with
    | token text =>
      simp only [concreteContent] at member
      rcases List.mem_cons.1 member with rfl | inRest
      · rfl
      · exact inductionHypothesis inRest
    | _ =>
      simp only [concreteContent] at member
      rcases List.mem_append.1 member with own | inRest
      · exact field_of_mem_concrete own
      · exact inductionHypothesis inRest

/-- The nodes that stand between two delimiters of their own, with these. -/
def delimiters : List (Construct × Text × Text) :=
  [(.jsxOpening, ['<'], ['>']), (.jsxClosing, ['<', '/'], ['>']),
    (.jsxSelfClosing, ['<'], ['/', '>']), (.jsxExpression, ['\x7b'], ['\x7d'])]

theorem isComplete_of_enclosedBy {node : SyntaxNode} {opening closing : Text}
    (enclosedBy : node.EnclosedBy source opening closing)
    (delimits : (node.kind, opening, closing) ∈ delimiters) : node.IsComplete source := by
  simp only [delimiters, List.mem_cons, Prod.mk.injEq, List.not_mem_nil, or_false] at delimits
  rcases delimits with
    ⟨kind, rfl, rfl⟩ | ⟨kind, rfl, rfl⟩ | ⟨kind, rfl, rfl⟩ | ⟨kind, rfl, rfl⟩ <;>
    constructor <;> intro kindEq <;> rw [kind] at kindEq <;>
    first | exact enclosedBy | cases kindEq

section Delimited

variable {kind : Construct} {field : Option Field} {opening closing : Text} {inside : List Phrase}
  {between : List SyntaxNode} (delimits : (kind, opening, closing) ∈ delimiters)
  (stands : Text.StandsAt source start (opening ++ (spellAll inside ++ closing)))
  (row : Row source (start + Text.bytes opening) (start + Text.bytes opening + sizeAll inside)
    between)

include delimits stands row

/-- A node between its delimiters is lawful if what it holds stands in a row there. -/
theorem lawful_delimited :
    (enclosed kind field start opening closing (sizeAll inside) between).Lawful source := by
  rw [sizeAll_eq] at row ⊢
  exact lawful_enclosed stands row fun node kindEq enclosedBy =>
    isComplete_of_enclosedBy enclosedBy (by rw [kindEq]; exact delimits)

theorem row_delimited :
    Row source start (start + Text.bytes opening + sizeAll inside + Text.bytes closing)
      [enclosed kind field start opening closing (sizeAll inside) between] :=
  .singleton (lawful_delimited delimits stands row)

end Delimited

/-- The tags of an element and what stands between them. -/
theorem standsAt_element {opening content closing : List Phrase}
    (stands : Text.StandsAt source start (spell (.element opening content closing))) :
    Text.StandsAt source start (['<'] ++ (spellAll opening ++ ['>']))
      ∧ Text.StandsAt source (start + sizeAll opening + 2) (spellAll content)
      ∧ Text.StandsAt source (start + sizeAll opening + 2 + sizeAll content)
        (['<', '/'] ++ (spellAll closing ++ ['>'])) := by
  have spelled : spell (.element opening content closing)
      = (['<'] ++ (spellAll opening ++ ['>']))
        ++ (spellAll content ++ (['<', '/'] ++ (spellAll closing ++ ['>']))) := by
    simp [spell]
  rw [spelled] at stands
  have openingSize : start + Text.bytes (['<'] ++ (spellAll opening ++ ['>']))
      = start + sizeAll opening + 2 := by
    have sizes : Text.bytes ['<'] = 1 ∧ Text.bytes ['>'] = 1 := by decide
    simp only [Text.bytes_append, sizes, sizeAll_eq]
    omega
  have inContent := stands.back.front
  have inClosing := stands.back.back
  rw [openingSize] at inContent inClosing
  rw [← sizeAll_eq] at inClosing
  exact ⟨stands.front, inContent, inClosing⟩

/-- The nodes for an element stand in a row if those in its tags and between these do. -/
theorem row_element {opening content closing : List Phrase}
    (stands : Text.StandsAt source start (spell (.element opening content closing)))
    (rowOpening : Row source (start + 1) (start + 1 + sizeAll opening)
      (concreteAll (start + 1) opening))
    (rowContent : ∀ place, Text.StandsAt source place (spellAll content) →
      Row source place (place + sizeAll content) (concreteContent place content))
    (rowClosing : ∀ place, Text.StandsAt source place (spellAll closing) →
      Row source place (place + sizeAll closing) (concreteAll place closing)) :
    Row source start (start + size (.element opening content closing))
      (concrete start (.element opening content closing)) := by
  obtain ⟨standsOpening, standsContent, standsClosing⟩ := standsAt_element stands
  have ownOpening := @lawful_delimited _ _ .jsxOpening (some .openTag) _ _ _ _
    (by simp [delimiters]) standsOpening rowOpening
  have ownClosing := @lawful_delimited _ _ .jsxClosing (some .closeTag) _ _ _ _
    (by simp [delimiters]) standsClosing (rowClosing _ standsClosing.back.front)
  have begins : (enclosed .jsxOpening (some .openTag) start ['<'] ['>'] (sizeAll opening)
      (concreteAll (start + 1) opening)).span.stop = start + sizeAll opening + 2 := by
    show start + 1 + sizeAll opening + 1 = _
    omega
  have ends : (enclosed .jsxClosing (some .closeTag)
      (start + sizeAll opening + 2 + sizeAll content) ['<', '/'] ['>'] (sizeAll closing)
      (concreteAll (start + sizeAll opening + 2 + sizeAll content + 2) closing)).span.stop
        = start + Text.bytes (spell (.element opening content closing)) := by
    rw [← size_eq, size]
    show start + sizeAll opening + 2 + sizeAll content + 2 + sizeAll closing + 1 = _
    omega
  have own := lawful_element stands ownOpening rfl rfl rfl
    (by rw [begins]; exact rowContent _ standsContent) ownClosing rfl rfl ends
    fun child member => field_of_mem_concreteContent member
  have stop : start + size (.element opening content closing)
      = start + sizeAll opening + 2 + sizeAll content + sizeAll closing + 3 := by
    simp only [size]
    omega
  rw [← size_eq, stop] at own
  rw [stop]
  exact .singleton own

mutual
/-- The nodes for a phrase are lawful and stand where the phrase does. -/
theorem row_concrete (start : Nat) (phrase : Phrase)
    (stands : Text.StandsAt source start phrase.spell) (sound : phrase.WellFormed dialect) :
    Row source start (start + phrase.size) (concrete start phrase) := by
  cases phrase with
  | token text =>
    simp only [concrete, size]
    exact row_sign stands
  | gap trivia =>
    simp only [concrete, size]
    exact Trivia.row_concrete stands
  | name written =>
    obtain ⟨lawful, span⟩ := @TagName.lawful_concrete _ _ _ none stands
    have row := Row.singleton lawful
    rw [span] at row
    simp only [concrete, size]
    exact row
  | quoted text =>
    simp only [concrete, size]
    exact row_leaf stands rfl
  | construct kind parts =>
    cases sound with
    | construct plain _ _ inside =>
      simp only [spell] at stands
      have row := row_concreteAll start parts stands inside
      simp only [concrete, size]
      rw [sizeAll_eq] at row ⊢
      exact .singleton (lawful_inner stands row
        (isComplete_of_other (Construct.isDelimited_of_isPlain plain)))
  | attr parts =>
    cases sound with
    | attr _ inside =>
      simp only [spell] at stands
      have row := row_concreteAll start parts stands inside
      simp only [concrete, size]
      rw [sizeAll_eq] at row ⊢
      exact .singleton (lawful_inner stands row (isComplete_of_other rfl))
  | container inside =>
    cases sound with
    | container _ sound =>
      simp only [spell] at stands
      have row := row_concreteAll (start + 1) inside stands.tail.front sound
      simp only [concrete, size]
      exact @row_delimited _ _ .jsxExpression none ['\x7b'] ['\x7d'] _ _ (by simp [delimiters])
        stands row |>.mono (Nat.le_refl _) (by show start + 1 + _ + 1 ≤ _; omega)
  | selfClosing inside =>
    cases sound with
    | selfClosing _ sound =>
      simp only [spell] at stands
      have row := row_concreteAll (start + 1) inside stands.tail.front sound
      simp only [concrete, size]
      exact @row_delimited _ _ .jsxSelfClosing none ['<'] ['/', '>'] _ _ (by simp [delimiters])
        stands row |>.mono (Nat.le_refl _) (by show start + 1 + _ + 2 ≤ _; omega)
  | element opening content closing =>
    cases sound with
    | element _ inOpening inContent inClosing _ =>
      have standsOpening := stands
      simp only [spell] at standsOpening
      exact row_element stands
        (row_concreteAll (start + 1) opening standsOpening.tail.front inOpening)
        (fun place standsContent => row_concreteContent place content standsContent inContent)
        fun place standsClosing => row_concreteAll place closing standsClosing inClosing

/-- The nodes for phrases in a row stand one behind the other. -/
theorem row_concreteAll (start : Nat) (phrases : List Phrase)
    (stands : Text.StandsAt source start (spellAll phrases))
    (sound : ∀ phrase ∈ phrases, phrase.WellFormed dialect) :
    Row source start (start + sizeAll phrases) (concreteAll start phrases) := by
  cases phrases with
  | nil => exact .nil (Nat.le_add_right _ _)
  | cons phrase rest =>
    rw [spellAll_cons] at stands
    have behind := stands.back
    rw [← size_eq] at behind
    simp only [concreteAll, sizeAll]
    rw [← Nat.add_assoc]
    exact (row_concrete start phrase stands.front (sound phrase List.mem_cons_self)).append
      (row_concreteAll _ rest behind fun phrase member =>
        sound phrase (List.mem_cons_of_mem _ member))

theorem row_concreteContent (start : Nat) (content : List Phrase)
    (stands : Text.StandsAt source start (spellAll content))
    (sound : ∀ phrase ∈ content, phrase.WellFormed dialect) :
    Row source start (start + sizeAll content) (concreteContent start content) := by
  cases content with
  | nil => exact .nil (Nat.le_add_right _ _)
  | cons phrase rest =>
    rw [spellAll_cons] at stands
    have own := row_concrete start phrase stands.front (sound phrase List.mem_cons_self)
    have behind := stands.back
    rw [← size_eq] at behind
    have others := row_concreteContent _ rest behind
      fun phrase member => sound phrase (List.mem_cons_of_mem _ member)
    simp only [sizeAll]
    rw [← Nat.add_assoc]
    cases phrase with
    | token text =>
      simp only [size] at others ⊢
      simp only [concreteContent]
      exact (row_leaf stands.front rfl).append others
    | _ =>
      simp only [concreteContent]
      exact own.append others
end

end Phrase

/-! ## Whole sources -/

/-- The concrete tree of a source stands in it, and is complete if it can be read. -/
theorem lawful_concrete (dialect : Dialect) (source : Text) :
    (concrete dialect source).Lawful source := by
  have whole : Text.StandsAt source 0 source := .whole source
  have wholeSpan : ∃ piece, Span.Delimits ⟨0, Text.bytes source⟩ source piece :=
    ⟨source, Text.slice?_whole source⟩
  unfold concrete
  cases read : phrases? dialect source with
  | some phrases =>
    have spelled := spellAll_of_phrases? read
    have stands : Text.StandsAt source 0 (Phrase.spellAll phrases) := by
      rw [spelled]
      exact whole
    have row := Phrase.row_concreteAll 0 phrases stands (wellFormed_of_phrases? read)
    rw [Phrase.sizeAll_eq, spelled, Nat.zero_add] at row
    exact lawful_mk_iff.2 ⟨wholeSpan, row, isComplete_of_other rfl⟩
  | none =>
    have row := @row_leaf source 0 .error true source whole rfl
    rw [Nat.zero_add] at row
    exact lawful_mk_iff.2 ⟨wholeSpan, row, isComplete_of_other rfl⟩

end Grammar

/-- The parser of this library's own grammar is lawful. -/
scoped instance Scripts.lawfulParser : @LawfulSyntaxParser Scripts.parser :=
  @LawfulSyntaxParser.mk Scripts.parser
    (fun {dialect source root} parsed => by
      obtain rfl : Grammar.concrete dialect source = root := Option.some.inj parsed
      exact (Grammar.lawful_concrete dialect source).stands)
    (fun {dialect source root} parsed _ => by
      obtain rfl : Grammar.concrete dialect source = root := Option.some.inj parsed
      exact (Grammar.lawful_concrete dialect source).complete)

end FragmentLint
