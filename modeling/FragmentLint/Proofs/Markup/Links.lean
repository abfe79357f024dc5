import FragmentLint.Proofs.Markup.Guarantees

/-!
Contract: chains of calls and members in a concrete tree, and which of them are optional.

A chain begins with a name or with parentheses and goes on by links: a member by its name or by an
index, or a call, each of them written with `?.` or without. In JavaScript `?.` is always a node of
its own; in TSX the one of an optional call is a plain sign, and makes no chain. So an expression
that is a chain and ends in a call is an optional chain if and only if one of its links makes it one
(`expressionKind_of_links?`).

Owns: chains and their links, and what is asked of a parser about them (`MarksChains`).
Does not own: template calls and imports.
-/

namespace FragmentLint

/-- How a chain goes on: by a member with a name or an index, or by a call. -/
inductive Step where
  | member
  | index
  | call
deriving DecidableEq, Repr

/-- A link of a chain, and whether it is written with `?.`. -/
structure Link where
  step : Step
  isOptional : Bool
deriving DecidableEq, Repr

namespace Link

/-- The six forms of a link. -/
def forms : List Link :=
  [⟨.member, false⟩, ⟨.member, true⟩, ⟨.index, false⟩, ⟨.index, true⟩, ⟨.call, false⟩,
    ⟨.call, true⟩]

/-- Whether a link makes an optional chain of the call that it belongs to. -/
def makesChain (dialect : Dialect) (link : Link) : Bool :=
  link.isOptional && !(dialect == .tsx && link.step == .call)

/-- A link makes a chain if one is written with `?.`, unless the only such ones are optional calls in
TSX. -/
theorem any_makesChain_iff (dialect : Dialect) (links : List Link) :
    links.any (·.makesChain dialect) = links.any (·.isOptional)
      ↔ dialect = .javascript ∨ (∀ link ∈ links, link.isOptional = false)
        ∨ ∃ link ∈ links, link.isOptional = true ∧ link.step ≠ .call := by
  cases dialect with
  | javascript =>
    have plain (link : Link) : link.makesChain .javascript = link.isOptional := Bool.and_true _
    simp [plain]
  | tsx =>
    have tsx (link : Link) :
        link.makesChain .tsx = true ↔ link.isOptional = true ∧ link.step ≠ .call := by
      simp [Link.makesChain]
    constructor
    · intro same
      by_cases optional : links.any (·.isOptional) = true
      · rw [optional, List.any_eq_true] at same
        obtain ⟨link, member, makes⟩ := same
        exact .inr (.inr ⟨link, member, (tsx link).1 makes⟩)
      · refine .inr (.inl fun link member => ?_)
        exact Bool.eq_false_iff.2 (List.any_eq_false.1 (Bool.eq_false_iff.2 optional) link member)
    · rintro (⟨⟨⟩⟩ | none | ⟨link, member, makes⟩)
      · have unmarked : links.any (·.makesChain .tsx) = false :=
          List.any_eq_false.2 fun link member => by simp [tsx, none link member]
        have plain : links.any (·.isOptional) = false :=
          List.any_eq_false.2 fun link member => by simp [none link member]
        rw [unmarked, plain]
      · rw [List.any_eq_true.2 ⟨link, member, (tsx link).2 makes⟩,
          List.any_eq_true.2 ⟨link, member, makes.1⟩]

end Link

namespace SyntaxNode

variable {dialect : Dialect} {source : Text} {node : SyntaxNode} {links : List Link}

/-! ## Chains in a concrete tree -/

/-- Whether a child of a link is `?.`, as a plain sign or as a node of its own. -/
def isMark (source : Text) (child : SyntaxNode) : Bool :=
  (child.kind == .optionalChain || !child.isNamed)
    && Text.slice? source child.span.start child.span.stop == some "?.".toList

/-- Whether a node is one that a chain begins with: a name or parentheses. -/
def isBase (node : SyntaxNode) : Bool :=
  node.kind == .identifier || node.kind == .undefined || node.kind == .parenthesized

/-- How the chain goes on to a node, if it is a member or a call with arguments. -/
def step? (node : SyntaxNode) : Option Step :=
  if node.kind == .member then some .member
  else if node.kind == .subscript then some .index
  else if node.kind == .call && (node.childByField? .arguments).any (·.kind == .arguments) then
    some .call
  else none

/-- The links of the chain that a node is, if it is one. Those in parentheses, in arguments and in
an index are none of them. -/
def links? (source : Text) (node : SyntaxNode) : Option (List Link) :=
  if node.isBase then some []
  else
    match node.step?, _ : node.chainHead? with
    | some step, some head =>
      (links? source head).map (· ++ [⟨step, node.children.any (isMark source)⟩])
    | _, _ => none
termination_by node.count
decreasing_by exact count_lt_of_mem (mem_of_chainHead? ‹_›)

/-- Whether the marks among the children of a node that a chain begins with or goes on by are as a
dialect has them: `?.` is a node of its own, but in a call of TSX it is a plain sign. -/
structure MarksChains (dialect : Dialect) (source : Text) (node : SyntaxNode) : Prop where
  written : ∀ child ∈ node.children, child.kind = .optionalChain →
    child.isNamed = true ∧ child.isMark source = true
  role : ∀ child ∈ node.children, child.field = some .optionalChain → child.kind = .optionalChain
  base : node.isBase = true → ∀ child ∈ node.children, child.kind ≠ .optionalChain
  own : node.kind = .member ∨ node.kind = .subscript ∨ node.kind = .call ∧ dialect = .javascript →
    ∀ child ∈ node.children, child.isMark source = true → child.kind = .optionalChain
  sign : node.kind = .call → dialect = .tsx → ∀ child ∈ node.children, child.kind ≠ .optionalChain

/-- Whether a chain begins with a node or goes on by it. -/
def isChained (node : SyntaxNode) : Bool :=
  node.isBase || node.kind == .member || node.kind == .subscript || node.kind == .call

/-- The lowering looks for nodes that are marks. -/
theorem MarksChains.hasChainMark_iff (marks : node.MarksChains dialect source) :
    node.hasChainMark = true ↔ ∃ child ∈ node.children, child.kind = .optionalChain := by
  unfold hasChainMark
  rw [Bool.or_eq_true, childByField?, childOfKind?, namedChildren, List.find?_isSome,
    List.find?_isSome]
  constructor
  · rintro (⟨child, member, role⟩ | ⟨child, member, kind⟩)
    · exact ⟨child, member, marks.role child member (by simpa using role)⟩
    · exact ⟨child, (List.mem_filter.1 member).1, by simpa using kind⟩
  · rintro ⟨child, member, kind⟩
    have named := (marks.written child member kind).1
    exact .inr ⟨child, List.mem_filter.2 ⟨member, named⟩, by simpa using kind⟩

theorem MarksChains.hasChainMark_of_isBase (marks : node.MarksChains dialect source)
    (isBase : node.isBase = true) : node.hasChainMark = false := by
  rw [Bool.eq_false_iff, ne_eq, marks.hasChainMark_iff]
  rintro ⟨child, member, kind⟩
  exact marks.base isBase child member kind

theorem kind_of_step? {step : Step} (isStep : node.step? = some step) :
    (step = .member ∧ node.kind = .member) ∨ (step = .index ∧ node.kind = .subscript)
      ∨ step = .call ∧ node.kind = .call
        ∧ (node.childByField? .arguments).any (·.kind == .arguments) = true := by
  unfold step? at isStep
  split at isStep
  next kind => exact .inl ⟨(Option.some.inj isStep).symm, by simpa using kind⟩
  next =>
    split at isStep
    next kind => exact .inr (.inl ⟨(Option.some.inj isStep).symm, by simpa using kind⟩)
    next =>
      split at isStep
      next call =>
        obtain ⟨kind, applied⟩ := Bool.and_eq_true_iff.1 call
        exact .inr (.inr ⟨(Option.some.inj isStep).symm, by simpa using kind, applied⟩)
      next => cases isStep

/-- A link has a node for its mark if it makes a chain. -/
theorem MarksChains.hasChainMark_of_step? (marks : node.MarksChains dialect source) {step : Step}
    (isStep : node.step? = some step) :
    node.hasChainMark = Link.makesChain dialect ⟨step, node.children.any (isMark source)⟩ := by
  have own (isOwn : node.kind = .member ∨ node.kind = .subscript
      ∨ node.kind = .call ∧ dialect = .javascript) :
      node.hasChainMark = node.children.any (isMark source) := by
    rw [Bool.eq_iff_iff, marks.hasChainMark_iff, List.any_eq_true]
    constructor
    · rintro ⟨child, member, kind⟩
      exact ⟨child, member, (marks.written child member kind).2⟩
    · rintro ⟨child, member, isMark⟩
      exact ⟨child, member, marks.own isOwn child member isMark⟩
  rcases kind_of_step? isStep with ⟨rfl, kind⟩ | ⟨rfl, kind⟩ | ⟨rfl, kind, -⟩
  · rw [own (.inl kind)]
    simp [Link.makesChain]
  · rw [own (.inr (.inl kind))]
    simp [Link.makesChain]
  · cases dialect with
    | javascript =>
      rw [own (.inr (.inr ⟨kind, rfl⟩))]
      simp [Link.makesChain]
    | tsx =>
      have noMark : node.hasChainMark = false := by
        rw [Bool.eq_false_iff, ne_eq, marks.hasChainMark_iff]
        rintro ⟨child, member, isMark⟩
        exact marks.sign kind rfl child member isMark
      rw [noMark]
      simp [Link.makesChain]

theorem isChained_of_links? (found : node.links? source = some links) : node.isChained = true := by
  unfold links? at found
  split at found
  next isBase => simp [isChained, isBase]
  next =>
    split at found
    next isStep _ =>
      rcases kind_of_step? isStep with ⟨-, kind⟩ | ⟨-, kind⟩ | ⟨-, kind, -⟩ <;>
        simp [isChained, kind]
    next => cases found

theorem chainHead?_of_isBase (isBase : node.isBase = true) : node.chainHead? = none := by
  simp only [SyntaxNode.isBase, Bool.or_eq_true, beq_iff_eq] at isBase
  unfold chainHead?
  rcases isBase with (kind | kind) | kind <;> rw [kind] <;> rfl

/-- The nodes for marks along a chain are those of the links that make it optional. -/
theorem isInOptionalChain_of_links? {node : SyntaxNode} {links : List Link}
    (marks : ∀ part ∈ node.parts, part.isChained = true → part.MarksChains dialect source)
    (found : node.links? source = some links) :
    node.isInOptionalChain = links.any (·.makesChain dialect) := by
  have own := marks node node.mem_parts_self (isChained_of_links? found)
  unfold links? at found
  unfold isInOptionalChain
  split at found
  next isBase =>
    obtain rfl := Option.some.inj found
    rw [own.hasChainMark_of_isBase isBase, chainHead?_of_isBase isBase]
    rfl
  next =>
    split at found
    next step head isStep isHead =>
      obtain ⟨before, inHead, rfl⟩ := Option.map_eq_some_iff.1 found
      have isChild := mem_of_chainHead? isHead
      have smaller := count_lt_of_mem isChild
      have others := isInOptionalChain_of_links?
        (fun part below => marks part (mem_parts_trans below (mem_parts_of_mem_children isChild)))
        inHead
      rw [own.hasChainMark_of_step? isStep, List.any_append, ← others]
      cases makes : Link.makesChain dialect ⟨step, node.children.any (isMark source)⟩ with
      | true => simp [makes]
      | false =>
        simp only [Bool.false_eq_true, if_false, List.any_cons, List.any_nil, makes, Bool.or_false]
        split
        next other isOther =>
          obtain rfl := Option.some.inj (isHead.symm.trans isOther)
          rfl
        next none =>
          rw [isHead] at none
          cases none
    next => cases found
termination_by node.count

/-- A chain that ends in a call is an optional chain or a plain call. -/
theorem expressionKind_of_links?
    (marks : ∀ part ∈ node.parts, part.isChained = true → part.MarksChains dialect source)
    (found : node.links? source = some links) (ends : links.getLast?.map (·.step) = some .call) :
    node.kind = .call
      ∧ node.expressionKind
        = if links.any (·.makesChain dialect) then .unlisted "chain_expression" else .call := by
  have isOptional := isInOptionalChain_of_links? marks found
  unfold links? at found
  split at found
  next =>
    obtain rfl := Option.some.inj found
    cases ends
  next =>
    split at found
    next step head isStep isHead =>
      obtain ⟨before, inHead, rfl⟩ := Option.map_eq_some_iff.1 found
      rw [List.getLast?_concat, Option.map_some] at ends
      obtain rfl := Option.some.inj ends
      rcases kind_of_step? isStep with ⟨⟨⟩, -⟩ | ⟨⟨⟩, -⟩ | ⟨-, kind, applied⟩
      have function : node.childByField? .function = some head := by
        rw [← isHead, chainHead?, kind]
        rfl
      have noImport : (head.kind == .importWord) = false := by
        have chained := isChained_of_links? inHead
        rw [beq_eq_false_iff_ne]
        intro isImport
        rw [isChained, isBase, isImport] at chained
        cases chained
      have noTemplate : node.arguments?.any (·.kind == .templateString) = false := by
        obtain ⟨given, isGiven, arguments⟩ := (Option.any_eq_true _ _).1 applied
        rw [arguments?, isGiven, Option.some_or, Option.any_some, eq_of_beq arguments]
        rfl
      refine ⟨kind, ?_⟩
      rw [expressionKind, noTemplate, function, Option.any_some, noImport, isOptional, kind]
      rfl
    next => cases found

end SyntaxNode

/-- A parser that writes the marks of optional chains as the grammar of each dialect does. -/
class LawfulChains [SyntaxParser] : Prop where
  marksChains {dialect : Dialect} {source : Text} {root : SyntaxNode}
    (parsed : SyntaxParser.parse? dialect source = some root) (sound : root.hasError = false) :
    ∀ node ∈ root.parts, node.isChained = true → node.MarksChains dialect source

end FragmentLint
