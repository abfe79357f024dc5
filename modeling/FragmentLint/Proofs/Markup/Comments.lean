import FragmentLint.Proofs.Markup.Lowered
import FragmentLint.Proofs.Text.Layout

/-!
Contract: the comments of a source are nodes of its concrete tree, one behind the other.

The order in which the stack hands them out is that of the places where they stand
(`inOrder_comments`). What comments look like and where there are none is guaranteed of a parser on
its own (`LawfulComments`): they are tokens, there are none in the text between two tags and in
literals, and in braces there is white space and comments in front of what else stands there. So
braces hold no expression if and only if what stands in them is layout (`isLayout_iff_of_braces`).

Owns: `KeepsComments`, which is asked for beside the guarantees that all results rest on.
-/

namespace FragmentLint

namespace SyntaxNode

variable {source : Text}

mutual
/-- A comment in a tree is one of its nodes. -/
theorem mem_comments (node : SyntaxNode) :
    ∀ comment ∈ node.comments, comment ∈ node.parts ∧ comment.kind = .comment := by
  cases node with
  | mk info children =>
    intro comment member
    rw [comments] at member
    split at member
    · rename_i isComment
      rw [List.mem_singleton.1 member]
      exact ⟨mem_parts_self _, eq_of_beq isComment⟩
    · obtain ⟨child, isChild, inChild, kind⟩ := mem_commentsOfAll children comment member
      exact ⟨mem_parts_iff.2 (Or.inr ⟨child, isChild, inChild⟩), kind⟩

theorem mem_commentsOfAll (nodes : List SyntaxNode) :
    ∀ comment ∈ commentsOfAll nodes,
      ∃ node ∈ nodes, comment ∈ node.parts ∧ comment.kind = .comment := by
  cases nodes with
  | nil =>
    intro comment member
    simp only [commentsOfAll, List.not_mem_nil] at member
  | cons first rest =>
    intro comment member
    rw [commentsOfAll] at member
    rcases List.mem_append.1 member with inFirst | inRest
    · exact ⟨first, List.mem_cons_self, mem_comments first comment inFirst⟩
    · obtain ⟨node, isNode, inNode⟩ := mem_commentsOfAll rest comment inRest
      exact ⟨node, List.mem_cons_of_mem _ isNode, inNode⟩
end

mutual
/-- The comments in a tree stand one behind the other. -/
theorem inOrder_comments (node : SyntaxNode) (stands : node.StandsIn source) :
    Span.InOrder node.span.start (node.comments.map (·.span)) node.span.stop := by
  cases node with
  | mk info children =>
    rw [comments]
    split
    · exact ⟨Nat.le_refl _, stands.sound.ordered, Nat.le_refl _⟩
    · exact inOrder_commentsOfAll children (fun child member => stands.child member)
        stands.childrenInOrder

theorem inOrder_commentsOfAll {start stop : Nat} (nodes : List SyntaxNode)
    (stand : ∀ node ∈ nodes, node.StandsIn source)
    (inOrder : Span.InOrder start (nodes.map (·.span)) stop) :
    Span.InOrder start ((commentsOfAll nodes).map (·.span)) stop := by
  cases nodes with
  | nil =>
    rw [commentsOfAll]
    exact inOrder
  | cons first rest =>
    obtain ⟨behind, -, others⟩ := inOrder
    have own := inOrder_comments first (stand first List.mem_cons_self)
    have later := inOrder_commentsOfAll rest
      (fun node member => stand node (List.mem_cons_of_mem _ member)) others
    rw [commentsOfAll, List.map_append]
    exact (own.mono behind (Nat.le_refl _)).append later
end

/-! ## Guarantees -/

/-- Whether a body is written as a comment at a span: behind two slashes, or between the marks of a
block. -/
inductive CommentAt (source : Text) (span : Span) (body : Text) : Prop where
  | line (delimits : span.Delimits source ('/' :: '/' :: body))
  | block (delimits : span.Delimits source ('/' :: '*' :: (body ++ ['*', '/'])))

open Grammar.Trivia (isSpace endsLine)

/-- Whether a place in braces is filled by white space and comments, and behind these by nothing or
by something that does not look like them and holds a node that is no comment. -/
inductive FillsBraces (source : Text) : Nat → List SyntaxNode → Nat → Prop where
  | blank {start stop : Nat} {run : Text} (delimits : Span.Delimits ⟨start, stop⟩ source run)
      (blank : ∀ c ∈ run, isSpace c = true) : FillsBraces source start [] stop
  /-- A line comment goes up to the end of its line. -/
  | line {start stop : Nat} {run body : Text} {node : SyntaxNode} {rest : List SyntaxNode}
      (gap : Span.Delimits ⟨start, node.span.start⟩ source run)
      (blank : ∀ c ∈ run, isSpace c = true) (isComment : node.kind = .comment)
      (delimits : node.span.Delimits source ('/' :: '/' :: body))
      (onLine : ∀ c ∈ body, endsLine c = false)
      (ends : ∀ behind, Span.Delimits ⟨node.span.stop, stop⟩ source behind →
        ∃ c ∈ behind.head?, endsLine c = true)
      (behind : FillsBraces source node.span.stop rest stop) :
      FillsBraces source start (node :: rest) stop
  /-- A block comment goes up to the first mark that closes it. -/
  | block {start stop : Nat} {run body : Text} {node : SyntaxNode} {rest : List SyntaxNode}
      (gap : Span.Delimits ⟨start, node.span.start⟩ source run)
      (blank : ∀ c ∈ run, isSpace c = true) (isComment : node.kind = .comment)
      (delimits : node.span.Delimits source ('/' :: '*' :: (body ++ ['*', '/'])))
      (unclosed : ¬ ['*', '/'] <:+: body) (behind : FillsBraces source node.span.stop rest stop) :
      FillsBraces source start (node :: rest) stop
  | expression {start stop : Nat} {run text : Text} {nodes : List SyntaxNode}
      (delimits : Span.Delimits ⟨start, stop⟩ source (run ++ text))
      (blank : ∀ c ∈ run, isSpace c = true) (standsOut : text.StandsOut)
      (holds : ∃ node ∈ nodes, node.kind ≠ .comment) : FillsBraces source start nodes stop

/-- The value of an attribute, if it is no markup and no braces. -/
def literal? (given : SyntaxNode) : Option SyntaxNode :=
  (given.namedChildren.filter (·.kind != .comment))[1]?.filter fun value =>
    !value.isMarkup && value.kind != .jsxExpression

/-- Whether the comments of a tree are kept apart from everything else. -/
structure KeepsComments (source : Text) (root : SyntaxNode) : Prop where
  tokens : ∀ node ∈ root.parts, node.kind = .comment →
    node.children = [] ∧ ∃ body, CommentAt source node.span body
  /-- Between two tags there are none but in elements and braces. -/
  texts : ∀ element ∈ root.parts, element.kind = .jsxElement → ∀ opening content closing,
    element.children = opening :: (content ++ [closing]) → ∀ child ∈ content,
      ¬ (child.isNamed && child.isStructural) = true → child.comments = []
  literals : ∀ given ∈ root.parts, given.kind = .jsxAttribute →
    ∀ value ∈ given.literal?, value.comments = []
  braces : ∀ node ∈ root.parts, node.kind = .jsxExpression →
    FillsBraces source (node.span.start + 1) node.namedChildren (node.span.stop - 1)

/-! ## Braces -/

/-- Braces take up white space in front of what fills them. -/
theorem FillsBraces.behind {start middle stop : Nat} {run : Text} {nodes : List SyntaxNode}
    (gap : Span.Delimits ⟨start, middle⟩ source run)
    (blank : ∀ c ∈ run, isSpace c = true) (fills : FillsBraces source middle nodes stop) :
    FillsBraces source start nodes stop := by
  have both {run' : Text} (blank' : ∀ c ∈ run', isSpace c = true) :
      ∀ c ∈ run ++ run', isSpace c = true :=
    fun c member => (List.mem_append.1 member).elim (blank c) (blank' c)
  cases fills with
  | blank delimits blank' => exact .blank (Text.slice?_trans gap delimits) (both blank')
  | line gap' blank' isComment delimits onLine ends behind =>
    exact .line (Text.slice?_trans gap gap') (both blank') isComment delimits onLine ends behind
  | block gap' blank' isComment delimits unclosed behind =>
    exact .block (Text.slice?_trans gap gap') (both blank') isComment delimits unclosed behind
  | @expression _ _ run' text nodes delimits blank' standsOut holds =>
    refine @FillsBraces.expression source _ _ (run ++ run') text nodes ?_ (both blank') standsOut
      holds
    rw [List.append_assoc]
    exact Text.slice?_trans gap delimits

/-- What fills braces is layout if and only if it holds nothing but comments. -/
theorem FillsBraces.isLayout_iff {start stop : Nat} {nodes : List SyntaxNode}
    (fills : FillsBraces source start nodes stop) :
    ∃ inside, Span.Delimits ⟨start, stop⟩ source inside
      ∧ (Text.IsLayout inside ↔ ∀ node ∈ nodes, node.kind = .comment) := by
  induction fills with
  | blank delimits blank =>
    exact ⟨_, delimits, iff_of_true (Text.isLayout_of_blank blank) (by simp)⟩
  | @line start stop run body node rest gap blank isComment delimits onLine ends _
      inductionHypothesis =>
    obtain ⟨inside, holds, layoutIff⟩ := inductionHypothesis
    obtain ⟨c, first, endsHere⟩ := ends inside holds
    obtain ⟨later, rfl⟩ := List.head?_eq_some_iff.1 first
    refine ⟨run ++ ('/' :: '/' :: body ++ c :: later),
      Text.slice?_trans gap (Text.slice?_trans delimits holds), ?_⟩
    rw [List.forall_mem_cons, ← layoutIff, Text.isLayout_append_iff blank]
    exact (Text.isLayout_line_iff onLine endsHere).trans (and_iff_right isComment).symm
  | @block start stop run body node rest gap blank isComment delimits unclosed _
      inductionHypothesis =>
    obtain ⟨inside, holds, layoutIff⟩ := inductionHypothesis
    refine ⟨run ++ ('/' :: '*' :: (body ++ ['*', '/']) ++ inside),
      Text.slice?_trans gap (Text.slice?_trans delimits holds), ?_⟩
    rw [List.forall_mem_cons, ← layoutIff, Text.isLayout_append_iff blank]
    have block := @Text.isLayout_block_iff body inside unclosed
    simpa [isComment] using block
  | expression delimits blank standsOut holds =>
    refine ⟨_, delimits, iff_of_false ?_ ?_⟩
    · rw [Text.isLayout_append_iff blank]
      exact standsOut.not_isLayout
    · intro comments
      obtain ⟨node, member, other⟩ := holds
      exact other (comments node member)

theorem expression?_eq_none_iff {node : SyntaxNode} :
    node.expression? = none ↔ ∀ child ∈ node.namedChildren, child.kind = .comment := by
  unfold expression?
  rw [List.find?_eq_none]
  simp

/-- Braces hold no expression if and only if white space and comments are all that stands in them.
-/
theorem isLayout_iff_of_braces {node : SyntaxNode} (lawful : node.Lawful source)
    (braces : node.kind = .jsxExpression)
    (fills : FillsBraces source (node.span.start + 1) node.namedChildren (node.span.stop - 1)) :
    ∃ inside, node.span.Delimits source ('\x7b' :: (inside ++ ['\x7d']))
      ∧ (node.expression? = none ↔ Text.IsLayout inside) := by
  obtain ⟨⟨inside, written⟩, -⟩ := lawful.isComplete.braces braces
  obtain ⟨inside', holds, layoutIff⟩ := fills.isLayout_iff
  have size : Text.bytes ['\x7b'] = 1 ∧ Text.bytes ['\x7d'] = 1 := by decide
  have inner := Text.slice?_part written
  have whole := Text.stop_of_slice? written
  simp only [Text.bytes_append, size] at whole inner
  have stop : node.span.stop - 1 = node.span.start + 1 + Text.bytes inside := by omega
  rw [stop] at holds
  have same : some inside = some inside' := inner.symm.trans holds
  obtain rfl := Option.some.inj same
  exact ⟨inside, written, expression?_eq_none_iff.trans layoutIff.symm⟩

end SyntaxNode

/-- A parser that keeps comments apart from everything else. -/
class LawfulComments [SyntaxParser] : Prop where
  keepsComments {dialect : Dialect} {source : Text} {root : SyntaxNode}
    (parsed : SyntaxParser.parse? dialect source = some root) (sound : root.hasError = false) :
    root.KeepsComments source

end FragmentLint
