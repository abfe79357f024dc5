import FragmentLint.Proofs.Markup.Numbering
import FragmentLint.Proofs.Markup.OfSyntax

/-!
Contract: the tree of an accepted source records its markup.

Its nodes are the numbered forms of outlines that stand in the source where they say. Main
statement: `exists_records`.
-/

namespace FragmentLint

open Grammar

namespace Outline

variable {source : Text} {outline : Outline}

theorem Placed.aside (placed : Placed source outline) :
    ∀ root ∈ outline.aside, Placed source root := by
  cases placed with
  | text => simp [Outline.aside]
  | empty => simp [Outline.aside]
  | other _ _ rootsPlaced => exact rootsPlaced
  | container => simp [Outline.aside]
  | tagged _ _ _ asidePlaced => exact asidePlaced
  | root => simp [Outline.aside]

theorem Placed.children (placed : Placed source outline) :
    ∀ child ∈ outline.children, Placed source child := by
  cases placed with
  | text => simp [Outline.children]
  | empty => simp [Outline.children]
  | other => simp [Outline.children]
  | container _ _ _ _ expressionPlaced =>
    intro child member
    rw [List.mem_singleton.1 member]
    exact expressionPlaced
  | tagged _ _ _ _ _ _ _ childrenPlaced => exact childrenPlaced
  | root _ _ _ _ _ foundPlaced =>
    intro child member
    rw [List.mem_singleton.1 member]
    exact foundPlaced

/-- Everything in placed outlines is placed. -/
theorem placed_entriesAll (parent : Option NodeKind) (outlines : List Outline)
    (placed : ∀ outline ∈ outlines, Placed source outline) :
    ∀ entry ∈ entriesAll parent outlines, Placed source entry.outline := by
  have handedOn : HandedOn fun _ outline => Placed source outline :=
    ⟨fun _ _ own => own.aside, fun _ _ own => own.children⟩
  exact handedOn.entriesAll parent outlines placed

mutual
theorem source_pushTo (tree : Tree) (parent : Option Nat) (outline : Outline) :
    (pushTo tree parent outline).source = tree.source
      ∧ (pushTo tree parent outline).comments = tree.comments := by
  cases outline with
  | node kind span aside children =>
    simp only [pushTo]
    have withAside := source_pushAll (tree.push kind span parent).1 none aside
    have withChildren := source_pushAll (pushAll (tree.push kind span parent).1 none aside)
      (some tree.size) children
    rw [withAside.1, withAside.2] at withChildren
    exact withChildren

theorem source_pushAll (tree : Tree) (parent : Option Nat) (outlines : List Outline) :
    (pushAll tree parent outlines).source = tree.source
      ∧ (pushAll tree parent outlines).comments = tree.comments := by
  cases outlines with
  | nil =>
    simp only [pushAll, and_self]
  | cons head rest =>
    simp only [pushAll]
    have first := source_pushTo tree parent head
    have others := source_pushAll (pushTo tree parent head) parent rest
    rw [first.1, first.2] at others
    exact others
end

end Outline

namespace Tree

/-- Whether the nodes of a tree are the numbered forms of outlines that stand in its source where
they say. -/
structure Records (tree : Tree) (all : List Entry) : Prop where
  lists : tree.Lists all
  placed : ∀ entry ∈ all, entry.outline.Placed tree.source

variable {source : Text} {root : SyntaxNode}

theorem source_ofSyntax (source : Text) (root : SyntaxNode) :
    (ofSyntax source root).source = source :=
  (Outline.source_pushAll _ none (Outline.roots source [] root)).1

theorem comments_ofSyntax (source : Text) (root : SyntaxNode) :
    (ofSyntax source root).comments = root.comments.map (Comment.ofNode source) :=
  (Outline.source_pushAll _ none (Outline.roots source [] root)).2

/-- The tree of a concrete tree records the markup in it. -/
theorem records_ofSyntax (lawful : root.Lawful source) :
    (ofSyntax source root).Records (Outline.entriesAll none (Outline.roots source [] root)) := by
  have rooted := Outline.rooted_roots lawful
  refine ⟨lists_pushAll source (root.comments.map (Comment.ofNode source))
    (Outline.roots source [] root), ?_⟩
  rw [source_ofSyntax]
  exact Outline.placed_entriesAll none (Outline.roots source [] root)
    fun root member => (rooted root member).2

section Parser

variable [SyntaxParser] [LawfulSyntaxParser] {dialect : Dialect} {tree : Tree}

theorem source_ofSource (accepted : ofSource dialect source = .ok tree) : tree.source = source := by
  obtain ⟨root, -, -, rfl⟩ := ofSource_eq_ok_iff.1 accepted
  exact source_ofSyntax source root

/-- The tree of an accepted source records its markup. -/
theorem exists_records (accepted : ofSource dialect source = .ok tree) :
    ∃ all, tree.Records all := by
  obtain ⟨root, parsed, sound, rfl⟩ := ofSource_eq_ok_iff.1 accepted
  exact ⟨_, records_ofSyntax (LawfulSyntaxParser.lawful parsed sound)⟩

end Parser

end Tree

end FragmentLint
