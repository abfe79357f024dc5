import FragmentLint.Server.State
import Mathlib.Data.List.Pairwise
import Mathlib.Data.List.Sort

/-!
Contract: which documents are in a store.

A store keeps its documents in the strict order of their identifiers, so there is at most one
document of an identifier. Main statements: what is in a store after a document was put into it
(`mem_put`) and after one was erased (`mem_erase`), that the order is kept (`ordered_put`,
`ordered_erase`), and that a store is known by what is found in it (`Ordered.ext`).
-/

namespace FragmentLint

theorem Text.precedes_antisymm {left right : Text} (first : precedes left right = true)
    (second : precedes right left = true) : left = right := by
  fun_induction precedes left right with
  | case1 right =>
    cases right with
    | nil => rfl
    | cons c rest => simp [precedes] at second
  | case2 => simp at first
  | case3 c rest d others inductionHypothesis =>
    simp only [precedes, Bool.or_eq_true, Bool.and_eq_true, decide_eq_true_eq, beq_iff_eq]
      at first second
    rcases first with less | ⟨rfl, restFirst⟩
    · rcases second with more | ⟨rfl, -⟩
      · exact absurd more (Nat.lt_asymm less)
      · exact absurd less (Nat.lt_irrefl _)
    · rcases second with less | ⟨-, othersFirst⟩
      · exact absurd less (Nat.lt_irrefl _)
      · rw [inductionHypothesis restFirst othersFirst]

namespace Server.Store

/-- Whether one document comes before another one in a store. -/
def Before (first second : Document) : Prop :=
  Text.precedes first.uri.text second.uri.text = true ∧ first.uri.text ≠ second.uri.text

theorem Before.trans {first second third : Document} (left : Before first second)
    (right : Before second third) : Before first third := by
  refine ⟨Text.precedes_trans _ _ _ left.1 right.1, ?_⟩
  intro same
  have back : Text.precedes second.uri.text first.uri.text = true := by
    rw [same]
    exact right.1
  exact left.2 (Text.precedes_antisymm left.1 back)

/-- Whether the documents of a store are in strict order. -/
def Ordered (store : Store) : Prop := store.documents.Pairwise Before

theorem ordered_empty : Ordered empty := List.Pairwise.nil

theorem mem_putInto {new : Document} {documents : List Document}
    (ordered : documents.Pairwise Before) :
    ∀ document ∈ putInto new documents,
      document = new ∨ document ∈ documents ∧ document.uri.text ≠ new.uri.text := by
  induction documents with
  | nil =>
    intro document member
    exact Or.inl (List.mem_singleton.1 member)
  | cons head rest inductionHypothesis =>
    obtain ⟨headFirst, restOrdered⟩ := List.pairwise_cons.1 ordered
    intro document member
    unfold putInto at member
    split at member
    next same =>
      have sameText : head.uri.text = new.uri.text := by simpa using same
      rcases List.mem_cons.1 member with rfl | inRest
      · exact Or.inl rfl
      · refine Or.inr ⟨List.mem_cons_of_mem _ inRest, ?_⟩
        rw [← sameText]
        exact (headFirst document inRest).2.symm
    next different =>
      have differentText : head.uri.text ≠ new.uri.text := by simpa using different
      split at member
      next newFirst =>
        have before : Before new head := ⟨newFirst, differentText.symm⟩
        rcases List.mem_cons.1 member with rfl | inList
        · exact Or.inl rfl
        · refine Or.inr ⟨inList, ?_⟩
          rcases List.mem_cons.1 inList with rfl | inRest
          · exact differentText
          · exact (before.trans (headFirst document inRest)).2.symm
      next =>
        rcases List.mem_cons.1 member with rfl | inRest
        · exact Or.inr ⟨List.mem_cons_self, differentText⟩
        · rcases inductionHypothesis restOrdered document inRest with isNew | ⟨inOld, other⟩
          · exact Or.inl isNew
          · exact Or.inr ⟨List.mem_cons_of_mem _ inOld, other⟩

theorem ordered_putInto (new : Document) {documents : List Document}
    (ordered : documents.Pairwise Before) : (putInto new documents).Pairwise Before := by
  induction documents with
  | nil => exact List.pairwise_singleton _ _
  | cons head rest inductionHypothesis =>
    obtain ⟨headFirst, restOrdered⟩ := List.pairwise_cons.1 ordered
    unfold putInto
    split
    next same =>
      have sameText : head.uri.text = new.uri.text := by simpa using same
      refine List.pairwise_cons.2 ⟨?_, restOrdered⟩
      intro other member
      have before := headFirst other member
      unfold Before at before ⊢
      rw [← sameText]
      exact before
    next different =>
      have differentText : head.uri.text ≠ new.uri.text := by simpa using different
      split
      next newFirst =>
        have before : Before new head := ⟨newFirst, differentText.symm⟩
        refine List.pairwise_cons.2 ⟨?_, ordered⟩
        intro other member
        rcases List.mem_cons.1 member with rfl | inRest
        · exact before
        · exact before.trans (headFirst other inRest)
      next later =>
        have before : Before head new :=
          ⟨(Text.precedes_total new.uri.text head.uri.text).resolve_left later, differentText⟩
        refine List.pairwise_cons.2 ⟨?_, inductionHypothesis restOrdered⟩
        intro other member
        rcases mem_putInto restOrdered other member with rfl | ⟨inRest, -⟩
        · exact before
        · exact headFirst other inRest

variable {store : Store}

/-- What is in a store after a document was put into it. -/
theorem mem_put (ordered : store.Ordered) (new : Document) :
    ∀ document ∈ (store.put new).documents,
      document = new ∨ document ∈ store.documents ∧ document.uri.text ≠ new.uri.text :=
  mem_putInto ordered

theorem ordered_put (ordered : store.Ordered) (new : Document) : (store.put new).Ordered :=
  ordered_putInto new ordered

theorem mem_erase {uri : Uri} {document : Document} :
    document ∈ (store.erase uri).documents
      ↔ document ∈ store.documents ∧ document.uri.text ≠ uri.text := by
  unfold erase
  rw [List.mem_filter, bne_iff_ne]

/-- Erasing a document from a store keeps its order. -/
theorem ordered_erase (ordered : store.Ordered) (uri : Uri) : (store.erase uri).Ordered :=
  ordered.sublist List.filter_sublist

theorem has_iff {uri : Uri} :
    store.has uri = true ↔ ∃ document ∈ store.documents, document.uri.text = uri.text := by
  unfold has find?
  rw [List.find?_isSome]
  simp

/-- A document that is put into a store adds no other identifier. -/
theorem has_of_has_put (ordered : store.Ordered) {new : Document} {uri : Uri}
    (found : (store.put new).has uri = true) :
    store.has uri = true ∨ new.uri.text = uri.text := by
  obtain ⟨document, member, same⟩ := has_iff.1 found
  rcases mem_put ordered new document member with rfl | ⟨inStore, -⟩
  · exact Or.inr same
  · exact Or.inl (has_iff.2 ⟨document, inStore, same⟩)

/-- Erasing a document adds no identifier, and leaves none that was erased. -/
theorem has_of_has_erase {erased uri : Uri} (found : (store.erase erased).has uri = true) :
    store.has uri = true ∧ uri.text ≠ erased.text := by
  obtain ⟨document, member, same⟩ := has_iff.1 found
  obtain ⟨inStore, other⟩ := mem_erase.1 member
  rw [same] at other
  exact ⟨has_iff.2 ⟨document, inStore, same⟩, other⟩

/-- Identifiers with the same text are those of the same document. -/
theorem find?_congr {uri other : Uri} (same : other.text = uri.text) (store : Store) :
    store.find? other = store.find? uri := by
  unfold find?
  rw [same]

theorem find?_eq_some_iff (ordered : store.Ordered) {uri : Uri} {document : Document} :
    store.find? uri = some document
      ↔ document ∈ store.documents ∧ document.uri.text = uri.text := by
  constructor
  · intro found
    exact ⟨List.mem_of_find?_eq_some found, by simpa using List.find?_some found⟩
  · rintro ⟨member, same⟩
    have isOpen : store.has uri = true := has_iff.2 ⟨document, member, same⟩
    obtain ⟨other, found⟩ := Option.isSome_iff_exists.1 isOpen
    have sameToo : other.uri.text = uri.text := by simpa using List.find?_some found
    rw [found]
    -- Two documents of a store have different identifiers.
    by_contra different
    have apart : store.documents.Pairwise fun first second => first.uri.text ≠ second.uri.text :=
      ordered.imp And.right
    have symmetric : Std.Symm fun first second : Document => first.uri.text ≠ second.uri.text :=
      ⟨fun _ _ => Ne.symm⟩
    apply apart.forall (List.mem_of_find?_eq_some found) member
    · exact fun equal => different (congrArg some equal)
    · exact sameToo.trans same.symm

/-- Two stores in which the same is found are the same store. -/
theorem Ordered.ext {other : Store} (ordered : store.Ordered) (orderedToo : other.Ordered)
    (same : ∀ uri, store.find? uri = other.find? uri) : store = other := by
  have irreflexive : Std.Irrefl Before := ⟨fun document before => before.2 rfl⟩
  have antisymmetric : Std.Antisymm Before :=
    ⟨fun first second before after => (before.2 (Text.precedes_antisymm before.1 after.1)).elim⟩
  have sameMembers (document : Document) :
      document ∈ store.documents ↔ document ∈ other.documents := by
    have here := @find?_eq_some_iff _ ordered document.uri document
    have there := @find?_eq_some_iff _ orderedToo document.uri document
    rw [same document.uri] at here
    simpa using here.symm.trans there
  have equal := List.Pairwise.eq_of_mem_iff ordered orderedToo sameMembers
  exact congrArg Store.mk equal

end Server.Store

end FragmentLint
