import FragmentLint.Proofs.File.Tree
import FragmentLint.Proofs.Workspace

/-!
Contract: no file of a workspace is found twice.

The paths that are found below an entry of a directory begin with the parts of the path of that
entry, and no two entries have the same name (`FileTree.isNamed`). So the paths that are found
differ in their parts (`parts_ne_of_discover`), and the files that are checked in their identifiers
(`uri_ne_of_check`).

Does not own: which files are found.
-/

namespace FragmentLint.Workspace

/-- Whether paths lead to different places, each of them within a scope. -/
structure Owned (scope : List Text → Prop) (paths : List Text) : Prop where
  within : ∀ path ∈ paths, scope (Path.parts path)
  apart : paths.Pairwise fun first second => Path.parts first ≠ Path.parts second

/-- The scope of what lies at a place or below it. -/
def Below (place parts : List Text) : Prop := place <+: parts

/-- The scope of what lies at the entries of a directory or below them. -/
def BelowEntries (place : List Text) (entries : List (Text × FileTree)) (parts : List Text) : Prop :=
  ∃ entry ∈ entries, Below (place ++ [entry.1]) parts

theorem owned_nil (scope : List Text → Prop) : Owned scope [] :=
  ⟨by simp, List.Pairwise.nil⟩

theorem Owned.mono {narrow wide : List Text → Prop} {paths : List Text} (owned : Owned narrow paths)
    (wider : ∀ parts, narrow parts → wide parts) : Owned wide paths :=
  ⟨fun path member => wider _ (owned.within path member), owned.apart⟩

theorem Owned.append {first second scope : List Text → Prop} {left right : List Text}
    (ownedLeft : Owned first left) (ownedRight : Owned second right)
    (disjoint : ∀ parts, first parts → ¬ second parts) (firstIn : ∀ parts, first parts → scope parts)
    (secondIn : ∀ parts, second parts → scope parts) : Owned scope (left ++ right) := by
  refine ⟨?_, ?_⟩
  · intro path member
    rcases List.mem_append.1 member with inLeft | inRight
    · exact firstIn _ (ownedLeft.within path inLeft)
    · exact secondIn _ (ownedRight.within path inRight)
  · refine List.pairwise_append.2 ⟨ownedLeft.apart, ownedRight.apart, ?_⟩
    intro path inLeft other inRight same
    apply disjoint _ (ownedLeft.within path inLeft)
    rw [same]
    exact ownedRight.within other inRight

/-- Nothing lies below two entries with different names. -/
theorem name_unique {place parts : List Text} {name other : Text}
    (below : Below (place ++ [name]) parts) (belowToo : Below (place ++ [other]) parts) :
    name = other := by
  obtain ⟨rest, rfl⟩ := below
  obtain ⟨restToo, same⟩ := belowToo
  rw [List.append_assoc, List.append_assoc] at same
  exact (List.cons.inj (List.append_cancel_left same)).1.symm

mutual
theorem owned_filesAt (depth : Nat) (path : Text) (tree : FileTree) (named : tree.isNamed = true) :
    Owned (Below (Path.parts path)) (filesAt depth path tree) := by
  cases tree with
  | file content =>
    simp only [filesAt]
    split
    · refine ⟨?_, List.pairwise_singleton _ _⟩
      intro found member
      rw [List.mem_singleton.1 member]
      exact List.prefix_rfl
    · exact owned_nil _
  | directory entries =>
    simp only [filesAt]
    apply (owned_filesIn (depth + 1) path entries named).mono
    rintro parts ⟨entry, -, below⟩
    exact (List.prefix_append _ _).trans below

/-- The files that are found below the entries of a directory. -/
theorem owned_filesIn (depth : Nat) (path : Text) (entries : List (Text × FileTree))
    (named : FileTree.areNamed entries = true) :
    Owned (BelowEntries (Path.parts path) entries) (filesIn depth path entries) := by
  cases entries with
  | nil =>
    simp only [filesIn]
    exact owned_nil _
  | cons head rest =>
    obtain ⟨name, tree⟩ := head
    obtain ⟨isName, different, treeNamed, restNamed⟩ := FileTree.areNamed_cons_iff.1 named
    have here : Owned (Below (Path.parts path ++ [name]))
        (if isSkipped depth name tree then []
          else filesAt depth (Path.child path name) tree) := by
      split
      · exact owned_nil _
      · rw [← Path.parts_child isName]
        exact owned_filesAt depth (Path.child path name) tree treeNamed
    simp only [filesIn]
    refine here.append (owned_filesIn depth path rest restNamed) ?_ ?_ ?_
    · rintro parts below ⟨entry, inRest, belowToo⟩
      exact different entry inRest (name_unique belowToo below)
    · intro parts below
      exact ⟨(name, tree), List.mem_cons_self, below⟩
    · rintro parts ⟨entry, inRest, below⟩
      exact ⟨entry, List.mem_cons_of_mem _ inRest, below⟩
end

variable {disk : Disk}

/-- No place is found twice. -/
theorem parts_ne_of_discover (named : disk.root.isNamed = true) (root : Text) :
    (discover disk root).Pairwise fun first second => Path.parts first ≠ Path.parts second := by
  unfold discover
  cases found : disk.find? root with
  | error reason => exact List.Pairwise.nil
  | ok tree =>
    simp only
    split
    · exact List.Pairwise.nil
    · exact (owned_filesAt 0 root tree (Disk.isNamed_of_find? named found)).apart

/-- No two files that are checked have the same identifier. -/
theorem uri_ne_of_check [SyntaxParser] [UriLibrary] [LawfulUriLibrary] {settings : Settings}
    (named : disk.root.isNamed = true) (root : Text) :
    (check settings disk root).Pairwise fun first second => first.uri.text ≠ second.uri.text := by
  unfold check
  rw [List.pairwise_filterMap]
  refine (parts_ne_of_discover named root).imp ?_
  intro path other different file checked otherFile checkedToo same
  obtain ⟨_, _, uri, -, -, isUri, rfl⟩ := checkFile_eq_ok_iff.1 (ok_of_toOption checked)
  obtain ⟨_, _, otherUri, -, -, isUriToo, rfl⟩ := checkFile_eq_ok_iff.1 (ok_of_toOption checkedToo)
  exact different (Uri.parts_eq_of_text_eq isUri isUriToo same)

end FragmentLint.Workspace
