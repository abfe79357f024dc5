import FragmentLint.Proofs.File.Path

/-!
Contract: the names in a file tree.

A directory has one entry of a name, and a name is one part of a path (`FileTree.isNamed`). Main
statements: the path of an entry has the parts of that of the directory and the name behind them
(`Path.parts_child`), and with names like these on the disk, a path leads to a tree with such names
(`Disk.isNamed_of_find?`).

Does not own: which files are found below a directory.
-/

namespace FragmentLint

namespace Path

/-- Whether something in a directory can have a name: the name says something, and there is no slash
in it. -/
def isName (name : Text) : Bool := !isIdle name && !name.contains '/'

theorem parts_append_slash (front back : Text) :
    parts (front ++ '/' :: back) = parts front ++ parts back := by
  unfold parts
  rw [Text.splitAt_append_cons, List.filter_append]

theorem parts_of_isName {name : Text} (named : isName name = true) : parts name = [name] := by
  unfold isName at named
  simp only [Bool.and_eq_true, Bool.not_eq_true', List.contains_eq_mem,
    decide_eq_false_iff_not] at named
  obtain ⟨busy, noSlash⟩ := named
  unfold parts
  rw [Text.splitAt_of_not_mem noSlash, List.filter_cons_of_pos (by rw [busy]; rfl), List.filter_nil]

/-- The parts of the path of something in a directory. -/
theorem parts_child {name : Text} (named : isName name = true) (directory : Text) :
    parts (child directory name) = parts directory ++ [name] := by
  unfold child
  split
  next ends =>
    have slashLast : directory.getLast? = some '/' := by simpa using ends
    obtain ⟨front, rfl⟩ := List.getLast?_eq_some_iff.1 slashLast
    rw [List.append_assoc, List.singleton_append, parts_append_slash, parts_append_slash,
      parts_of_isName named]
    simp [parts, Text.splitAt, isIdle]
  next => rw [parts_append_slash, parts_of_isName named]

end Path

namespace FileTree

mutual
/-- Whether everything in a tree has a name, and one that nothing next to it has. -/
def isNamed : FileTree → Bool
  | file _ => true
  | directory entries => areNamed entries

/-- Whether the entries of a directory have different names, and trees with such names. -/
def areNamed : List (Text × FileTree) → Bool
  | [] => true
  | (name, tree) :: rest =>
    Path.isName name && !rest.any (·.1 == name) && isNamed tree && areNamed rest
end

theorem areNamed_cons_iff {name : Text} {tree : FileTree} {rest : List (Text × FileTree)} :
    areNamed ((name, tree) :: rest) = true ↔
      Path.isName name = true ∧ (∀ entry ∈ rest, entry.1 ≠ name) ∧ tree.isNamed = true
        ∧ areNamed rest = true := by
  simp only [areNamed, Bool.and_eq_true, Bool.not_eq_true', List.any_eq_false, beq_iff_eq, and_assoc,
    ne_eq]

theorem isNamed_of_lookup {entries : List (Text × FileTree)} {name : Text} {tree : FileTree}
    (named : areNamed entries = true) (found : entries.lookup name = some tree) :
    tree.isNamed = true := by
  induction entries with
  | nil => cases found
  | cons head rest inductionHypothesis =>
    obtain ⟨first, here⟩ := head
    obtain ⟨-, -, hereNamed, restNamed⟩ := areNamed_cons_iff.1 named
    rw [List.lookup_cons] at found
    split at found
    · obtain rfl := Option.some.inj found
      exact hereNamed
    · exact inductionHypothesis restNamed found

end FileTree

namespace Disk

/-- Following parts leads to nothing but what is in the tree. -/
theorem isNamed_of_follow {place found : FileTree} {directories : List FileTree}
    {parts : List Text} (named : place.isNamed = true)
    (allNamed : ∀ directory ∈ directories, directory.isNamed = true)
    (followed : follow place directories parts = .ok found) : found.isNamed = true := by
  induction parts generalizing place directories with
  | nil =>
    rw [follow] at followed
    obtain rfl := Except.ok.inj followed
    exact named
  | cons part rest inductionHypothesis =>
    cases place with
    | file content =>
      rw [follow] at followed
      cases followed
    | directory entries =>
      by_cases idle : Path.isIdle part = true
      · rw [follow_cons_of_isIdle idle] at followed
        exact inductionHypothesis named allNamed followed
      · by_cases upwards : part = Path.above
        · subst upwards
          rw [follow_cons_above] at followed
          refine inductionHypothesis ?_ ?_ followed
          · cases directories with
            | nil => exact named
            | cons nearest others => exact allNamed nearest List.mem_cons_self
          · intro directory inTail
            exact allNamed directory (List.mem_of_mem_tail inTail)
        · rw [follow_cons_of_name idle upwards] at followed
          cases known : entries.lookup part with
          | none =>
            rw [known] at followed
            cases followed
          | some next =>
            rw [known] at followed
            refine inductionHypothesis ?_ ?_ followed
            · exact FileTree.isNamed_of_lookup named known
            · intro directory member
              rcases List.mem_cons.1 member with rfl | above
              · exact named
              · exact allNamed directory above

theorem isNamed_of_find? {disk : Disk} {path : Text} {tree : FileTree}
    (named : disk.root.isNamed = true) (found : disk.find? path = .ok tree) :
    tree.isNamed = true := by
  have nowhere : ∀ directory ∈ ([] : List FileTree), directory.isNamed = true := by simp
  unfold find? at found
  split at found
  · cases found
  · split at found
    · exact isNamed_of_follow named nowhere found
    · exact isNamed_of_follow named nowhere found

end Disk

end FragmentLint
