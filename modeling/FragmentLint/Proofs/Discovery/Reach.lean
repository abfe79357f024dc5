import FragmentLint.Proofs.Discovery

/-!
Contract: the files of a workspace are all files with the extension of a file with markup, but for
those in a directory of a name that is left out.

A file has a place below a root: the names that lead to it from directory to directory
(`FileTree.Leads`). Main statements: what an extension is (`Path.extensionOfName?_eq_some_iff`), which
paths are found below a tree (`mem_filesAt_iff`), and that of the files below a root each one that holds
markup and is not left out is found once, and nothing else (`discover_exactly`).

Does not own: what is found if two entries of a directory have the same name.
-/

namespace FragmentLint

namespace Path

/-- The last dot of a name divides what stands before it from the extension. -/
theorem extensionOfName?_append {extension : Text} (last : '.' ∉ extension) (stem : Text) :
    extensionOfName? (stem ++ '.' :: extension) = if stem = [] then none else some extension := by
  have pieces : (Text.splitAt '.' (stem ++ '.' :: extension)).reverse
      = extension :: (Text.splitAt '.' stem).reverse := by
    rw [Text.splitAt_append_cons, Text.splitAt_of_not_mem last, List.reverse_append]
    rfl
  unfold extensionOfName?
  rw [pieces]
  rcases Text.splitAt_cases '.' stem with ⟨-, whole⟩ | ⟨first, rest, rfl, -, divided⟩
  · rw [whole]
    cases stem <;> rfl
  · obtain ⟨second, others, restDivided⟩ := List.exists_cons_of_ne_nil (Text.splitAt_ne_nil '.' rest)
    rw [divided, restDivided, if_neg (by simp)]
    cases reversed : (first :: second :: others).reverse with
    | nil => simp at reversed
    | cons one more =>
      have long : (one :: more).length = others.length + 2 := by
        rw [← reversed, List.length_reverse]
        rfl
      cases more with
      | nil => simp at long
      | cons two further => cases one <;> rfl

/-- An extension stands behind the last dot of a name, and this dot is not the first character. -/
theorem extensionOfName?_eq_some_iff {name extension : Text} :
    extensionOfName? name = some extension
      ↔ ∃ stem, name = stem ++ '.' :: extension ∧ stem ≠ [] ∧ '.' ∉ extension := by
  constructor
  · intro isExtension
    by_cases dotted : '.' ∈ name.reverse
    · obtain ⟨back, front, reversed, notBack⟩ := List.eq_append_cons_of_mem dotted
      have divided : name = front.reverse ++ '.' :: back.reverse := by
        rw [← List.reverse_inj, reversed]
        simp
      have last : '.' ∉ back.reverse := by rwa [List.mem_reverse]
      rw [divided, extensionOfName?_append last] at isExtension
      split at isExtension
      · cases isExtension
      next stem =>
        obtain rfl := Option.some.inj isExtension
        exact ⟨front.reverse, divided, stem, last⟩
    · rw [List.mem_reverse] at dotted
      rw [extensionOfName?, Text.splitAt_of_not_mem dotted] at isExtension
      cases isExtension
  · rintro ⟨stem, rfl, some, last⟩
    rw [extensionOfName?_append last, if_neg some]

/-- The path of something to which names lead from a place. -/
def below (place : Text) (names : List Text) : Text := names.foldl child place

theorem parts_below {names : List Text} (named : ∀ name ∈ names, isName name = true) (place : Text) :
    parts (below place names) = parts place ++ names := by
  induction names generalizing place with
  | nil => exact (List.append_nil _).symm
  | cons name rest inductionHypothesis =>
    obtain ⟨nameNamed, restNamed⟩ := List.forall_mem_cons.1 named
    show parts (below (child place name) rest) = _
    rw [inductionHypothesis restNamed, parts_child nameNamed, List.append_assoc, List.singleton_append]

/-- Whether the extension of the file that a path leads to is one of those of files with markup. -/
def HoldsMarkup (path : Text) : Prop :=
  ∃ stem extension, fileName? path = some (stem ++ '.' :: extension) ∧ stem ≠ []
    ∧ extension ∈ ["js".toList, "jsx".toList, "mjs".toList, "cjs".toList, "tsx".toList]

/-- Whether no directory on the way to a file has a name that is left out. The name of the file does
not matter. -/
def IsOpen (names : List Text) : Prop :=
  ∀ name ∈ names.dropLast, name ∉ ["node_modules".toList, ".git".toList, "dist".toList,
    "build".toList, "target".toList]

end Path

theorem Dialect.isSome_ofPath?_iff {path : Text} :
    (ofPath? path).isSome = true ↔ Path.HoldsMarkup path := by
  have known : ∀ extension : Text, (extensions.lookup extension).isSome = true
      ↔ extension ∈ ["js".toList, "jsx".toList, "mjs".toList, "cjs".toList, "tsx".toList] := by
    intro extension
    rw [← not_iff_not, Bool.not_eq_true, Option.isSome_eq_false_iff, Option.isNone_iff_eq_none,
      List.lookup_eq_none_iff]
    simp [extensions]
  have dotless : ∀ extension ∈ ["js".toList, "jsx".toList, "mjs".toList, "cjs".toList, "tsx".toList],
      '.' ∉ extension := by
    decide
  unfold ofPath? Path.extension? Path.HoldsMarkup
  simp only [Option.isSome_bind, Option.any_eq_true, Option.bind_eq_some_iff, known]
  constructor
  · rintro ⟨extension, ⟨name, isName, isExtension⟩, listed⟩
    obtain ⟨stem, rfl, some, -⟩ := Path.extensionOfName?_eq_some_iff.1 isExtension
    exact ⟨stem, extension, isName, some, listed⟩
  · rintro ⟨stem, extension, isName, some, listed⟩
    exact ⟨extension, ⟨_, isName, Path.extensionOfName?_eq_some_iff.2
      ⟨stem, rfl, some, dotless extension listed⟩⟩, listed⟩

namespace FileTree

/-- Names lead from a tree to something in it, from directory to directory. -/
inductive Leads : FileTree → List Text → FileTree → Prop
  | here (tree : FileTree) : Leads tree [] tree
  | entry {entries : List (Text × FileTree)} {name : Text} {tree found : FileTree} {names : List Text} :
    (name, tree) ∈ entries → Leads tree names found → Leads (directory entries) (name :: names) found

theorem Leads.eq_nil {content : ByteArray} {names : List Text} {found : FileTree}
    (leads : Leads (file content) names found) : names = [] := by
  cases leads with
  | here => rfl

theorem isNamed_of_mem {entries : List (Text × FileTree)} {name : Text} {tree : FileTree}
    (named : areNamed entries = true) (listed : (name, tree) ∈ entries) :
    Path.isName name = true ∧ tree.isNamed = true := by
  induction entries with
  | nil => cases listed
  | cons head rest inductionHypothesis =>
    obtain ⟨isName, -, headNamed, restNamed⟩ := areNamed_cons_iff.1 named
    rcases List.mem_cons.1 listed with rfl | later
    · exact ⟨isName, headNamed⟩
    · exact inductionHypothesis restNamed later

theorem Leads.isName {tree found : FileTree} {names : List Text} (leads : Leads tree names found)
    (named : tree.isNamed = true) : ∀ name ∈ names, Path.isName name = true := by
  induction leads with
  | here => simp
  | entry listed _ inductionHypothesis =>
    obtain ⟨isName, treeNamed⟩ := isNamed_of_mem named listed
    exact List.forall_mem_cons.2 ⟨isName, inductionHypothesis treeNamed⟩

end FileTree

/-- Whether names lead from what a path leads to, to a file. -/
def Disk.HasFile (disk : Disk) (root : Text) (names : List Text) : Prop :=
  ∃ tree content, disk.find? root = .ok tree ∧ tree.Leads names (.file content)

/-- If names in directories are unique, files at different places have different paths. -/
theorem Disk.HasFile.names_eq {disk : Disk} {root : Text} {names others : List Text}
    (named : disk.root.isNamed = true) (hasFile : disk.HasFile root names)
    (hasFileToo : disk.HasFile root others) (same : Path.below root names = Path.below root others) :
    names = others := by
  obtain ⟨tree, content, led, leads⟩ := hasFile
  obtain ⟨otherTree, otherContent, ledToo, leadsToo⟩ := hasFileToo
  have sameParts : Path.parts root ++ names = Path.parts root ++ others := by
    rw [← Path.parts_below (leads.isName (Disk.isNamed_of_find? named led)),
      ← Path.parts_below (leadsToo.isName (Disk.isNamed_of_find? named ledToo)), same]
  exact List.append_cancel_left sameParts

namespace Workspace

variable {found path name : Text} {names : List Text} {tree : FileTree} {disk : Disk}

/-- Names lead from a tree to a file, past no directory that is left out. -/
def Offers (tree : FileTree) (names : List Text) : Prop :=
  (∃ content, tree.Leads names (.file content)) ∧ Path.IsOpen names

theorem isSkipped_iff {depth : Nat} : isSkipped depth name tree = true ↔ 0 < depth
    ∧ tree.isDirectory = true
    ∧ name ∈ ["node_modules".toList, ".git".toList, "dist".toList, "build".toList, "target".toList] := by
  unfold isSkipped skippedDirectories
  rw [Bool.and_eq_true, Bool.and_eq_true, List.contains_iff_mem, decide_eq_true_iff, and_assoc]

/-- A directory offers what its entries offer, but for the directories that are left out. -/
theorem offers_directory_iff {entries : List (Text × FileTree)} (depth : Nat) :
    Offers (.directory entries) names ↔ ∃ entry ∈ entries, ∃ rest, names = entry.1 :: rest
      ∧ ¬ isSkipped (depth + 1) entry.1 entry.2 = true ∧ Offers entry.2 rest := by
  constructor
  · rintro ⟨⟨content, leads⟩, isOpen⟩
    cases leads with
    | entry listed onwards =>
      rename_i name tree rest
      refine ⟨_, listed, rest, rfl, ?_, ⟨content, onwards⟩, ?_⟩
      · intro skipped
        obtain ⟨-, isDirectory, isLeftOut⟩ := isSkipped_iff.1 skipped
        cases onwards with
        | here => cases isDirectory
        | entry _ _ => exact isOpen name List.mem_cons_self isLeftOut
      · intro other listed
        cases rest with
        | nil => cases listed
        | cons _ _ => exact isOpen other (List.mem_cons_of_mem _ listed)
  · rintro ⟨⟨name, tree⟩, listed, rest, rfl, entered, ⟨content, onwards⟩, isOpen⟩
    refine ⟨⟨content, .entry listed onwards⟩, ?_⟩
    cases onwards with
    | here => exact fun other listed => absurd listed List.not_mem_nil
    | entry _ _ =>
      refine List.forall_mem_cons.2 ⟨?_, isOpen⟩
      intro isLeftOut
      exact entered (isSkipped_iff.2 ⟨Nat.succ_pos depth, rfl, isLeftOut⟩)

theorem mem_filesIn_iff {depth : Nat} {entries : List (Text × FileTree)} :
    found ∈ filesIn depth path entries ↔ ∃ entry ∈ entries,
      ¬ isSkipped depth entry.1 entry.2 = true
        ∧ found ∈ filesAt depth (Path.child path entry.1) entry.2 := by
  induction entries with
  | nil => simp [filesIn]
  | cons head rest inductionHypothesis =>
    obtain ⟨name, tree⟩ := head
    rw [filesIn, List.mem_append, inductionHypothesis]
    split
    next skipped => simp [skipped]
    next entered => simp [entered]

/-- Below a tree the files are found that hold markup and that the tree offers. -/
theorem mem_filesAt_iff (depth : Nat) (path : Text) (tree : FileTree) :
    found ∈ filesAt depth path tree ↔
      ∃ names, Offers tree names ∧ found = Path.below path names ∧ Path.HoldsMarkup found := by
  cases tree with
  | file content =>
    rw [filesAt, ← Dialect.isSome_ofPath?_iff]
    constructor
    · intro listed
      split at listed
      next holds =>
        obtain rfl := List.mem_singleton.1 listed
        exact ⟨[], ⟨⟨content, .here _⟩, by simp [Path.IsOpen]⟩, rfl, holds⟩
      next => cases listed
    · rintro ⟨names, ⟨⟨_, leads⟩, -⟩, rfl, holds⟩
      obtain rfl := leads.eq_nil
      rw [Path.below, List.foldl_nil] at holds ⊢
      rw [if_pos holds]
      exact List.mem_cons_self
  | directory entries =>
    have inEntry : ∀ entry ∈ entries,
        found ∈ filesAt (depth + 1) (Path.child path entry.1) entry.2 ↔
          ∃ names, Offers entry.2 names ∧ found = Path.below (Path.child path entry.1) names
            ∧ Path.HoldsMarkup found :=
      fun entry listed => mem_filesAt_iff (depth + 1) (Path.child path entry.1) entry.2
    rw [filesAt, mem_filesIn_iff]
    constructor
    · rintro ⟨entry, listed, entered, isFound⟩
      obtain ⟨names, offers, rfl, holds⟩ := (inEntry entry listed).1 isFound
      exact ⟨entry.1 :: names,
        (offers_directory_iff depth).2 ⟨entry, listed, names, rfl, entered, offers⟩, rfl, holds⟩
    · rintro ⟨names, offers, rfl, holds⟩
      obtain ⟨entry, listed, rest, rfl, entered, onwards⟩ := (offers_directory_iff depth).1 offers
      exact ⟨entry, listed, entered, (inEntry entry listed).2 ⟨rest, onwards, rfl, holds⟩⟩
termination_by tree
decreasing_by
  have smaller := List.sizeOf_lt_of_mem listed
  cases entry
  simp only [FileTree.directory.sizeOf_spec, Prod.mk.sizeOf_spec] at smaller ⊢
  omega

/-- No path is found twice. A path is found if and only if names lead from the root to a file with this
path, the file holds markup, and no directory below the root on the way to it is left out. And the path
tells which file it is. -/
theorem discover_exactly (named : disk.root.isNamed = true) (root : Text) :
    (discover disk root).Nodup
      ∧ (∀ path, path ∈ discover disk root ↔ ∃ names, disk.HasFile root names
          ∧ path = Path.below root names ∧ Path.HoldsMarkup path ∧ Path.IsOpen names)
      ∧ (∀ names others, disk.HasFile root names → disk.HasFile root others →
          Path.below root names = Path.below root others → names = others) := by
  refine ⟨?_, ?_, fun _ _ => Disk.HasFile.names_eq named⟩
  · refine (parts_ne_of_discover named root).imp ?_
    rintro path _ different rfl
    exact different rfl
  · intro path
    unfold discover Disk.HasFile
    cases led : disk.find? root with
    | error reason => simp
    | ok tree =>
      -- The root is entered whatever its name.
      have entered (name : Text) : isSkipped 0 name tree = false := rfl
      simp only [entered, Bool.false_eq_true, if_false, mem_filesAt_iff]
      constructor
      · rintro ⟨names, ⟨⟨content, leads⟩, isOpen⟩, isPath, holds⟩
        exact ⟨names, ⟨tree, content, rfl, leads⟩, isPath, holds, isOpen⟩
      · rintro ⟨names, ⟨_, content, isTree, leads⟩, isPath, holds, isOpen⟩
        obtain rfl := Except.ok.inj isTree
        exact ⟨names, ⟨⟨content, leads⟩, isOpen⟩, isPath, holds⟩

/-- A disk with a directory `build`, and in it a directory and a file with names of directories that are
left out. -/
def buildDisk : Disk :=
  ⟨.directory [("build".toList, .directory [
    ("dist".toList, .directory [("a.js".toList, .file .empty)]),
    ("target.jsx".toList, .file .empty),
    ("lib".toList, .directory [("build".toList, .file .empty), ("c.ts".toList, .file .empty),
      ("d.mjs".toList, .file .empty)])])], []⟩

/-- From a root with the name `build` the files are found that are not in the directory `dist`. -/
theorem discover_exactly_build :
    buildDisk.root.isNamed = true
      ∧ discover buildDisk "/build".toList = ["/build/target.jsx".toList, "/build/lib/d.mjs".toList]
      ∧ buildDisk.HasFile "/build".toList ["dist".toList, "a.js".toList]
      ∧ ¬ Path.IsOpen ["dist".toList, "a.js".toList] := by
  have named : buildDisk.root.isNamed = true := by decide
  have found : discover buildDisk "/build".toList
      = ["/build/target.jsx".toList, "/build/lib/d.mjs".toList] := by decide
  have hasFile : buildDisk.HasFile "/build".toList ["dist".toList, "a.js".toList] :=
    ⟨_, .empty, rfl, .entry List.mem_cons_self (.entry List.mem_cons_self (.here _))⟩
  refine ⟨named, found, hasFile, ?_⟩
  intro isOpen
  have holds : Path.HoldsMarkup "/build/dist/a.js".toList :=
    ⟨['a'], "js".toList, by decide, by decide, by decide⟩
  have listed := ((discover_exactly named "/build".toList).2.1 _).2 ⟨_, hasFile, rfl, holds, isOpen⟩
  rw [found] at listed
  revert listed
  decide

end Workspace

end FragmentLint
