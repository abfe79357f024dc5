import FragmentLint.File.Tree
import FragmentLint.Proofs.Text.Lines

/-!
Contract: the parts of a path are all that matters of it.

Main statements: a path that is put together from parts has these parts (`Path.parts_joinWith`), and
absolute paths with the same parts that can both be read have the same text (`Disk.read_unique`).

Does not own: relative paths, and paths that cannot be read, for which it may matter how they are
spelled.
-/

namespace FragmentLint

namespace Text

theorem not_mem_of_mem_splitAt {mark : Char} {text piece : Text}
    (isPiece : piece ∈ splitAt mark text) : mark ∉ piece := by
  induction text generalizing piece with
  | nil =>
    rw [splitAt, List.mem_singleton] at isPiece
    subst isPiece
    exact List.not_mem_nil
  | cons c rest inductionHypothesis =>
    by_cases isMark : (c == mark) = true
    · rw [splitAt, if_pos isMark] at isPiece
      rcases List.mem_cons.1 isPiece with rfl | later
      · exact List.not_mem_nil
      · exact inductionHypothesis later
    · obtain ⟨first, others, pieces⟩ := List.exists_cons_of_ne_nil (splitAt_ne_nil mark rest)
      rw [splitAt, if_neg isMark, pieces] at isPiece
      rw [pieces] at inductionHypothesis
      rcases List.mem_cons.1 isPiece with rfl | later
      · have different : mark ≠ c := by simpa using Ne.symm (by simpa using isMark)
        rw [List.mem_cons, not_or]
        exact ⟨different, inductionHypothesis List.mem_cons_self⟩
      · exact inductionHypothesis (List.mem_cons_of_mem _ later)

/-- Pieces in which the mark does not stand are found again in the text that they are joined to. -/
theorem splitAt_joinWith {mark : Char} {pieces : List Text} (some : pieces ≠ [])
    (none : ∀ piece ∈ pieces, mark ∉ piece) : splitAt mark (joinWith mark pieces) = pieces := by
  induction pieces with
  | nil => exact absurd rfl some
  | cons first others inductionHypothesis =>
    have firstNone := none first List.mem_cons_self
    cases others with
    | nil => exact splitAt_of_not_mem firstNone
    | cons second rest =>
      have restJoined := inductionHypothesis (List.cons_ne_nil _ _)
        fun piece member => none piece (List.mem_cons_of_mem _ member)
      rw [joinWith, splitAt_append_cons, splitAt_of_not_mem firstNone, restJoined]
      rfl

end Text

namespace Path

theorem parts_cons_slash (path : Text) : parts ('/' :: path) = parts path := by
  unfold parts
  rw [Text.splitAt, if_pos (beq_self_eq_true '/'), List.filter_cons_of_neg (by decide)]

/-- A path that is put together from the parts of a path has the same parts. -/
theorem parts_joinWith (path : Text) :
    parts ('/' :: Text.joinWith '/' (parts path)) = parts path := by
  rw [parts_cons_slash]
  by_cases some : parts path = []
  · rw [some]
    rfl
  · have none : ∀ part ∈ parts path, '/' ∉ part := by
      intro part member
      exact Text.not_mem_of_mem_splitAt ((List.mem_filter.1 member).1)
    have again : (parts path).filter (!isIdle ·) = parts path := by
      unfold parts
      rw [List.filter_filter]
      simp only [Bool.and_self]
    rw [parts, Text.splitAt_joinWith some none, again]

theorem fileName?_congr {path other : Text} (same : parts path = parts other) :
    fileName? path = fileName? other := by
  unfold fileName?
  rw [same]

end Path

theorem Dialect.ofPath?_congr {path other : Text} (same : Path.parts path = Path.parts other) :
    ofPath? path = ofPath? other := by
  unfold ofPath? Path.extension?
  rw [Path.fileName?_congr same]

namespace Disk

theorem follow_cons_of_isIdle {part : Text} (idle : Path.isIdle part = true)
    (entries : List (Text × FileTree)) (directories : List FileTree) (rest : List Text) :
    follow (.directory entries) directories (part :: rest)
      = follow (.directory entries) directories rest := by
  rw [follow.eq_def]
  exact if_pos idle

theorem follow_cons_above (entries : List (Text × FileTree)) (directories : List FileTree)
    (rest : List Text) :
    follow (.directory entries) directories (Path.above :: rest)
      = follow (directories.headD (.directory entries)) directories.tail rest := by
  cases directories with
  | nil => rfl
  | cons nearest others => rfl

theorem follow_cons_of_name {part : Text} (busy : ¬ Path.isIdle part = true)
    (name : part ≠ Path.above) (entries : List (Text × FileTree)) (directories : List FileTree)
    (rest : List Text) :
    follow (.directory entries) directories (part :: rest)
      = (entries.lookup part).elim (.error .notFound) fun next =>
        follow next (.directory entries :: directories) rest := by
  rw [follow.eq_def]
  simp only [if_neg busy, beq_iff_eq, if_neg name]
  cases entries.lookup part with
  | none => rfl
  | some next => rfl

/-- Parts that say nothing do not matter for where a path leads to, if it leads anywhere. -/
theorem follow_filter {place found : FileTree} {directories : List FileTree} {parts : List Text}
    (followed : follow place directories parts = .ok found) :
    follow place directories (parts.filter (!Path.isIdle ·)) = .ok found := by
  induction parts generalizing place directories with
  | nil => exact followed
  | cons part rest inductionHypothesis =>
    cases place with
    | file content =>
      rw [follow] at followed
      cases followed
    | directory entries =>
      by_cases idle : Path.isIdle part = true
      · rw [follow_cons_of_isIdle idle] at followed
        rw [List.filter_cons_of_neg (by simp [idle])]
        exact inductionHypothesis followed
      · rw [List.filter_cons_of_pos (by simp [idle])]
        by_cases upwards : part = Path.above
        · subst upwards
          rw [follow_cons_above] at followed ⊢
          exact inductionHypothesis followed
        · rw [follow_cons_of_name idle upwards] at followed ⊢
          cases known : entries.lookup part with
          | none =>
            rw [known] at followed
            cases followed
          | some next =>
            rw [known] at followed
            exact inductionHypothesis followed

/-- An absolute path that can be read leads to the text by its parts. -/
theorem follow_parts_of_read {disk : Disk} {path text : Text}
    (absolute : Path.isAbsolute path = true) (readable : disk.read path = .ok text) :
    ∃ found, follow disk.root [] (Path.parts path) = .ok found ∧ found.text? = .ok text := by
  unfold read at readable
  cases led : disk.find? path with
  | error reason =>
    rw [led] at readable
    cases readable
  | ok found =>
    rw [led] at readable
    refine ⟨found, ?_, readable⟩
    unfold find? at led
    rw [if_pos absolute] at led
    split at led
    · cases led
    · exact follow_filter led

/-- Absolute paths with the same parts have the same text, if they can be read. -/
theorem read_unique {disk : Disk} {path other text otherText : Text}
    (absolute : Path.isAbsolute path = true) (absoluteToo : Path.isAbsolute other = true)
    (same : Path.parts path = Path.parts other) (readable : disk.read path = .ok text)
    (readableToo : disk.read other = .ok otherText) : text = otherText := by
  obtain ⟨found, followed, textEq⟩ := follow_parts_of_read absolute readable
  obtain ⟨foundToo, followedToo, textEqToo⟩ := follow_parts_of_read absoluteToo readableToo
  rw [same, followedToo] at followed
  obtain rfl := Except.ok.inj followed
  rw [textEq] at textEqToo
  exact Except.ok.inj textEqToo

end Disk

end FragmentLint
