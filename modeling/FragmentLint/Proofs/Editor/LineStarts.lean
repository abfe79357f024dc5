import FragmentLint.Proofs.Editor.Column

/-!
Contract: positions from a table of the offsets at which the lines of a text begin.

The line of an offset is found by binary search in the table, and its column by counting what stands
between the two. A position is led back by looking its line up in the table and walking over that
line. Main statements: these are the positions and offsets that the text itself gives, and they are
missing where those are (`Position.ofStarts?_eq`, `Position.offsetByStarts?_eq`).

Does not own: what is true of positions and offsets.
-/

namespace FragmentLint

namespace Text

/-- The offsets behind the line feeds of a text that stands at an offset. -/
def breaksFrom (offset : Nat) : Text → List Nat
  | [] => []
  | c :: rest =>
    if c == '\n' then (offset + c.utf8Size) :: breaksFrom (offset + c.utf8Size) rest
    else breaksFrom (offset + c.utf8Size) rest

/-- The offsets at which the lines of a text begin. -/
def lineStarts (text : Text) : List Nat := 0 :: breaksFrom 0 text

/-- Looks for an offset between two indices of a sorted table. Answers the index at which it is, or,
as an error, the one at which it is missing. -/
def search (table : List Nat) (offset low high : Nat) : Except Nat Nat :=
  if low < high then
    match table[low + (high - low) / 2]? with
    | none => .error low
    | some entry =>
      if entry = offset then .ok (low + (high - low) / 2)
      else if entry < offset then search table offset (low + (high - low) / 2 + 1) high
      else search table offset low (low + (high - low) / 2)
  else .error low
termination_by high - low

/-- The number of the line that an offset stands on. -/
def lineAt (table : List Nat) (offset : Nat) : Nat :=
  match search table offset 0 table.length with
  | .ok line => line
  | .error next => next - 1

/-- Walks over a line, from an offset and a number of units in front of it on, up to a column or a
line feed. Answers the offset there, if the line does not end first. -/
def walk? (character : Nat) : Text → (offset count : Nat) → Option Nat
  | [], _, _ => none
  | c :: rest, offset, count =>
    if character ≤ count || c == '\n' then some offset
    else walk? character rest (offset + c.utf8Size) (count + unitsOf c)

end Text

namespace Position

/-- The position of an offset of a text, or of its end if the offset lies behind it, by the table of
its lines; `none` inside a character. -/
def ofStarts? (text : Text) (offset : Nat) : Option Position := do
  let offset := min offset (Text.bytes text)
  let line := Text.lineAt (Text.lineStarts text) offset
  let start ← (Text.lineStarts text)[line]?
  let before ← Text.slice? text start offset
  return ⟨line, Text.units before⟩

/-- The offset of a position in a text, by the table of its lines. -/
def offsetByStarts? (position : Position) (text : Text) : Option Nat :=
  match (Text.lineStarts text)[position.line]? with
  | none => some (Text.bytes text)
  | some start => do
    let stop := (Text.lineStarts text)[position.line + 1]?.getD (Text.bytes text)
    let line ← Text.slice? text start stop
    return (Text.walk? position.character line start 0).getD stop

end Position

namespace Text

/-! ## The table -/

theorem le_of_mem_breaksFrom {text : Text} {offset start : Nat}
    (member : start ∈ breaksFrom offset text) : offset < start := by
  induction text generalizing offset with
  | nil => cases member
  | cons c rest inductionHypothesis =>
    have wide := c.utf8Size_pos
    rw [breaksFrom] at member
    split at member
    · rcases List.mem_cons.1 member with rfl | behind
      · omega
      · have later := inductionHypothesis behind
        omega
    · have later := inductionHypothesis member
      omega

theorem pairwise_breaksFrom (offset : Nat) (text : Text) :
    (breaksFrom offset text).Pairwise (· < ·) := by
  induction text generalizing offset with
  | nil => exact .nil
  | cons c rest inductionHypothesis =>
    rw [breaksFrom]
    split
    · exact .cons (fun _ member => le_of_mem_breaksFrom member) (inductionHypothesis _)
    · exact inductionHypothesis _

/-- The lines of a text begin one behind the other. -/
theorem pairwise_lineStarts (text : Text) : (lineStarts text).Pairwise (· < ·) :=
  .cons (fun _ member => le_of_mem_breaksFrom member) (pairwise_breaksFrom 0 text)

theorem length_lineStarts (text : Text) :
    (lineStarts text).length = (splitAt '\n' text).length := by
  have step (offset : Nat) :
      (breaksFrom offset text).length + 1 = (splitAt '\n' text).length := by
    induction text generalizing offset with
    | nil => rfl
    | cons c rest inductionHypothesis =>
      have onward := inductionHypothesis (offset + c.utf8Size)
      rw [breaksFrom, splitAt]
      split
      · rw [List.length_cons, List.length_cons, onward]
      · cases lines : splitAt '\n' rest with
        | nil => exact absurd lines (splitAt_ne_nil '\n' rest)
        | cons line others => rw [lines] at onward; exact onward
  exact step 0

/-- A line begins behind each line feed, and its number is that of the line feeds up to there. -/
theorem getElem?_breaksFrom {text : Text} {offset number start : Nat} :
    (breaksFrom offset text)[number]? = some start ↔ ∃ front rest, text = front ++ '\n' :: rest
      ∧ start = offset + bytes front + '\n'.utf8Size ∧ front.count '\n' = number := by
  induction text generalizing offset number with
  | nil => simp [breaksFrom]
  | cons c rest inductionHypothesis =>
    rw [breaksFrom]
    split
    · rename_i isBreak
      obtain rfl : c = '\n' := by simpa using isBreak
      cases number with
      | zero =>
        rw [List.getElem?_cons_zero, Option.some.injEq]
        constructor
        · rintro rfl
          exact ⟨[], rest, rfl, rfl, rfl⟩
        · rintro ⟨front, behind, split, rfl, none⟩
          cases front with
          | nil => rfl
          | cons d front =>
            obtain ⟨rfl, -⟩ := List.cons.inj split
            simp at none
      | succ number =>
        rw [List.getElem?_cons_succ, inductionHypothesis]
        constructor
        · rintro ⟨front, behind, rfl, rfl, rfl⟩
          exact ⟨'\n' :: front, behind, rfl, by rw [bytes_cons]; omega, List.count_cons_self⟩
        · rintro ⟨front, behind, split, rfl, counted⟩
          cases front with
          | nil => cases counted
          | cons d front =>
            obtain ⟨rfl, rfl⟩ := List.cons.inj split
            rw [List.count_cons_self] at counted
            exact ⟨front, behind, rfl, by rw [bytes_cons]; omega, Nat.succ.inj counted⟩
    · rename_i inLine
      have other : c ≠ '\n' := by simpa using inLine
      rw [inductionHypothesis]
      constructor
      · rintro ⟨front, behind, rfl, rfl, rfl⟩
        exact ⟨c :: front, behind, rfl, by rw [bytes_cons]; omega, List.count_cons_of_ne other⟩
      · rintro ⟨front, behind, split, rfl, rfl⟩
        cases front with
        | nil => exact absurd (List.cons.inj split).1 other
        | cons d front =>
          obtain ⟨rfl, rfl⟩ := List.cons.inj split
          exact ⟨front, behind, rfl, by rw [bytes_cons]; omega,
            (List.count_cons_of_ne other).symm⟩

/-- The position behind a text is on the line that as many line feeds lead to. -/
theorem line_after (text : Text) : (Position.after text).line = text.count '\n' := by
  induction text using List.reverseRecOn with
  | nil => rfl
  | append_singleton front c inductionHypothesis =>
    rw [Position.after_append, List.foldl_cons, List.foldl_nil, List.count_append,
      ← inductionHypothesis]
    by_cases isBreak : c = '\n'
    · subst isBreak
      rfl
    · rw [Position.advance_of_ne isBreak, List.count_singleton, if_neg (by simpa using isBreak)]
      rfl

theorem after_lineFeed (text : Text) :
    Position.after (text ++ ['\n']) = ⟨text.count '\n' + 1, 0⟩ := by
  rw [Position.after_append, List.foldl_cons, List.foldl_nil, Position.advance_newline, line_after]

/-- Only the beginning of a text and a line feed lead to the first column of a line. -/
theorem eq_nil_or_lineFeed {front : Text} {number : Nat}
    (place : Position.after front = ⟨number, 0⟩) :
    (front = [] ∧ number = 0)
      ∨ ∃ above, front = above ++ ['\n'] ∧ number = above.count '\n' + 1 := by
  induction front using List.reverseRecOn with
  | nil => exact Or.inl ⟨rfl, (congrArg Position.line place).symm⟩
  | append_singleton above c =>
    by_cases isBreak : c = '\n'
    · subst isBreak
      rw [after_lineFeed] at place
      exact Or.inr ⟨above, rfl, (congrArg Position.line place).symm⟩
    · have wide := unitsOf_pos c
      rw [Position.after_append, List.foldl_cons, List.foldl_nil,
        Position.advance_of_ne isBreak] at place
      have column := congrArg Position.character place
      simp only at column
      omega

/-- The entries of the table are the offsets that the first column of a line leads to. -/
theorem getElem?_lineStarts {text : Text} {number start : Nat} :
    (lineStarts text)[number]? = some start ↔ ∃ front rest, text = front ++ rest
      ∧ start = bytes front ∧ Position.after front = ⟨number, 0⟩ := by
  cases number with
  | zero =>
    rw [lineStarts, List.getElem?_cons_zero, Option.some.injEq]
    constructor
    · rintro rfl
      exact ⟨[], text, rfl, rfl, rfl⟩
    · rintro ⟨front, rest, -, rfl, place⟩
      rcases eq_nil_or_lineFeed place with ⟨rfl, -⟩ | ⟨above, -, none⟩
      · rfl
      · cases none
  | succ number =>
    rw [lineStarts, List.getElem?_cons_succ, getElem?_breaksFrom]
    constructor
    · rintro ⟨above, rest, rfl, rfl, rfl⟩
      refine ⟨above ++ ['\n'], rest, by simp, ?_, after_lineFeed above⟩
      rw [bytes_append, bytes_cons, bytes_nil]
      omega
    · rintro ⟨front, rest, rfl, rfl, place⟩
      rcases eq_nil_or_lineFeed place with ⟨-, none⟩ | ⟨above, rfl, counted⟩
      · cases none
      · refine ⟨above, rest, by simp, ?_, (Nat.succ.inj counted).symm⟩
        rw [bytes_append, bytes_cons, bytes_nil]
        omega

/-- The next line begins behind the first line feed of a line. -/
theorem getElem?_lineStarts_succ {front line : Text} {number : Nat}
    (place : Position.after front = ⟨number, 0⟩) (unbroken : '\n' ∉ line) (rest : Text) :
    (lineStarts (front ++ (line ++ '\n' :: rest)))[number + 1]?
      = some (bytes front + bytes (line ++ ['\n'])) := by
  refine getElem?_lineStarts.2 ⟨front ++ (line ++ ['\n']), rest, by simp,
    (bytes_append _ _).symm, ?_⟩
  rw [Position.after_append, place, List.foldl_append, foldl_advance_of_not_mem unbroken]
  rfl

/-- No line begins behind the last one. -/
theorem getElem?_lineStarts_of_last {text : Text} {number column : Nat}
    (place : Position.after text = ⟨number, column⟩) : (lineStarts text)[number + 1]? = none := by
  cases isStart : (lineStarts text)[number + 1]? with
  | none => rfl
  | some start =>
    obtain ⟨front, rest, rfl, -, atFront⟩ := getElem?_lineStarts.1 isStart
    have onward := Position.le_foldl_advance (Position.after front) rest
    rw [← Position.after_append, place, atFront, Position.le_iff] at onward
    simp only at onward
    omega

/-! ## The search -/

/-- Whether an offset belongs between two indices of a table: it is greater than what stands in
front of them, and less than what stands behind. -/
structure Window (table : List Nat) (offset low high : Nat) : Prop where
  ordered : low ≤ high
  within : high ≤ table.length
  above : ∀ {index entry : Nat}, table[index]? = some entry → index < low → entry < offset
  below : ∀ {index entry : Nat}, table[index]? = some entry → high ≤ index → offset < entry

theorem lt_of_pairwise {table : List Nat} (sorted : table.Pairwise (· < ·)) {first second : Nat}
    {entry later : Nat} (atFirst : table[first]? = some entry)
    (atSecond : table[second]? = some later) (inFront : first < second) : entry < later := by
  obtain ⟨isFirst, rfl⟩ := List.getElem?_eq_some_iff.1 atFirst
  obtain ⟨isSecond, rfl⟩ := List.getElem?_eq_some_iff.1 atSecond
  exact List.pairwise_iff_getElem.1 sorted _ _ isFirst isSecond inFront

/-- A search in a sorted table finds the offset, or the one place where it belongs. -/
theorem search_of_window {table : List Nat} (sorted : table.Pairwise (· < ·))
    {offset low high : Nat} (window : Window table offset low high) :
    match search table offset low high with
    | .ok index => table[index]? = some offset
    | .error index => Window table offset index index := by
  fun_induction search table offset low high with
  | case1 low high open' missing =>
    -- The middle of a window lies in the table.
    have within := window.within
    rw [List.getElem?_eq_none_iff] at missing
    omega
  | case2 low high open' found => exact found
  | case3 low high open' entry found other smaller inductionHypothesis =>
    refine inductionHypothesis ⟨by omega, window.within, ?_, window.below⟩
    intro index entry' found' inFront
    rcases Nat.lt_or_eq_of_le (Nat.le_of_lt_succ inFront) with before | rfl
    · exact Nat.lt_trans (lt_of_pairwise sorted found' found before) smaller
    · rw [found] at found'
      exact Option.some.inj found' ▸ smaller
  | case4 low high open' entry found other notSmaller inductionHypothesis =>
    have greater : offset < entry := by omega
    have within := window.within
    refine inductionHypothesis ⟨by omega, by omega, window.above, ?_⟩
    intro index entry' found' behind
    rcases Nat.lt_or_eq_of_le behind with after | rfl
    · exact Nat.lt_trans greater (lt_of_pairwise sorted found found' after)
    · rw [found] at found'
      exact Option.some.inj found' ▸ greater
  | case5 low high shut =>
    obtain rfl : low = high := Nat.le_antisymm window.ordered (Nat.not_lt.1 shut)
    exact window

/-- The line of an offset begins at it or in front of it, and the next one begins behind it. -/
theorem exists_lineAt {table : List Nat} (sorted : table.Pairwise (· < ·)) (offset : Nat)
    (first : table[0]? = some 0) :
    ∃ start ≤ offset, table[lineAt table offset]? = some start
      ∧ ∀ next, table[lineAt table offset + 1]? = some next → offset < next := by
  have found := search_of_window sorted
    (⟨Nat.zero_le _, Nat.le_refl _, nofun, fun isEntry behind => by
      rw [List.getElem?_eq_none_iff.2 behind] at isEntry
      cases isEntry⟩ : Window table offset 0 table.length)
  unfold lineAt
  generalize search table offset 0 table.length = answer at found ⊢
  cases answer with
  | ok line =>
    exact ⟨offset, Nat.le_refl _, found, fun next isNext =>
      lt_of_pairwise sorted found isNext (Nat.lt_succ_self line)⟩
  | error next =>
    cases next with
    | zero => exact absurd (found.below first (Nat.le_refl 0)) (Nat.not_lt_zero offset)
    | succ line =>
      have inTable : line < table.length := found.within
      have isStart : table[line]? = some table[line] := List.getElem?_eq_getElem inTable
      exact ⟨table[line], Nat.le_of_lt (found.above isStart (Nat.lt_succ_self line)), isStart,
        fun next isNext => found.below isNext (Nat.le_refl _)⟩

/-! ## Walking over a line -/

/-- A walk over a line stops where the column is. -/
theorem getD_walk? (character : Nat) (line : Text) (offset count : Nat) :
    (walk? character line offset count).getD (offset + bytes line)
      = offset + columnOffset line (character - count) := by
  induction line generalizing offset count with
  | nil => rfl
  | cons c rest inductionHypothesis =>
    have reached : (decide (character ≤ count) || c == '\n')
        = (character - count == 0 || c == '\n') := by
      congr 1
      rw [Bool.eq_iff_iff, decide_eq_true_iff, beq_iff_eq]
      omega
    rw [walk?, columnOffset, reached]
    split
    · rfl
    · rw [bytes_cons, ← Nat.add_assoc, inductionHypothesis, Nat.sub_sub, Nat.add_assoc]

/-- Beyond a line feed no column is looked for. -/
theorem columnOffset_append_lineFeed (line rest : Text) (character : Nat) :
    columnOffset (line ++ '\n' :: rest) character = columnOffset (line ++ ['\n']) character := by
  induction line generalizing character with
  | nil => simp [columnOffset]
  | cons c line inductionHypothesis =>
    rw [List.cons_append, List.cons_append, columnOffset, columnOffset, inductionHypothesis]

end Text

namespace Position

open Text

/-- The table gives every offset the position that the text gives it, and gives none inside a
character. -/
theorem ofStarts?_eq (text : Text) (offset : Nat) :
    ofStarts? text offset = ofOffset? text offset := by
  obtain ⟨start, inFront, isStart, next⟩ :=
    exists_lineAt (pairwise_lineStarts text) (min offset (bytes text)) rfl
  unfold ofStarts? ofOffset?
  dsimp only
  generalize min offset (bytes text) = offset at inFront isStart next ⊢
  generalize lineAt (lineStarts text) offset = number at isStart next ⊢
  rw [isStart, Option.bind_eq_bind, Option.bind_some]
  obtain ⟨front, rest, rfl, rfl, place⟩ := getElem?_lineStarts.1 isStart
  cases cut : cut? (front ++ rest) offset with
  | none =>
    have inside : isBoundary (front ++ rest) offset = false := by rw [isBoundary, cut]; rfl
    rw [(slice?_eq_none_iff inFront).2 (Or.inr inside)]
    rfl
  | some parts =>
    obtain ⟨before, behind⟩ := parts
    obtain rfl := bytes_of_cut? cut
    obtain ⟨piece, rfl, rfl⟩ := exists_append_of_bytes_le (append_of_cut? cut).symm inFront
    have unbroken : '\n' ∉ piece := by
      intro broken
      -- Behind the first line feed of the piece the next line begins, and not behind the offset.
      obtain ⟨line, others, rfl, inLine⟩ := List.eq_append_cons_of_mem broken
      have isNext := getElem?_lineStarts_succ place inLine (others ++ behind)
      rw [← List.cons_append, ← List.append_assoc line] at isNext
      have later := next _ isNext
      simp only [bytes_append, bytes_cons, bytes_nil] at later
      omega
    rw [bytes_append, slice?_append, Option.map_some, after_append, place,
      foldl_advance_of_not_mem unbroken, Nat.zero_add]
    rfl

/-- The table leads every position to the offset that the text leads it to. -/
theorem offsetByStarts?_eq (position : Position) (text : Text) :
    position.offsetByStarts? text = some (position.offsetIn text) := by
  unfold offsetByStarts? offsetIn
  cases lines : (splitAt '\n' text)[position.line]? with
  | none =>
    have missing : (lineStarts text)[position.line]? = none := by
      rw [List.getElem?_eq_none_iff] at lines ⊢
      rw [length_lineStarts]
      exact lines
    rw [missing, lineOffset_of_getElem?_eq_none lines]
  | some line =>
    obtain ⟨front, back, isLine⟩ := exists_isLine lines
    have isStart : (lineStarts text)[position.line]? = some (bytes front) :=
      getElem?_lineStarts.2 ⟨front, line ++ back, isLine.whole, rfl, isLine.after_front⟩
    have whole := isLine.whole
    rw [isStart, isLine.offset]
    dsimp only
    rcases isLine.ends with rfl | ⟨rest, rfl⟩
    · -- The last line ends with the text.
      rw [List.append_nil] at whole ⊢
      have last : Position.after text = ⟨position.line, units line⟩ := by
        rw [whole]
        exact isLine.after_append (List.append_nil line).symm
      have cut := slice?_append front line []
      rw [List.append_nil, ← whole, ← bytes_append, ← whole] at cut
      rw [getElem?_lineStarts_of_last last, Option.getD_none, cut, Option.bind_eq_bind,
        Option.bind_some, whole, bytes_append, getD_walk?, Nat.sub_zero]
      rfl
    · have isNext := getElem?_lineStarts_succ isLine.after_front isLine.unbroken rest
      rw [← whole] at isNext
      have cut := slice?_append front (line ++ ['\n']) rest
      rw [List.append_assoc, List.singleton_append, ← whole] at cut
      rw [isNext, Option.getD_some, cut, Option.bind_eq_bind, Option.bind_some, getD_walk?,
        Nat.sub_zero, columnOffset_append_lineFeed line rest]
      rfl

end Position

end FragmentLint
