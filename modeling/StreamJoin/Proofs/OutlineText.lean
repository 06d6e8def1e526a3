import StreamJoin.Stream.Outline

namespace StreamJoin

/-!
# Reading outlines

An outline shows no brackets: where a subtree ends is told only by a later line that
stands less deep.  This is enough to read the text back.  The text falls into its
lines, a line into its depth and a name, and the entries of an outline can be told
from whatever follows them as long as that stands at its level or above it.
-/

namespace Outline

/-- What a line shows: how deep an operator stands and its name. -/
structure Entry where
  depth : Nat
  name : String

/-- The line of an entry. -/
def Entry.line (entry : Entry) : String :=
  String.ofList (List.replicate (2 * entry.depth) ' ') ++ entry.name

mutual

/-- What an outline shows, line by line. -/
def entries (depth : Nat) : Outline → List Entry
  | .node name children => ⟨depth, name⟩ :: childEntries (depth + 1) children

/-- What a list of outlines at the same level shows. -/
def childEntries (depth : Nat) : List Outline → List Entry
  | [] => []
  | first :: rest => entries depth first ++ childEntries depth rest

end

mutual

/-- The lines of an outline are those of its entries. -/
theorem lines_eq_map_entries (depth : Nat) (outline : Outline) :
    outline.lines depth = (outline.entries depth).map Entry.line := by
  cases outline with
  | node name children =>
      rw [lines, entries, List.map_cons, childLines_eq_map_childEntries]
      rfl

/-- The lines of outlines at the same level are those of their entries. -/
theorem childLines_eq_map_childEntries (depth : Nat) (children : List Outline) :
    childLines depth children = (childEntries depth children).map Entry.line := by
  cases children with
  | nil => rfl
  | cons first rest =>
      rw [childLines, childEntries, List.map_append, lines_eq_map_entries,
        childLines_eq_map_childEntries]

end

/-- The next entry, if there is one, stands above a level. -/
def Above (depth : Nat) (rest : List Entry) : Prop :=
  ∀ entry ∈ rest.head?, entry.depth < depth

/-- Behind an outline at some level there is another one or something above. -/
theorem above_childEntries_append
    {depth : Nat}
    {rest : List Entry}
    (above : Above depth rest)
    (children : List Outline) :
    Above (depth + 1) (childEntries depth children ++ rest) := by
  cases children with
  | nil => exact fun entry isNext => Nat.lt_succ_of_lt (above entry isNext)
  | cons first others =>
      cases first
      rintro entry ⟨⟩
      exact Nat.lt_succ_self depth

/-- What stands above a level is not the entry of an outline at that level. -/
theorem not_above_entries_append
    {depth : Nat}
    (outline : Outline)
    (rest : List Entry) :
    ¬ Above depth (outline.entries depth ++ rest) := by
  cases outline
  intro above
  exact Nat.lt_irrefl depth (above _ rfl)

mutual

/--
An outline is told by its entries and ends where something above or beside it
follows.
-/
theorem entries_append_inj
    {depth : Nat}
    {firstRest secondRest : List Entry}
    (first second : Outline)
    (firstAbove : Above (depth + 1) firstRest)
    (secondAbove : Above (depth + 1) secondRest)
    (same : first.entries depth ++ firstRest = second.entries depth ++ secondRest) :
    first = second ∧ firstRest = secondRest := by
  cases first with
  | node firstName firstChildren =>
      cases second with
      | node secondName secondChildren =>
          obtain ⟨sameEntry, sameBelow⟩ := List.cons.inj same
          obtain ⟨rfl, sameRest⟩ :=
            childEntries_append_inj firstChildren secondChildren firstAbove
              secondAbove sameBelow
          cases sameEntry
          exact ⟨rfl, sameRest⟩

/--
Outlines at the same level are told by their entries, up to what stands above them.
-/
theorem childEntries_append_inj
    {depth : Nat}
    {firstRest secondRest : List Entry}
    (first second : List Outline)
    (firstAbove : Above depth firstRest)
    (secondAbove : Above depth secondRest)
    (same :
      childEntries depth first ++ firstRest =
        childEntries depth second ++ secondRest) :
    first = second ∧ firstRest = secondRest := by
  cases first with
  | nil =>
      cases second with
      | nil => exact ⟨rfl, same⟩
      | cons child others =>
          rw [show firstRest = _ from same, childEntries,
            List.append_assoc] at firstAbove
          exact absurd firstAbove (not_above_entries_append child _)
  | cons firstChild firstOthers =>
      cases second with
      | nil =>
          rw [show secondRest = _ from same.symm, childEntries,
            List.append_assoc] at secondAbove
          exact absurd secondAbove (not_above_entries_append firstChild _)
      | cons secondChild secondOthers =>
          -- Behind a child there are its siblings, at its own level, and then the
          -- rest.
          rw [childEntries, childEntries, List.append_assoc,
            List.append_assoc] at same
          obtain ⟨rfl, sameOthers⟩ :=
            entries_append_inj firstChild secondChild
              (above_childEntries_append firstAbove firstOthers)
              (above_childEntries_append secondAbove secondOthers) same
          obtain ⟨rfl, sameRest⟩ :=
            childEntries_append_inj firstOthers secondOthers firstAbove secondAbove
              sameOthers
          exact ⟨rfl, sameRest⟩

end

/-- An outline is told by its entries. -/
theorem entries_inj
    {depth : Nat}
    {first second : Outline}
    (same : first.entries depth = second.entries depth) :
    first = second := by
  have nothingBehind : Above (depth + 1) [] := nofun
  apply (entries_append_inj first second nothingBehind nothingBehind _).1
  rw [List.append_nil, List.append_nil, same]

/--
A name that can be told from the blanks in front of it and from the end of its line.
-/
structure PlainName (name : String) : Prop where
  unbroken : '\n' ∉ name.toList
  flush : name.toList.head? ≠ some ' '

/-- A line is the blanks of its depth and the name. -/
theorem toList_line (entry : Entry) :
    entry.line.toList =
      List.replicate (2 * entry.depth) ' ' ++ entry.name.toList := by
  rw [Entry.line, String.toList_append, String.toList_ofList]

/-- The entry that a line shows. -/
def Entry.ofLine (line : List Char) : Entry where
  depth := (line.takeWhile (· == ' ')).length / 2
  name := String.ofList (line.dropWhile (· == ' '))

/-- An entry with a plain name can be read from its line. -/
theorem ofLine_line {entry : Entry} (plain : PlainName entry.name) :
    Entry.ofLine entry.line.toList = entry := by
  have blanks :
      ∀ letter ∈ List.replicate (2 * entry.depth) ' ', (letter == ' ') = true := by
    intro letter member
    rw [List.eq_of_mem_replicate member]
    rfl
  have flush :
      entry.name.toList.takeWhile (· == ' ') = [] ∧
        entry.name.toList.dropWhile (· == ' ') = entry.name.toList := by
    cases letters : entry.name.toList with
    | nil => exact ⟨rfl, rfl⟩
    | cons letter others =>
        have notBlank : ¬ (letter == ' ') = true := by
          intro isBlank
          apply plain.flush
          rw [letters, List.head?_cons, eq_of_beq isBlank]
        exact
          ⟨List.takeWhile_cons_of_neg notBlank, List.dropWhile_cons_of_neg notBlank⟩
  obtain ⟨noneTaken, noneDropped⟩ := flush
  rw [Entry.ofLine, toList_line, List.takeWhile_append_of_pos blanks,
    List.dropWhile_append_of_pos blanks, noneTaken, noneDropped, List.append_nil,
    List.length_replicate, Nat.mul_div_cancel_left entry.depth Nat.two_pos,
    String.ofList_toList]

/-- No line of a plain name is broken. -/
theorem unbroken_line {entry : Entry} (plain : PlainName entry.name) :
    '\n' ∉ entry.line.toList := by
  rw [toList_line, List.mem_append]
  rintro (inBlanks | inName)
  · cases List.eq_of_mem_replicate inBlanks
  · exact plain.unbroken inName

/--
Texts that are each ended by a character they do not contain come back when it
splits.
-/
theorem splitOn_flatMap_ended
    {Letter : Type}
    [BEq Letter]
    [LawfulBEq Letter]
    {ending : Letter}
    {pieces : List (List Letter)}
    (unbroken : ∀ piece ∈ pieces, ending ∉ piece) :
    (pieces.flatMap fun piece => piece ++ [ending]).splitOn ending =
      pieces ++ [[]] := by
  induction pieces with
  | nil => rfl
  | cons piece others inductionHypothesis =>
      obtain ⟨pieceUnbroken, othersUnbroken⟩ := List.forall_mem_cons.mp unbroken
      have alone : piece.splitOnP (· == ending) = [piece] := by
        apply List.splitOnP_eq_singleton
        intro letter member
        exact beq_eq_false_iff_ne.mpr fun same => pieceUnbroken (same ▸ member)
      have parted :
          (piece ++ ending :: others.flatMap fun piece => piece ++ [ending]).splitOn
              ending =
            [piece] ++
              (others.flatMap fun piece => piece ++ [ending]).splitOn ending := by
        rw [List.splitOn_eq_splitOnP, List.splitOn_eq_splitOnP, ← alone]
        exact List.splitOnP_append_cons piece _ (beq_self_eq_true ending)
      rw [List.flatMap_cons, List.append_assoc, List.singleton_append, parted,
        inductionHypothesis othersUnbroken]
      rfl

/-- Every name that an outline shows is plain. -/
def Plain (outline : Outline) : Prop :=
  ∀ entry ∈ outline.entries 0, PlainName entry.name

/--
The lines of a text are the lines of the outline, and nothing is behind the last
one.
-/
theorem splitOn_text {outline : Outline} (plain : outline.Plain) :
    outline.text.toList.splitOn '\n' =
      (outline.entries 0).map (fun entry => entry.line.toList) ++ [[]] := by
  have ended :
      outline.text.toList =
        ((outline.entries 0).map fun entry => entry.line.toList).flatMap
          fun piece => piece ++ ['\n'] := by
    rw [text, String.toList_join, lines_eq_map_entries]
    simp only [List.flatMap_map, String.toList_append]
    rfl
  rw [ended]
  apply splitOn_flatMap_ended
  intro piece member
  obtain ⟨entry, shown, rfl⟩ := List.mem_map.mp member
  exact unbroken_line (plain entry shown)

/-- The entries that a text shows. -/
def entriesOf (text : String) : List Entry :=
  (text.toList.splitOn '\n').dropLast.map Entry.ofLine

/-- The entries of an outline of plain names can be read from its text. -/
theorem entriesOf_text {outline : Outline} (plain : outline.Plain) :
    entriesOf outline.text = outline.entries 0 := by
  rw [entriesOf, splitOn_text plain, List.dropLast_concat, List.map_map]
  have readBack :
      (outline.entries 0).map (fun entry => Entry.ofLine entry.line.toList) =
        (outline.entries 0).map id :=
    List.map_congr_left fun entry shown => ofLine_line (plain entry shown)
  exact readBack.trans (List.map_id _)

/-- An outline of plain names is told by its text. -/
theorem text_inj
    {first second : Outline}
    (firstPlain : first.Plain)
    (secondPlain : second.Plain)
    (same : first.text = second.text) :
    first = second := by
  apply entries_inj
  rw [← entriesOf_text firstPlain, ← entriesOf_text secondPlain, same]

end Outline

end StreamJoin
