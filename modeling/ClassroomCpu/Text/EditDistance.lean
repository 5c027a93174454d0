/-!
# Edit distance

The least number of insertions, deletions and replacements of one character
that turn one text into another, by the usual table of the distances between
the starts of the two texts.
-/

namespace ClassroomCpu.Text

/--
One row of the table without its first entry.  `symbol` is the character that
the row adds, `left` the entry written last, and the rows hold the entry
diagonally above it followed by the entries above the ones to write.
-/
def distancesFrom (symbol : Char) (left : Nat) : List Char → List Nat → List Nat
  | other :: others, diagonal :: above :: further =>
      let entry :=
        min (min (left + 1) (above + 1)) (if symbol = other then diagonal else diagonal + 1)
      entry :: distancesFrom symbol entry others (above :: further)
  | _, _ => []

/-- The row that follows `row` when `symbol` is added to the first text. -/
def nextDistances (target : List Char) (row : List Nat) (symbol : Char) : List Nat :=
  let start := row.headD 0 + 1
  start :: distancesFrom symbol start target row

/-- The edit distance of two texts. -/
def editDistance (source target : String) : Nat :=
  let goal := target.toList
  (source.toList.foldl (nextDistances goal) (List.range (goal.length + 1))).getLastD 0

end ClassroomCpu.Text
