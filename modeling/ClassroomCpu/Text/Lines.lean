/-!
# Lines

A text is cut into lines at its line feeds.  A carriage return directly in
front of a line feed belongs to the line end, and a last line is only there if
it holds something.
-/

namespace ClassroomCpu.Text

/-- Takes away one carriage return that was read last. -/
def dropReturn : List Char → List Char
  | '\r' :: earlier => earlier
  | reversed => reversed

/--
The lines of a text, after the start of a line whose characters so far are
`current`, last one first.
-/
def linesFrom (current : List Char) : List Char → List (List Char)
  | [] => if current.isEmpty then [] else [current.reverse]
  | c :: rest =>
      if c = '\n' then (dropReturn current).reverse :: linesFrom [] rest
      else linesFrom (c :: current) rest

/-- The lines of a text, without their line ends. -/
def lines (text : String) : List String :=
  (linesFrom [] text.toList).map String.ofList

/-- The lines that there are when texts are printed one below the other. -/
def printedLines (texts : List String) : List String :=
  lines (String.join (texts.map (· ++ "\n")))

end ClassroomCpu.Text
