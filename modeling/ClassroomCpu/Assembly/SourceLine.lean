import ClassroomCpu.Assembly.Token.Lexer
import ClassroomCpu.Text.Blank
import ClassroomCpu.Text.Lines

/-!
# Lines of a program

A line is a statement with a label in front and a comment behind, each of
which may be missing.  A semicolon starts the comment and a colon ends the
label, unless they stand between quotes.
-/

namespace ClassroomCpu.Assembly

/-- Where a scan for characters outside quotes stands. -/
inductive QuoteScan
  /-- Outside quotes. -/
  | outside
  /-- Between an opening quote and the quote that closes it. -/
  | inside
  /-- In front of the last but one of three quotes that are the quote character. -/
  | loneSecond
  /-- In front of the last of three quotes that are the quote character. -/
  | loneThird
  deriving DecidableEq, Repr

namespace QuoteScan

/-- Whether a quote and what follows it start with three quotes that are the quote character. -/
def startsLone : List Char → Bool
  | '\'' :: '\'' :: rest => Token.endsLoneQuote rest.head?
  | _ => false

/-- Where the scan stands behind a character with the given text behind it. -/
def next (scan : QuoteScan) (c : Char) (rest : List Char) : QuoteScan :=
  match scan with
  | outside => if c = '\'' then (if startsLone rest then loneSecond else inside) else outside
  | inside => if c = '\'' then outside else inside
  | loneSecond => loneThird
  | loneThird => outside

end QuoteScan

/-- Cuts a text at the first needle outside quotes, from where a scan stands. -/
def cutFrom? (needle : Char) (scan : QuoteScan) : List Char → Option (List Char × List Char)
  | [] => none
  | c :: rest =>
      if scan = .outside ∧ c = needle then some ([], rest)
      else
        (cutFrom? needle (scan.next c rest) rest).map fun (before, after) => (c :: before, after)

/-- Cuts a text at the first needle outside quotes. -/
def cutUnquoted? (needle : Char) (text : List Char) : Option (List Char × List Char) :=
  cutFrom? needle .outside text

/-- A line without its comment. -/
structure SourceLine where
  /-- The text in front of the colon, if there is one. -/
  label : Option String
  /-- The statement; empty if there is none. -/
  statement : String
  deriving DecidableEq, Repr

namespace SourceLine

/-- The line without its comment. -/
def dropComment (text : List Char) : List Char :=
  match cutUnquoted? ';' text with
  | some (before, _) => before
  | none => text

/-- The parts of a line. -/
def ofText (text : List Char) : SourceLine :=
  let code := dropComment text
  match cutUnquoted? ':' code with
  | some (label, statement) =>
      ⟨some (String.ofList (Text.trim label)), String.ofList (Text.trim statement)⟩
  | none => ⟨none, String.ofList (Text.trim code)⟩

/-- The lines of a program. -/
def ofSource (source : String) : List SourceLine :=
  (Text.lines source).map fun line => ofText line.toList

theorem ofSource_eq (source : String) :
    ofSource source = (Text.linesFrom [] source.toList).map ofText := by
  simp [ofSource, Text.lines, Function.comp_def]

end SourceLine

end ClassroomCpu.Assembly
