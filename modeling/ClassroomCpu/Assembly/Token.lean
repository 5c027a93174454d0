/-!
# Tokens

The tokens of an assembly statement: words, texts between single quotes, and
single characters.  Inside quotes a doubled quote stands for one quote.
-/

namespace ClassroomCpu.Assembly

/-- A token of an assembly statement. -/
inductive Token
  /-- A mnemonic, a name, a number, or a name with an offset. -/
  | word (text : String)
  /-- A text in single quotes, with the quotes. -/
  | quoted (text : String)
  | hash
  | comma
  | openParen
  | closeParen
  | plus
  | minus
  | openBracket
  | closeBracket
  deriving DecidableEq, Repr

namespace Token

/-- The text of a token. -/
def text : Token → String
  | word text => text
  | quoted text => text
  | hash => "#"
  | comma => ","
  | openParen => "("
  | closeParen => ")"
  | plus => "+"
  | minus => "-"
  | openBracket => "["
  | closeBracket => "]"

/-- Replaces doubled quotes by single ones. -/
def collapseQuotes : List Char → List Char
  | [] => []
  | '\'' :: '\'' :: rest => '\'' :: collapseQuotes rest
  | c :: rest => c :: collapseQuotes rest

/-- The text without a quote at each end, if there is one at each. -/
def stripQuotes (text : List Char) : List Char :=
  match text with
  | '\'' :: rest =>
      match rest.reverse with
      | '\'' :: reversed => reversed.reverse
      | _ => text
  | _ => text

/-- What a quoted text says. -/
def unquote (text : List Char) : List Char :=
  collapseQuotes (stripQuotes text)

end Token

end ClassroomCpu.Assembly
