import ClassroomCpu.Assembly.Encoding
import ClassroomCpu.Text.EditDistance

/-!
# Statements

A statement is an instruction of the machine or a directive.  Either it moves
the place at which bytes are put, or it gives the bytes to put there.

* `org` goes on at another address.
* `db` and `dw` give one value of one or two bytes, or a zero.
* `dab` and `daw` give several values and texts, or a number of zeros.
-/

namespace ClassroomCpu.Assembly

/-- What a statement does. -/
inductive Effect (arch : Architecture)
  /-- The next byte is put at an address. -/
  | origin (address : Fin arch.memorySize)
  /-- Bytes are put one behind the other. -/
  | data (bytes : List UInt8)

/-! ## Directives -/

/-- The directives. -/
inductive Directive
  | org
  | db
  | dw
  | dab
  | daw
  deriving DecidableEq, Repr

namespace Directive

/-- All directives. -/
def all : List Directive :=
  [org, db, dw, dab, daw]

/-- The mnemonic of a directive. -/
def mnemonic : Directive → String
  | org => "org"
  | db => "db"
  | dw => "dw"
  | dab => "dab"
  | daw => "daw"

/-- The number of bytes of a value. -/
def width : Directive → Nat
  | dw | daw => 2
  | org | db | dab => 1

/-- The directive with a mnemonic, whatever the case of its letters. -/
def ofMnemonic? (mnemonic : String) : Option Directive :=
  all.find? fun directive => directive.mnemonic == Text.lowercase mnemonic

/-- The problem of a directive with too few or too many arguments. -/
def wrongNumber (directive : Directive) : Problem :=
  .wrongNumberOfArguments (Text.uppercase directive.mnemonic)

end Directive

/-- The bytes of a value or of a text in a data directive. -/
def dataItem (scope : Scope) (order : ByteOrder) (width : Nat) :
    Token → Outcome (List UInt8)
  | .quoted text =>
      let content := Token.unquote text.toList
      if content.isEmpty || content.any fun c => 128 ≤ c.toNat then
        reject (.invalidString text)
      else .ok (content.flatMap fun c => order.encode width c.toNat)
  | .word text => do
      let value ← scope.number (.ofBytes width) .invalidValue (.word text)
      return order.encode width value
  | token => reject (.invalidArgument token.text)

/-- The bytes of the values and texts of a data directive. -/
def dataBytes (scope : Scope) (order : ByteOrder) (width : Nat) :
    List Token → Outcome (List UInt8)
  | [] => .ok []
  | token :: tokens => do
      let first ← dataItem scope order width token
      let others ← dataBytes scope order width tokens
      return first ++ others

/-- The address at which `org` goes on; it has to be known while memory is reserved. -/
def originAddress (scope : Scope) (arch : Architecture) (text : String) :
    Outcome (Effect arch) := do
  let resolved ← orReject (.invalidAddress text) (resolve? scope.labels text)
  if (Bounds.ofMemory arch).holds resolved.value then
    return .origin (arch.wrap resolved.value)
  else reject (.invalidAddress text)

/-- The zeros that a data directive with a number in brackets gives. -/
def allocation (scope : Scope) (arch : Architecture) (width : Nat) (count : Token) :
    Outcome (Effect arch) :=
  let problem := Problem.invalidValue count.text
  match count with
  | .word text => do
      let resolved ← orReject problem (resolve? scope.labels text)
      if resolved.value < 0 || arch.memorySize < resolved.value.toNat * width then
        reject problem
      else return .data (List.replicate (resolved.value.toNat * width) 0)
  | _ => reject problem

/-- The effect of a directive; commas between its arguments do not matter. -/
def directiveEffect (scope : Scope) (arch : Architecture) (directive : Directive)
    (arguments : List Token) : Outcome (Effect arch) :=
  let width := directive.width
  let data (tokens : List Token) : Outcome (Effect arch) :=
    (dataBytes scope arch.byteOrder width tokens).map .data
  match directive, arguments.filter fun token => token ≠ .comma with
  | .org, [.word text] => originAddress scope arch text
  | .org, [token] => reject (.invalidArgument token.text)
  | .org, _ => reject directive.wrongNumber
  | .db, [] | .dw, [] => .ok (.data (List.replicate width 0))
  | .db, [token] | .dw, [token] => data [token]
  | .db, _ | .dw, _ => reject directive.wrongNumber
  | .dab, [] | .daw, [] => reject directive.wrongNumber
  | .dab, [.openBracket, count, .closeBracket]
  | .daw, [.openBracket, count, .closeBracket] => allocation scope arch width count
  | .dab, tokens | .daw, tokens => data tokens

/-! ## Instructions -/

/-- The first of the candidates with the least distance, with that distance. -/
def closest? (distance : String → Nat) (candidates : List String) : Option (Nat × String) :=
  candidates.foldl (fun best candidate =>
    let here := distance candidate
    match best with
    | some (least, closest) =>
        if here < least then some (here, candidate) else some (least, closest)
    | none => some (here, candidate)) none

/-- The known mnemonic closest to an unknown one, if it is at most two edits away. -/
def suggestion? (sheet : Datasheet) (mnemonic : String) : Option String :=
  let candidates :=
    sheet.instructions.map Instruction.mnemonic ++ Directive.all.map Directive.mnemonic
  match closest? (Text.editDistance (Text.lowercase mnemonic)) candidates with
  | some (distance, closest) => if distance ≤ 2 then some (Text.uppercase closest) else none
  | none => none

/-- The problem of the rest of a statement that is no token. -/
def lexicalProblem (rest : List Char) : Problem :=
  if rest.head? = some '\'' then .invalidString (String.ofList rest)
  else .invalidArgument (String.ofList rest)

/-- The effect of a statement with the given mnemonic and arguments. -/
def mnemonicEffect (scope : Scope) (arch : Architecture) (mnemonic : String)
    (arguments : List Token) : Outcome (Effect arch) :=
  match Directive.ofMnemonic? mnemonic with
  | some directive => directiveEffect scope arch directive arguments
  | none =>
      match arch.instructionNamed? mnemonic with
      | some instruction => do
          let arguments ← parseArguments arch.toDatasheet instruction arguments
          let bytes ← encode scope arch instruction arguments
          return .data bytes
      | none =>
          reject (.invalidInstruction (Text.uppercase mnemonic)
            (suggestion? arch.toDatasheet mnemonic))

/-- The effect of a statement. -/
def statementEffect (scope : Scope) (arch : Architecture) (statement : String) :
    Outcome (Effect arch) :=
  match Token.lex statement.toList with
  | .error rest => reject (lexicalProblem rest)
  | .ok (.word mnemonic :: arguments) => mnemonicEffect scope arch mnemonic arguments
  | .ok _ => reject (.invalidInstruction statement none)

end ClassroomCpu.Assembly
