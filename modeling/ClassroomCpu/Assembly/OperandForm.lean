import ClassroomCpu.Architecture.Datasheet
import ClassroomCpu.Assembly.Failure
import ClassroomCpu.Assembly.Token.Lexer

/-!
# Forms of operands

The written form of an addressing mode is cut into items by the same rules as
a statement.  An operand has a form if its tokens agree with the items one by
one; longer forms are tried first, so that an index behind a value is not left
over.
-/

namespace ClassroomCpu.Assembly

/-- An item of the form of an addressing mode. -/
inductive FormItem
  /-- A value, written `a` in the form. -/
  | value
  /-- The name of a register, written `r` in the form. -/
  | register
  /-- A text that stands as it is, whatever the case of its letters. -/
  | literal (text : String)
  deriving DecidableEq, Repr

/-- The item that a token of a form stands for. -/
def FormItem.ofToken (token : Token) : FormItem :=
  if token = .word "a" then .value
  else if token = .word "r" then .register
  else .literal token.text

/-- The items of a form. -/
def formItems (form : String) : Except Fault (List FormItem) :=
  match Token.lex form.toList with
  | .ok tokens => .ok (tokens.map FormItem.ofToken)
  | .error _ => .error (.operandForm form)

/-- An addressing mode with the items of its form. -/
structure CompiledMode where
  mode : AddressingMode
  items : List FormItem
  deriving DecidableEq

/-- The value and the register that an operand names. -/
structure OperandParts where
  value : Option Token
  register : Option RegisterSpec
  deriving DecidableEq

/-- An operand together with its addressing mode. -/
structure Operand extends OperandParts where
  mode : AddressingMode
  deriving DecidableEq

/-- Puts a mode in front of the modes with no longer form, behind those with a longer one. -/
def insertByLength (entry : CompiledMode) : List CompiledMode → List CompiledMode
  | [] => [entry]
  | other :: others =>
      if other.items.length ≤ entry.items.length then entry :: other :: others
      else other :: insertByLength entry others

/-- The modes with their items, those with longer forms first. -/
def compiledModes (sheet : Datasheet) : Except Fault (List CompiledMode) := do
  let entries ← sheet.addressingModes.mapM fun mode => do
    let items ← formItems mode.form
    return ⟨mode, items⟩
  return entries.foldr insertByLength []

/-- What the parts of an operand are after an item has met a token; none if they do not agree. -/
def matchItem? (sheet : Datasheet) (parts : OperandParts) (item : FormItem) (token : Token) :
    Option OperandParts :=
  match item, token with
  | .value, .word text =>
      if (sheet.selectableRegister? text).isNone then some { parts with value := some token }
      else none
  | .value, .quoted _ => some { parts with value := some token }
  | .register, .word name =>
      (sheet.selectableRegister? name).map fun register => { parts with register := some register }
  | .literal text, token => if Text.sameLetters token.text text then some parts else none
  | _, _ => none

/-- The parts of an operand at the start of some tokens, and the tokens behind it. -/
def matchItems? (sheet : Datasheet) (parts : OperandParts) :
    List FormItem → List Token → Option (OperandParts × List Token)
  | [], rest => some (parts, rest)
  | _ :: _, [] => none
  | item :: items, token :: tokens =>
      match matchItem? sheet parts item token with
      | some parts => matchItems? sheet parts items tokens
      | none => none

/-- The operand with the first form that fits the start of some tokens, and the tokens behind it. -/
def matchOperand? (sheet : Datasheet) (tokens : List Token) :
    Except Fault (Option (Operand × List Token)) := do
  let modes ← compiledModes sheet
  return modes.findSome? fun entry =>
    (matchItems? sheet ⟨none, none⟩ entry.items tokens).map fun (parts, rest) =>
      (⟨parts, entry.mode⟩, rest)

end ClassroomCpu.Assembly
