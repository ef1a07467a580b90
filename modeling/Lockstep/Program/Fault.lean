import Lockstep.Program.Operand
import Lockstep.Text.Casing

/-!
What can be wrong with a program text, as causes. The words of each message are in `message`; names
and other pieces of the text are quoted in capitals.
-/
namespace Lockstep

inductive AssemblyFault where
  | duplicateLabel (name : String)
  | unknownLabel (name : String)
  | unknownInstruction (word : String)
  | operandCount (opcode : Opcode)
  /-- a number where a register or a channel is asked for, or a channel's place held by something
  else; positions count from one -/
  | operandKind (position : Nat) (kind : OperandKind)
  | offsetOutOfRange (value : Int64)
  | cannotRead (register : Register)
  | cannotWrite (register : Register)
  | invalidOperand (text : String)
  | invalidLabel (text : String)
  | tooManyLines (capacity : Nat)
  deriving Repr, DecidableEq

namespace AssemblyFault

def quoted (s : String) : String := "\"" ++ Text.capitals s ++ "\""

def message : AssemblyFault → String
  | duplicateLabel name => "Duplicate label " ++ quoted name
  | unknownLabel name => "Unknown label " ++ quoted name
  | unknownInstruction word => "Unknown instruction " ++ quoted word
  | operandCount opcode =>
    "\"" ++ opcode.name ++ "\" requires " ++ Text.numeral opcode.arity ++ " operand(s)"
  | operandKind position kind =>
    "Operand " ++ Text.numeral position ++ " must be a " ++ kind.name
  | offsetOutOfRange value => "Offset " ++ Text.signedNumeral value.toInt ++ " is out of range"
  | cannotRead register => register.name ++ " cannot be read"
  | cannotWrite register => register.name ++ " cannot be written to"
  | invalidOperand text => "Invalid operand " ++ quoted text
  | invalidLabel text => "Invalid label " ++ quoted text
  | tooManyLines capacity => "Too many lines (max " ++ Text.numeral capacity ++ ")"

end AssemblyFault

structure AssemblyError where
  line : Nat
  fault : AssemblyFault
  deriving Repr, DecidableEq

namespace AssemblyError

/-- Lines are counted from one where people read them. The count is a 64-bit word. -/
def atLine (line : Nat) (message : String) : String :=
  "Line " ++ Text.numeral ((line + 1) % UInt64.size) ++ ": " ++ message

def message (e : AssemblyError) : String := e.fault.message

def text (e : AssemblyError) : String := atLine e.line e.message

def earlier (found : Option AssemblyError) (e : AssemblyError) : Option AssemblyError :=
  match found with
  | some first => if first.line ≤ e.line then some first else some e
  | none => some e

/-- Of errors in the order they were found, the first on the smallest line. -/
def earliest? (es : List AssemblyError) : Option AssemblyError := es.foldl earlier none

end AssemblyError
end Lockstep
