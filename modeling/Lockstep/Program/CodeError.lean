import Lockstep.Program.Opcode
import Lockstep.Text.Numeral

/-!
Why a program or a layout has no compact code, or why a text is not one. Offsets count the bytes of
the text before the place meant.
-/
namespace Lockstep

inductive CodeError where
  | unknownOpcode (code : Char) (offset : Nat)
  | unknownOperand (code : Char) (offset : Nat)
  | truncated (offset : Nat)
  | nonCanonicalNumber (offset : Nat)
  | numberOutOfRange (offset : Nat)
  | offsetOutOfRange (index : Nat) (value : Int32) (length : Nat)
  /-- positions count from one -/
  | operandNotAllowed (opcode : Opcode) (position : Nat) (offset : Nat)
  | unknownNodeClass (code : Char) (offset : Nat)
  | missingNodeMarker (offset : Nat)
  | duplicateSlot (slot : UInt8)
  | unresolvedLabel (name : String)
  | invalidInstruction (index : Nat)
  | roundTripMismatch (first second : String)
  deriving Repr, DecidableEq

namespace CodeError

def atOffset (offset : Nat) : String := " at offset " ++ Text.numeral offset

def quotedChar (c : Char) : String := "'" ++ String.singleton c ++ "'"

def message : CodeError → String
  | unknownOpcode code offset => "Unknown opcode " ++ quotedChar code ++ atOffset offset
  | unknownOperand code offset => "Unknown operand " ++ quotedChar code ++ atOffset offset
  | truncated offset => "Truncated input" ++ atOffset offset
  | nonCanonicalNumber offset => "Non-canonical number" ++ atOffset offset
  | numberOutOfRange offset => "Number out of range" ++ atOffset offset
  | offsetOutOfRange index value length =>
    "Jump offset " ++ Text.signedNumeral value.toInt ++ " of instruction " ++ Text.numeral index
      ++ " outside a " ++ Text.numeral length ++ "-instruction program"
  | operandNotAllowed opcode position offset =>
    "Operand " ++ Text.numeral position ++ " not allowed for " ++ opcode.name ++ atOffset offset
  | unknownNodeClass code offset => "Unknown node class " ++ quotedChar code ++ atOffset offset
  | missingNodeMarker offset => "Expected node marker '@'" ++ atOffset offset
  | duplicateSlot slot => "Duplicate slot " ++ Text.numeral slot.toNat
  | unresolvedLabel name => "Unresolved label \"" ++ name ++ "\" cannot be encoded"
  | invalidInstruction index =>
    "Instruction " ++ Text.numeral index ++ " does not match its signature"
  | roundTripMismatch first second => "Round trip mismatch: " ++ first ++ " != " ++ second

end CodeError
end Lockstep
