import Lockstep.Program.Operand
import Lockstep.Text.Lines

/-!
Instructions and the text they are listed as. `conforms` says that the operands are those the
opcode asks for, in number and in kind.
-/
namespace Lockstep

structure Instruction where
  opcode : Opcode
  operands : List Operand
  line : Nat
  deriving Repr, DecidableEq

abbrev Program := List Instruction

namespace Instruction

def nop (line : Nat) : Instruction := ⟨.mov, [.register .nil, .register .nil], line⟩

/-- The last operand of a jump is where it goes. -/
def target? (i : Instruction) : Option Operand :=
  if i.opcode.isJump then i.operands.getLast? else none

def withTarget (i : Instruction) (target : Operand) : Instruction :=
  { i with operands := i.operands.dropLast ++ [target] }

def operandsFit : List OperandKind → List Operand → Bool
  | [], [] => true
  | kind :: kinds, op :: ops => op.fits kind && operandsFit kinds ops
  | _, _ => false

def conforms (i : Instruction) : Bool := operandsFit i.opcode.signature i.operands

def sameOperation (a b : Instruction) : Bool := a.opcode = b.opcode && a.operands = b.operands

def text (i : Instruction) : String :=
  i.operands.foldl (fun s op => s ++ " " ++ op.text) i.opcode.name

end Instruction

def Program.listing (p : Program) : String := Text.joinLines (p.map Instruction.text)

end Lockstep
