import Lockstep.Program.Fault
import Lockstep.Program.Instruction
import Lockstep.Text.Blank
import Lockstep.Text.Casing

/-!
One line of a program text. It is read in lower case, up to a comment, and holds at most a label
and after it at most an instruction:

    loop: MOV CH1 ACC   ; again

Words are divided by white space or commas.
-/
namespace Lockstep

structure SourceLine where
  label : Option String
  /-- the instruction, none where the line has none, or why it is not one -/
  body : Except AssemblyFault (Option Instruction)

namespace SourceLine

def startsComment (c : Char) : Bool := c == ';' || c == '#'

/-- A name is a letter from `a` to `z`, then such letters, digits and underscores. -/
def isName : List Char → Bool
  | [] => false
  | c :: rest => c.isLower && rest.all fun c => c.isLower || c.isDigit || c == '_'

/-- A label is a name right before the first colon. -/
def splitLabel (s : List Char) : Option String × List Char :=
  match Text.cutAt ':' s with
  | some (name, rest) =>
    if isName name then (some (String.ofList name), Text.trim rest) else (none, s)
  | none => (none, s)

def readable (word : List Char) (otherwise : Except AssemblyFault Operand) :
    Except AssemblyFault Operand :=
  match Register.ofWord? word with
  | some r => if r.readable then .ok (.register r) else .error (.cannotRead r)
  | none =>
    match channelOfWord? word with
    | some id => .ok (.channel id)
    | none => otherwise

def writable (word : List Char) : Except AssemblyFault Operand :=
  match Register.ofWord? word with
  | some r => if r.writable then .ok (.register r) else .error (.cannotWrite r)
  | none =>
    match channelOfWord? word with
    | some id => .ok (.channel id)
    | none => .error (.invalidOperand (String.ofList word))

/-- A numeral is a literal where a number is asked for and a distance where a label is. -/
def literal (position : Nat) (value : Int64) : OperandKind → Except AssemblyFault Operand
  | .number => .ok (.immediate value)
  | .label =>
    match Text.int32? value.toInt with
    | some distance => .ok (.offset distance)
    | none => .error (.offsetOutOfRange value)
  | kind => .error (.operandKind position kind)

def operand (position : Nat) (kind : OperandKind) (word : List Char) :
    Except AssemblyFault Operand :=
  match (Text.integer? word).bind Text.int64? with
  | some value => literal position value kind
  | none =>
    match kind with
    | .channel =>
      match channelOfWord? word with
      | some id => .ok (.channel id)
      | none => .error (.operandKind position .channel)
    | .label =>
      readable word <|
        if isName word then .ok (.label (String.ofList word))
        else .error (.invalidLabel (String.ofList word))
    | .number => readable word (.error (.invalidOperand (String.ofList word)))
    | .register => writable word

def operands (position : Nat) :
    List OperandKind → List (List Char) → Except AssemblyFault (List Operand)
  | kind :: kinds, word :: words => do
    let op ← operand position kind word
    let ops ← operands (position + 1) kinds words
    return op :: ops
  | _, _ => .ok []

def instruction (line : Nat) (s : List Char) : Except AssemblyFault Instruction :=
  match Text.words s with
  | [] => .error (.invalidOperand (String.ofList s))
  | word :: rest =>
    if word = "nop".toList ∧ rest = [] then .ok (Instruction.nop line)
    else
      match Opcode.ofWord? word with
      | none => .error (.unknownInstruction (String.ofList word))
      | some opcode =>
        if rest.length = opcode.arity then do
          let ops ← operands 1 opcode.signature rest
          return ⟨opcode, ops, line⟩
        else .error (.operandCount opcode)

def read (line : Nat) (raw : List Char) : SourceLine :=
  let code := Text.trim ((Text.lowercase raw).takeWhile fun c => !startsComment c)
  let split := splitLabel code
  ⟨split.1, if split.2 = [] then .ok none else (instruction line split.2).map some⟩

end SourceLine
end Lockstep
