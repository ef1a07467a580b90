import Lockstep.Program.CodeError
import Lockstep.Program.Instruction

/-!
The compact code of a program: a letter for each operation, then its operands.

    X A I O   the registers NIL, ACC, INPUT, OUTPUT
    Z         zero
    P9  N9    a positive and a negative literal
    C9        a channel

A literal is a number where a number is asked for and a distance where a label is. Numbers after a
letter have no leading zero and are not zero, so every program has one code and every code one
program: `MOV ACC INPUT`, `INC`, `JMP 0` is `mAIijZ`.
-/
namespace Lockstep

def nodeMark : Char := '@'

namespace Code

def literal (n : Int) : List Char :=
  if n = 0 then ['Z'] else (if 0 < n then 'P' else 'N') :: Text.digits n.natAbs

def operand : Operand → Except CodeError (List Char)
  | .register .nil => .ok ['X']
  | .register .acc => .ok ['A']
  | .register .input => .ok ['I']
  | .register .output => .ok ['O']
  | .immediate v => .ok (literal v.toInt)
  | .offset d => .ok (literal d.toInt)
  | .channel id => .ok ('C' :: Text.digits id.toNat)
  | .label name => .error (.unresolvedLabel name)

def operands : List Operand → Except CodeError (List Char)
  | [] => .ok []
  | op :: ops => do
    let first ← operand op
    let rest ← operands ops
    return first ++ rest

def instruction (index : Nat) (i : Instruction) : Except CodeError (List Char) :=
  match i.target? with
  | some (.label name) => .error (.unresolvedLabel name)
  | _ =>
    if i.conforms then do
      let ops ← operands i.operands
      return i.opcode.code :: ops
    else .error (.invalidInstruction index)

def instructionsFrom (index : Nat) : Program → Except CodeError (List Char)
  | [] => .ok []
  | i :: rest => do
    let first ← instruction index i
    let more ← instructionsFrom (index + 1) rest
    return first ++ more

/-! Reading. -/

/-- A place in a text: the bytes before it and the characters from it on. -/
structure Cursor where
  offset : Nat
  rest : List Char

def Cursor.skip (c : Cursor) (n : Nat) : Cursor := ⟨c.offset + n, c.rest.drop n⟩

/-- The character that the first byte of `c` stands for on its own. -/
def leadByte (c : Char) : Char :=
  match String.utf8EncodeChar c with
  | b :: _ => Char.ofNat b.toNat
  | [] => c

def Cursor.digits (c : Cursor) : List Char := c.rest.takeWhile Char.isDigit

def magnitude (c : Cursor) : Except CodeError (Nat × Cursor) :=
  match c.digits with
  | [] => .error (.truncated c.offset)
  | '0' :: _ => .error (.nonCanonicalNumber c.offset)
  | ds => .ok (Nat.ofDigitChars 10 ds 0, c.skip ds.length)

/-- A literal too large for a distance stays a number, which fits no label. -/
def literalOperand (kind : OperandKind) (value : Int64) : Operand :=
  match kind with
  | .label =>
    match Text.int32? value.toInt with
    | some d => .offset d
    | none => .immediate value
  | _ => .immediate value

def readLiteral (kind : OperandKind) (negative : Bool) (c : Cursor) :
    Except CodeError (Operand × Cursor) := do
  let (n, next) ← magnitude c
  match Text.int64? (if negative then -(n : Int) else n) with
  | some value => return (literalOperand kind value, next)
  | none => throw (.numberOutOfRange c.offset)

def readChannel (c : Cursor) : Except CodeError (Operand × Cursor) := do
  let (n, next) ← magnitude c
  match Text.uint32? n with
  | some id => return (.channel id, next)
  | none => throw (.numberOutOfRange c.offset)

def readOperand (kind : OperandKind) (c : Cursor) : Except CodeError (Operand × Cursor) :=
  match c.rest with
  | [] => .error (.truncated c.offset)
  | tag :: _ =>
    match tag with
    | 'X' => .ok (.register .nil, c.skip 1)
    | 'A' => .ok (.register .acc, c.skip 1)
    | 'I' => .ok (.register .input, c.skip 1)
    | 'O' => .ok (.register .output, c.skip 1)
    | 'Z' => .ok (literalOperand kind 0, c.skip 1)
    | 'P' => readLiteral kind false (c.skip 1)
    | 'N' => readLiteral kind true (c.skip 1)
    | 'C' => readChannel (c.skip 1)
    | other => .error (.unknownOperand (leadByte other) c.offset)

def readOperands (opcode : Opcode) (position : Nat) :
    List OperandKind → Cursor → Except CodeError (List Operand × Cursor)
  | [], c => .ok ([], c)
  | kind :: kinds, c => do
    let (op, next) ← readOperand kind c
    if op.fits kind then
      let (ops, last) ← readOperands opcode (position + 1) kinds next
      return (op :: ops, last)
    else throw (.operandNotAllowed opcode position c.offset)

/-- At most `fuel` instructions, up to the end of the text or a node mark. Each takes a character at
least, so the length of the text is fuel enough. -/
def readInstructions : Nat → Nat → Cursor → Except CodeError (Program × Cursor)
  | 0, _, c => .ok ([], c)
  | fuel + 1, index, c =>
    match c.rest with
    | [] => .ok ([], c)
    | letter :: _ =>
      if letter = nodeMark then .ok ([], c)
      else
        match Opcode.ofCode? letter with
        | none => .error (.unknownOpcode (leadByte letter) c.offset)
        | some opcode => do
          let (ops, next) ← readOperands opcode 1 opcode.signature (c.skip 1)
          let (more, last) ← readInstructions fuel (index + 1) next
          return (⟨opcode, ops, index⟩ :: more, last)

def strays? (length : Nat) (i : Instruction) : Option Int32 :=
  match i.target? with
  | some (.offset d) => if 0 ≤ d.toInt ∧ d.toInt < length then none else some d
  | _ => none

def firstStray? (length index : Nat) : Program → Option (Nat × Int32)
  | [] => none
  | i :: rest =>
    match strays? length i with
    | some d => some (index, d)
    | none => firstStray? length (index + 1) rest

def readProgram (c : Cursor) : Except CodeError (Program × Cursor) := do
  let (p, next) ← readInstructions c.rest.length 0 c
  match firstStray? p.length 0 p with
  | some (index, d) => throw (.offsetOutOfRange index d p.length)
  | none => return (p, next)

end Code

namespace Program

def encode (p : Program) : Except CodeError String := (Code.instructionsFrom 0 p).map String.ofList

def decode (text : String) : Except CodeError Program := do
  let (p, next) ← Code.readProgram ⟨0, text.toList⟩
  match next.rest with
  | [] => return p
  | c :: _ => throw (.unknownOpcode (Code.leadByte c) next.offset)

def sameOperations : Program → Program → Bool
  | [], [] => true
  | a :: p, b :: q => a.sameOperation b && sameOperations p q
  | _, _ => false

/-- The code, once reading it back has given the same operations and the same code again. -/
def verifiedCode (p : Program) : Except CodeError String := do
  let first ← p.encode
  let back ← decode first
  let second ← back.encode
  if first = second ∧ back.sameOperations p then return first
  else throw (.roundTripMismatch first second)

end Program
end Lockstep
