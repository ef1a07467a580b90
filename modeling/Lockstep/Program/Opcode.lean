/-!
The nine operations of a node program, with the kinds of operand each takes and the letter each has
in the compact code.
-/
namespace Lockstep

inductive OperandKind where
  /-- something to write to -/
  | register
  /-- something to read a number from -/
  | number
  | label
  | channel
  deriving Repr, DecidableEq

def OperandKind.name : OperandKind → String
  | .register => "register"
  | .number => "number"
  | .label => "label"
  | .channel => "channel"

inductive Condition where
  | negative
  | zero
  | positive
  | nonzero
  deriving Repr, DecidableEq

def Condition.holds : Condition → Int → Bool
  | .negative, n => n < 0
  | .zero, n => n = 0
  | .positive, n => 0 < n
  | .nonzero, n => n ≠ 0

inductive Opcode where
  | mov
  | inc
  | dec
  | neg
  | jmp
  | jlz
  | jez
  | jgz
  | jnz
  deriving Repr, DecidableEq

namespace Opcode

def all : List Opcode := [mov, inc, dec, neg, jmp, jlz, jez, jgz, jnz]

def word : Opcode → String
  | mov => "mov"
  | inc => "inc"
  | dec => "dec"
  | neg => "neg"
  | jmp => "jmp"
  | jlz => "jlz"
  | jez => "jez"
  | jgz => "jgz"
  | jnz => "jnz"

def name : Opcode → String
  | mov => "MOV"
  | inc => "INC"
  | dec => "DEC"
  | neg => "NEG"
  | jmp => "JMP"
  | jlz => "JLZ"
  | jez => "JEZ"
  | jgz => "JGZ"
  | jnz => "JNZ"

def code : Opcode → Char
  | mov => 'm'
  | inc => 'i'
  | dec => 'd'
  | neg => 'n'
  | jmp => 'j'
  | jlz => 'l'
  | jez => 'e'
  | jgz => 'g'
  | jnz => 'z'

def ofWord? (word : List Char) : Option Opcode := all.find? fun op => op.word.toList = word

def ofCode? (code : Char) : Option Opcode := all.find? fun op => op.code = code

def signature : Opcode → List OperandKind
  | mov => [.register, .number]
  | inc => []
  | dec => []
  | neg => []
  | jmp => [.label]
  | jlz => [.channel, .label]
  | jez => [.channel, .label]
  | jgz => [.channel, .label]
  | jnz => [.channel, .label]

def arity (op : Opcode) : Nat := op.signature.length

def condition? : Opcode → Option Condition
  | jlz => some .negative
  | jez => some .zero
  | jgz => some .positive
  | jnz => some .nonzero
  | _ => none

def isJump : Opcode → Bool
  | jmp => true
  | jlz => true
  | jez => true
  | jgz => true
  | jnz => true
  | _ => false

end Opcode
end Lockstep
