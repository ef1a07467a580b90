import Lockstep.Program.Opcode
import Lockstep.Text.Numeral

/-!
Operands: literal numbers, the four registers, channels, and jump targets, which are either a name
still to be looked up or a distance in instructions from the jump itself.
-/
namespace Lockstep

inductive Register where
  | acc
  /-- reads as zero and forgets what is written -/
  | nil
  | input
  | output
  deriving Repr, DecidableEq

namespace Register

def all : List Register := [acc, nil, input, output]

def word : Register → String
  | acc => "acc"
  | nil => "nil"
  | input => "input"
  | output => "output"

def name : Register → String
  | acc => "ACC"
  | nil => "NIL"
  | input => "INPUT"
  | output => "OUTPUT"

def ofWord? (word : List Char) : Option Register := all.find? fun r => r.word.toList = word

def readable : Register → Bool
  | output => false
  | _ => true

def writable : Register → Bool
  | input => false
  | _ => true

end Register

/-- A channel word is `ch` and a number from 1 up, leading zeros allowed. -/
def channelOfWord? : List Char → Option UInt32
  | 'c' :: 'h' :: ds =>
    match Text.natural? ds with
    | some n => if n = 0 then none else Text.uint32? n
    | none => none
  | _ => none

inductive Operand where
  | immediate (value : Int64)
  | register (register : Register)
  | channel (id : UInt32)
  | offset (distance : Int32)
  | label (name : String)
  deriving Repr, DecidableEq

namespace Operand

def fits : Operand → OperandKind → Bool
  | register r, .register => r.writable
  | channel _, .register => true
  | immediate _, .number => true
  | register r, .number => r.readable
  | channel _, .number => true
  | offset _, .label => true
  | label _, .label => true
  | register r, .label => r.readable
  | channel _, .label => true
  | channel _, .channel => true
  | _, _ => false

def channel? : Operand → Option UInt32
  | channel id => some id
  | _ => none

/-- A jump target whose value is only known when the jump is made. -/
def isComputed : Operand → Bool
  | register _ => true
  | channel _ => true
  | _ => false

def text : Operand → String
  | immediate v => Text.signedNumeral v.toInt
  | register r => r.name
  | channel id => "CH" ++ Text.numeral id.toNat
  | offset d => Text.signedNumeral d.toInt
  | label name => name

end Operand
end Lockstep
