import Lockstep.Layout.NodeClass
import Lockstep.Program.Instruction

/-!
Warnings about programs that assemble but will fail, or may fail, when they run. A program that
gives none fails only where its output is refused.
-/
namespace Lockstep

inductive Warning where
  | readsAndWrites (channel : UInt32)
  | readsBroadcast (channel : UInt32)
  | tooManyChannels (count : Nat) (nodeClass : NodeClass)
  deriving Repr, DecidableEq

def Warning.message : Warning → String
  | readsAndWrites channel =>
    "Reads and writes " ++ (Operand.channel channel).text ++ " in one instruction"
  | readsBroadcast channel =>
    "Reads " ++ (Operand.channel channel).text
      ++ " which this node also broadcasts; turn it off first"
  | tooManyChannels count nodeClass =>
    "Broadcasts on " ++ Text.numeral count ++ " channels but " ++ nodeClass.name ++ " allows "
      ++ Text.numeral nodeClass.channels

structure Diagnostic where
  line : Nat
  warning : Warning
  deriving Repr, DecidableEq

def Diagnostic.message (d : Diagnostic) : String := d.warning.message

namespace Instruction

/-- The channel that the instruction may turn on. A literal zero only turns one off. -/
def broadcasts? (i : Instruction) : Option UInt32 :=
  match i.opcode, i.operands with
  | .mov, .channel id :: source :: _ => if source = .immediate 0 then none else some id
  | _, _ => none

def collides? (i : Instruction) : Option UInt32 :=
  match i.opcode, i.operands with
  | .mov, .channel a :: .channel b :: _ => if a = b then some a else none
  | _, _ => none

/-- The operands read: all but the destination of a move. -/
def sources (i : Instruction) : List Operand :=
  match i.opcode with
  | .mov => (i.operands.drop 1).take 1
  | _ => i.operands

def channelsRead (i : Instruction) : List UInt32 := i.sources.filterMap Operand.channel?

def warnings (broadcast : List UInt32) (i : Instruction) : List Warning :=
  match i.collides? with
  | some id => [.readsAndWrites id]
  | none => (i.channelsRead.filter fun id => decide (id ∈ broadcast)).map .readsBroadcast

end Instruction

namespace Program

def broadcastChannels (p : Program) : List UInt32 :=
  (p.filterMap Instruction.broadcasts?).eraseDups

def lint (p : Program) (nodeClass : NodeClass) : List Diagnostic :=
  let broadcast := p.broadcastChannels
  (p.flatMap fun i => (i.warnings broadcast).map (Diagnostic.mk i.line)) ++
    if nodeClass.channels < broadcast.length then
      [⟨0, .tooManyChannels broadcast.length nodeClass⟩]
    else []

end Program
end Lockstep
