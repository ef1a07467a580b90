import Lockstep.Layout.NodeClass
import Lockstep.Program.Assembly

/-!
A node: its place and size, its program, and what it holds while it runs. The channels it
broadcasts on are kept in the order in which they were turned on, each with its value.
-/
namespace Lockstep

abbrev Channels := Table UInt32 Int

/-- The value read from a channel: zero where nobody broadcasts. -/
def Channels.value (channels : Channels) (id : UInt32) : Int := (channels.find? id).getD 0

inductive RuntimeFault where
  | operandCount (opcode : Opcode)
  | missingTarget
  | missingChannel
  | unknownLabel (name : String)
  | cannotRead (register : Register)
  | cannotWrite (register : Register)
  | notWritable (operand : Operand)
  | readsAndWrites (channel : UInt32)
  | readsOwnBroadcast (channel : UInt32)
  | tooManyChannels (limit : Nat)
  | refused (reason : String)
  deriving Repr, DecidableEq

namespace RuntimeFault

def message : RuntimeFault → String
  | operandCount opcode => opcode.name ++ " requires 2 operand(s)"
  | missingTarget => "Missing jump target"
  | missingChannel => "Missing channel"
  | unknownLabel name => (AssemblyFault.unknownLabel name).message
  | cannotRead register => (AssemblyFault.cannotRead register).message
  | cannotWrite register => (AssemblyFault.cannotWrite register).message
  | notWritable operand => "Cannot write to " ++ operand.text
  | readsAndWrites channel =>
    "Cannot read and write " ++ (Operand.channel channel).text ++ " at once"
  | readsOwnBroadcast channel =>
    "Cannot read " ++ (Operand.channel channel).text ++ " while broadcasting on it"
  | tooManyChannels limit => "Too many channels (max " ++ Text.numeral limit ++ ")"
  | refused reason => reason

end RuntimeFault

inductive NodeError where
  | static (error : AssemblyError)
  | runtime (line : Nat) (fault : RuntimeFault)
  deriving Repr, DecidableEq

namespace NodeError

def line : NodeError → Nat
  | static e => e.line
  | runtime line _ => line

def message : NodeError → String
  | static e => e.message
  | runtime _ fault => fault.message

def isStatic : NodeError → Bool
  | static _ => true
  | runtime _ _ => false

def isRuntime (e : NodeError) : Bool := !e.isStatic

def text (e : NodeError) : String := AssemblyError.atLine e.line e.message

end NodeError

structure Node where
  nodeClass : NodeClass
  slot : UInt8
  fixed : Bool := false
  source : String := ""
  program : Program := []
  labels : Table String Nat := .empty
  lineCount : Nat := 0
  acc : Int := 0
  pc : Nat := 0
  broadcasts : List (UInt32 × Int) := []
  error : Option NodeError := none
  /-- the accumulator has been stored to since this was last asked -/
  accWritten : Bool := false
  deriving Repr, DecidableEq

namespace Node

/-- The channels being broadcast on, in the order they were turned on. -/
def active (n : Node) : List UInt32 := n.broadcasts.map (·.1)

def broadcast? (n : Node) (id : UInt32) : Option Int := n.broadcasts.lookup id

def broadcastTable (n : Node) : Channels := .ofList n.broadcasts

def steppable (n : Node) : Bool := n.error.isNone && !n.program.isEmpty

def nextLine? (n : Node) : Option Nat := n.program[n.pc]?.map (·.line)

/-- Forgets what a run left behind. A program that is wrong stays wrong. -/
def reset (n : Node) : Node :=
  { n with
    acc := 0
    pc := 0
    broadcasts := []
    accWritten := false
    error := n.error.filter NodeError.isStatic }

def assemble (n : Node) (source : String) : Assembly := Lockstep.assemble source n.nodeClass.lines

def install (n : Node) (source : String) (assembly : Assembly) : Node :=
  { n with
    source := source
    program := assembly.program
    labels := assembly.labels
    lineCount := assembly.lineCount
    error := assembly.error.map NodeError.static }.reset

def setProgram (n : Node) (source : String) : Node := n.install source (n.assemble source)

def clearAccWritten (n : Node) : Node := { n with accWritten := false }

end Node
end Lockstep
