import Lockstep.Program.Fault
import Lockstep.Program.Instruction
import Lockstep.Table

/-!
Labels name lines. A label stands for the first instruction on its line or below, and for the first
of all where nothing follows, so that a label at the end leads back to the start. Resolving turns
every jump to a label, and every jump by a literal distance, into a distance from the jump that is
at least zero and below the length of the program.
-/
namespace Lockstep

/-- A distance taken around a program of `length` instructions, as a 32-bit word. The length is a
64-bit word read as signed, and only the low 32 bits of the result are kept. -/
def wrapDistance (length : Nat) (distance : Int) : Int32 :=
  if length = 0 then 0 else Int32.ofInt (distance % Int.bmod length UInt64.size)

inductive DistanceOverflow where
  | overflow
  deriving Repr, DecidableEq

def DistanceOverflow.message : DistanceOverflow → String
  | overflow => "attempt to calculate the remainder with overflow"

/-- As `wrapDistance`, with the one division of words refused that has no quotient: the least word
by minus one, which is what the greatest length reads as. No program is that long. -/
def wrapDistanceChecked (length : Nat) (distance : Int) : Except DistanceOverflow Int32 :=
  if Int.bmod length UInt64.size = -1 ∧ distance = Int64.minValue.toInt then .error .overflow
  else .ok (wrapDistance length distance)

namespace Program

/-- The index of the first instruction on the line or below it, or zero. -/
def indexFrom (p : Program) (line : Nat) : Nat :=
  (p.findIdx? fun i => decide (line ≤ i.line)).getD 0

def labelIndices (p : Program) (labelLines : Table String Nat) : Table String Nat :=
  labelLines.map p.indexFrom

end Program

def Operand.resolve (labels : Table String Nat) (length index : Nat) :
    Operand → Except AssemblyFault Operand
  | .label name =>
    match labels.find? name with
    | some place => .ok (.offset (wrapDistance length (place - index)))
    | none => .error (.unknownLabel name)
  | .offset distance => .ok (.offset (wrapDistance length distance.toInt))
  | other => .ok other

/-- An instruction with its target resolved. One whose label is unknown stays as it is. -/
def Instruction.resolve (labels : Table String Nat) (length index : Nat) (i : Instruction) :
    Instruction × Option AssemblyError :=
  match i.target? with
  | none => (i, none)
  | some target =>
    match target.resolve labels length index with
    | .ok resolved => (i.withTarget resolved, none)
    | .error fault => (i, some ⟨i.line, fault⟩)

structure Resolution where
  program : Program
  labels : Table String Nat
  errors : List AssemblyError

def Program.resolve (p : Program) (labelLines : Table String Nat) : Resolution :=
  let labels := p.labelIndices labelLines
  let resolved := p.zipIdx.map fun e => e.1.resolve labels p.length e.2
  ⟨resolved.map (·.1), labels, resolved.filterMap (·.2)⟩

end Lockstep
