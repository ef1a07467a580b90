import Lockstep.Node.Basic
import Lockstep.Value

/-!
One step of one node. The node sees the other nodes only through the channel values it is given, and
the puzzle only through a `Terminal`, whose state is passed through the step: it is asked for an
input where one is read, and offered a value where one is put out. A step that fails leaves the node
as it was, but for the error, and what it had already read stays read.
-/
namespace Lockstep

/-- The puzzle as a node meets it, with a state of its own. -/
structure Terminal (σ : Type) where
  read : σ → Int × σ
  write : Int → σ → Except String Unit × σ

inductive StepResult where
  | idle
  | continued
  | jumped
  | failed (fault : RuntimeFault)
  deriving Repr, DecidableEq

namespace Node
variable {σ : Type}

def storeAcc (n : Node) (value : Int) : Node := { n with acc := clamp value, accWritten := true }

/-- Turns a broadcast on, changes its value, or with zero turns it off. -/
def broadcast (n : Node) (id : UInt32) (value : Int) : Except RuntimeFault Node :=
  if value = 0 then .ok { n with broadcasts := n.broadcasts.filter fun b => b.1 ≠ id }
  else if id ∈ n.active then
    .ok { n with broadcasts := n.broadcasts.map fun b => if b.1 = id then (id, value) else b }
  else if n.broadcasts.length < n.nodeClass.channels then
    .ok { n with broadcasts := n.broadcasts ++ [(id, value)] }
  else .error (.tooManyChannels n.nodeClass.channels)

/-- The same on the channels in their order and the values by channel, kept apart. For a node, whose
`broadcasts` are both in one, the two come to the same (`broadcast_apart`). -/
def broadcastApart (limit : Nat) (active : List UInt32) (values : Channels) (id : UInt32)
    (value : Int) : Except RuntimeFault (List UInt32 × Channels) :=
  if value = 0 then .ok (active.filter (· ≠ id), values.erase id)
  else if values.contains id then .ok (active, values.insert id value)
  else if active.length < limit then .ok (active ++ [id], values.insert id value)
  else .error (.tooManyChannels limit)

def readOperand (terminal : Terminal σ) (channels : Channels) (n : Node) (op : Operand) (s : σ) :
    Except RuntimeFault Int × σ :=
  match op with
  | .immediate v => (.ok v.toInt, s)
  | .offset d => (.ok d.toInt, s)
  | .register .acc => (.ok n.acc, s)
  | .register .nil => (.ok 0, s)
  | .register .input => (.ok (terminal.read s).1, (terminal.read s).2)
  | .register .output => (.error (.cannotRead .output), s)
  | .channel id =>
    if id ∈ n.active then (.error (.readsOwnBroadcast id), s) else (.ok (channels.value id), s)
  | .label name => (.error (.unknownLabel name), s)

def writeOperand (terminal : Terminal σ) (n : Node) (op : Operand) (value : Int) (s : σ) :
    Except RuntimeFault Node × σ :=
  match op with
  | .register .nil => (.ok n, s)
  | .register .acc => (.ok (n.storeAcc value), s)
  | .register .output =>
    match terminal.write (clamp value) s with
    | (.ok (), s') => (.ok n, s')
    | (.error reason, s') => (.error (.refused reason), s')
  | .register .input => (.error (.cannotWrite .input), s)
  | .channel id => (n.broadcast id (clamp value), s)
  | other => (.error (.notWritable other), s)

def jumpDistance (terminal : Terminal σ) (channels : Channels) (n : Node) (target : Operand)
    (s : σ) : Except RuntimeFault Nat × σ :=
  match n.readOperand terminal channels target s with
  | (.ok distance, s') => (.ok (wrapDistance n.program.length distance).toInt.toNat, s')
  | (.error fault, s') => (.error fault, s')

def jump (terminal : Terminal σ) (channels : Channels) (n : Node) (i : Instruction) (s : σ) :
    Except RuntimeFault (Node × Option Nat) × σ :=
  match i.target? with
  | none => (.error .missingTarget, s)
  | some target =>
    match n.jumpDistance terminal channels target s with
    | (.ok distance, s') => (.ok (n, some distance), s')
    | (.error fault, s') => (.error fault, s')

def move (terminal : Terminal σ) (channels : Channels) (n : Node) (i : Instruction) (s : σ) :
    Except RuntimeFault (Node × Option Nat) × σ :=
  match i.operands with
  | [destination, source] =>
    match destination, source with
    | .channel a, .channel b =>
      if a = b then (.error (.readsAndWrites a), s)
      else moveFrom destination source
    | _, _ => moveFrom destination source
  | _ => (.error (.operandCount i.opcode), s)
where
  moveFrom (destination source : Operand) : Except RuntimeFault (Node × Option Nat) × σ :=
    match n.readOperand terminal channels source s with
    | (.error fault, s') => (.error fault, s')
    | (.ok value, s') =>
      match n.writeOperand terminal destination value s' with
      | (.ok m, s'') => (.ok (m, none), s'')
      | (.error fault, s'') => (.error fault, s'')

def branch (terminal : Terminal σ) (channels : Channels) (n : Node) (condition : Condition)
    (i : Instruction) (s : σ) : Except RuntimeFault (Node × Option Nat) × σ :=
  match i.operands.head? with
  | none => (.error .missingChannel, s)
  | some tested =>
    match n.readOperand terminal channels tested s with
    | (.error fault, s') => (.error fault, s')
    | (.ok value, s') =>
      if condition.holds value then n.jump terminal channels i s' else (.ok (n, none), s')

/-- Carries an instruction out: the node after it, with the distance of a jump that was taken. -/
def execute (terminal : Terminal σ) (channels : Channels) (n : Node) (i : Instruction) (s : σ) :
    Except RuntimeFault (Node × Option Nat) × σ :=
  match i.opcode with
  | .mov => n.move terminal channels i s
  | .inc => (.ok (n.storeAcc (n.acc + 1), none), s)
  | .dec => (.ok (n.storeAcc (n.acc - 1), none), s)
  | .neg => (.ok (n.storeAcc (-n.acc), none), s)
  | .jmp => n.jump terminal channels i s
  | .jlz => n.branch terminal channels .negative i s
  | .jez => n.branch terminal channels .zero i s
  | .jgz => n.branch terminal channels .positive i s
  | .jnz => n.branch terminal channels .nonzero i s

def advance (n : Node) (distance : Nat) : Node :=
  { n with pc := (n.pc + distance) % n.program.length }

def fail (n : Node) (line : Nat) (fault : RuntimeFault) : Node :=
  { n with error := some (.runtime line fault) }

def step (terminal : Terminal σ) (channels : Channels) (n : Node) (s : σ) : StepResult × Node × σ :=
  if n.steppable then
    match n.program[n.pc]? with
    | none => (.idle, n, s)
    | some i =>
      match n.execute terminal channels i s with
      | (.ok (m, none), s') => (.continued, m.advance 1, s')
      | (.ok (m, some distance), s') => (.jumped, m.advance distance, s')
      | (.error fault, s') => (.failed fault, n.fail i.line fault, s')
  else (.idle, n, s)

end Node
end Lockstep
