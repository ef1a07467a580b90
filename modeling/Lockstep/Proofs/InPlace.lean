import Lockstep.Proofs.NodeBounds

/-!
A step that is made in place. The accumulator, the channels and their values are changed one after
another as the instruction goes on, and nothing is taken back where it fails. It comes to what
`Node.step` comes to: up to the check that fails, nothing but the terminal has been touched.
-/
namespace Lockstep

/-- A node that is being worked on, its channels and their values apart, with the terminal. -/
structure Workbench (σ : Type) where
  node : Node
  active : List UInt32
  values : Channels
  terminal : σ

/-- Work that can fail, and leaves the bench as it is by then. -/
abbrev InPlace (σ : Type) := ExceptT RuntimeFault (StateM (Workbench σ))

namespace InPlace
variable {σ α β : Type}

def perform (work : InPlace σ α) (w : Workbench σ) : Except RuntimeFault α × Workbench σ :=
  (work.run.run w).run

theorem perform_bind (work : InPlace σ α) (next : α → InPlace σ β) (w : Workbench σ) :
    (work >>= next).perform w =
      match work.perform w with
      | (.ok a, after) => (next a).perform after
      | (.error fault, after) => (.error fault, after) := by
  simp only [perform, ExceptT.run_bind, StateT.run_bind]
  rcases work.run.run w with ⟨_ | a, after⟩ <;> rfl

theorem perform_get (w : Workbench σ) :
    (get : InPlace σ (Workbench σ)).perform w = (.ok w, w) := rfl

theorem perform_ite (c : Prop) [Decidable c] (work other : InPlace σ α) (w : Workbench σ) :
    (if c then work else other).perform w = if c then work.perform w else other.perform w :=
  apply_ite (fun work => work.perform w) c work other

def read (t : Terminal σ) (ch : Channels) : Operand → InPlace σ Int
  | .immediate v => return v.toInt
  | .offset d => return d.toInt
  | .register .acc => return (← get).node.acc
  | .register .nil => return 0
  | .register .input => do
    let w ← get
    set { w with terminal := (t.read w.terminal).2 }
    return (t.read w.terminal).1
  | .register .output => throw (.cannotRead .output)
  | .channel id => do
    if (← get).values.contains id then throw (.readsOwnBroadcast id)
    else return ch.value id
  | .label name => throw (.unknownLabel name)

def storeAcc (value : Int) : InPlace σ Unit := do
  modify fun w => { w with node := { w.node with acc := clamp value } }
  modify fun w => { w with node := { w.node with accWritten := true } }

def turnOn (id : UInt32) : InPlace σ Unit := do
  let w ← get
  if w.node.nodeClass.channels ≤ w.active.length then
    throw (.tooManyChannels w.node.nodeClass.channels)
  else set { w with active := w.active ++ [id] }

def broadcast (id : UInt32) (value : Int) : InPlace σ Unit := do
  if value = 0 then
    modify fun w => { w with active := w.active.filter (· ≠ id) }
    modify fun w => { w with values := w.values.erase id }
  else
    if !(← get).values.contains id then turnOn id
    modify fun w => { w with values := w.values.insert id value }

def putOut (t : Terminal σ) (value : Int) : InPlace σ Unit := do
  let w ← get
  set { w with terminal := (t.write value w.terminal).2 }
  match (t.write value w.terminal).1 with
  | .ok () => return ()
  | .error reason => throw (.refused reason)

def write (t : Terminal σ) (op : Operand) (value : Int) : InPlace σ Unit :=
  match op with
  | .register .nil => return ()
  | .register .acc => storeAcc (clamp value)
  | .register .output => putOut t (clamp value)
  | .register .input => throw (.cannotWrite .input)
  | .channel id => broadcast id (clamp value)
  | other => throw (.notWritable other)

def jump (t : Terminal σ) (ch : Channels) (i : Instruction) : InPlace σ (Option Nat) :=
  match i.target? with
  | none => throw .missingTarget
  | some target => do
    let distance ← read t ch target
    return some (wrapDistance (← get).node.program.length distance).toInt.toNat

def moveFrom (t : Terminal σ) (ch : Channels) (destination source : Operand) :
    InPlace σ (Option Nat) := do
  let value ← read t ch source
  write t destination value
  return none

def move (t : Terminal σ) (ch : Channels) (i : Instruction) : InPlace σ (Option Nat) :=
  match i.operands with
  | [destination, source] =>
    match destination, source with
    | .channel a, .channel b =>
      if a = b then throw (.readsAndWrites a) else moveFrom t ch destination source
    | _, _ => moveFrom t ch destination source
  | _ => throw (.operandCount i.opcode)

def branch (t : Terminal σ) (ch : Channels) (condition : Condition) (i : Instruction) :
    InPlace σ (Option Nat) :=
  match i.operands.head? with
  | none => throw .missingChannel
  | some tested => do
    let value ← read t ch tested
    if condition.holds value then jump t ch i else return none

def adjust (f : Int → Int) : InPlace σ (Option Nat) := do
  storeAcc (f (← get).node.acc)
  return none

def execute (t : Terminal σ) (ch : Channels) (i : Instruction) : InPlace σ (Option Nat) :=
  match i.opcode with
  | .mov => move t ch i
  | .inc => adjust (· + 1)
  | .dec => adjust (· - 1)
  | .neg => adjust (-·)
  | .jmp => jump t ch i
  | .jlz => branch t ch .negative i
  | .jez => branch t ch .zero i
  | .jgz => branch t ch .positive i
  | .jnz => branch t ch .nonzero i

end InPlace

namespace Workbench
variable {σ : Type}

def advance (w : Workbench σ) (distance : Nat) : Workbench σ :=
  { w with node := w.node.advance distance }

def fail (w : Workbench σ) (line : Nat) (fault : RuntimeFault) : Workbench σ :=
  { w with node := w.node.fail line fault }

/-- One step. Where the instruction fails the error is noted, and that is all. -/
def step (t : Terminal σ) (ch : Channels) (w : Workbench σ) : StepResult × Workbench σ :=
  if w.node.steppable then
    match w.node.program[w.node.pc]? with
    | none => (.idle, w)
    | some i =>
      match (InPlace.execute t ch i).perform w with
      | (.ok none, after) => (.continued, after.advance 1)
      | (.ok (some distance), after) => (.jumped, after.advance distance)
      | (.error fault, after) => (.failed fault, after.fail i.line fault)
  else (.idle, w)

end Workbench

namespace Node
variable {σ α : Type} {n m : Node}

def onBench (n : Node) (s : σ) : Workbench σ :=
  ⟨{ n with broadcasts := [] }, n.active, n.broadcastTable, s⟩

def laid (n : Node) : Except RuntimeFault (Node × α) × σ → Except RuntimeFault α × Workbench σ
  | (.ok (m, a), s) => (.ok a, m.onBench s)
  | (.error fault, s) => (.error fault, n.onBench s)

end Node

namespace InPlace
variable {σ : Type} {t : Terminal σ} {ch : Channels} {n : Node}

theorem perform_read (hn : n.active.Nodup) (op : Operand) (s : σ) :
    (read t ch op).perform (n.onBench s) =
      ((n.readOperand t ch op s).1, n.onBench (n.readOperand t ch op s).2) := by
  cases op with
  | register r => cases r <;> rfl
  | channel id =>
    rw [read, perform_bind, perform_get]
    have hvalues : (n.onBench s).values = n.broadcastTable := rfl
    simp only [perform_ite, Node.readOperand, Node.mem_active_iff hn, hvalues]
    split_ifs <;> rfl
  | _ => rfl

theorem perform_turnOn (id : UInt32) (w : Workbench σ) :
    (turnOn id).perform w =
      if w.node.nodeClass.channels ≤ w.active.length then
        (.error (.tooManyChannels w.node.nodeClass.channels), w)
      else (.ok (), { w with active := w.active ++ [id] }) := by
  rw [turnOn, perform_bind, perform_get]
  simp only [perform_ite]
  rfl

theorem perform_broadcast (id : UInt32) (v : Int) (w : Workbench σ) :
    (broadcast id v).perform w =
      match Node.broadcastApart w.node.nodeClass.channels w.active w.values id v with
      | .ok (active, values) => (.ok (), { w with active, values })
      | .error fault => (.error fault, w) := by
  unfold broadcast Node.broadcastApart
  rw [perform_ite]
  split_ifs with hv hid hroom
  · rfl
  · rw [perform_bind, perform_get]
    simp only [hid]
    rfl
  · rw [perform_bind, perform_get]
    simp only [hid, Bool.not_false, if_true]
    rw [perform_bind, perform_turnOn, if_neg (Nat.not_le_of_lt hroom)]
    rfl
  · rw [perform_bind, perform_get]
    simp only [hid, Bool.not_false, if_true]
    rw [perform_bind, perform_turnOn, if_pos (Nat.le_of_not_lt hroom)]

theorem perform_putOut (v : Int) (w : Workbench σ) :
    (putOut t v).perform w =
      ((t.write v w.terminal).1.mapError .refused,
        { w with terminal := (t.write v w.terminal).2 }) := by
  rw [putOut, perform_bind, perform_get]
  simp only
  rcases t.write v w.terminal with ⟨reason | _, s⟩ <;> rfl

theorem perform_write (hn : n.active.Nodup) (op : Operand) (v : Int) (s : σ) :
    (write t op v).perform (n.onBench s) =
      n.laid ((n.writeOperand t op v s).1.map fun m => (m, ()), (n.writeOperand t op v s).2) := by
  cases op with
  | register r =>
    cases r with
    | acc =>
      have hclamp : n.storeAcc (clamp v) = n.storeAcc v := by
        rw [Node.storeAcc, Node.clamp_clamp]
        rfl
      simp only [Node.writeOperand, ← hclamp]
      rfl
    | output =>
      have hterminal : (n.onBench s).terminal = s := rfl
      simp only [write, perform_putOut, Node.writeOperand, hterminal]
      rcases t.write (clamp v) s with ⟨reason | _, s'⟩ <;> rfl
    | _ => rfl
  | channel id =>
    have hapart : Node.broadcastApart (n.onBench s).node.nodeClass.channels (n.onBench s).active
        (n.onBench s).values id (clamp v) = _ := (Node.broadcast_apart hn id (clamp v)).symm
    rw [write, perform_broadcast, hapart, Node.writeOperand]
    cases hm : n.broadcast id (clamp v) with
    | ok m =>
      simp only [Except.map, Node.laid, Node.onBench]
      rw [Node.broadcast_eq_ok hm]
    | error fault => rfl
  | _ => rfl

theorem perform_jump (hn : n.active.Nodup) (i : Instruction) (s : σ) :
    (jump t ch i).perform (n.onBench s) = n.laid (n.jump t ch i s) := by
  unfold jump Node.jump
  cases i.target? with
  | none => rfl
  | some target =>
    simp only [Node.jumpDistance]
    rw [perform_bind, perform_read hn]
    rcases n.readOperand t ch target s with ⟨fault | distance, s'⟩ <;> rfl

theorem perform_moveFrom (hn : n.active.Nodup) (destination source : Operand) (s : σ) :
    (moveFrom t ch destination source).perform (n.onBench s) =
      n.laid (Node.move.moveFrom t ch n s destination source) := by
  rw [moveFrom, perform_bind, perform_read hn, Node.move.moveFrom]
  rcases n.readOperand t ch source s with ⟨fault | value, s'⟩
  · rfl
  · simp only
    rw [perform_bind, perform_write hn]
    rcases n.writeOperand t destination value s' with ⟨fault | m, s''⟩ <;> rfl

theorem perform_move (hn : n.active.Nodup) (i : Instruction) (s : σ) :
    (move t ch i).perform (n.onBench s) = n.laid (n.move t ch i s) := by
  unfold move Node.move
  rcases i.operands with _ | ⟨destination, _ | ⟨source, _ | _⟩⟩
  · rfl
  · rfl
  · cases destination with
    | channel a =>
      cases source with
      | channel b =>
        simp only [perform_ite, perform_moveFrom hn]
        split_ifs <;> rfl
      | _ => exact perform_moveFrom hn _ _ s
    | _ => exact perform_moveFrom hn _ _ s
  · rfl

theorem perform_branch (hn : n.active.Nodup) (c : Condition) (i : Instruction) (s : σ) :
    (branch t ch c i).perform (n.onBench s) = n.laid (n.branch t ch c i s) := by
  unfold branch Node.branch
  cases i.operands.head? with
  | none => rfl
  | some tested =>
    simp only
    rw [perform_bind, perform_read hn]
    rcases n.readOperand t ch tested s with ⟨fault | value, s'⟩
    · rfl
    · simp only [perform_ite, perform_jump hn]
      split_ifs <;> rfl

theorem perform_execute (hn : n.active.Nodup) (i : Instruction) (s : σ) :
    (execute t ch i).perform (n.onBench s) = n.laid (n.execute t ch i s) := by
  unfold execute Node.execute
  cases i.opcode with
  | mov => exact perform_move hn i s
  | jmp => exact perform_jump hn i s
  | jlz => exact perform_branch hn _ i s
  | jez => exact perform_branch hn _ i s
  | jgz => exact perform_branch hn _ i s
  | jnz => exact perform_branch hn _ i s
  | _ => rfl

end InPlace

/-- The step in place is the step. -/
theorem Workbench.step_onBench {σ : Type} {n : Node} (hn : n.active.Nodup) (t : Terminal σ)
    (ch : Channels) (s : σ) :
    (n.onBench s).step t ch =
      ((n.step t ch s).1, (n.step t ch s).2.1.onBench (n.step t ch s).2.2) := by
  have hsteppable : (n.onBench s).node.steppable = n.steppable := rfl
  have hnext : (n.onBench s).node.program[(n.onBench s).node.pc]? = n.program[n.pc]? := rfl
  rw [step, Node.step, hsteppable, hnext]
  split_ifs
  · cases n.program[n.pc]? with
    | none => rfl
    | some i =>
      simp only [InPlace.perform_execute hn]
      rcases n.execute t ch i s with ⟨fault | ⟨m, _ | distance⟩, s'⟩ <;> rfl
  · rfl

end Lockstep
