import Lockstep.Node.Step
import Mathlib.Tactic.Common

/-!
What a step does not look at. The slot of a node, its source text, its labels and the line numbers
of its program are carried along and reported, but no step depends on them: a node in another guise
takes the same step in that guise.
-/
namespace Lockstep

/-- Another way to present a node that runs the same. -/
structure Guise where
  slot : UInt8 → UInt8 := id
  source : String → String := id
  labels : Table String Nat → Table String Nat := id
  lineCount : Nat → Nat := id
  line : Nat → Nat := id

def Instruction.inGuise (g : Guise) (i : Instruction) : Instruction := { i with line := g.line i.line }

def NodeError.inGuise (g : Guise) : NodeError → NodeError
  | .static e => .static { e with line := g.line e.line }
  | .runtime line fault => .runtime (g.line line) fault

@[simp] theorem NodeError.inGuise_isStatic (g : Guise) (e : NodeError) :
    (e.inGuise g).isStatic = e.isStatic := by
  cases e <;> rfl

namespace Node
variable {σ : Type} (g : Guise)

def inGuise (n : Node) : Node :=
  { n with
    slot := g.slot n.slot
    source := g.source n.source
    program := n.program.map (Instruction.inGuise g)
    labels := g.labels n.labels
    lineCount := g.lineCount n.lineCount
    error := n.error.map (NodeError.inGuise g) }

theorem inGuise_reset (n : Node) : (n.inGuise g).reset = n.reset.inGuise g := by
  simp only [inGuise, reset]
  cases h : n.error with
  | none => rfl
  | some e => cases he : e.isStatic <;> simp [Option.filter, he]

theorem broadcast_inGuise (n : Node) (id : UInt32) (v : Int) :
    (n.inGuise g).broadcast id v = (n.broadcast id v).map (inGuise g) := by
  have ha : (n.inGuise g).active = n.active := rfl
  have hb : (n.inGuise g).broadcasts = n.broadcasts := rfl
  have hc : (n.inGuise g).nodeClass = n.nodeClass := rfl
  simp only [broadcast, ha, hb, hc]
  split_ifs <;> rfl

theorem readOperand_inGuise (t : Terminal σ) (ch : Channels) (n : Node) (op : Operand) (s : σ) :
    (n.inGuise g).readOperand t ch op s = n.readOperand t ch op s := by
  unfold readOperand
  split <;> rfl

theorem writeOperand_inGuise (t : Terminal σ) (n : Node) (op : Operand) (v : Int) (s : σ) :
    (n.inGuise g).writeOperand t op v s =
      ((n.writeOperand t op v s).1.map (inGuise g), (n.writeOperand t op v s).2) := by
  unfold writeOperand
  split
  · rfl
  · rfl
  · generalize t.write (clamp v) s = r
    rcases r with ⟨_ | _, s'⟩ <;> rfl
  · rfl
  · rw [broadcast_inGuise]
  · rfl

def executedInGuise (r : Except RuntimeFault (Node × Option Nat) × σ) :
    Except RuntimeFault (Node × Option Nat) × σ :=
  (r.1.map fun m => (m.1.inGuise g, m.2), r.2)

theorem moveFrom_inGuise (t : Terminal σ) (ch : Channels) (n : Node) (d src : Operand) (s : σ) :
    move.moveFrom t ch (n.inGuise g) s d src =
      executedInGuise g (move.moveFrom t ch n s d src) := by
  unfold move.moveFrom
  rw [readOperand_inGuise]
  rcases n.readOperand t ch src s with ⟨_ | v, s'⟩
  · rfl
  · simp only [writeOperand_inGuise]
    rcases n.writeOperand t d v s' with ⟨_ | m, s''⟩ <;> rfl

theorem jump_inGuise (t : Terminal σ) (ch : Channels) (n : Node) (i : Instruction) (s : σ) :
    (n.inGuise g).jump t ch (i.inGuise g) s = executedInGuise g (n.jump t ch i s) := by
  have hl : (n.inGuise g).program.length = n.program.length := List.length_map _
  have ht : (i.inGuise g).target? = i.target? := rfl
  unfold jump jumpDistance
  rw [ht, hl]
  cases i.target? with
  | none => rfl
  | some target =>
    simp only [readOperand_inGuise]
    rcases n.readOperand t ch target s with ⟨_ | v, s'⟩ <;> rfl

theorem branch_inGuise (t : Terminal σ) (ch : Channels) (n : Node) (c : Condition)
    (i : Instruction) (s : σ) :
    (n.inGuise g).branch t ch c (i.inGuise g) s = executedInGuise g (n.branch t ch c i s) := by
  have ho : (i.inGuise g).operands = i.operands := rfl
  unfold branch
  rw [ho]
  cases i.operands.head? with
  | none => rfl
  | some tested =>
    simp only [readOperand_inGuise]
    rcases n.readOperand t ch tested s with ⟨_ | v, s'⟩
    · rfl
    · simp only
      split_ifs
      · exact jump_inGuise g t ch n i s'
      · rfl

theorem execute_inGuise (t : Terminal σ) (ch : Channels) (n : Node) (i : Instruction) (s : σ) :
    (n.inGuise g).execute t ch (i.inGuise g) s = executedInGuise g (n.execute t ch i s) := by
  have hc : (i.inGuise g).opcode = i.opcode := rfl
  have ho : (i.inGuise g).operands = i.operands := rfl
  unfold execute
  rw [hc]
  split
  · unfold move
    rw [ho, hc]
    split
    · split
      · split_ifs
        · rfl
        · exact moveFrom_inGuise g t ch n _ _ s
      · exact moveFrom_inGuise g t ch n _ _ s
    · rfl
  · rfl
  · rfl
  · rfl
  · exact jump_inGuise g t ch n i s
  · exact branch_inGuise g t ch n _ i s
  · exact branch_inGuise g t ch n _ i s
  · exact branch_inGuise g t ch n _ i s
  · exact branch_inGuise g t ch n _ i s

/-- A node in another guise takes the same step in that guise. -/
theorem step_inGuise (t : Terminal σ) (ch : Channels) (n : Node) (s : σ) :
    (n.inGuise g).step t ch s =
      ((n.step t ch s).1, (n.step t ch s).2.1.inGuise g, (n.step t ch s).2.2) := by
  have hs : (n.inGuise g).steppable = n.steppable := by simp [steppable, inGuise]
  have hp : (n.inGuise g).program[(n.inGuise g).pc]? =
      n.program[n.pc]?.map (Instruction.inGuise g) := List.getElem?_map
  unfold step
  rw [hs, hp]
  split_ifs
  · cases n.program[n.pc]? with
    | none => rfl
    | some i =>
      simp only [Option.map_some, execute_inGuise]
      generalize n.execute t ch i s = e
      rcases e with ⟨_ | ⟨m, _ | d⟩, s'⟩
      · rfl
      · simp [executedInGuise, Except.map, advance, inGuise]
      · simp [executedInGuise, Except.map, advance, inGuise]
  · rfl

end Node
end Lockstep
