import Lockstep.Proofs.Assembling
import Lockstep.Proofs.CodeExact
import Lockstep.Proofs.Placement

/-!
Passing a program through its code and back. It comes back as it was, or it has no code, or its code
cannot be read; it never comes back as another program. A text that assembles comes back, so that an
edit is never refused for the sake of the code.
-/
namespace Lockstep

namespace Code
open Text (NoDigitNext)

/-! What can be read back. -/

theorem encodable_of_readOperand {op : Operand} {kind : OperandKind} {code rest : List Char}
    {o : Nat} {r : Operand × Cursor} (hcode : operand op = .ok code)
    (h : readOperand kind ⟨o, code ++ rest⟩ = .ok r) : op.encodable := by
  cases op with
  | channel id =>
    -- channel zero is written as `C0`, and a number that begins with a zero is not read
    refine decide_eq_true ?_
    rintro rfl
    cases hcode
    cases h
  | label name => cases hcode
  | _ => rfl

theorem encodable_of_readOperands {opcode : Opcode} {kinds : List OperandKind} {ops : List Operand}
    {code rest : List Char} {position o : Nat} {r : List Operand × Cursor}
    (hf : Instruction.operandsFit kinds ops) (hcode : operands ops = .ok code)
    (hr : NoDigitNext rest) (h : readOperands opcode position kinds ⟨o, code ++ rest⟩ = .ok r) :
    ∀ op ∈ ops, op.encodable := by
  induction ops generalizing kinds code position o r with
  | nil => nofun
  | cons op ops ih =>
    cases kinds with
    | nil => cases hf
    | cons kind kinds =>
      obtain ⟨hfit, hfits⟩ := Bool.and_eq_true_iff.mp hf
      obtain ⟨first, hfirst, hcode⟩ := bind_eq_ok hcode
      obtain ⟨more, hmore, hcode⟩ := bind_eq_ok hcode
      cases hcode
      rw [List.append_assoc] at h
      obtain ⟨read, after, others, hread, -, hothers, -⟩ := readOperands_cons h
      have hop := encodable_of_readOperand hfirst hread
      rw [readOperand_operand hfirst hop hfit (noDigitNext_operands hmore hr)] at hread
      cases hread
      exact List.forall_mem_cons.mpr ⟨hop, ih hfits hmore hothers⟩

theorem encodable_of_readInstructions {p : Program} {index fuel o : Nat} {code rest : List Char}
    {r : Program × Cursor} (hcode : instructionsFrom index p = .ok code) (hr : Ends rest)
    (hfuel : code.length ≤ fuel) (h : readInstructions fuel index ⟨o, code ++ rest⟩ = .ok r) :
    ∀ i ∈ p, i.conforms ∧ ∀ op ∈ i.operands, op.encodable := by
  induction p generalizing index fuel o code r with
  | nil => nofun
  | cons i p ih =>
    obtain ⟨hconforms, ops, more, hops, hmore, rfl⟩ := instructionsFrom_cons hcode
    cases fuel with
    | zero => cases hfuel
    | succ fuel =>
      have hlen : more.length ≤ fuel := by
        simp only [List.length_cons, List.length_append] at hfuel
        omega
      have hnext := noDigitNext_instructions hmore hr
      rw [List.cons_append, List.append_assoc, readInstructions_code] at h
      obtain ⟨⟨read, next⟩, hread, h⟩ := bind_eq_ok h
      obtain ⟨⟨others, last⟩, hothers, -⟩ := bind_eq_ok h
      have hencodable := encodable_of_readOperands hconforms hops hnext hread
      -- the operands are read back as they were, so the rest is read from where they end
      obtain ⟨ops', hops', hback⟩ := operands_roundTrip hconforms hencodable
      obtain rfl : ops' = ops := Except.ok.inj (hops'.symm.trans hops)
      rw [hback hnext] at hread
      cases hread
      exact List.forall_mem_cons.mpr ⟨⟨hconforms, hencodable⟩, ih hmore hlen hothers⟩

/-! Only the comparison of two codes reports a mismatch. -/

/-- The outcome is no mismatch of codes. -/
def Candid {α : Type} (x : Except CodeError α) : Prop :=
  ∀ first second, x ≠ .error (.roundTripMismatch first second)

theorem candid_ok {α : Type} (a : α) : Candid (.ok a) := by
  intro first second h
  cases h

theorem Candid.bind {α β : Type} {x : Except CodeError α} {next : α → Except CodeError β}
    (hx : Candid x) (hnext : ∀ a, Candid (next a)) : Candid (x >>= next) := by
  cases x with
  | error e =>
    intro first second h
    cases h
    exact hx first second rfl
  | ok a => exact hnext a

theorem Candid.map {α β : Type} {x : Except CodeError α} (hx : Candid x) (f : α → β) :
    Candid (x.map f) := by
  cases x with
  | error e =>
    intro first second h
    cases h
    exact hx first second rfl
  | ok a => exact candid_ok _

theorem candid_operands (ops : List Operand) : Candid (operands ops) := by
  have hone : ∀ op, Candid (operand op) := by
    intro op
    cases op with
    | register r => cases r <;> nofun
    | _ => nofun
  induction ops with
  | nil => exact candid_ok _
  | cons op ops ih => exact (hone op).bind fun _ => ih.bind fun _ => candid_ok _

theorem candid_instructionsFrom (index : Nat) (p : Program) :
    Candid (instructionsFrom index p) := by
  have hone : ∀ index i, Candid (instruction index i) := by
    intro index i
    unfold instruction
    split
    · nofun
    · split_ifs
      · exact (candid_operands i.operands).bind fun _ => candid_ok _
      · nofun
  induction p generalizing index with
  | nil => exact candid_ok _
  | cons i p ih => exact (hone index i).bind fun _ => (ih (index + 1)).bind fun _ => candid_ok _

theorem candid_magnitude (c : Cursor) : Candid (magnitude c) := by
  unfold magnitude
  split <;> nofun

theorem candid_readOperand (kind : OperandKind) (c : Cursor) : Candid (readOperand kind c) := by
  have hliteral : ∀ negative c, Candid (readLiteral kind negative c) := by
    intro negative c
    refine (candid_magnitude c).bind fun ⟨n, next⟩ => ?_
    simp only
    split <;> nofun
  have hchannel : ∀ c, Candid (readChannel c) := by
    intro c
    refine (candid_magnitude c).bind fun ⟨n, next⟩ => ?_
    simp only
    split <;> nofun
  unfold readOperand
  split
  · nofun
  · split
    case h_6 => exact hliteral false _
    case h_7 => exact hliteral true _
    case h_8 => exact hchannel _
    all_goals nofun

theorem candid_readOperands (opcode : Opcode) (kinds : List OperandKind) (position : Nat)
    (c : Cursor) : Candid (readOperands opcode position kinds c) := by
  induction kinds generalizing position c with
  | nil => exact candid_ok _
  | cons kind kinds ih =>
    refine (candid_readOperand kind c).bind fun ⟨op, next⟩ => ?_
    simp only
    split_ifs
    · exact (ih (position + 1) next).bind fun _ => candid_ok _
    · nofun

theorem candid_readInstructions (fuel index : Nat) (c : Cursor) :
    Candid (readInstructions fuel index c) := by
  induction fuel generalizing index c with
  | zero => exact candid_ok _
  | succ fuel ih =>
    unfold readInstructions
    split
    · exact candid_ok _
    · split_ifs
      · exact candid_ok _
      · split
        · intro first second h
          cases h
        · exact (candid_readOperands _ _ 1 _).bind fun _ =>
            (ih (index + 1) _).bind fun _ => candid_ok _

end Code

namespace Program

theorem candid_encode (p : Program) : Code.Candid p.encode :=
  (Code.candid_instructionsFrom 0 p).map String.ofList

theorem candid_decode (text : String) : Code.Candid (decode text) := by
  have hprogram : ∀ c, Code.Candid (Code.readProgram c) := by
    intro c
    refine (Code.candid_readInstructions _ 0 c).bind fun ⟨p, next⟩ => ?_
    simp only
    split <;> nofun
  refine (hprogram _).bind fun ⟨p, next⟩ => ?_
  simp only
  split <;> nofun

theorem encode_eq_ok {p : Program} {text : String} (h : p.encode = .ok text) :
    Code.instructionsFrom 0 p = .ok text.toList := by
  unfold encode at h
  cases hcode : Code.instructionsFrom 0 p with
  | error e =>
    rw [hcode] at h
    cases h
  | ok code =>
    rw [hcode] at h
    cases h
    rw [String.toList_ofList]

theorem eq_relined_of_decode {p q : Program} {text : String} (hcode : p.encode = .ok text)
    (h : decode text = .ok q) : q = p.relined := by
  have hwritten := encode_eq_ok hcode
  obtain ⟨next, hprogram, -⟩ := decode_eq_ok h
  obtain ⟨hread, -⟩ := Code.readProgram_eq_ok hprogram
  -- nothing follows the code, which is read to its end
  have hend : Code.Ends [] := .inl rfl
  rw [← List.append_nil text.toList] at hread
  have hops := Code.encodable_of_readInstructions hwritten hend (by simp) hread
  obtain ⟨code, hcode', hback⟩ := Code.instructions_roundTrip hops 0
  obtain rfl : code = text.toList := Except.ok.inj (hcode'.symm.trans hwritten)
  rw [hback hend _ 0 (by simp)] at hread
  exact (Prod.mk.inj (Except.ok.inj hread)).1.symm

theorem wellFormed_of_decode {p q : Program} {text : String} (hcode : p.encode = .ok text)
    (h : decode text = .ok q) : p.WellFormed := by
  have hwf := decode_wellFormed h
  rw [eq_relined_of_decode hcode h] at hwf
  exact hwf.of_relined

/-- A program is refused for a fault in writing its code or in reading it back. -/
theorem verifiedCode_eq_error {p : Program} {e : CodeError} (h : p.verifiedCode = .error e) :
    p.encode = .error e ∨ ∃ text, p.encode = .ok text ∧ decode text = .error e := by
  cases hcode : p.encode with
  | error f =>
    rw [verifiedCode, hcode] at h
    cases h
    exact .inl rfl
  | ok text =>
    refine .inr ⟨text, rfl, ?_⟩
    cases hback : decode text with
    | error f =>
      rw [verifiedCode, hcode] at h
      simp only [bind, Except.bind, hback] at h
      cases h
      rfl
    | ok q =>
      rw [verifiedCode_eq_ok_iff.mpr ⟨wellFormed_of_decode hcode hback, hcode⟩] at h
      cases h

theorem candid_verifiedCode (p : Program) : Code.Candid p.verifiedCode := by
  intro first second h
  rcases verifiedCode_eq_error h with hwrite | ⟨text, -, hread⟩
  · exact candid_encode p first second hwrite
  · exact candid_decode text first second hread

end Program

namespace Simulation

theorem wellFormed_assemble (n : Node) {source : String} (h : (n.assemble source).error = none) :
    (n.assemble source).program.WellFormed := by
  have hlines := n.nodeClass.lines_le
  have hlength := assemble_length h
  refine Assembly.wellFormed_of_error h ?_
  simp only [UInt32.size]
  omega

theorem setProgram_ok {sim : Simulation} {slot : UInt8} {node : Node}
    (hnode : sim.node? slot = some node) (source : String) :
    sim.setProgram slot source =
      .ok (sim.replaceNode (node.setProgram source)).remix.liftHalt := by
  simp only [setProgram, hnode]
  cases herror : (node.assemble source).error with
  | some e => rfl
  | none =>
    obtain ⟨text, htext⟩ := Program.verifiedCode_wellFormed (wellFormed_assemble node herror)
    simp only [htext]
    rfl

/-- Passing a program through its code and back refuses just the programs that are not well-formed,
and never for a mismatch. What assembles is well-formed, so a node takes every text that it is
given. -/
theorem edits_never_refused :
    (∀ p : Program,
      (p.WellFormed → ∃ text, p.verifiedCode = .ok text) ∧
      (∀ text, p.verifiedCode = .ok text ↔ p.WellFormed ∧ p.encode = .ok text) ∧
      ∀ first second, p.verifiedCode ≠ .error (.roundTripMismatch first second)) ∧
    (∀ (source : String) (capacity : Nat), (assemble source capacity).error = none →
      (assemble source capacity).program.length ≤ 2 ^ 31 →
      (assemble source capacity).program.WellFormed) ∧
    ∀ (sim : Simulation) (slot : UInt8) (source : String),
      (∀ node, sim.node? slot = some node →
        sim.setProgram slot source =
          .ok (sim.replaceNode (node.setProgram source)).remix.liftHalt) ∧
      ∀ e, sim.setProgram slot source ≠ .error (.code e) := by
  refine ⟨?_, ?_, ?_⟩
  · intro p
    exact ⟨Program.verifiedCode_wellFormed, fun text => Program.verifiedCode_eq_ok_iff,
      Program.candid_verifiedCode p⟩
  · intro source capacity herror hlen
    refine Assembly.wellFormed_of_error herror ?_
    simp only [UInt32.size]
    omega
  · intro sim slot source
    refine ⟨fun node hnode => setProgram_ok hnode source, ?_⟩
    intro e h
    cases hnode : sim.node? slot with
    | none =>
      rw [setProgram, hnode] at h
      cases h
    | some node =>
      rw [setProgram_ok hnode] at h
      cases h

def draft : String := "top: MOV CH007 +5\nJLZ CH7, top\nJMP -1\nJMP ACC"

def desk : Simulation :=
  { puzzle := { id := "desk", title := "", goal := "", sets := [] }
    settings := {}
    nodes := [{ nodeClass := .tiny, slot := 0 }] }

theorem edits_never_refused_draft :
    (assemble draft 4).error = none ∧ (assemble draft 4).program.WellFormed ∧
      (assemble draft 4).program.verifiedCode = .ok "mC7P5lC7P3jP3jA" ∧
      desk.setProgram 0 draft = .ok (desk.replaceNode
        (Node.setProgram { nodeClass := .tiny, slot := 0 } draft)).remix.liftHalt := by
  have herror : (assemble draft 4).error = none := by decide +kernel
  have hlength : (assemble draft 4).program.length ≤ 2 ^ 31 := by decide +kernel
  have hcode : (assemble draft 4).program.encode = .ok "mC7P5lC7P3jP3jA" := by decide +kernel
  have hwf := edits_never_refused.2.1 draft 4 herror hlength
  have hverified := ((edits_never_refused.1 _).2.1 _).mpr ⟨hwf, hcode⟩
  exact ⟨herror, hwf, hverified, (edits_never_refused.2.2 desk 0 draft).1 _ rfl⟩

end Simulation
end Lockstep
