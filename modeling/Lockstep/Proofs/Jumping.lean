import Lockstep.Proofs.Resolving
import Lockstep.Proofs.StepExact

/-!
Where a jump lands. The target that a line gives is followed from the text to the step: a label
through the line that defines it and the first instruction from there on, a distance through the two
remainders that are taken of it, when the program is assembled and when the jump is made, and
anything else through what it is read as at that moment.
-/
namespace Lockstep

/-! In the text. -/

namespace SourceLine

theorem SpelledAll.getLast? {kinds : List OperandKind} {ws : List (List Char)} {ops : List Operand}
    {op : Operand} (h : SpelledAll kinds ws ops) (hop : ops.getLast? = some op) :
    ∃ kind w, kinds.getLast? = some kind ∧ ws.getLast? = some w ∧ Spells kind w op := by
  induction h with
  | nil => cases hop
  | @cons kind kinds w ws first ops h hrest ih =>
    cases hrest with
    | nil =>
      cases hop
      exact ⟨kind, w, rfl, rfl, h⟩
    | cons h' hrest =>
      rw [List.getLast?_cons_cons] at hop ⊢
      rw [List.getLast?_cons_cons]
      exact ih hop

theorem getLast?_signature (opcode : Opcode) (h : opcode.isJump) :
    opcode.signature.getLast? = some .label := by
  revert h
  cases opcode <;> decide

def JumpsTo (raw w : List Char) : Prop :=
  ∃ (label : Option String) (rest : List Char) (opcode : Opcode) (ws : List (List Char)),
    Divides (code raw) label rest ∧ Text.Worded rest (opcode.word.toList :: ws) ∧
      opcode.isJump ∧ ws.getLast? = some w

theorem Holds.jumpsTo {line : Nat} {raw : List Char} {i : Instruction} {target : Operand}
    (h : Holds line raw i) (ht : i.target? = some target) :
    ∃ w, JumpsTo raw w ∧ Spells .label w target := by
  obtain ⟨hjump, first, hops⟩ := Instruction.target?_eq_some ht
  obtain ⟨label, rest, hdivides, -, hreads⟩ := h
  cases hreads with
  | nop => cases hjump
  | @operation opcode ws ops hworded hspelled =>
    have hlast : ops.getLast? = some target := List.getLast?_eq_some_iff.mpr ⟨first, hops⟩
    obtain ⟨kind, w, hkind, hw, hspells⟩ := hspelled.getLast? hlast
    cases hkind.symm.trans (getLast?_signature opcode hjump)
    exact ⟨w, ⟨label, rest, opcode, ws, hdivides, hworded, hjump, hw⟩, hspells⟩

end SourceLine

namespace Assembly
open SourceLine (Labelled)

theorem valid_of_error {source : String} {capacity : Nat}
    (h : (assemble source capacity).error = none) : Valid (Text.lines source.toList) := by
  rw [error_assemble] at h
  split_ifs at h
  exact valid_iff.mpr (earliest?_errors_eq_none_iff.mp h)

theorem Valid.defines_iff {raw : List (List Char)} (h : Valid raw) {name : String} {line : Nat}
    (hline : Defines raw name line) (k : Nat) : Defines raw name k ↔ k = line := by
  constructor
  · intro hk
    obtain ⟨text, htext, hname⟩ := hk
    obtain ⟨other, hother, hdefined⟩ := hline
    exact h.labels k line text other name htext hother hname hdefined
  · rintro rfl
    exact hline

end Assembly

/-! In the program. -/

theorem Instruction.target?_resolve {labels : Table String Nat} {length index : Nat}
    {i : Instruction} {resolved : Operand}
    (h : (i.resolve labels length index).1.target? = some resolved) :
    ∃ target, i.target? = some target ∧
      (target.resolve labels length index = .ok resolved ∨
        ∃ name, target = .label name ∧ labels.find? name = none) := by
  rw [target?_resolve_eq] at h
  obtain ⟨target, htarget, rfl⟩ := Option.map_eq_some_iff.mp h
  refine ⟨target, htarget, ?_⟩
  cases target with
  | label name =>
    cases hfind : labels.find? name with
    | none => exact .inr ⟨name, rfl, hfind⟩
    | some place =>
      rw [Operand.resolved_found hfind]
      simp only [Operand.resolve, hfind, true_or]
  | _ => exact .inl rfl

/-! In the step. -/

theorem landing_eq {length : Nat} (hpos : length ≠ 0) (hlen : 2 * length ≤ UInt32.size) (pc : Nat)
    (x : Int) :
    (((pc + (wrapDistance length x).toInt.toNat) % length : Nat) : Int) = (pc + x) % length := by
  have hnonneg := (wrapDistance_range hpos hlen x).1
  rw [Int.natCast_emod, Int.natCast_add, Int.toNat_of_nonneg hnonneg,
    add_wrapDistance_emod hpos hlen]

namespace Node
variable {σ : Type} {t : Terminal σ} {ch : Channels} {n m : Node} {s u : σ} {i : Instruction}
  {target : Operand}

inductive Jumps (n : Node) (ch : Channels) : Instruction → Operand → Prop
  | always {target : Operand} (line : Nat) (h : n.MayRead target) :
      Jumps n ch ⟨.jmp, [target], line⟩ target
  | branch {opcode : Opcode} {c : Condition} {id : UInt32} {target : Operand} (line : Nat)
      (hop : opcode.condition? = some c) (hid : id ∉ n.active) (hc : c.holds (ch.value id))
      (h : n.MayRead target) : Jumps n ch ⟨opcode, [.channel id, target], line⟩ target

theorem Jumps.target? (h : n.Jumps ch i target) : i.target? = some target := by
  cases h with
  | always => rfl
  | branch line hop => exact target?_branch hop _ _ line

theorem Jumps.execute (hc : i.conforms) (he : ∀ op ∈ i.operands, op.encodable)
    (h : n.Jumps ch i target) (s : σ) :
    n.execute t ch i s =
      (.ok (n, some (wrapDistance n.program.length (n.reading t ch s target).1).toInt.toNat),
        (n.reading t ch s target).2) := by
  have htarget := h.target?
  have hfits : target.fits .label ∧ target ∈ i.operands := by
    cases Instruction.shape_of_conforms hc with
    | move => cases htarget
    | plain line hop => cases h
    | jump line ht =>
      cases htarget
      exact ⟨ht, .head _⟩
    | branch id line hop ht =>
      cases (target?_branch hop _ _ line).symm.trans htarget
      exact ⟨ht, .tail _ (.head _)⟩
  have hjump : n.MayRead target → n.jump t ch i s = _ :=
    fun hmay => jump_mayRead htarget hfits.1 (he target hfits.2) hmay s
  cases h with
  | always line hmay => rw [execute_jump, hjump hmay]
  | branch line hop hid hholds hmay =>
    rw [execute_branch hop, branch_other rfl hid, if_pos hholds, hjump hmay]

theorem jumps_of_execute (hc : i.conforms) (he : ∀ op ∈ i.operands, op.encodable) {distance : Nat}
    (h : n.execute t ch i s = (.ok (m, some distance), u)) : ∃ target, n.Jumps ch i target := by
  cases Instruction.shape_of_conforms hc with
  | @move d src line hd hs =>
    by_cases hsame : ∃ id, d = .channel id ∧ src = .channel id
    · obtain ⟨id, rfl, rfl⟩ := hsame
      rw [execute_same] at h
      cases h
    · -- a move that succeeds goes on to the next instruction
      rw [execute_move fun id hid hsrc => hsame ⟨id, hid, hsrc⟩] at h
      have hmoved : (⟨.mov, [d, src], line⟩ : Instruction).operands = [d, src] := rfl
      cases (moveFrom_effect rfl hmoved h).1
  | plain line hop =>
    simp only [List.mem_cons, List.not_mem_nil, or_false] at hop
    rcases hop with rfl | rfl | rfl <;> cases h
  | @jump target line ht =>
    rcases n.mayRead_or_own target with hmay | ⟨id, hid, rfl⟩
    · exact ⟨target, .always line hmay⟩
    · rw [execute_jump, jump_own rfl hid] at h
      cases h
  | @branch opcode c id target line hop ht =>
    rw [execute_branch hop] at h
    by_cases hid : id ∈ n.active
    · rw [branch_own rfl hid] at h
      cases h
    · rw [branch_other rfl hid] at h
      split_ifs at h with hholds
      · rcases n.mayRead_or_own target with hmay | ⟨other, hother, rfl⟩
        · exact ⟨target, .branch line hop hid hholds hmay⟩
        · rw [jump_own (target?_branch hop _ _ line) hother] at h
          cases h
      · cases h

theorem step_jumped (hn : n.error = none) (hi : n.program[n.pc]? = some i) {distance : Nat}
    (h : n.execute t ch i s = (.ok (m, some distance), u)) :
    n.step t ch s = (.jumped, m.advance distance, u) := by
  simp only [step, steppable_of_next hn hi, if_true, hi, h]

theorem execute_of_jumped (h : (n.step t ch s).1 = .jumped) :
    n.error = none ∧ ∃ i m distance u, n.program[n.pc]? = some i ∧
      n.execute t ch i s = (.ok (m, some distance), u) := by
  unfold step at h
  split_ifs at h with hn
  simp only [steppable, Bool.and_eq_true, Option.isNone_iff_eq_none] at hn
  cases hi : n.program[n.pc]? with
  | none =>
    rw [hi] at h
    cases h
  | some i =>
    rw [hi] at h
    simp only at h
    generalize he : n.execute t ch i s = e at h
    rcases e with ⟨_ | ⟨m, _ | distance⟩, u⟩
    · cases h
    · cases h
    · exact ⟨hn.1, i, m, distance, u, rfl, he⟩

open Assembly (readLines instructions labelLines Defines)

/-- The node has the program and the labels that a valid text gives. -/
structure Carries (m : Node) (raw : List (List Char)) : Prop where
  valid : Assembly.Valid raw
  program : m.program =
    ((instructions (readLines raw)).resolve (labelLines 0 (readLines raw) .empty)).program
  labels : m.labels =
    (instructions (readLines raw)).labelIndices (labelLines 0 (readLines raw) .empty)
  wellFormed : m.program.WellFormed
  size : List.length m.program ≤ 15

theorem carries_of_reaches {source : String}
    (herror : (Lockstep.assemble source n.nodeClass.lines).error = none)
    (hm : (n.setProgram source).Reaches m) : m.Carries (Text.lines source.toList) := by
  have hreset := hm.reset_eq
  have hprogram : m.program = (Lockstep.assemble source n.nodeClass.lines).program :=
    congrArg Node.program hreset
  have hlabels : m.labels = (Lockstep.assemble source n.nodeClass.lines).labels :=
    congrArg Node.labels hreset
  refine ⟨Assembly.valid_of_error herror, hprogram, hlabels, ?_, ?_⟩
  · rw [hprogram]
    exact Simulation.wellFormed_assemble n herror
  · rw [hprogram]
    exact (Simulation.assemble_length herror).trans n.nodeClass.lines_le

/-- Where a jump of the node leads by what is written as its target: from a label on, on by a
distance, or on by what is read. -/
inductive Leads (m : Node) (raw : List (List Char)) (t : Terminal σ) (ch : Channels) (s : σ) :
    Operand → Nat → Prop
  | label {name : String} {line place : Nat} (hline : ∀ k, Defines raw name k ↔ k = line)
      (hplace : m.program.FirstFrom line place) (hlabel : m.labels.find? name = some place) :
      Leads m raw t ch s (.label name) place
  | distance {d : Int32} {place : Nat}
      (hplace : (place : Int) = (m.pc + d.toInt) % List.length m.program) :
      Leads m raw t ch s (.offset d) place
  | live {op : Operand} {place : Nat} (hop : op.isComputed)
      (hplace : (place : Int) = (m.pc + (m.reading t ch s op).1) % List.length m.program) :
      Leads m raw t ch s op place

def landing (m : Node) (t : Terminal σ) (ch : Channels) (s : σ) (resolved : Operand) : Nat :=
  (m.pc + (wrapDistance m.program.length (m.reading t ch s resolved).1).toInt.toNat) %
    m.program.length

section Carries
variable {raw : List (List Char)} {w : List Char} {resolved : Operand}

theorem Carries.length_word (h : m.Carries raw) : 2 * List.length m.program ≤ UInt32.size := by
  have hsize := h.size
  simp only [UInt32.size]
  omega

theorem Carries.landing_eq (h : m.Carries raw) (hp : m.program ≠ []) (resolved : Operand) :
    (m.landing t ch s resolved : Int) =
      (m.pc + (m.reading t ch s resolved).1) % List.length m.program :=
  Lockstep.landing_eq (List.length_pos_iff.mpr hp).ne' h.length_word _ _

theorem Carries.landing_distance (h : m.Carries raw) (hp : m.program ≠ []) (d : Int) :
    (m.landing t ch s (.offset (wrapDistance m.program.length d)) : Int) =
      (m.pc + d) % List.length m.program := by
  have hpos : List.length m.program ≠ 0 := (List.length_pos_iff.mpr hp).ne'
  rw [h.landing_eq hp, reading_offset, add_wrapDistance_emod hpos h.length_word]

theorem Carries.firstFrom (h : m.Carries raw) {name : String} {place : Nat}
    (hfind : m.labels.find? name = some place) :
    ∃ line, Defines raw name line ∧ m.program.FirstFrom line place := by
  rw [h.labels, Program.labelIndices, Table.find?_map] at hfind
  obtain ⟨line, hline, rfl⟩ := Option.map_eq_some_iff.mp hfind
  refine ⟨line, (Assembly.find?_labelLines_iff.mp hline).1, ?_⟩
  rw [h.program, ← Program.indexFrom_congr (Program.map_line_resolve _ _)]
  exact Program.firstFrom_indexFrom _ line

theorem Carries.leads_label (h : m.Carries raw) (hp : m.program ≠ []) {name : String} {place : Nat}
    (hfind : m.labels.find? name = some place) :
    m.Leads raw t ch s (.label name)
      (m.landing t ch s (.offset (wrapDistance m.program.length (place - m.pc)))) := by
  obtain ⟨line, hdefines, hfirst⟩ := h.firstFrom hfind
  have hlanding : m.landing t ch s (.offset (wrapDistance m.program.length (place - m.pc))) =
      place := by
    have hplace : (place : Int) < List.length m.program := Int.ofNat_lt.mpr (hfirst.lt hp)
    apply Int.ofNat_inj.mp
    rw [h.landing_distance hp, add_sub_cancel, Int.emod_eq_of_lt (Int.natCast_nonneg _) hplace]
  rw [hlanding]
  exact .label (h.valid.defines_iff hdefines) hfirst hfind

theorem Carries.leads (h : m.Carries raw) (hp : m.program ≠ [])
    (hspells : SourceLine.Spells .label w target)
    (hresolve : target.resolve m.labels m.program.length m.pc = .ok resolved) :
    m.Leads raw t ch s target (m.landing t ch s resolved) := by
  cases hspells with
  | distance =>
    cases hresolve
    exact .distance (h.landing_distance hp _)
  | source =>
    cases hresolve
    exact .live rfl (h.landing_eq hp _)
  | channel =>
    cases hresolve
    exact .live rfl (h.landing_eq hp _)
  | label =>
    simp only [Operand.resolve] at hresolve
    split at hresolve
    · rename_i place hfind
      cases hresolve
      exact h.leads_label hp hfind
    · cases hresolve

theorem Carries.written (h : m.Carries raw) (hi : m.program[m.pc]? = some i)
    (htarget : i.target? = some resolved) :
    ∃ text w target, raw[i.line]? = some text ∧ SourceLine.JumpsTo text w ∧
      SourceLine.Spells .label w target ∧
      target.resolve m.labels m.program.length m.pc = .ok resolved := by
  have hlength : m.program.length = (instructions (readLines raw)).length := by
    rw [h.program, ← List.length_map Instruction.line, Program.map_line_resolve, List.length_map]
  rw [h.program, Program.getElem?_resolve, ← h.labels, ← hlength] at hi
  obtain ⟨first, hfirst, rfl⟩ := Option.map_eq_some_iff.mp hi
  obtain ⟨text, htext, hholds⟩ :=
    Assembly.mem_instructions_iff.mp (List.mem_of_getElem? hfirst)
  have hline := (first.aims_resolve m.labels m.program.length m.pc).line_eq
  obtain ⟨target, ht, hresolve | ⟨name, rfl, hnone⟩⟩ := Instruction.target?_resolve htarget
  · obtain ⟨w, hjumps, hspells⟩ := hholds.jumpsTo ht
    exact ⟨text, w, target, hline ▸ htext, hjumps, hspells, hresolve⟩
  · -- a valid text defines the label
    obtain ⟨other, hother, hlabelled⟩ := h.valid.targets _ _ _ _ htext hholds ht
    rw [h.labels, Program.labelIndices, Table.find?_map, Option.map_eq_none_iff] at hnone
    exact absurd hlabelled (Assembly.label_unknown_iff.mp hnone other hother)

theorem Carries.step_eq (h : m.Carries raw) (hn : m.error = none) (hi : m.program[m.pc]? = some i)
    (hjumps : m.Jumps ch i resolved) (s : σ) :
    m.step t ch s =
      (.jumped, { m with pc := m.landing t ch s resolved }, (m.reading t ch s resolved).2) := by
  have hwell := h.wellFormed i (List.mem_of_getElem? hi)
  exact step_jumped hn hi (hjumps.execute hwell.conforms hwell.encodable s)

theorem Carries.jumped_iff (h : m.Carries raw) (t : Terminal σ) (ch : Channels) (s : σ) :
    (m.step t ch s).1 = .jumped ↔
      m.error = none ∧ ∃ i resolved, m.program[m.pc]? = some i ∧ m.Jumps ch i resolved := by
  constructor
  · intro hstep
    obtain ⟨hn, i, after, distance, u, hi, hexecute⟩ := execute_of_jumped hstep
    have hwell := h.wellFormed i (List.mem_of_getElem? hi)
    obtain ⟨resolved, hjumps⟩ := jumps_of_execute hwell.conforms hwell.encodable hexecute
    exact ⟨hn, i, resolved, hi, hjumps⟩
  · rintro ⟨hn, i, resolved, hi, hjumps⟩
    rw [h.step_eq hn hi hjumps]

end Carries

/-- A jump lands where the line says: a node running a text without errors jumps just where its
instruction says so, and then the line that it is at gives the word for the target. A label leads to
the first instruction from its line on, which is the index that the node keeps for it. A distance
leads as far around the program, and so does what is read when the jump is made. -/
theorem jump_lands {source : String}
    (herror : (Lockstep.assemble source n.nodeClass.lines).error = none)
    (hm : (n.setProgram source).Reaches m) (t : Terminal σ) (ch : Channels) (s : σ) :
    ((m.step t ch s).1 = .jumped ↔
      m.error = none ∧ ∃ i target, m.program[m.pc]? = some i ∧ m.Jumps ch i target) ∧
    ((m.step t ch s).1 = .jumped →
      ∃ line text w target place, m.nextLine? = some line ∧
        (Text.lines source.toList)[line]? = some text ∧ SourceLine.JumpsTo text w ∧
        SourceLine.Spells .label w target ∧ m.Leads (Text.lines source.toList) t ch s target place ∧
        place < List.length m.program ∧ (m.step t ch s).2.1 = { m with pc := place }) := by
  have hcarries := carries_of_reaches herror hm
  refine ⟨hcarries.jumped_iff t ch s, fun hjumped => ?_⟩
  obtain ⟨hn, i, resolved, hi, hjumps⟩ := (hcarries.jumped_iff t ch s).mp hjumped
  obtain ⟨text, w, target, htext, hword, hspells, hresolve⟩ := hcarries.written hi hjumps.target?
  have hp : m.program ≠ [] := List.ne_nil_of_mem (List.mem_of_getElem? hi)
  refine ⟨i.line, text, w, target, m.landing t ch s resolved, ?_, htext, hword, hspells,
    hcarries.leads hp hspells hresolve, ?_, ?_⟩
  · rw [nextLine?, hi, Option.map_some]
  · exact Nat.mod_lt _ (List.length_pos_iff.mpr hp)
  · rw [hcarries.step_eq hn hi hjumps]

/-- A program that goes round by a distance, by the input and by a label with nothing below it. -/
def circuit : String := "JMP -2\nmid:\nJMP INPUT\nJMP end\nend:"

def circling : Node :=
  (((Node.setProgram { nodeClass := .standard, slot := 0 } circuit).step flood .empty ()).2.1.step
    flood .empty ()).2.1

theorem jump_lands_circling :
    (Lockstep.assemble circuit NodeClass.standard.lines).error = none ∧
      (Node.setProgram { nodeClass := .standard, slot := 0 } circuit).Reaches circling ∧
      circling.pc = 2 ∧ (circling.step flood .empty ()).1 = .jumped ∧
      ∃ line text w target place, circling.nextLine? = some line ∧
        (Text.lines circuit.toList)[line]? = some text ∧ SourceLine.JumpsTo text w ∧
        SourceLine.Spells .label w target ∧
        circling.Leads (Text.lines circuit.toList) flood .empty () target place ∧
        place < List.length circling.program ∧
        (circling.step flood .empty ()).2.1 = { circling with pc := place } := by
  have herror : (Lockstep.assemble circuit NodeClass.standard.lines).error = none := by
    decide +kernel
  have hreaches :
      (Node.setProgram { nodeClass := .standard, slot := 0 } circuit).Reaches circling :=
    .step (.step .refl flood .empty ()) flood .empty ()
  have hpc : circling.pc = 2 := by decide +kernel
  have hjumped : (circling.step flood .empty ()).1 = .jumped := by decide +kernel
  exact ⟨herror, hreaches, hpc, hjumped, (jump_lands herror hreaches flood .empty ()).2 hjumped⟩

end Node
end Lockstep
