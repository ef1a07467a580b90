import Lockstep.Proofs.Grammar

/-!
What an assembled program is like. Every instruction that is read conforms to its opcode, and where
no label is unknown every jump by a distance leads to an instruction of the program: a text that
assembles gives a well-formed program.
-/
namespace Lockstep

def Operand.legible : Operand → Bool
  | label _ => true
  | op => op.encodable

theorem Operand.encodable_of_fits {op : Operand} {kind : OperandKind} (h : op.legible)
    (hf : op.fits kind) (hk : kind ≠ .label) : op.encodable := by
  cases op with
  | label name =>
    cases kind with
    | label => exact absurd rfl hk
    | _ => cases hf
  | _ => exact h

namespace SourceLine

theorem Spells.fits {kind : OperandKind} {w : List Char} {op : Operand} (h : Spells kind w op) :
    op.fits kind ∧ op.legible := by
  cases h with
  | literal h => exact ⟨rfl, rfl⟩
  | distance h => exact ⟨rfl, rfl⟩
  | source hkind h =>
    simp only [List.mem_cons, List.not_mem_nil, or_false] at hkind
    rcases hkind with rfl | rfl
    · exact ⟨h, rfl⟩
    · exact ⟨h, rfl⟩
  | destination h => exact ⟨h, rfl⟩
  | channel h =>
    cases h with
    | mk hne hd hid hpos =>
      refine ⟨by cases kind <;> rfl, ?_⟩
      simpa [Operand.legible, Operand.encodable] using hpos
  | label h hr hc => exact ⟨rfl, rfl⟩

theorem SpelledAll.fit {kinds : List OperandKind} {ws : List (List Char)} {ops : List Operand}
    (h : SpelledAll kinds ws ops) :
    Instruction.operandsFit kinds ops ∧ ∀ op ∈ ops, op.legible := by
  induction h with
  | nil => exact ⟨rfl, fun op hop => absurd hop List.not_mem_nil⟩
  | cons h hrest ih =>
    obtain ⟨hfits, hlegible⟩ := h.fits
    refine ⟨?_, List.forall_mem_cons.mpr ⟨hlegible, ih.2⟩⟩
    rw [Instruction.operandsFit, hfits, ih.1]
    rfl

theorem Holds.conforms {line : Nat} {text : List Char} {i : Instruction} (h : Holds line text i) :
    i.conforms ∧ ∀ op ∈ i.operands, op.legible := by
  obtain ⟨label, rest, -, -, hreads⟩ := h
  cases hreads with
  | nop h => exact ⟨rfl, by simp [Instruction.nop, Operand.legible, Operand.encodable]⟩
  | operation h hops => exact hops.fit

end SourceLine

namespace Instruction

/-- The forms of an instruction whose operands are those that its opcode asks for. -/
inductive Shape : Instruction → Prop
  | move {destination source : Operand} (line : Nat) (hd : destination.fits .register)
      (hs : source.fits .number) : Shape ⟨.mov, [destination, source], line⟩
  | plain {opcode : Opcode} (line : Nat) (hop : opcode ∈ [.inc, .dec, .neg]) :
      Shape ⟨opcode, [], line⟩
  | jump {target : Operand} (line : Nat) (ht : target.fits .label) : Shape ⟨.jmp, [target], line⟩
  | branch {opcode : Opcode} {condition : Condition} (id : UInt32) {target : Operand} (line : Nat)
      (hop : opcode.condition? = some condition) (ht : target.fits .label) :
      Shape ⟨opcode, [.channel id, target], line⟩

theorem operandsFit_cons {kind : OperandKind} {kinds : List OperandKind} {ops : List Operand}
    (h : operandsFit (kind :: kinds) ops) :
    ∃ op rest, ops = op :: rest ∧ op.fits kind ∧ operandsFit kinds rest := by
  cases ops with
  | nil => cases h
  | cons op rest => exact ⟨op, rest, rfl, Bool.and_eq_true_iff.mp h⟩

theorem operandsFit_nil {ops : List Operand} (h : operandsFit [] ops) : ops = [] := by
  cases ops with
  | nil => rfl
  | cons op rest => cases h

theorem shape_of_conforms {i : Instruction} (h : i.conforms) : i.Shape := by
  obtain ⟨opcode, ops, line⟩ := i
  -- three opcodes take no operand and four take a channel and a target
  have hplain : operandsFit [] ops → opcode ∈ [.inc, .dec, .neg] → Shape ⟨opcode, ops, line⟩ := by
    intro hfit hop
    rw [operandsFit_nil hfit]
    exact .plain line hop
  have hbranch : ∀ {condition}, operandsFit [.channel, .label] ops →
      opcode.condition? = some condition → Shape ⟨opcode, ops, line⟩ := by
    intro condition hfit hop
    obtain ⟨tested, rest, rfl, htested, hrest⟩ := operandsFit_cons hfit
    obtain ⟨target, rest, rfl, htarget, hnil⟩ := operandsFit_cons hrest
    rw [operandsFit_nil hnil]
    cases tested with
    | channel id => exact .branch id line hop htarget
    | _ => cases htested
  cases opcode with
  | mov =>
    obtain ⟨destination, rest, rfl, hd, hrest⟩ := operandsFit_cons h
    obtain ⟨source, rest, rfl, hs, hnil⟩ := operandsFit_cons hrest
    rw [operandsFit_nil hnil]
    exact .move line hd hs
  | inc => exact hplain h (by decide)
  | dec => exact hplain h (by decide)
  | neg => exact hplain h (by decide)
  | jmp =>
    obtain ⟨target, rest, rfl, htarget, hnil⟩ := operandsFit_cons h
    rw [operandsFit_nil hnil]
    exact .jump line htarget
  | jlz => exact hbranch h rfl
  | jez => exact hbranch h rfl
  | jgz => exact hbranch h rfl
  | jnz => exact hbranch h rfl

end Instruction

/-! Targets. -/

theorem wrapDistance_toInt {length : Nat} (hpos : length ≠ 0) (hlen : 2 * length ≤ UInt32.size)
    (d : Int) : (wrapDistance length d).toInt = d % length := by
  simp only [UInt32.size] at hlen
  have hword : Int.bmod length UInt64.size = length := by
    apply bmod_length
    simp only [UInt64.size]
    omega
  have hnonneg : 0 ≤ d % (length : Int) := Int.emod_nonneg d (by omega)
  have hlt : d % (length : Int) < length := Int.emod_lt_of_pos d (by omega)
  rw [wrapDistance, if_neg hpos, hword]
  apply Int32.toInt_ofInt_of_le <;> omega

theorem wrapDistance_range {length : Nat} (hpos : length ≠ 0) (hlen : 2 * length ≤ UInt32.size)
    (d : Int) : 0 ≤ (wrapDistance length d).toInt ∧ (wrapDistance length d).toInt < length := by
  rw [wrapDistance_toInt hpos hlen]
  exact ⟨Int.emod_nonneg d (by omega), Int.emod_lt_of_pos d (by omega)⟩

theorem Operand.resolve_inside {labels : Table String Nat} {length index : Nat}
    {op target : Operand} (hf : op.fits .label) (hl : op.legible) (hpos : length ≠ 0)
    (hlen : 2 * length ≤ UInt32.size) (h : op.resolve labels length index = .ok target) :
    target.fits .label ∧ target.encodable ∧
      ∀ d, target = .offset d → 0 ≤ d.toInt ∧ d.toInt < length := by
  unfold Operand.resolve at h
  split at h
  · split at h
    · cases h
      refine ⟨rfl, rfl, ?_⟩
      rintro _ ⟨⟩
      exact wrapDistance_range hpos hlen _
    · cases h
  · cases h
    refine ⟨rfl, rfl, ?_⟩
    rintro _ ⟨⟩
    exact wrapDistance_range hpos hlen _
  · rename_i hlabel hoffset
    cases h
    refine ⟨hf, ?_, fun d hd => absurd hd (hoffset d)⟩
    cases op with
    | label name => exact absurd rfl (hlabel name)
    | _ => exact hl

namespace Instruction
variable {labels : Table String Nat} {length index : Nat}

theorem target?_concat {i : Instruction} {first : List Operand} {target : Operand}
    (hops : i.operands = first ++ [target]) (hjump : i.opcode.isJump) :
    i.target? = some target := by
  rw [target?, if_pos hjump, hops, List.getLast?_concat]

theorem resolve_concat {i j : Instruction} {first : List Operand} {target : Operand}
    (hops : i.operands = first ++ [target]) (hjump : i.opcode.isJump)
    (h : i.resolve labels length index = (j, none)) :
    ∃ resolved, target.resolve labels length index = .ok resolved ∧
      j = { i with operands := first ++ [resolved] } := by
  rw [resolve, target?_concat hops hjump] at h
  simp only at h
  split at h
  · rename_i resolved hresolved
    cases h
    refine ⟨resolved, hresolved, ?_⟩
    rw [withTarget, hops, List.dropLast_concat]
  · cases h

theorem wellFormed_concat {i : Instruction} {first : List Operand} {target : Operand}
    (hops : i.operands = first ++ [target]) (hjump : i.opcode.isJump) (hc : i.conforms)
    (hfirst : ∀ op ∈ first, op.encodable) (htarget : target.encodable)
    (hinside : ∀ d, target = .offset d → 0 ≤ d.toInt ∧ d.toInt < length) :
    i.WellFormed length := by
  refine ⟨hc, ?_, ?_⟩
  · intro op hop
    rw [hops] at hop
    rcases List.mem_append.mp hop with hop | hop
    · exact hfirst op hop
    · rw [List.mem_singleton.mp hop]
      exact htarget
  · intro d hd
    rw [target?_concat hops hjump] at hd
    exact hinside d (Option.some.inj hd)

theorem resolve_inside {i j : Instruction} (hc : i.conforms) (hl : ∀ op ∈ i.operands, op.legible)
    (hpos : length ≠ 0) (hlen : 2 * length ≤ UInt32.size)
    (h : i.resolve labels length index = (j, none)) : j.WellFormed length := by
  cases shape_of_conforms hc with
  | move line hd hs =>
    cases h
    refine ⟨hc, ?_, nofun⟩
    refine List.forall_mem_cons.mpr ⟨?_, List.forall_mem_singleton.mpr ?_⟩
    · exact Operand.encodable_of_fits (hl _ (.head _)) hd nofun
    · exact Operand.encodable_of_fits (hl _ (.tail _ (.head _))) hs nofun
  | plain line hop =>
    have hnone : ∀ opcode line, target? ⟨opcode, [], line⟩ = none := by simp [target?]
    rw [resolve, hnone] at h
    cases h
    refine ⟨hc, nofun, ?_⟩
    intro d hd
    rw [hnone] at hd
    cases hd
  -- the last operand alone is resolved, and what stands before it is kept
  | @jump target line ht =>
    have hops : [target] = [] ++ [target] := rfl
    obtain ⟨resolved, hresolved, rfl⟩ := resolve_concat hops rfl h
    obtain ⟨hfits, hencodable, hinside⟩ :=
      Operand.resolve_inside ht (hl _ (.head _)) hpos hlen hresolved
    exact wellFormed_concat rfl rfl (Bool.and_eq_true_iff.mpr ⟨hfits, rfl⟩) nofun hencodable hinside
  | @branch opcode condition id target line hop ht =>
    have hops : [.channel id, target] = [.channel id] ++ [target] := rfl
    have hjump : opcode.isJump := by cases opcode <;> first | rfl | cases hop
    have hsignature : opcode.signature = [.channel, .label] := by
      cases opcode <;> first | rfl | cases hop
    obtain ⟨resolved, hresolved, rfl⟩ := resolve_concat hops hjump h
    obtain ⟨hfits, hencodable, hinside⟩ :=
      Operand.resolve_inside ht (hl _ (.tail _ (.head _))) hpos hlen hresolved
    refine wellFormed_concat rfl hjump ?_ (List.forall_mem_singleton.mpr ?_) hencodable hinside
    · have hlast : operandsFit [.label] [resolved] := Bool.and_eq_true_iff.mpr ⟨hfits, rfl⟩
      rw [conforms, hsignature]
      exact Bool.and_eq_true_iff.mpr ⟨rfl, hlast⟩
    · exact hl _ (.head _)

end Instruction

theorem AssemblyError.earliest?_eq_none {es : List AssemblyError} (h : earliest? es = none) :
    es = [] := by
  -- once an error is found there is one to the end
  have hsome : ∀ (es : List AssemblyError) (e : AssemblyError),
      (es.foldl earlier (some e)).isSome := by
    intro es
    induction es with
    | nil => exact fun e => rfl
    | cons e' es ih =>
      intro e
      rw [List.foldl_cons, earlier]
      split_ifs
      · exact ih e
      · exact ih e'
  cases es with
  | nil => rfl
  | cons e es =>
    have hfound := hsome es e
    rw [earliest?, List.foldl_cons, earlier] at h
    rw [h] at hfound
    cases hfound

namespace Program

theorem resolve_inside {p : Program} {labelLines : Table String Nat}
    (hp : ∀ i ∈ p, i.conforms ∧ ∀ op ∈ i.operands, op.legible)
    (hlen : 2 * List.length p ≤ UInt32.size) (h : (p.resolve labelLines).errors = []) :
    (p.resolve labelLines).program.WellFormed := by
  have hlength : (p.resolve labelLines).program.length = p.length := by
    simp only [resolve, List.length_map, List.length_zipIdx]
  intro j hj
  rw [hlength]
  simp only [resolve, List.mem_map] at hj
  obtain ⟨_, ⟨⟨i, index⟩, hi, rfl⟩, rfl⟩ := hj
  have hmem : i ∈ p := List.fst_mem_of_mem_zipIdx hi
  have hnone : (i.resolve (p.labelIndices labelLines) p.length index).2 = none :=
    List.filterMap_eq_nil_iff.mp h _ (List.mem_map_of_mem hi)
  refine Instruction.resolve_inside (hp i hmem).1 (hp i hmem).2 ?_ hlen (Prod.ext rfl hnone)
  exact Nat.ne_of_gt (List.length_pos_of_mem hmem)

end Program

namespace Assembly
open SourceLine (Holds)

def readLines (raw : List (List Char)) : List SourceLine :=
  raw.zipIdx.map fun l => SourceLine.read l.2 l.1

theorem getElem?_readLines (raw : List (List Char)) (k : Nat) :
    (readLines raw)[k]? = raw[k]?.map (SourceLine.read k) := by
  simp [readLines, Function.comp_def]

theorem mem_readLines_iff {raw : List (List Char)} {l : SourceLine} :
    l ∈ readLines raw ↔ ∃ k text, raw[k]? = some text ∧ SourceLine.read k text = l := by
  simp only [List.mem_iff_getElem?, getElem?_readLines, Option.map_eq_some_iff]

theorem kept_eq_some_iff {l : SourceLine} {i : Instruction} :
    (match l.body with | .ok i => i | .error _ => none) = some i ↔ l.body = .ok (some i) := by
  cases l.body <;> simp

theorem mem_instructions_iff {raw : List (List Char)} {i : Instruction} :
    i ∈ instructions (readLines raw) ↔ ∃ text, raw[i.line]? = some text ∧ Holds i.line text i := by
  rw [instructions, List.mem_filterMap]
  constructor
  · intro h
    obtain ⟨l, hl, hkept⟩ := h
    obtain ⟨k, text, htext, rfl⟩ := mem_readLines_iff.mp hl
    have hholds := SourceLine.body_read_some_iff.mp (kept_eq_some_iff.mp hkept)
    rw [hholds.line_eq]
    exact ⟨text, htext, hholds⟩
  · intro h
    obtain ⟨text, htext, hholds⟩ := h
    refine ⟨_, mem_readLines_iff.mpr ⟨_, text, htext, rfl⟩, kept_eq_some_iff.mpr ?_⟩
    exact SourceLine.body_read_some_iff.mpr hholds

/-- A text that assembles gives a well-formed program. -/
theorem wellFormed_of_error {source : String} {capacity : Nat}
    (h : (assemble source capacity).error = none)
    (hlen : 2 * (assemble source capacity).program.length ≤ UInt32.size) :
    (assemble source capacity).program.WellFormed := by
  have herrors : (if capacity < (Text.lines source.toList).length then _ else _) = none := h
  split_ifs at herrors
  have hnil := AssemblyError.earliest?_eq_none herrors
  have hresolved := (List.append_eq_nil_iff.mp hnil).2
  have hconform : ∀ i ∈ instructions (readLines (Text.lines source.toList)),
      i.conforms ∧ ∀ op ∈ i.operands, op.legible := by
    intro i hi
    obtain ⟨text, -, hholds⟩ := mem_instructions_iff.mp hi
    exact hholds.conforms
  refine Program.resolve_inside hconform ?_ hresolved
  simpa only [assemble, Program.resolve, List.length_map, List.length_zipIdx] using hlen

end Assembly
end Lockstep
