import Lockstep.Proofs.ProgramCode

/-!
The code of a program is exact. Whatever is read from a text is written as just the characters that
were read, so a text is the code of one program at most, and every text that is no code is refused.
-/
namespace Lockstep

namespace Code

def Spans (c : Cursor) (code : List Char) (next : Cursor) : Prop := c.rest = code ++ next.rest

theorem Spans.append {c d e : Cursor} {first more : List Char} (h : Spans c first d)
    (k : Spans d more e) : Spans c (first ++ more) e := by
  rw [Spans, h, k, List.append_assoc]

theorem spans_skip {c : Cursor} {tag : Char} {rest : List Char} (h : c.rest = tag :: rest) :
    Spans c [tag] (c.skip 1) := by
  rw [Spans, Cursor.skip, h]
  rfl

theorem spans_magnitude {c next : Cursor} {n : Nat} (h : magnitude c = .ok (n, next)) :
    Spans c (Text.digits n) next := by
  obtain ⟨hdigits, -, rfl⟩ := magnitude_eq_ok h
  rw [Spans, ← hdigits]
  exact (List.prefix_iff_eq_append.mp (List.takeWhile_prefix Char.isDigit)).symm

theorem operand_literalOperand (kind : OperandKind) (v : Int64) :
    operand (literalOperand kind v) = .ok (literal v.toInt) := by
  unfold literalOperand
  split
  · split
    · rename_i d hd
      rw [operand, Text.toInt_of_int32? hd]
    · rfl
  · rfl

theorem spans_literal {kind : OperandKind} {negative : Bool} {c next : Cursor} {op : Operand}
    (h : readLiteral kind negative c = .ok (op, next)) :
    ∃ ds, operand op = .ok ((if negative then 'N' else 'P') :: ds) ∧ Spans c ds next := by
  obtain ⟨n, v, hm, hv, rfl⟩ := readLiteral_eq_ok h
  have hn := (magnitude_eq_ok hm).2.1
  refine ⟨Text.digits n, ?_, spans_magnitude hm⟩
  rw [operand_literalOperand, Text.toInt_of_int64? hv, literal]
  cases negative with
  | true => simp [hn]
  | false => simp [hn]

theorem spans_channel {c next : Cursor} {op : Operand} (h : readChannel c = .ok (op, next)) :
    ∃ ds, operand op = .ok ('C' :: ds) ∧ Spans c ds next := by
  obtain ⟨n, id, hm, hid, rfl⟩ := readChannel_eq_ok h
  refine ⟨Text.digits n, ?_, spans_magnitude hm⟩
  rw [operand, Text.toNat_of_uint32? hid]

theorem spans_operand {kind : OperandKind} {c next : Cursor} {op : Operand}
    (h : readOperand kind c = .ok (op, next)) :
    ∃ code, operand op = .ok code ∧ Spans c code next := by
  have hletter : ∀ {tag : Char} {rest : List Char} {read : Operand}, c.rest = tag :: rest →
      operand read = .ok [tag] →
      (.ok (read, c.skip 1) : Except CodeError (Operand × Cursor)) = .ok (op, next) →
      ∃ code, operand op = .ok code ∧ Spans c code next := by
    intro tag rest read hc hcode h
    obtain ⟨rfl, rfl⟩ := Prod.mk.inj (Except.ok.inj h)
    exact ⟨_, hcode, spans_skip hc⟩
  -- a letter followed by digits: what was read after the letter is the rest of the code
  have htagged : ∀ {tag : Char} {rest : List Char}, c.rest = tag :: rest →
      (∃ ds, operand op = .ok (tag :: ds) ∧ Spans (c.skip 1) ds next) →
      ∃ code, operand op = .ok code ∧ Spans c code next := by
    rintro tag rest hc ⟨ds, hop, hds⟩
    exact ⟨tag :: ds, hop, (spans_skip hc).append hds⟩
  unfold readOperand at h
  split at h
  · cases h
  · rename_i tag rest hc
    split at h
    · exact hletter hc rfl h
    · exact hletter hc rfl h
    · exact hletter hc rfl h
    · exact hletter hc rfl h
    · exact hletter hc (operand_literalOperand kind 0) h
    · exact htagged hc (spans_literal h)
    · exact htagged hc (spans_literal h)
    · exact htagged hc (spans_channel h)
    · cases h

theorem spans_operands {opcode : Opcode} {position : Nat} {kinds : List OperandKind}
    {c next : Cursor} {ops : List Operand}
    (h : readOperands opcode position kinds c = .ok (ops, next)) :
    ∃ code, operands ops = .ok code ∧ Spans c code next := by
  induction kinds generalizing position c ops with
  | nil =>
    cases h
    exact ⟨[], rfl, rfl⟩
  | cons kind kinds ih =>
    obtain ⟨op, after, more, hop, -, hmore, rfl⟩ := readOperands_cons h
    obtain ⟨first, hfirst, hspan⟩ := spans_operand hop
    obtain ⟨others, hothers, hspans⟩ := ih hmore
    refine ⟨first ++ others, ?_, hspan.append hspans⟩
    rw [operands, hfirst, hothers]
    rfl

theorem code_of_ofCode? {letter : Char} {op : Opcode} (h : Opcode.ofCode? letter = some op) :
    op.code = letter := by
  have hfound := List.find?_some h
  exact of_decide_eq_true hfound

theorem spans_instructions {fuel index : Nat} {c next : Cursor} {p : Program}
    (h : readInstructions fuel index c = .ok (p, next)) :
    ∃ code, instructionsFrom index p = .ok code ∧ Spans c code next ∧ p.linedFrom index = p := by
  induction fuel generalizing index c p with
  | zero =>
    cases h
    exact ⟨[], rfl, rfl, rfl⟩
  | succ fuel ih =>
    rcases readInstructions_succ h with
      ⟨rfl, rfl⟩ | ⟨letter, rest, opcode, ops, after, more, hc, hopcode, hops, hmore, rfl⟩
    · exact ⟨[], rfl, rfl, rfl⟩
    · obtain ⟨first, hfirst, hspan⟩ := spans_operands hops
      obtain ⟨others, hothers, hspans, hlines⟩ := ih hmore
      obtain ⟨hfits, hencodable⟩ := readOperands_fit hops
      have hone := instruction_eq (i := ⟨opcode, ops, index⟩) hfits hencodable hfirst index
      have hletter := spans_skip hc
      rw [← code_of_ofCode? hopcode] at hletter
      refine ⟨opcode.code :: first ++ others, ?_, (hletter.append hspan).append hspans, ?_⟩
      · rw [instructionsFrom, hone, hothers]
        rfl
      · rw [Program.linedFrom, hlines]

theorem spans_program {c next : Cursor} {p : Program} (h : readProgram c = .ok (p, next)) :
    ∃ code, instructionsFrom 0 p = .ok code ∧ Spans c code next ∧ p.relined = p :=
  spans_instructions (readProgram_eq_ok h).1

end Code

namespace Program

def Numbered (p : Program) : Prop := ∀ (k : Nat) (i : Instruction), p[k]? = some i → i.line = k

theorem relined_eq_iff {p : Program} : p.relined = p ↔ p.Numbered := by
  constructor
  · intro h k i hi
    have hline := getElem?_linedFrom p 0 k
    rw [← relined, h, hi, Option.map_some, Nat.zero_add] at hline
    exact congrArg Instruction.line (Option.some.inj hline)
  · intro h
    apply List.ext_getElem?
    intro k
    rw [relined, getElem?_linedFrom, Nat.zero_add]
    cases hi : p[k]? with
    | none => rfl
    | some i =>
      rw [Option.map_some, ← h k i hi]

theorem WellFormed.of_relined {p : Program} (h : p.relined.WellFormed) : p.WellFormed :=
  h.of_sameOperations (sameOperations_linedFrom p 0)

theorem encode_of_decode {text : String} {p : Program} (h : decode text = .ok p) :
    p.relined = p ∧ p.encode = .ok text := by
  obtain ⟨next, hread, hend⟩ := decode_eq_ok h
  obtain ⟨code, hcode, hspan, hlines⟩ := Code.spans_program hread
  rw [Code.Spans, hend, List.append_nil] at hspan
  refine ⟨hlines, ?_⟩
  rw [encode, hcode, ← hspan]
  exact congrArg Except.ok String.ofList_toList

/-- The code is a bijection between the well-formed programs, their lines apart, and the texts that
can be read. -/
theorem code_bijective (text : String) (p : Program) :
    (decode text = .ok p ↔ p.WellFormed ∧ p.Numbered ∧ p.encode = .ok text) ∧
      (p.WellFormed ↔ ∃ code, p.encode = .ok code ∧ decode code = .ok p.relined) := by
  constructor
  · constructor
    · intro h
      obtain ⟨hlines, hcode⟩ := encode_of_decode h
      exact ⟨decode_wellFormed h, relined_eq_iff.mp hlines, hcode⟩
    · rintro ⟨hwf, hlines, hcode⟩
      obtain ⟨code, hcode', hback⟩ := encode_wellFormed hwf
      obtain rfl : code = text := Except.ok.inj (hcode'.symm.trans hcode)
      rw [hback, relined_eq_iff.mpr hlines]
  · constructor
    · exact encode_wellFormed
    · rintro ⟨code, -, hback⟩
      exact (decode_wellFormed hback).of_relined

end Program
end Lockstep
