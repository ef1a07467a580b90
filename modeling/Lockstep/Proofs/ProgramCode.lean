import Lockstep.Program.Code
import Lockstep.Proofs.Numerals

/-!
The code of a program. `WellFormed` says which programs have one; such a program is read back from
its code, up to the lines it was written on, also where the code of more nodes follows. What is read
from any text is well-formed.
-/
namespace Lockstep

theorem bind_eq_ok {ε α β : Type} {x : Except ε α} {next : α → Except ε β} {b : β}
    (h : (x >>= next) = .ok b) : ∃ a, x = .ok a ∧ next a = .ok b := by
  cases x with
  | error e => cases h
  | ok a => exact ⟨a, rfl, h⟩

def Operand.encodable : Operand → Bool
  | channel id => id ≠ 0
  | label _ => false
  | _ => true

/-- An instruction that has a code in a program of `length` instructions. -/
structure Instruction.WellFormed (length : Nat) (i : Instruction) : Prop where
  conforms : i.conforms
  encodable : ∀ op ∈ i.operands, op.encodable
  inside : ∀ d, i.target? = some (.offset d) → 0 ≤ d.toInt ∧ d.toInt < length

namespace Program

def WellFormed (p : Program) : Prop := ∀ i ∈ p, i.WellFormed p.length

def linedFrom (line : Nat) : Program → Program
  | [] => []
  | i :: p => { i with line := line } :: linedFrom (line + 1) p

def relined (p : Program) : Program := p.linedFrom 0

@[simp] theorem length_linedFrom (line : Nat) (p : Program) :
    List.length (p.linedFrom line) = List.length p := by
  induction p generalizing line with
  | nil => rfl
  | cons i p ih => exact congrArg (· + 1) (ih (line + 1))

theorem getElem?_linedFrom (p : Program) (line k : Nat) :
    (p.linedFrom line)[k]? = p[k]?.map fun i => { i with line := line + k } := by
  induction p generalizing line k with
  | nil => rfl
  | cons i p ih =>
    cases k with
    | zero => rfl
    | succ k =>
      have hrest := ih (line + 1) k
      rw [Nat.add_assoc, Nat.add_comm 1] at hrest
      exact hrest

theorem mem_linedFrom {i : Instruction} {line : Nat} {p : Program} (h : i ∈ p.linedFrom line) :
    ∃ j ∈ p, ∃ n, i = { j with line := n } := by
  induction p generalizing line with
  | nil => cases h
  | cons j p ih =>
    rcases List.mem_cons.mp h with rfl | h
    · exact ⟨j, .head _, line, rfl⟩
    · obtain ⟨k, hk, n, rfl⟩ := ih h
      exact ⟨k, .tail _ hk, n, rfl⟩

theorem WellFormed.linedFrom {p : Program} (h : p.WellFormed) (line : Nat) :
    (p.linedFrom line).WellFormed := by
  intro i hi
  obtain ⟨j, hj, n, rfl⟩ := mem_linedFrom hi
  obtain ⟨hc, he, hd⟩ := h j hj
  rw [length_linedFrom]
  exact ⟨hc, he, hd⟩

end Program

namespace Code
open Text (NoDigitNext)

/-! Writing. -/

theorem ofCode?_code (op : Opcode) : Opcode.ofCode? op.code = some op := by
  cases op <;> rfl

theorem code_ne_nodeMark (op : Opcode) : op.code ≠ nodeMark := by
  cases op <;> decide

theorem code_not_digit (op : Opcode) : op.code.isDigit = false := by
  cases op <;> rfl

theorem literal_eq (n : Int) : ∃ tag ds, literal n = tag :: ds ∧ tag.isDigit = false := by
  unfold literal
  split_ifs
  · exact ⟨'Z', [], rfl, rfl⟩
  · exact ⟨'P', _, rfl, rfl⟩
  · exact ⟨'N', _, rfl, rfl⟩

theorem operand_ok {op : Operand} (h : op.encodable) : ∃ code, operand op = .ok code := by
  cases op with
  | register r => cases r <;> exact ⟨_, rfl⟩
  | label name => cases h
  | _ => exact ⟨_, rfl⟩

theorem operand_begins {op : Operand} {code : List Char} (h : operand op = .ok code) :
    ∃ tag ds, code = tag :: ds ∧ tag.isDigit = false := by
  cases op with
  | immediate v =>
    cases h
    exact literal_eq v.toInt
  | offset d =>
    cases h
    exact literal_eq d.toInt
  | register r => cases r <;> (cases h; exact ⟨_, _, rfl, rfl⟩)
  | channel id =>
    cases h
    exact ⟨'C', _, rfl, rfl⟩
  | label name => cases h

theorem noDigitNext_cons {c : Char} {rest : List Char} (h : c.isDigit = false) :
    NoDigitNext (c :: rest) := by
  intro d hd
  rwa [← Option.some.inj hd]

theorem noDigitNext_operands {ops : List Operand} {code rest : List Char}
    (h : operands ops = .ok code) (hr : NoDigitNext rest) : NoDigitNext (code ++ rest) := by
  cases ops with
  | nil =>
    cases h
    exact hr
  | cons op ops =>
    obtain ⟨first, hfirst, h⟩ := bind_eq_ok h
    obtain ⟨more, -, h⟩ := bind_eq_ok h
    cases h
    obtain ⟨tag, ds, rfl, htag⟩ := operand_begins hfirst
    exact noDigitNext_cons htag

/-! Reading back. -/

theorem magnitude_digits {n : Nat} (hn : n ≠ 0) {rest : List Char} (hr : NoDigitNext rest)
    (o : Nat) :
    magnitude ⟨o, Text.digits n ++ rest⟩ = .ok (n, ⟨o + (Text.digits n).length, rest⟩) := by
  have htake : Cursor.digits ⟨o, Text.digits n ++ rest⟩ = Text.digits n :=
    Text.takeWhile_digits (fun c hc => Text.isDigit_of_mem_digits hc) hr
  have hzero := Text.digits_head_ne_zero hn
  have hval := Text.ofDigitChars_digits n
  have hne := Text.digits_ne_nil n
  unfold magnitude
  rw [htake]
  generalize Text.digits n = ds at hzero hval hne
  split
  · exact absurd rfl hne
  · exact absurd rfl hzero
  · rw [hval, Cursor.skip, List.drop_left]

theorem readLiteral_digits {n : Nat} (negative : Bool) (hn : n ≠ 0) {v : Int64}
    (hv : Text.int64? (if negative then -(n : Int) else n) = some v) {rest : List Char}
    (hr : NoDigitNext rest) (kind : OperandKind) (o : Nat) :
    readLiteral kind negative ⟨o, Text.digits n ++ rest⟩ =
      .ok (literalOperand kind v, ⟨o + (Text.digits n).length, rest⟩) := by
  rw [readLiteral, magnitude_digits hn hr]
  simp only [bind, Except.bind, hv]
  rfl

theorem readOperand_literal {n : Int} {v : Int64} (hv : Text.int64? n = some v) {rest : List Char}
    (hr : NoDigitNext rest) (kind : OperandKind) (o : Nat) :
    readOperand kind ⟨o, literal n ++ rest⟩ =
      .ok (literalOperand kind v, ⟨o + (literal n).length, rest⟩) := by
  unfold literal
  split_ifs with hzero hpos
  · subst hzero
    obtain rfl : v = 0 := (Option.some.inj hv).symm
    rfl
  · have habs : (if false = true then -(n.natAbs : Int) else n.natAbs) = n := by
      simp only [Bool.false_eq_true, if_false]
      omega
    have hread := readLiteral_digits (n := n.natAbs) false (by omega)
      (habs.symm ▸ hv) hr kind (o + 1)
    rw [Nat.add_assoc, Nat.add_comm 1] at hread
    exact hread
  · have habs : (if true = true then -(n.natAbs : Int) else n.natAbs) = n := by
      simp only [if_true]
      omega
    have hread := readLiteral_digits (n := n.natAbs) true (by omega)
      (habs.symm ▸ hv) hr kind (o + 1)
    rw [Nat.add_assoc, Nat.add_comm 1] at hread
    exact hread

theorem readOperand_operand {op : Operand} {kind : OperandKind} {code : List Char}
    (hcode : operand op = .ok code) (he : op.encodable) (hf : op.fits kind) {rest : List Char}
    (hr : NoDigitNext rest) (o : Nat) :
    readOperand kind ⟨o, code ++ rest⟩ = .ok (op, ⟨o + code.length, rest⟩) := by
  cases op with
  | register r =>
    cases r <;> (obtain rfl := Except.ok.inj hcode; rfl)
  | immediate v =>
    obtain rfl := Except.ok.inj hcode
    rw [readOperand_literal (Text.int64?_toInt v) hr]
    cases kind <;> first | rfl | cases hf
  | offset d =>
    obtain rfl := Except.ok.inj hcode
    have hd := Text.int64?_of_int32 d
    have hback : literalOperand .label (Int64.ofInt d.toInt) = .offset d := by
      rw [literalOperand, Text.toInt_of_int64? hd, Text.int32?_toInt]
    rw [readOperand_literal hd hr]
    cases kind <;> first | rw [hback] | cases hf
  | channel id =>
    obtain rfl := Except.ok.inj hcode
    have hid : id.toNat ≠ 0 := by
      intro h
      have hz : id = 0 := UInt32.toNat_inj.mp h
      simp [Operand.encodable, hz] at he
    have hread : readChannel ⟨o + 1, Text.digits id.toNat ++ rest⟩ =
        .ok (.channel id, ⟨o + 1 + (Text.digits id.toNat).length, rest⟩) := by
      rw [readChannel, magnitude_digits hid hr]
      simp only [bind, Except.bind, Text.uint32?_toNat]
      rfl
    rw [Nat.add_assoc, Nat.add_comm 1] at hread
    exact hread
  | label name => cases he

theorem operands_roundTrip {kinds : List OperandKind} {ops : List Operand}
    (hf : Instruction.operandsFit kinds ops) (he : ∀ op ∈ ops, op.encodable) :
    ∃ code, operands ops = .ok code ∧
      ∀ {rest : List Char}, NoDigitNext rest →
        ∀ opcode position o, readOperands opcode position kinds ⟨o, code ++ rest⟩ =
          .ok (ops, ⟨o + code.length, rest⟩) := by
  induction ops generalizing kinds with
  | nil =>
    cases kinds with
    | cons kind kinds => cases hf
    | nil => exact ⟨[], rfl, fun _ _ _ _ => rfl⟩
  | cons op ops ih =>
    cases kinds with
    | nil => cases hf
    | cons kind kinds =>
      obtain ⟨hfit, hfits⟩ := Bool.and_eq_true_iff.mp hf
      have hop := he op (.head _)
      obtain ⟨first, hfirst⟩ := operand_ok hop
      obtain ⟨more, hmore, hread⟩ := ih hfits fun o ho => he o (.tail _ ho)
      refine ⟨first ++ more, ?_, ?_⟩
      · rw [operands, hfirst, hmore]
        rfl
      · intro rest hr opcode position o
        have hnext := noDigitNext_operands hmore hr
        rw [readOperands, List.append_assoc, readOperand_operand hfirst hop hfit hnext]
        simp only [bind, Except.bind, hfit, if_true, hread hr]
        rw [List.length_append, Nat.add_assoc]
        rfl

def Ends (rest : List Char) : Prop := rest = [] ∨ ∃ more, rest = nodeMark :: more

theorem Ends.noDigitNext {rest : List Char} (h : Ends rest) : NoDigitNext rest := by
  rcases h with rfl | ⟨more, rfl⟩
  · intro c hc
    cases hc
  · exact noDigitNext_cons rfl

theorem instruction_eq {i : Instruction} (hc : i.conforms) (he : ∀ op ∈ i.operands, op.encodable)
    {code : List Char} (hcode : operands i.operands = .ok code) (index : Nat) :
    instruction index i = .ok (i.opcode.code :: code) := by
  unfold instruction
  split
  · rename_i name htarget
    have hmem : Operand.label name ∈ i.operands := by
      unfold Instruction.target? at htarget
      split_ifs at htarget
      exact List.mem_of_getLast? htarget
    cases he _ hmem
  · rw [if_pos hc, hcode]
    rfl

theorem readInstructions_ends {rest : List Char} (h : Ends rest) (fuel index o : Nat) :
    readInstructions fuel index ⟨o, rest⟩ = .ok ([], ⟨o, rest⟩) := by
  rcases h with rfl | ⟨more, rfl⟩ <;> cases fuel <;> rfl

theorem instructionsFrom_cons {index : Nat} {i : Instruction} {p : Program} {code : List Char}
    (h : instructionsFrom index (i :: p) = .ok code) :
    i.conforms ∧ ∃ ops more, operands i.operands = .ok ops ∧
      instructionsFrom (index + 1) p = .ok more ∧ code = i.opcode.code :: (ops ++ more) := by
  obtain ⟨first, hfirst, h⟩ := bind_eq_ok h
  obtain ⟨more, hmore, h⟩ := bind_eq_ok h
  cases h
  unfold instruction at hfirst
  split at hfirst
  · cases hfirst
  · split_ifs at hfirst with hc
    obtain ⟨ops, hops, hfirst⟩ := bind_eq_ok hfirst
    cases hfirst
    exact ⟨hc, ops, more, hops, hmore, rfl⟩

theorem noDigitNext_instructions {index : Nat} {p : Program} {code rest : List Char}
    (h : instructionsFrom index p = .ok code) (hr : Ends rest) : NoDigitNext (code ++ rest) := by
  cases p with
  | nil =>
    cases h
    exact hr.noDigitNext
  | cons i p =>
    obtain ⟨-, ops, more, -, -, rfl⟩ := instructionsFrom_cons h
    exact noDigitNext_cons (code_not_digit _)

theorem readInstructions_code (opcode : Opcode) (text : List Char) (fuel index o : Nat) :
    readInstructions (fuel + 1) index ⟨o, opcode.code :: text⟩ =
      (do
        let (ops, next) ← readOperands opcode 1 opcode.signature ⟨o + 1, text⟩
        let (more, last) ← readInstructions fuel (index + 1) next
        return (⟨opcode, ops, index⟩ :: more, last)) := by
  have hskip : Cursor.skip ⟨o, opcode.code :: text⟩ 1 = ⟨o + 1, text⟩ := rfl
  rw [readInstructions]
  simp only [if_neg (code_ne_nodeMark _), ofCode?_code, hskip]

theorem instructions_roundTrip {p : Program}
    (h : ∀ i ∈ p, i.conforms ∧ ∀ op ∈ i.operands, op.encodable) (index : Nat) :
    ∃ code, instructionsFrom index p = .ok code ∧
      ∀ {rest : List Char}, Ends rest →
        ∀ fuel o, code.length ≤ fuel → readInstructions fuel index ⟨o, code ++ rest⟩ =
          .ok (p.linedFrom index, ⟨o + code.length, rest⟩) := by
  -- the last operand of an instruction may be a number: it ends where no digit follows
  induction p generalizing index with
  | nil => exact ⟨[], rfl, fun hr fuel o _ => readInstructions_ends hr fuel index o⟩
  | cons i p ih =>
    obtain ⟨hconforms, hencodable⟩ := h i (.head _)
    obtain ⟨ops, hops, hreadOps⟩ := operands_roundTrip hconforms hencodable
    obtain ⟨more, hmore, hread⟩ := ih (fun j hj => h j (.tail _ hj)) (index + 1)
    refine ⟨i.opcode.code :: ops ++ more, ?_, ?_⟩
    · rw [instructionsFrom, instruction_eq hconforms hencodable hops, hmore]
      rfl
    · intro rest hr fuel o hfuel
      cases fuel with
      | zero => simp at hfuel
      | succ fuel =>
        have hlen : ops.length + more.length ≤ fuel := by simpa using hfuel
        have hnext := noDigitNext_instructions hmore hr
        have hoffset : o + 1 + ops.length + more.length =
            o + (i.opcode.code :: ops ++ more).length := by
          simp only [List.length_append, List.length_cons]
          omega
        rw [List.append_assoc, List.cons_append, readInstructions_code, hreadOps hnext]
        simp only [bind, Except.bind]
        rw [hread hr fuel _ (by omega), hoffset]
        rfl

theorem firstStray?_eq_none {length : Nat} {p : Program}
    (h : ∀ i ∈ p, ∀ d, i.target? = some (.offset d) → 0 ≤ d.toInt ∧ d.toInt < length)
    (index : Nat) : firstStray? length index p = none := by
  induction p generalizing index with
  | nil => rfl
  | cons i p ih =>
    have hi : strays? length i = none := by
      unfold strays?
      split
      · rename_i d htarget
        exact if_pos (h i (.head _) d htarget)
      · rfl
    rw [firstStray?, hi]
    exact ih (fun j hj => h j (.tail _ hj)) (index + 1)

/-- A well-formed program has a code, from which it is read back wherever it stands. -/
theorem program_roundTrip {p : Program} (h : p.WellFormed) :
    ∃ code, instructionsFrom 0 p = .ok code ∧
      ∀ {rest : List Char}, Ends rest →
        ∀ o, readProgram ⟨o, code ++ rest⟩ = .ok (p.relined, ⟨o + code.length, rest⟩) := by
  obtain ⟨code, hcode, hread⟩ :=
    instructions_roundTrip (fun i hi => ⟨(h i hi).conforms, (h i hi).encodable⟩) 0
  refine ⟨code, hcode, fun hr o => ?_⟩
  have hstray := firstStray?_eq_none (fun i hi => ((h.linedFrom 0) i hi).inside) 0
  rw [readProgram, hread hr _ _ (by simp)]
  simp only [bind, Except.bind, hstray]
  rfl

end Code

namespace Program

theorem encode_wellFormed {p : Program} (h : p.WellFormed) :
    ∃ text, p.encode = .ok text ∧ decode text = .ok p.relined := by
  obtain ⟨code, hcode, hread⟩ := Code.program_roundTrip h
  refine ⟨String.ofList code, by rw [encode, hcode]; rfl, ?_⟩
  have hback := hread (.inl rfl) 0
  rw [List.append_nil] at hback
  rw [decode, String.toList_ofList, hback]
  rfl

theorem instructionsFrom_linedFrom (p : Program) (index line : Nat) :
    Code.instructionsFrom index (p.linedFrom line) = Code.instructionsFrom index p := by
  induction p generalizing index line with
  | nil => rfl
  | cons i p ih =>
    rw [linedFrom, Code.instructionsFrom, Code.instructionsFrom, ih]
    rfl

theorem encode_relined (p : Program) : p.relined.encode = p.encode := by
  rw [encode, encode, relined, instructionsFrom_linedFrom]

theorem sameOperations_linedFrom (p : Program) (line : Nat) :
    (p.linedFrom line).sameOperations p := by
  induction p generalizing line with
  | nil => rfl
  | cons i p ih =>
    rw [linedFrom, sameOperations, ih]
    simp [Instruction.sameOperation]

end Program

namespace Code

/-! What is read is well-formed. -/

theorem magnitude_eq_ok {c next : Cursor} {n : Nat} (h : magnitude c = .ok (n, next)) :
    c.digits = Text.digits n ∧ n ≠ 0 ∧ next = c.skip c.digits.length := by
  have hd : ∀ d ∈ c.digits, d.isDigit := fun d hd => List.all_eq_true.mp List.all_takeWhile d hd
  unfold magnitude at h
  split at h
  · cases h
  · cases h
  · rename_i hne hz
    have hhead : c.digits.head? ≠ some '0' := by
      intro hh
      obtain ⟨ds, hds⟩ := List.head?_eq_some_iff.mp hh
      exact hz ds hds
    have hcanon := Text.digits_ofDigitChars hne hd hhead
    obtain ⟨hn, hnext⟩ := Prod.mk.inj (Except.ok.inj h)
    rw [hn] at hcanon
    refine ⟨hcanon.symm, ?_, hnext.symm⟩
    intro hzero
    rw [hzero] at hcanon
    exact hhead (hcanon ▸ rfl)

theorem readLiteral_eq_ok {kind : OperandKind} {negative : Bool} {c next : Cursor} {op : Operand}
    (h : readLiteral kind negative c = .ok (op, next)) :
    ∃ n v, magnitude c = .ok (n, next) ∧
      Text.int64? (if negative then -(n : Int) else n) = some v ∧ op = literalOperand kind v := by
  obtain ⟨⟨n, after⟩, hm, h⟩ := bind_eq_ok h
  simp only at h
  split at h
  · rename_i v hv
    cases h
    exact ⟨n, v, hm, hv, rfl⟩
  · cases h

theorem readChannel_eq_ok {c next : Cursor} {op : Operand} (h : readChannel c = .ok (op, next)) :
    ∃ n id, magnitude c = .ok (n, next) ∧ Text.uint32? n = some id ∧ op = .channel id := by
  obtain ⟨⟨n, after⟩, hm, h⟩ := bind_eq_ok h
  simp only at h
  split at h
  · rename_i id hid
    cases h
    exact ⟨n, id, hm, hid, rfl⟩
  · cases h

theorem readOperands_cons {opcode : Opcode} {position : Nat} {kind : OperandKind}
    {kinds : List OperandKind} {c next : Cursor} {ops : List Operand}
    (h : readOperands opcode position (kind :: kinds) c = .ok (ops, next)) :
    ∃ op after more, readOperand kind c = .ok (op, after) ∧ op.fits kind ∧
      readOperands opcode (position + 1) kinds after = .ok (more, next) ∧ ops = op :: more := by
  obtain ⟨⟨op, after⟩, hop, h⟩ := bind_eq_ok h
  simp only at h
  split_ifs at h with hfit
  obtain ⟨⟨more, last⟩, hmore, h⟩ := bind_eq_ok h
  cases h
  exact ⟨op, after, more, hop, hfit, hmore, rfl⟩

theorem readInstructions_succ {fuel index : Nat} {c next : Cursor} {p : Program}
    (h : readInstructions (fuel + 1) index c = .ok (p, next)) :
    p = [] ∧ next = c ∨ ∃ letter rest opcode ops after more, c.rest = letter :: rest ∧
      Opcode.ofCode? letter = some opcode ∧
      readOperands opcode 1 opcode.signature (c.skip 1) = .ok (ops, after) ∧
      readInstructions fuel (index + 1) after = .ok (more, next) ∧
      p = ⟨opcode, ops, index⟩ :: more := by
  unfold readInstructions at h
  split at h
  · cases h
    exact .inl ⟨rfl, rfl⟩
  · rename_i letter rest hc
    split_ifs at h
    · cases h
      exact .inl ⟨rfl, rfl⟩
    · split at h
      · cases h
      · rename_i opcode hopcode
        obtain ⟨⟨ops, after⟩, hops, h⟩ := bind_eq_ok h
        obtain ⟨⟨more, last⟩, hmore, h⟩ := bind_eq_ok h
        cases h
        exact .inr ⟨letter, rest, opcode, ops, after, more, hc, hopcode, hops, hmore, rfl⟩

theorem readProgram_eq_ok {c next : Cursor} {p : Program} (h : readProgram c = .ok (p, next)) :
    readInstructions c.rest.length 0 c = .ok (p, next) ∧
      firstStray? (List.length p) 0 p = none := by
  obtain ⟨⟨q, after⟩, hread, h⟩ := bind_eq_ok h
  simp only at h
  split at h
  · cases h
  · rename_i hstray
    cases h
    exact ⟨hread, hstray⟩

theorem literalOperand_encodable (kind : OperandKind) (v : Int64) :
    (literalOperand kind v).encodable := by
  unfold literalOperand
  split
  · split <;> rfl
  · rfl

theorem readOperand_encodable {kind : OperandKind} {c next : Cursor} {op : Operand}
    (h : readOperand kind c = .ok (op, next)) : op.encodable := by
  have hliteral : ∀ {negative c}, readLiteral kind negative c = .ok (op, next) → op.encodable := by
    intro negative c hl
    obtain ⟨n, v, -, -, rfl⟩ := readLiteral_eq_ok hl
    exact literalOperand_encodable kind v
  unfold readOperand at h
  split at h
  · cases h
  · split at h
    · cases h; rfl
    · cases h; rfl
    · cases h; rfl
    · cases h; rfl
    · cases h; exact literalOperand_encodable kind 0
    · exact hliteral h
    · exact hliteral h
    · obtain ⟨n, id, hm, hid, rfl⟩ := readChannel_eq_ok h
      have hnat := Text.toNat_of_uint32? hid
      simp only [Operand.encodable, decide_eq_true_eq]
      rintro rfl
      exact (magnitude_eq_ok hm).2.1 hnat.symm
    · cases h

theorem readOperands_fit {opcode : Opcode} {position : Nat} {kinds : List OperandKind}
    {c next : Cursor} {ops : List Operand}
    (h : readOperands opcode position kinds c = .ok (ops, next)) :
    Instruction.operandsFit kinds ops ∧ ∀ op ∈ ops, op.encodable := by
  induction kinds generalizing position c ops with
  | nil =>
    cases h
    exact ⟨rfl, fun op hop => absurd hop List.not_mem_nil⟩
  | cons kind kinds ih =>
    obtain ⟨op, after, more, hop, hfit, hmore, rfl⟩ := readOperands_cons h
    obtain ⟨hfits, hothers⟩ := ih hmore
    exact ⟨Bool.and_eq_true_iff.mpr ⟨hfit, hfits⟩,
      List.forall_mem_cons.mpr ⟨readOperand_encodable hop, hothers⟩⟩

theorem readInstructions_conform {fuel index : Nat} {c next : Cursor} {p : Program}
    (h : readInstructions fuel index c = .ok (p, next)) :
    ∀ i ∈ p, i.conforms ∧ ∀ op ∈ i.operands, op.encodable := by
  induction fuel generalizing index c next p with
  | zero =>
    cases h
    exact fun i hi => absurd hi List.not_mem_nil
  | succ fuel ih =>
    rcases readInstructions_succ h with ⟨rfl, -⟩ | ⟨_, _, _, _, _, _, -, -, hops, hmore, rfl⟩
    · exact fun i hi => absurd hi List.not_mem_nil
    · exact List.forall_mem_cons.mpr ⟨readOperands_fit hops, ih hmore⟩

theorem inside_of_firstStray? {length index : Nat} {p : Program}
    (h : firstStray? length index p = none) :
    ∀ i ∈ p, ∀ d, i.target? = some (.offset d) → 0 ≤ d.toInt ∧ d.toInt < length := by
  induction p generalizing index with
  | nil => exact fun i hi => absurd hi List.not_mem_nil
  | cons j p ih =>
    rw [firstStray?] at h
    split at h
    · cases h
    · rename_i hj
      intro i hi d hd
      rcases List.mem_cons.mp hi with rfl | hi
      · by_contra hout
        simp [strays?, hd, hout] at hj
      · exact ih h i hi d hd

theorem readProgram_wellFormed {c next : Cursor} {p : Program}
    (h : readProgram c = .ok (p, next)) : p.WellFormed := by
  obtain ⟨hread, hstray⟩ := readProgram_eq_ok h
  intro i hi
  obtain ⟨hconforms, hencodable⟩ := readInstructions_conform hread i hi
  exact ⟨hconforms, hencodable, inside_of_firstStray? hstray i hi⟩

end Code

namespace Program

theorem decode_eq_ok {text : String} {p : Program} (h : decode text = .ok p) :
    ∃ next, Code.readProgram ⟨0, text.toList⟩ = .ok (p, next) ∧ next.rest = [] := by
  obtain ⟨⟨q, next⟩, hread, h⟩ := bind_eq_ok h
  simp only at h
  split at h
  · rename_i hend
    cases h
    exact ⟨next, hread, hend⟩
  · cases h

theorem decode_wellFormed {text : String} {p : Program} (h : decode text = .ok p) :
    p.WellFormed := by
  obtain ⟨next, hread, -⟩ := decode_eq_ok h
  exact Code.readProgram_wellFormed hread

theorem sameOperations_length {p q : Program} (h : p.sameOperations q) :
    List.length p = List.length q := by
  induction p generalizing q with
  | nil =>
    cases q with
    | nil => rfl
    | cons j q => cases h
  | cons i p ih =>
    cases q with
    | nil => cases h
    | cons j q => exact congrArg (· + 1) (ih (Bool.and_eq_true_iff.mp h).2)

theorem mem_of_sameOperations {p q : Program} (h : p.sameOperations q) {j : Instruction}
    (hj : j ∈ q) : ∃ i ∈ p, j = { i with line := j.line } := by
  induction p generalizing q with
  | nil =>
    cases q with
    | nil => cases hj
    | cons k q => cases h
  | cons i p ih =>
    cases q with
    | nil => cases h
    | cons k q =>
      obtain ⟨hsame, hrest⟩ := Bool.and_eq_true_iff.mp h
      rcases List.mem_cons.mp hj with rfl | hj
      · simp only [Instruction.sameOperation, Bool.and_eq_true, decide_eq_true_eq] at hsame
        refine ⟨i, .head _, ?_⟩
        rw [hsame.1, hsame.2]
      · obtain ⟨i', hi', heq⟩ := ih hrest hj
        exact ⟨i', .tail _ hi', heq⟩

theorem WellFormed.of_sameOperations {p q : Program} (hp : p.WellFormed) (h : p.sameOperations q) :
    q.WellFormed := by
  intro j hj
  obtain ⟨i, hi, heq⟩ := mem_of_sameOperations h hj
  obtain ⟨hc, he, hd⟩ := hp i hi
  rw [heq, ← sameOperations_length h]
  exact ⟨hc, he, hd⟩

/-- A program passes its code and back just when it is well-formed. -/
theorem verifiedCode_eq_ok_iff {p : Program} {text : String} :
    p.verifiedCode = .ok text ↔ p.WellFormed ∧ p.encode = .ok text := by
  constructor
  · intro h
    obtain ⟨first, hfirst, h⟩ := bind_eq_ok h
    obtain ⟨back, hback, h⟩ := bind_eq_ok h
    obtain ⟨second, hsecond, h⟩ := bind_eq_ok h
    split_ifs at h with hsame
    cases h
    exact ⟨(decode_wellFormed hback).of_sameOperations hsame.2, hfirst⟩
  · rintro ⟨hwf, hcode⟩
    obtain ⟨code, hcode', hback⟩ := encode_wellFormed hwf
    obtain rfl : code = text := Except.ok.inj (hcode'.symm.trans hcode)
    have hagain : p.relined.encode = .ok code := p.encode_relined.trans hcode
    rw [verifiedCode, hcode]
    simp only [bind, Except.bind, hback, hagain]
    rw [if_pos ⟨trivial, sameOperations_linedFrom p 0⟩]
    rfl

theorem verifiedCode_wellFormed {p : Program} (h : p.WellFormed) :
    ∃ text, p.verifiedCode = .ok text := by
  obtain ⟨text, hcode, -⟩ := encode_wellFormed h
  exact ⟨text, verifiedCode_eq_ok_iff.mpr ⟨h, hcode⟩⟩

end Program
end Lockstep
