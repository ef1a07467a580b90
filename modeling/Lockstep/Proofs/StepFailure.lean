import Lockstep.Proofs.Assembling
import Lockstep.Proofs.StepEffect
import Lockstep.Validation.Lint

/-!
Why an instruction fails. One that conforms to its opcode and holds no label fails for one of four
causes: a move from a channel to itself, a read of a channel that the node broadcasts on, a
broadcast for which there is no room, and an output that is refused. `Fails` says when each of them
is met.
-/
namespace Lockstep

namespace Node
variable {σ : Type} {t : Terminal σ} {ch : Channels} {n : Node} {s u : σ} {fault : RuntimeFault}

/-! Reading. -/

/-- What an operand is read as, with the state of the terminal after it. -/
def reading (t : Terminal σ) (ch : Channels) (n : Node) (s : σ) : Operand → Int × σ
  | .immediate v => (v.toInt, s)
  | .offset d => (d.toInt, s)
  | .register .acc => (n.acc, s)
  | .register .input => t.read s
  | .channel id => (ch.value id, s)
  | _ => (0, s)

theorem reading_offset (d : Int32) : n.reading t ch s (.offset d) = (d.toInt, s) := rfl

theorem reading_channel (id : UInt32) : n.reading t ch s (.channel id) = (ch.value id, s) := rfl

def MayRead (n : Node) (op : Operand) : Prop := ∀ id ∈ n.active, op ≠ .channel id

theorem mayRead_or_own (n : Node) (op : Operand) :
    n.MayRead op ∨ ∃ id ∈ n.active, op = .channel id := by
  by_cases h : ∃ id ∈ n.active, op = .channel id
  · exact .inr h
  · exact .inl fun id hid hop => h ⟨id, hid, hop⟩

theorem mayRead_channel {id : UInt32} : n.MayRead (.channel id) ↔ id ∉ n.active := by
  constructor
  · exact fun h hid => h id hid rfl
  · rintro h other hother ⟨⟩
    exact h hother

theorem readOperand_own {id : UInt32} (h : id ∈ n.active) (s : σ) :
    n.readOperand t ch (.channel id) s = (.error (.readsOwnBroadcast id), s) := by
  rw [readOperand, if_pos h]

theorem readOperand_mayRead {op : Operand} {kind : OperandKind} (hf : op.fits kind)
    (hk : kind ≠ .register) (he : op.encodable) (h : n.MayRead op) (s : σ) :
    n.readOperand t ch op s = (.ok (n.reading t ch s op).1, (n.reading t ch s op).2) := by
  cases op with
  | immediate v => rfl
  | offset d => rfl
  | label name => cases he
  | channel id => rw [readOperand, if_neg (mayRead_channel.mp h), reading_channel]
  | register r =>
    cases r with
    | output =>
      -- what cannot be read fits only where something is written
      cases kind with
      | register => exact absurd rfl hk
      | _ => cases hf
    | _ => rfl

/-! Jumping. -/

theorem jump_own {i : Instruction} {id : UInt32} (htarget : i.target? = some (.channel id))
    (h : id ∈ n.active) (s : σ) : n.jump t ch i s = (.error (.readsOwnBroadcast id), s) := by
  rw [jump, htarget]
  simp only [jumpDistance, readOperand_own h]

theorem jump_mayRead {i : Instruction} {target : Operand} (htarget : i.target? = some target)
    (hf : target.fits .label) (he : target.encodable) (h : n.MayRead target) (s : σ) :
    n.jump t ch i s =
      (.ok (n, some (wrapDistance n.program.length (n.reading t ch s target).1).toInt.toNat),
        (n.reading t ch s target).2) := by
  have hread : n.readOperand t ch target s = _ := readOperand_mayRead hf (by decide) he h s
  rw [jump, htarget]
  simp only [jumpDistance, hread]

theorem branch_own {c : Condition} {i : Instruction} {id : UInt32}
    (hhead : i.operands.head? = some (.channel id)) (h : id ∈ n.active) (s : σ) :
    n.branch t ch c i s = (.error (.readsOwnBroadcast id), s) := by
  rw [branch, hhead]
  simp only [readOperand_own h]

theorem branch_other {c : Condition} {i : Instruction} {id : UInt32}
    (hhead : i.operands.head? = some (.channel id)) (h : id ∉ n.active) (s : σ) :
    n.branch t ch c i s =
      if c.holds (ch.value id) then n.jump t ch i s else (.ok (n, none), s) := by
  rw [branch, hhead]
  simp only [readOperand, if_neg h]

/-! Moving. -/

theorem broadcast_eq_error_iff {id : UInt32} {v : Int} :
    n.broadcast id v = .error fault ↔ v ≠ 0 ∧ id ∉ n.active ∧
      n.nodeClass.channels ≤ n.active.length ∧ fault = .tooManyChannels n.nodeClass.channels := by
  have hlength : n.active.length = n.broadcasts.length := List.length_map _
  unfold broadcast
  split_ifs with hv hid hroom
  · simp [hv]
  · simp [hid]
  · simp [hlength, Nat.not_le_of_lt hroom]
  · simp [hv, hid, hlength, Nat.le_of_not_lt hroom, eq_comm]

theorem writeOperand_eq_error_iff {op : Operand} {value : Int} (hf : op.fits .register) :
    n.writeOperand t op value s = (.error fault, u) ↔
      (∃ id, op = .channel id ∧ n.broadcast id (clamp value) = .error fault ∧ s = u) ∨
        (op = .register .output ∧
          ∃ reason, fault = .refused reason ∧ t.write (clamp value) s = (.error reason, u)) := by
  cases op with
  | channel id => simp [writeOperand]
  | register r =>
    cases r with
    | output =>
      simp only [writeOperand]
      rcases t.write (clamp value) s with ⟨reason | _, u⟩
      · simp [eq_comm]
      · simp
    | input => cases hf
    | _ => simp [writeOperand]
  | _ => cases hf

theorem moveFrom_own {d : Operand} {id : UInt32} (h : id ∈ n.active) (s : σ) :
    move.moveFrom t ch n s d (.channel id) = (.error (.readsOwnBroadcast id), s) := by
  simp only [move.moveFrom, readOperand_own h]

theorem moveFrom_mayRead {d src : Operand} (hf : src.fits .number) (he : src.encodable)
    (h : n.MayRead src) :
    move.moveFrom t ch n s d src = (.error fault, u) ↔
      n.writeOperand t d (n.reading t ch s src).1 (n.reading t ch s src).2 = (.error fault, u) := by
  have hread : n.readOperand t ch src s = _ := readOperand_mayRead hf (by decide) he h s
  simp only [move.moveFrom, hread]
  rcases n.writeOperand t d (n.reading t ch s src).1 (n.reading t ch s src).2 with ⟨_ | m, v⟩
  · simp
  · simp

/-- The instruction fails, with the fault and the state of the terminal after it. -/
inductive Fails (n : Node) (t : Terminal σ) (ch : Channels) (s : σ) :
    Instruction → RuntimeFault → σ → Prop
  | itself (id : UInt32) (line : Nat) :
      Fails n t ch s ⟨.mov, [.channel id, .channel id], line⟩ (.readsAndWrites id) s
  | source {d : Operand} {id : UInt32} (line : Nat) (hd : d ≠ .channel id) (h : id ∈ n.active) :
      Fails n t ch s ⟨.mov, [d, .channel id], line⟩ (.readsOwnBroadcast id) s
  | tested {opcode : Opcode} {c : Condition} {id : UInt32} {target : Operand} (line : Nat)
      (hop : opcode.condition? = some c) (h : id ∈ n.active) :
      Fails n t ch s ⟨opcode, [.channel id, target], line⟩ (.readsOwnBroadcast id) s
  | jumped {id : UInt32} (line : Nat) (h : id ∈ n.active) :
      Fails n t ch s ⟨.jmp, [.channel id], line⟩ (.readsOwnBroadcast id) s
  | branched {opcode : Opcode} {c : Condition} {tested id : UInt32} (line : Nat)
      (hop : opcode.condition? = some c) (htested : tested ∉ n.active)
      (hc : c.holds (ch.value tested)) (h : id ∈ n.active) :
      Fails n t ch s ⟨opcode, [.channel tested, .channel id], line⟩ (.readsOwnBroadcast id) s
  | noRoom {id : UInt32} {src : Operand} (line : Nat) (hsrc : n.MayRead src)
      (hne : src ≠ .channel id) (hv : clamp (n.reading t ch s src).1 ≠ 0) (hid : id ∉ n.active)
      (hfull : n.nodeClass.channels ≤ n.active.length) :
      Fails n t ch s ⟨.mov, [.channel id, src], line⟩ (.tooManyChannels n.nodeClass.channels)
        (n.reading t ch s src).2
  | refused {src : Operand} {reason : String} {u : σ} (line : Nat) (hsrc : n.MayRead src)
      (h : t.write (clamp (n.reading t ch s src).1) (n.reading t ch s src).2 = (.error reason, u)) :
      Fails n t ch s ⟨.mov, [.register .output, src], line⟩ (.refused reason) u

theorem execute_branch {opcode : Opcode} {c : Condition} (hop : opcode.condition? = some c)
    (ops : List Operand) (line : Nat) (s : σ) :
    n.execute t ch ⟨opcode, ops, line⟩ s = n.branch t ch c ⟨opcode, ops, line⟩ s := by
  cases opcode <;> cases hop <;> rfl

theorem execute_jump (target : Operand) (line : Nat) (s : σ) :
    n.execute t ch ⟨.jmp, [target], line⟩ s = n.jump t ch ⟨.jmp, [target], line⟩ s := rfl

theorem execute_same (id : UInt32) (line : Nat) (s : σ) :
    n.execute t ch ⟨.mov, [.channel id, .channel id], line⟩ s =
      (.error (.readsAndWrites id), s) := by
  simp [execute, move]

theorem execute_move {d src : Operand} (h : ∀ id, d = .channel id → src ≠ .channel id) (line : Nat)
    (s : σ) : n.execute t ch ⟨.mov, [d, src], line⟩ s = move.moveFrom t ch n s d src := by
  simp only [execute, move]
  split
  · rename_i a b
    have hne : a ≠ b := fun hab => h a rfl (hab ▸ rfl)
    rw [if_neg hne]
  · rfl

theorem target?_branch {opcode : Opcode} {c : Condition} (hop : opcode.condition? = some c)
    (id : UInt32) (target : Operand) (line : Nat) :
    Instruction.target? ⟨opcode, [.channel id, target], line⟩ = some target := by
  cases opcode <;> cases hop <;> rfl

theorem fits_of_move {d src : Operand} {line : Nat}
    (h : Instruction.conforms ⟨.mov, [d, src], line⟩) : d.fits .register ∧ src.fits .number := by
  obtain ⟨hd, hrest⟩ := Bool.and_eq_true_iff.mp h
  exact ⟨hd, (Bool.and_eq_true_iff.mp hrest).1⟩

theorem Fails.execute {i : Instruction} (hc : i.conforms) (he : ∀ op ∈ i.operands, op.encodable)
    (h : n.Fails t ch s i fault u) : n.execute t ch i s = (.error fault, u) := by
  cases h with
  | itself id line => exact execute_same id line s
  | source line hd h =>
    rw [execute_move fun id hid hsrc => hd (hid.trans hsrc.symm), moveFrom_own h]
  | tested line hop h => rw [execute_branch hop, branch_own rfl h]
  | jumped line h => rw [execute_jump, jump_own rfl h]
  | branched line hop htested hholds h =>
    rw [execute_branch hop, branch_other rfl htested, if_pos hholds,
      jump_own (target?_branch hop _ _ _) h]
  | noRoom line hsrc hne hv hid hfull =>
    obtain ⟨hd, hs⟩ := fits_of_move hc
    rw [execute_move fun id hid => (Operand.channel.inj hid) ▸ hne,
      moveFrom_mayRead hs (he _ (.tail _ (.head _))) hsrc, writeOperand_eq_error_iff hd]
    exact .inl ⟨_, rfl, broadcast_eq_error_iff.mpr ⟨hv, hid, hfull, rfl⟩, rfl⟩
  | refused line hsrc h =>
    obtain ⟨hd, hs⟩ := fits_of_move hc
    rw [execute_move (by simp), moveFrom_mayRead hs (he _ (.tail _ (.head _))) hsrc,
      writeOperand_eq_error_iff hd]
    exact .inr ⟨rfl, _, rfl, h⟩

theorem fails_jump {i : Instruction} {target : Operand} (htarget : i.target? = some target)
    (hf : target.fits .label) (he : target.encodable) (h : n.jump t ch i s = (.error fault, u)) :
    ∃ id ∈ n.active, target = .channel id ∧ fault = .readsOwnBroadcast id ∧ u = s := by
  rcases n.mayRead_or_own target with hmay | ⟨id, hid, rfl⟩
  · rw [jump_mayRead htarget hf he hmay] at h
    cases h
  · rw [jump_own htarget hid] at h
    cases h
    exact ⟨id, hid, rfl, rfl, rfl⟩

/-- An instruction that is well-formed fails just where it is said to. -/
theorem execute_eq_error_iff {i : Instruction} (hc : i.conforms)
    (he : ∀ op ∈ i.operands, op.encodable) :
    n.execute t ch i s = (.error fault, u) ↔ n.Fails t ch s i fault u := by
  refine ⟨fun h => ?_, Fails.execute hc he⟩
  cases Instruction.shape_of_conforms hc with
  | @move d src line hd hs =>
    by_cases hsame : ∃ id, d = .channel id ∧ src = .channel id
    · obtain ⟨id, rfl, rfl⟩ := hsame
      rw [execute_same] at h
      cases h
      exact .itself id line
    · rw [execute_move fun id hid hsrc => hsame ⟨id, hid, hsrc⟩] at h
      rcases n.mayRead_or_own src with hmay | ⟨id, hid, rfl⟩
      · rw [moveFrom_mayRead hs (he _ (.tail _ (.head _))) hmay, writeOperand_eq_error_iff hd] at h
        rcases h with ⟨id, rfl, hbroadcast, rfl⟩ | ⟨rfl, reason, rfl, hrefused⟩
        · obtain ⟨hv, hid, hfull, rfl⟩ := broadcast_eq_error_iff.mp hbroadcast
          exact .noRoom line hmay (fun hsrc => hsame ⟨id, rfl, hsrc⟩) hv hid hfull
        · exact .refused line hmay hrefused
      · rw [moveFrom_own hid] at h
        cases h
        exact .source line (fun hd => hsame ⟨id, hd, rfl⟩) hid
  | plain line hop =>
    simp only [List.mem_cons, List.not_mem_nil, or_false] at hop
    rcases hop with rfl | rfl | rfl <;> cases h
  | jump line ht =>
    rw [execute_jump] at h
    obtain ⟨id, hid, rfl, rfl, rfl⟩ := fails_jump rfl ht (he _ (.head _)) h
    exact .jumped line hid
  | @branch opcode c tested target line hop ht =>
    rw [execute_branch hop] at h
    by_cases htested : tested ∈ n.active
    · rw [branch_own rfl htested] at h
      cases h
      exact .tested line hop htested
    · rw [branch_other rfl htested] at h
      split_ifs at h with hholds
      · obtain ⟨id, hid, rfl, rfl, rfl⟩ :=
          fails_jump (target?_branch hop _ _ _) ht (he _ (.tail _ (.head _))) h
        exact .branched line hop htested hholds hid
      · cases h

inductive Cause (n : Node) (t : Terminal σ) (i : Instruction) : RuntimeFault → σ → Prop
  | collides {id : UInt32} {s' : σ} (h : i.collides? = some id) :
      Cause n t i (.readsAndWrites id) s'
  | ownBroadcast {id : UInt32} {s' : σ} (hread : id ∈ i.channelsRead) (hactive : id ∈ n.active) :
      Cause n t i (.readsOwnBroadcast id) s'
  | noRoom {id : UInt32} {source : Operand} {value : Int} {fault : RuntimeFault} {s' : σ}
      (hop : i.opcode = .mov) (hops : i.operands = [.channel id, source])
      (hzero : source = .immediate 0 → value = 0)
      (h : n.broadcast id (clamp value) = .error fault) : Cause n t i fault s'
  | refused {value : Int} {reason : String} {s s' : σ} (h : t.write value s = (.error reason, s')) :
      Cause n t i (.refused reason) s'

theorem Fails.cause {i : Instruction} (h : n.Fails t ch s i fault u) : n.Cause t i fault u := by
  cases h with
  | itself id line => exact .collides (if_pos rfl)
  | source line hd h => exact .ownBroadcast (.head _) h
  | @tested opcode _ _ _ line hop h =>
    refine .ownBroadcast ?_ h
    cases opcode <;> cases hop <;> exact .head _
  | jumped line h => exact .ownBroadcast (.head _) h
  | @branched opcode _ _ _ line hop htested hc h =>
    refine .ownBroadcast ?_ h
    cases opcode <;> cases hop <;> exact .tail _ (.head _)
  | noRoom line hsrc hne hv hid hfull =>
    refine .noRoom rfl rfl ?_ (broadcast_eq_error_iff.mpr ⟨hv, hid, hfull, rfl⟩)
    rintro rfl
    rfl
  | refused line hsrc h => exact .refused h

theorem step_cause {t : Terminal σ} {ch : Channels} {n : Node} {s : σ}
    (hp : ∀ i ∈ n.program, i.conforms ∧ ∀ op ∈ i.operands, op.encodable)
    (h : (n.step t ch s).1 = .failed fault) :
    ∃ i ∈ n.program, n.Cause t i fault (n.step t ch s).2.2 := by
  unfold step at h ⊢
  split_ifs at h ⊢ with hn
  cases hi : n.program[n.pc]? with
  | none =>
    rw [hi] at h
    cases h
  | some i =>
    have hmem : i ∈ n.program := List.mem_of_getElem? hi
    rw [hi] at h
    simp only at h ⊢
    generalize he : n.execute t ch i s = e at h ⊢
    rcases e with ⟨e | ⟨m, _ | distance⟩, u⟩
    · cases h
      exact ⟨i, hmem, ((execute_eq_error_iff (hp i hmem).1 (hp i hmem).2).mp he).cause⟩
    · cases h
    · cases h

end Node
end Lockstep
