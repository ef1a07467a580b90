import Lockstep.Proofs.Synchrony
import Mathlib.Data.List.Nodup

/-!
What one step can make of a node. `Stepped` lists the ways a step ends and `Effect` what an
instruction does on the way; a property of nodes is kept by every step once it is kept by these.
-/
namespace Lockstep

namespace Node
variable {σ : Type} {t : Terminal σ} {ch : Channels} {n m : Node} {s s' : σ}

/-- What an instruction makes of a node, the jump to the next one apart. Only a move stores anything
but the accumulator, and the literal zero is no other value. -/
inductive Effect (n : Node) (i : Instruction) : Node → Prop
  | none : Effect n i n
  | stored (value : Int) : Effect n i (n.storeAcc value)
  | broadcast {id : UInt32} {source : Operand} {value : Int} {m : Node} (hop : i.opcode = .mov)
      (hops : i.operands = [.channel id, source]) (hzero : source = .immediate 0 → value = 0)
      (hm : n.broadcast id (clamp value) = .ok m) : Effect n i m

theorem moveFrom_effect {i : Instruction} {d src : Operand} {distance : Option Nat}
    (hop : i.opcode = .mov) (hops : i.operands = [d, src])
    (h : move.moveFrom t ch n s d src = (.ok (m, distance), s')) :
    distance = Option.none ∧ n.Effect i m := by
  unfold move.moveFrom at h
  split at h
  · cases h
  · rename_i value u hread
    -- the value that is moved is what the source was read as
    have hzero : src = .immediate 0 → value = 0 := by
      rintro rfl
      have hval := congrArg Prod.fst hread
      exact (Except.ok.inj hval).symm
    split at h
    · rename_i hwrite
      cases h
      refine ⟨rfl, ?_⟩
      unfold writeOperand at hwrite
      split at hwrite
      · cases hwrite
        exact .none
      · cases hwrite
        exact .stored value
      · split at hwrite
        · cases hwrite
          exact .none
        · cases hwrite
      · cases hwrite
      · exact .broadcast hop hops hzero (congrArg Prod.fst hwrite)
      · cases hwrite
    · cases h

theorem jump_distance {i : Instruction} {distance : Option Nat}
    (h : n.jump t ch i s = (.ok (m, distance), s')) :
    ∃ d, distance = some (wrapDistance n.program.length d).toInt.toNat ∧ m = n := by
  unfold jump at h
  split at h
  · cases h
  · split at h
    · rename_i hd
      cases h
      unfold jumpDistance at hd
      split at hd
      · cases hd
        exact ⟨_, rfl, rfl⟩
      · cases hd
    · cases h

theorem execute_effect {i : Instruction} {distance : Option Nat}
    (h : n.execute t ch i s = (.ok (m, distance), s')) :
    (distance = Option.none ∧ n.Effect i m) ∨
      ∃ d, distance = some (wrapDistance n.program.length d).toInt.toNat ∧ m = n := by
  have hbranch : ∀ c, n.branch t ch c i s = (.ok (m, distance), s') →
      (distance = Option.none ∧ n.Effect i m) ∨
        ∃ d, distance = some (wrapDistance n.program.length d).toInt.toNat ∧ m = n := by
    intro c hc
    unfold branch at hc
    split at hc
    · cases hc
    · split at hc
      · cases hc
      · split_ifs at hc
        · exact .inr (jump_distance hc)
        · cases hc
          exact .inl ⟨rfl, .none⟩
  unfold execute at h
  split at h
  · rename_i hop
    unfold move at h
    split at h
    · rename_i hops
      split at h
      · split_ifs at h
        · cases h
        · exact .inl (moveFrom_effect hop hops h)
      · exact .inl (moveFrom_effect hop hops h)
    · cases h
  · cases h
    exact .inl ⟨rfl, .stored _⟩
  · cases h
    exact .inl ⟨rfl, .stored _⟩
  · cases h
    exact .inl ⟨rfl, .stored _⟩
  · exact .inr (jump_distance h)
  · exact hbranch _ h
  · exact hbranch _ h
  · exact hbranch _ h
  · exact hbranch _ h

inductive Stepped (n : Node) : StepResult → Node → Prop
  | idle : Stepped n .idle n
  | continued {i : Instruction} {m : Node} (hn : n.error = none) (hi : i ∈ n.program)
      (he : n.Effect i m) : Stepped n .continued (m.advance 1)
  | jumped (hn : n.error = none) (hp : n.program ≠ []) (distance : Nat) :
      Stepped n .jumped (n.advance distance)
  | failed (hn : n.error = none) (fault : RuntimeFault) :
      Stepped n (.failed fault) (n.fail n.lineAt fault)

theorem step_stepped (t : Terminal σ) (ch : Channels) (n : Node) (s : σ) :
    Stepped n (n.step t ch s).1 (n.step t ch s).2.1 := by
  unfold step
  split_ifs with hn
  · simp only [steppable, Bool.and_eq_true, Option.isNone_iff_eq_none] at hn
    cases hi : n.program[n.pc]? with
    | none => exact .idle
    | some i =>
      have hline : n.lineAt = i.line := by simp [lineAt, nextLine?, hi]
      have hmem : i ∈ n.program := List.mem_of_getElem? hi
      simp only
      generalize he : n.execute t ch i s = e
      rcases e with ⟨fault | ⟨m, distance⟩, s'⟩
      · rw [← hline]
        exact .failed hn.1 fault
      · rcases execute_effect he with ⟨rfl, heffect⟩ | ⟨d, rfl, rfl⟩
        · exact .continued hn.1 hmem heffect
        · exact .jumped hn.1 (List.ne_nil_of_mem hmem) _
  · exact .idle

theorem broadcast_eq_ok {id : UInt32} {v : Int} (h : n.broadcast id v = .ok m) :
    m = { n with broadcasts := m.broadcasts } := by
  unfold broadcast at h
  split_ifs at h <;> cases h <;> rfl

theorem Effect.frame {i : Instruction} (h : n.Effect i m) :
    m = { n with acc := m.acc, accWritten := m.accWritten, broadcasts := m.broadcasts } := by
  cases h with
  | none => rfl
  | stored value => rfl
  | broadcast hop hops hzero hm =>
    rw [broadcast_eq_ok hm]

theorem Effect.error {i : Instruction} (h : n.Effect i m) : m.error = n.error := by
  rw [h.frame]

def Failed (n : Node) : Prop := ∃ e, n.error = some e ∧ e.isRuntime

theorem not_failed_reset (n : Node) : ¬ n.reset.Failed := by
  rintro ⟨e, he, hr⟩
  have hstatic : e.isStatic = true := Option.filter_eq_some_iff.mp he |>.2
  rw [NodeError.isRuntime, hstatic] at hr
  cases hr

theorem Stepped.failed_iff {r : StepResult} (h : n.Stepped r m) (hn : ¬ n.Failed) :
    m.Failed ↔ ∃ fault, r = .failed fault := by
  cases h with
  | idle => exact iff_of_false hn (by simp)
  | continued _ _ he =>
    refine iff_of_false ?_ (by simp)
    rintro ⟨e, herror, hr⟩
    exact hn ⟨e, he.error.symm.trans herror, hr⟩
  | jumped => exact iff_of_false hn (by simp)
  | failed _ fault => exact iff_of_true ⟨_, rfl, rfl⟩ ⟨fault, rfl⟩

/-! Turning broadcasts on and off. -/

theorem mem_of_broadcast {id : UInt32} {v : Int} (h : n.broadcast id v = .ok m)
    {b : UInt32 × Int} (hb : b ∈ m.broadcasts) : b ∈ n.broadcasts ∨ b = (id, v) ∧ v ≠ 0 := by
  unfold broadcast at h
  split_ifs at h with hv hid
  · cases h
    exact .inl (List.mem_filter.mp hb).1
  · cases h
    obtain ⟨c, hc, rfl⟩ := List.mem_map.mp hb
    split_ifs
    · exact .inr ⟨rfl, hv⟩
    · exact .inl hc
  · cases h
    rcases List.mem_append.mp hb with hb | hb
    · exact .inl hb
    · exact .inr ⟨List.mem_singleton.mp hb, hv⟩

theorem broadcast_active {id : UInt32} {v : Int} (h : n.broadcast id v = .ok m) :
    m.active = if v = 0 then n.active.filter (· ≠ id)
      else if id ∈ n.active then n.active else n.active ++ [id] := by
  unfold broadcast at h
  split_ifs at h ⊢ with hv hid
  · cases h
    rw [active, active, List.filter_map]
    rfl
  · cases h
    simp only [active, List.map_map]
    apply List.map_congr_left
    intro b _
    by_cases hb : b.1 = id
    · simp [hb]
    · simp [hb]
  · cases h
    exact List.map_append

theorem broadcast_nodup {id : UInt32} {v : Int} (h : n.broadcast id v = .ok m)
    (hn : n.active.Nodup) : m.active.Nodup := by
  rw [broadcast_active h]
  split_ifs with hv hid
  · exact hn.filter _
  · exact hn
  · refine List.nodup_append.mpr ⟨hn, List.nodup_singleton _, ?_⟩
    intro a ha b hb
    rw [List.mem_singleton.mp hb]
    rintro rfl
    exact hid ha

/-- Each channel is broadcast on once, with a value in range that is not zero. -/
structure Tuned (n : Node) : Prop where
  distinct : n.active.Nodup
  value : ∀ b ∈ n.broadcasts, b.2 ≠ 0 ∧ clamp b.2 = b.2

theorem tuned_of_silent (h : n.broadcasts = []) : n.Tuned := by
  refine ⟨?_, ?_⟩
  · rw [active, h]
    exact List.nodup_nil
  · rw [h]
    exact fun b hb => absurd hb List.not_mem_nil

theorem Tuned.effect {i : Instruction} (h : n.Tuned) (he : n.Effect i m) : m.Tuned := by
  cases he with
  | none => exact h
  | stored value => exact ⟨h.distinct, h.value⟩
  | broadcast hop hops hzero hm =>
    refine ⟨broadcast_nodup hm h.distinct, ?_⟩
    intro b hb
    rcases mem_of_broadcast hm hb with hb | ⟨rfl, hv⟩
    · exact h.value b hb
    · exact ⟨hv, clamp_clamp _⟩

end Node

namespace Exchange
variable {offer : Offer} {ch : Channels}

theorem stepNode_failure {n : Node} {x : Exchange} {slot : UInt8} {e : NodeError}
    (h : (stepNode offer ch n x).2.2 = some (slot, e)) :
    ∃ fault, (n.step (terminal offer n.slot) ch x).1 = .failed fault ∧ slot = n.slot ∧
      e = .runtime n.lineAt fault := by
  have hs := n.step_stepped (terminal offer n.slot) ch x
  unfold stepNode at h
  generalize n.step (terminal offer n.slot) ch x = r at h hs ⊢
  obtain ⟨result, after, x'⟩ := r
  simp only at h hs ⊢
  cases hs with
  | idle => cases h
  | continued => cases h
  | jumped => cases h
  | failed _ fault =>
    obtain ⟨rfl, rfl⟩ := Prod.mk.inj (Option.some.inj h)
    exact ⟨fault, rfl, rfl, rfl⟩

theorem stepNodes_failure {ns : List Node} {x : Exchange} {slot : UInt8} {e : NodeError}
    (h : (stepNodes offer ch ns x).2.2 = some (slot, e)) :
    ∃ n ∈ ns, ∃ y fault, (n.step (terminal offer n.slot) ch y).1 = .failed fault ∧
      slot = n.slot ∧ e = .runtime n.lineAt fault := by
  induction ns generalizing x with
  | nil => cases h
  | cons n ns ih =>
    simp only [stepNodes] at h
    cases hf : (stepNode offer ch n x).2.2 with
    | some f =>
      rw [hf] at h
      obtain rfl : f = (slot, e) := Option.some.inj h
      obtain ⟨fault, hfault⟩ := stepNode_failure hf
      exact ⟨n, .head _, x, fault, hfault⟩
    | none =>
      rw [hf] at h
      obtain ⟨m, hm, hrest⟩ := ih h
      exact ⟨m, .tail _ hm, hrest⟩

theorem stepNode_failed_iff {n : Node} (hn : ¬ n.Failed) (x : Exchange) :
    (stepNode offer ch n x).1.Failed ↔ (stepNode offer ch n x).2.2 ≠ none := by
  have hs := n.step_stepped (terminal offer n.slot) ch x
  have hiff := hs.failed_iff hn
  unfold stepNode
  generalize n.step (terminal offer n.slot) ch x = r at hs hiff
  obtain ⟨result, after, x'⟩ := r
  simp only at hs hiff ⊢
  refine hiff.trans ?_
  cases hs with
  | idle => simp
  | continued => simp
  | jumped => simp
  | failed => simp [Node.fail]

/-- A tick reports a failure just when it leaves a node that has failed. -/
theorem stepNodes_failed_iff {ns : List Node} (hns : ∀ n ∈ ns, ¬ n.Failed) (x : Exchange) :
    (∃ n ∈ (stepNodes offer ch ns x).1, n.Failed) ↔ (stepNodes offer ch ns x).2.2 ≠ none := by
  induction ns generalizing x with
  | nil => simp [stepNodes]
  | cons n ns ih =>
    have hfirst : (stepNode offer ch n x).1.Failed ↔ (stepNode offer ch n x).2.2 ≠ none :=
      stepNode_failed_iff (hns n (.head _)) x
    have hrest := ih (fun m hm => hns m (.tail _ hm)) (stepNode offer ch n x).2.1
    simp only [stepNodes, List.mem_cons, exists_eq_or_imp]
    rw [hfirst, hrest]
    cases (stepNode offer ch n x).2.2 <;> simp

end Exchange
end Lockstep
