import Lockstep.Node.Step
import Mathlib.Tactic.Common

/-!
What one step of a node can change. `Node.reset` forgets exactly the part of a node that a run
changes, so `m.reset = n.reset` says that `m` is `n` at some point of a run. The exchange with the
puzzle is split off: `Node.ask` is the step against a terminal that takes everything and notes what
it was asked, and a step against any terminal of constant input is `ask` followed by its reply.
-/
namespace Lockstep

theorem clamp_eq_self_iff {v : Int} : clamp v = v ↔ -490 ≤ v ∧ v ≤ 490 := by
  simp only [clamp, minValue, maxValue]
  omega

namespace Node
variable {σ : Type}

theorem reset_reset (n : Node) : n.reset.reset = n.reset := by
  simp [reset, Option.filter_filter]

@[simp] theorem advance_reset (n : Node) (distance : Nat) : (n.advance distance).reset = n.reset := rfl

theorem broadcast_reset {n m : Node} {id : UInt32} {value : Int}
    (h : n.broadcast id value = .ok m) : m.reset = n.reset := by
  unfold broadcast at h
  split_ifs at h <;> cases h <;> rfl

theorem writeOperand_reset {t : Terminal σ} {n m : Node} {op : Operand} {value : Int} {s s' : σ}
    (h : n.writeOperand t op value s = (.ok m, s')) : m.reset = n.reset := by
  unfold writeOperand at h
  split at h
  · cases h; rfl
  · cases h; rfl
  · split at h <;> cases h; rfl
  · cases h
  · exact broadcast_reset (Prod.mk.inj h).1
  · cases h

theorem moveFrom_reset {t : Terminal σ} {ch : Channels} {n m : Node} {d src : Operand}
    {distance : Option Nat} {s s' : σ}
    (h : move.moveFrom t ch n s d src = (.ok (m, distance), s')) : m.reset = n.reset := by
  unfold move.moveFrom at h
  split at h
  · cases h
  · split at h
    · rename_i hw
      cases h
      exact writeOperand_reset hw
    · cases h

theorem jump_reset {t : Terminal σ} {ch : Channels} {n m : Node} {i : Instruction}
    {distance : Option Nat} {s s' : σ}
    (h : n.jump t ch i s = (.ok (m, distance), s')) : m = n := by
  unfold jump at h
  split at h
  · cases h
  · split at h <;> cases h; rfl

theorem branch_reset {t : Terminal σ} {ch : Channels} {n m : Node} {c : Condition}
    {i : Instruction} {distance : Option Nat} {s s' : σ}
    (h : n.branch t ch c i s = (.ok (m, distance), s')) : m = n := by
  unfold branch at h
  split at h
  · cases h
  · split at h
    · cases h
    · split_ifs at h
      · exact jump_reset h
      · cases h; rfl

theorem execute_reset {t : Terminal σ} {ch : Channels} {n m : Node} {i : Instruction}
    {distance : Option Nat} {s s' : σ}
    (h : n.execute t ch i s = (.ok (m, distance), s')) : m.reset = n.reset := by
  unfold execute at h
  split at h
  · unfold move at h
    split at h
    · split at h
      · split_ifs at h
        · cases h
        · exact moveFrom_reset h
      · exact moveFrom_reset h
    · cases h
  · cases h; rfl
  · cases h; rfl
  · cases h; rfl
  · rw [jump_reset h]
  · rw [branch_reset h]
  · rw [branch_reset h]
  · rw [branch_reset h]
  · rw [branch_reset h]

theorem step_reset (t : Terminal σ) (ch : Channels) (n : Node) (s : σ) :
    (n.step t ch s).2.1.reset = n.reset := by
  unfold step
  split_ifs with hn
  · have herr : n.error = none := by
      simp only [steppable, Bool.and_eq_true, Option.isNone_iff_eq_none] at hn
      exact hn.1
    split
    · rfl
    · split
      · rename_i hx
        rw [advance_reset, execute_reset hx]
      · rename_i hx
        rw [advance_reset, execute_reset hx]
      · simp [fail, reset, herr, Option.filter, NodeError.isStatic]
  · rfl

end Node

/-- What a node asks of the puzzle in one step: whether it reads, and the value it puts out. -/
structure Request where
  reads : Bool := false
  offers : Option Int := none
  deriving Repr, DecidableEq

namespace Request
variable {σ : Type}

/-- Gives the same input to every read, takes whatever is put out, and notes both. -/
def listener (input : Int) : Terminal Request :=
  ⟨fun q => (input, { q with reads := true }), fun v q => (.ok (), { q with offers := some v })⟩

def reply (q : Request) (t : Terminal σ) (s : σ) : Except String Unit × σ :=
  match q.offers with
  | none => (.ok (), if q.reads then (t.read s).2 else s)
  | some v => t.write v (if q.reads then (t.read s).2 else s)

/-- A result once the terminal has replied: a refusal becomes the failure. -/
def settle {α : Type} (t : Terminal σ) (s : σ) (r : Except RuntimeFault α × Request) :
    Except RuntimeFault α × σ :=
  match r.2.reply t s with
  | (.ok (), s') => (r.1, s')
  | (.error reason, s') => (.error (.refused reason), s')

end Request

/-- Every read gives `input`, and reading twice does no more than reading once. -/
structure Terminal.Steady {σ : Type} (t : Terminal σ) (input : Int) : Prop where
  value : ∀ s, (t.read s).1 = input
  again : ∀ s, (t.read (t.read s).2).2 = (t.read s).2

structure Request.Heard {σ : Type} (t : Terminal σ) (start : σ) (q : Request) (s : σ) : Prop where
  offers : q.offers = none
  state : s = if q.reads then (t.read start).2 else start

theorem Request.Heard.eq_settle {σ α : Type} {t : Terminal σ} {start : σ}
    {a : Except RuntimeFault α × σ} {r : Except RuntimeFault α × Request}
    (hv : a.1 = r.1) (hh : r.2.Heard t start a.2) : a = Request.settle t start r := by
  obtain ⟨v, s⟩ := a
  obtain ⟨w, q⟩ := r
  obtain rfl : v = w := hv
  obtain ⟨ho, rfl⟩ := hh
  simp only at ho
  simp only [Request.settle, Request.reply, ho]

namespace Node
variable {σ : Type} {t : Terminal σ} {input : Int} {ch : Channels} {n : Node} {start s : σ}
  {q : Request}
open Request (listener)

theorem readOperand_heard (n : Node) (ch : Channels) (ht : t.Steady input) (h : q.Heard t start s)
    (op : Operand) :
    (n.readOperand t ch op s).1 = (n.readOperand (listener input) ch op q).1 ∧
      (n.readOperand (listener input) ch op q).2.Heard t start (n.readOperand t ch op s).2 := by
  by_cases hop : op = .register .input
  · subst hop
    refine ⟨by simp [readOperand, listener, ht.value], h.offers, ?_⟩
    have hs := h.state
    simp only [readOperand, listener, if_true]
    split_ifs at hs
    · rw [hs, ht.again]
    · rw [hs]
  · have hu : ∀ {τ : Type} (u : Terminal τ) (r : τ),
        n.readOperand u ch op r = ((n.readOperand (listener input) ch op q).1, r) := by
      intro τ u r
      unfold readOperand
      split <;> first | rfl | exact absurd rfl hop | split <;> rfl
    rw [hu t s]
    exact ⟨rfl, by rw [hu (listener input) q]; exact h⟩

theorem jump_heard (n : Node) (ch : Channels) (ht : t.Steady input) (h : q.Heard t start s)
    (i : Instruction) :
    (n.jump t ch i s).1 = (n.jump (listener input) ch i q).1 ∧
      (n.jump (listener input) ch i q).2.Heard t start (n.jump t ch i s).2 := by
  unfold jump
  split
  · exact ⟨rfl, h⟩
  · rename_i target _
    obtain ⟨hv, hh⟩ := readOperand_heard n ch ht h target
    unfold jumpDistance
    generalize n.readOperand t ch target s = a at hv hh
    generalize n.readOperand (listener input) ch target q = b at hv hh
    obtain ⟨v, s'⟩ := a
    obtain ⟨w, q'⟩ := b
    obtain rfl : v = w := hv
    cases v <;> exact ⟨rfl, hh⟩

theorem branch_heard (n : Node) (ch : Channels) (ht : t.Steady input) (h : q.Heard t start s)
    (c : Condition) (i : Instruction) :
    (n.branch t ch c i s).1 = (n.branch (listener input) ch c i q).1 ∧
      (n.branch (listener input) ch c i q).2.Heard t start (n.branch t ch c i s).2 := by
  unfold branch
  split
  · exact ⟨rfl, h⟩
  · rename_i tested _
    obtain ⟨hv, hh⟩ := readOperand_heard n ch ht h tested
    generalize n.readOperand t ch tested s = a at hv hh
    generalize n.readOperand (listener input) ch tested q = b at hv hh
    obtain ⟨v, s'⟩ := a
    obtain ⟨w, q'⟩ := b
    obtain rfl : v = w := hv
    cases v with
    | error fault => exact ⟨rfl, hh⟩
    | ok value =>
      simp only
      split_ifs
      · exact jump_heard n ch ht hh i
      · exact ⟨rfl, hh⟩

theorem writeOperand_of_ne_output (n : Node) {op : Operand} (hop : op ≠ .register .output)
    (value : Int) : ∃ v, ∀ {τ : Type} (u : Terminal τ) (r : τ),
      n.writeOperand u op value r = (v, r) := by
  refine ⟨(n.writeOperand (listener 0) op value {}).1, ?_⟩
  intro τ u r
  unfold writeOperand
  split <;> first | rfl | exact absurd rfl hop

theorem moveFrom_settle (ht : t.Steady input) (d src : Operand) (s : σ) :
    move.moveFrom t ch n s d src =
      Request.settle t s (move.moveFrom (listener input) ch n {} d src) := by
  have h : Request.Heard t s {} s := ⟨rfl, rfl⟩
  obtain ⟨hv, hh⟩ := readOperand_heard n ch ht h src
  unfold move.moveFrom
  generalize n.readOperand t ch src s = a at hv hh
  generalize n.readOperand (listener input) ch src {} = b at hv hh
  obtain ⟨v, s'⟩ := a
  obtain ⟨w, q⟩ := b
  obtain rfl : v = w := hv
  cases v with
  | error fault => exact Request.Heard.eq_settle rfl hh
  | ok value =>
    by_cases hd : d = .register .output
    · subst hd
      have hq : ({ q with offers := some (clamp value) } : Request).reply t s =
          t.write (clamp value) s' := congrArg (t.write (clamp value)) hh.state.symm
      simp only [writeOperand, listener, Request.settle, hq]
      rcases t.write (clamp value) s' with ⟨_ | _, s''⟩ <;> rfl
    · obtain ⟨v, hw⟩ := writeOperand_of_ne_output n hd value
      simp only [hw]
      cases v <;> exact Request.Heard.eq_settle rfl hh

theorem execute_settle (ht : t.Steady input) (i : Instruction) (s : σ) :
    n.execute t ch i s = Request.settle t s (n.execute (listener input) ch i {}) := by
  have h : Request.Heard t s {} s := ⟨rfl, rfl⟩
  have hjump : n.jump t ch i s = Request.settle t s (n.jump (listener input) ch i {}) := by
    obtain ⟨hv, hh⟩ := jump_heard n ch ht h i
    exact Request.Heard.eq_settle hv hh
  have hbranch : ∀ c, n.branch t ch c i s =
      Request.settle t s (n.branch (listener input) ch c i {}) := by
    intro c
    obtain ⟨hv, hh⟩ := branch_heard n ch ht h c i
    exact Request.Heard.eq_settle hv hh
  unfold execute
  split
  · unfold move
    split
    · split
      · split_ifs
        · rfl
        · exact moveFrom_settle ht _ _ s
      · exact moveFrom_settle ht _ _ s
    · rfl
  · rfl
  · rfl
  · rfl
  · exact hjump
  · exact hbranch _
  · exact hbranch _
  · exact hbranch _
  · exact hbranch _

def ask (input : Int) (ch : Channels) (n : Node) : StepResult × Node × Request :=
  n.step (listener input) ch {}

def lineAt (n : Node) : Nat := n.nextLine?.getD 0

/-- Every step is the step to which nothing is refused, followed by the terminal's reply. -/
theorem step_eq_ask (ht : t.Steady input) (n : Node) (s : σ) :
    n.step t ch s =
      match (n.ask input ch).2.2.reply t s with
      | (.ok (), s') => ((n.ask input ch).1, (n.ask input ch).2.1, s')
      | (.error reason, s') => (.failed (.refused reason), n.fail n.lineAt (.refused reason), s') := by
  unfold ask step
  split_ifs
  · cases hp : n.program[n.pc]? with
    | none => rfl
    | some i =>
      have hl : n.lineAt = i.line := by simp [lineAt, nextLine?, hp]
      simp only [execute_settle ht i s, Request.settle, hl]
      generalize n.execute (listener input) ch i {} = e
      obtain ⟨r, q⟩ := e
      rcases hq : q.reply t s with ⟨_ | _, s'⟩
      · rcases r with _ | ⟨m, _ | d⟩ <;> simp [hq]
      · rcases r with _ | ⟨m, _ | d⟩ <;> simp [hq]
  · rfl

theorem clamp_clamp (v : Int) : clamp (clamp v) = clamp v := by
  simp only [clamp, minValue, maxValue]
  omega

theorem moveFrom_offers {d src : Operand} {v : Int}
    (h : (move.moveFrom (listener input) ch n {} d src).2.offers = some v) :
    (move.moveFrom (listener input) ch n {} d src).1 = .ok (n, none) ∧ clamp v = v := by
  have ht : (listener input).Steady input := ⟨fun _ => rfl, fun _ => rfl⟩
  have hs : Request.Heard (listener input) {} {} {} := ⟨rfl, rfl⟩
  obtain ⟨-, hh⟩ := readOperand_heard n ch ht hs src
  unfold move.moveFrom at h ⊢
  generalize n.readOperand (listener input) ch src {} = a at h hh ⊢
  obtain ⟨r, q⟩ := a
  have hq : q.offers = none := hh.offers
  cases r with
  | error fault => simp [hq] at h
  | ok value =>
    by_cases hd : d = .register .output
    · subst hd
      obtain rfl : clamp value = v := by simpa [writeOperand, listener] using h
      exact ⟨rfl, clamp_clamp value⟩
    · obtain ⟨w, hw⟩ := writeOperand_of_ne_output n hd value
      simp only [hw] at h
      cases w <;> simp [hq] at h

theorem execute_offers {i : Instruction} {v : Int}
    (h : (n.execute (listener input) ch i {}).2.offers = some v) :
    (n.execute (listener input) ch i {}).1 = .ok (n, none) ∧ clamp v = v := by
  have ht : (listener input).Steady input := ⟨fun _ => rfl, fun _ => rfl⟩
  have hs : Request.Heard (listener input) {} {} {} := ⟨rfl, rfl⟩
  have hbranch : ∀ c, (n.branch (listener input) ch c i {}).2.offers = none := fun c =>
    (branch_heard n ch ht hs c i).2.offers
  unfold execute at h ⊢
  split at h
  · unfold move at h ⊢
    split at h
    · split at h
      · split_ifs at h ⊢
        exact moveFrom_offers h
      · exact moveFrom_offers h
    · cases h
  · cases h
  · cases h
  · cases h
  · rw [(jump_heard n ch ht hs i).2.offers] at h; cases h
  · rw [hbranch] at h; cases h
  · rw [hbranch] at h; cases h
  · rw [hbranch] at h; cases h
  · rw [hbranch] at h; cases h

theorem ask_offers {v : Int} (h : (n.ask input ch).2.2.offers = some v) :
    (n.ask input ch).1 = .continued ∧ (n.ask input ch).2.1 = n.advance 1 ∧ clamp v = v := by
  unfold ask step at h ⊢
  split_ifs at h ⊢
  cases hp : n.program[n.pc]? with
  | none => simp [hp] at h
  | some i =>
    simp only [hp] at h ⊢
    have he : (n.execute (listener input) ch i {}).2.offers = some v := by
      generalize n.execute (listener input) ch i {} = e at h
      rcases e with ⟨_ | ⟨m, _ | d⟩, q⟩ <;> exact h
    obtain ⟨hr, hv⟩ := execute_offers he
    generalize n.execute (listener input) ch i {} = e at hr
    obtain ⟨r, q⟩ := e
    obtain rfl : r = .ok (n, none) := hr
    exact ⟨rfl, rfl, hv⟩

end Node
end Lockstep
