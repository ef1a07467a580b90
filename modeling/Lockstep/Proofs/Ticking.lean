import Lockstep.Proofs.Synchrony
import Lockstep.Simulation.Run
import Mathlib.Algebra.GroupWithZero.Nat

/-!
All that a tick can be, and runs of ticks. `Ticked` lists the five ways a tick ends with what each
leaves behind; facts about ticks are read off it, and facts about runs follow by induction.
-/
namespace Lockstep

def Event.isOfNode : Event → Bool
  | outputAccepted _ _ _ => true
  | outputMismatch _ _ _ _ => true
  | accWritten _ _ => true
  | _ => false

namespace Exchange

theorem accept_isOfNode {offer : Offer} {slot : UInt8} {v : Int} {x : Exchange}
    (hx : ∀ e ∈ x.events, e.isOfNode) : ∀ e ∈ (x.accept offer slot v).events, e.isOfNode := by
  intro e he
  simp only [accept, record] at he
  split_ifs at he
  · rcases List.mem_append.mp he with he | he
    · exact hx e he
    · rw [List.mem_singleton.mp he]; rfl
  · rcases List.mem_append.mp he with he | he
    · rcases List.mem_append.mp he with he | he
      · exact hx e he
      · rw [List.mem_singleton.mp he]; rfl
    · rw [List.mem_singleton.mp he]; rfl

theorem stepNodes_isOfNode (offer : Offer) (ch : Channels) (ns : List Node) (x : Exchange)
    (hx : ∀ e ∈ x.events, e.isOfNode) : ∀ e ∈ (stepNodes offer ch ns x).2.1.events, e.isOfNode := by
  have hk : Kept offer fun x => ∀ e ∈ x.events, e.isOfNode = true := by
    refine ⟨fun x _ hx => hx, fun x slot v hx e he => ?_, fun x slot v _ _ hx => accept_isOfNode hx⟩
    rcases List.mem_append.mp he with he | he
    · exact hx e he
    · rw [List.mem_singleton.mp he]; rfl
  exact hk.stepNodes ch ns hx

theorem stepNode_reset (offer : Offer) (ch : Channels) (n : Node) (x : Exchange) :
    (stepNode offer ch n x).1.reset = n.reset := by
  unfold stepNode
  exact Node.step_reset (terminal offer n.slot) ch n x

theorem stepNodes_reset (offer : Offer) (ch : Channels) (ns : List Node) (x : Exchange) :
    (stepNodes offer ch ns x).1.map Node.reset = ns.map Node.reset := by
  induction ns generalizing x with
  | nil => rfl
  | cons n ns ih =>
    simp only [stepNodes, List.map_cons, stepNode_reset, ih]

end Exchange

namespace Simulation

def Active (sim : Simulation) : Prop := sim.mode = .running ∧ ¬ sim.halted

def begun (sim : Simulation) : Simulation := { sim with mode := .running }.resetRun

theorem start_eq_begun {sim : Simulation} (hmode : sim.mode = .edit) (hsets : sim.puzzle.sets ≠ []) :
    sim.start = .ok sim.begun := by
  have he : sim.puzzle.sets.isEmpty = false := by simpa using hsets
  simp only [start, he, transition, hmode]
  rfl

theorem start_eq_ok {sim after : Simulation} (h : sim.start = .ok after) :
    sim.mode = .edit ∧ sim.puzzle.sets ≠ [] ∧ after = sim.begun := by
  simp only [start, transition] at h
  split_ifs at h with hsets hmode
  · exact ⟨hmode, by simpa using hsets, (Except.ok.inj h).symm⟩
  · cases h

theorem Active.mode_ne_won {sim : Simulation} (h : sim.Active) : sim.mode ≠ .won := by
  rw [h.1]
  exact Mode.noConfusion

theorem begun_active (sim : Simulation) : sim.begun.Active := ⟨rfl, Bool.false_ne_true⟩

def steps (sim : Simulation) : List Node × Exchange × Option (UInt8 × NodeError) :=
  Exchange.stepNodes sim.offer sim.channels sim.nodes { output := sim.output }

def nextCursor (sim : Simulation) (x : Exchange) : Nat :=
  if x.consumed then sim.cursor + 1 else sim.cursor

/-- The current test set is done: its output is complete and its input taken. -/
def Completes (sim : Simulation) (x : Exchange) : Prop :=
  x.output = sim.currentSet.output ∧ sim.nextCursor x = sim.currentSet.input.size

def toNextSet (sim : Simulation) (ns : List Node) (x : Exchange) : Simulation :=
  { sim.afterSteps ns x with
    setsPassed := sim.setsPassed + 1
    setIndex := sim.setIndex + 1 }.resetSet

def finalScore (sim : Simulation) (ns : List Node) (x : Exchange) : Score :=
  (sim.afterSteps ns x).currentScore

def toWon (sim : Simulation) (ns : List Node) (x : Exchange) : Simulation :=
  { sim.afterSteps ns x with
    setsPassed := sim.setsPassed + 1
    mode := .won
    score := some (sim.finalScore ns x) }

/-- The ways in which a tick can end. -/
inductive Ticked (sim : Simulation) : Tick → Prop
  | idle (h : ¬ sim.Active) : Ticked sim ⟨.idle, [], sim⟩
  | halted {ns : List Node} {x : Exchange} {slot : UInt8} {error : NodeError} (h : sim.Active)
      (hs : sim.steps = (ns, x, some (slot, error))) :
      Ticked sim ⟨.halted slot error, x.events ++ [.runtimeError slot error.line error.message],
        { sim.afterSteps ns x with halted := true }⟩
  | advanced {ns : List Node} {x : Exchange} (h : sim.Active) (hs : sim.steps = (ns, x, none))
      (hc : ¬ sim.Completes x) : Ticked sim ⟨.advanced, x.events, sim.afterSteps ns x⟩
  | setPassed {ns : List Node} {x : Exchange} (h : sim.Active) (hs : sim.steps = (ns, x, none))
      (hc : sim.Completes x) (hnext : sim.setIndex + 1 < sim.puzzle.sets.length) :
      Ticked sim ⟨.setPassed sim.setIndex, x.events ++ [.setPassed sim.setIndex],
        sim.toNextSet ns x⟩
  | won {ns : List Node} {x : Exchange} (h : sim.Active) (hs : sim.steps = (ns, x, none))
      (hc : sim.Completes x) (hlast : ¬ sim.setIndex + 1 < sim.puzzle.sets.length) :
      Ticked sim ⟨.won (sim.finalScore ns x),
        x.events ++ [.setPassed sim.setIndex] ++ [.won (sim.finalScore ns x)], sim.toWon ns x⟩

theorem tick_ticked (sim : Simulation) : Ticked sim sim.tick := by
  unfold tick
  split_ifs with ha
  · generalize hs : Exchange.stepNodes sim.offer sim.channels sim.nodes { output := sim.output } = r
    obtain ⟨ns, x, failure⟩ := r
    cases failure with
    | some e => exact .halted ha hs
    | none =>
      simp only
      split_ifs with hc
      · unfold passSet
        simp only
        split_ifs with hn
        · exact .setPassed ha hs hc hn
        · exact .won ha hs hc hn
      · exact .advanced ha hs hc
  · exact .idle ha

theorem tick_eq_of_ticked {sim : Simulation} {t : Tick} (h : Ticked sim t) : sim.tick = t := by
  have hk := sim.tick_ticked
  generalize sim.tick = u at hk
  cases h with
  | idle h => cases hk <;> first | rfl | contradiction
  | halted h hs => cases hk <;> simp_all
  | advanced h hs hc => cases hk <;> simp_all
  | setPassed h hs hc hn => cases hk <;> simp_all
  | won h hs hc hn => cases hk <;> simp_all

def afterTicks : Nat → Simulation → Simulation
  | 0, sim => sim
  | n + 1, sim => afterTicks n sim.tick.after

def outcomes : Nat → Simulation → List Outcome
  | 0, _ => []
  | n + 1, sim => sim.tick.outcome :: outcomes n sim.tick.after

theorem afterTicks_add (m n : Nat) (sim : Simulation) :
    sim.afterTicks (m + n) = (sim.afterTicks m).afterTicks n := by
  induction m generalizing sim with
  | zero => rw [Nat.zero_add]; rfl
  | succ m ih =>
    rw [Nat.succ_add]
    exact ih sim.tick.after

theorem afterTicks_succ (n : Nat) (sim : Simulation) :
    sim.afterTicks (n + 1) = (sim.afterTicks n).tick.after :=
  afterTicks_add n 1 sim

theorem outcomes_succ (n : Nat) (sim : Simulation) :
    sim.outcomes (n + 1) = sim.outcomes n ++ [(sim.afterTicks n).tick.outcome] := by
  induction n generalizing sim with
  | zero => rfl
  | succ n ih =>
    have h := ih sim.tick.after
    exact congrArg (sim.tick.outcome :: ·) h

theorem steps_isOfNode {sim : Simulation} {ns : List Node} {x : Exchange}
    {failure : Option (UInt8 × NodeError)} (h : sim.steps = (ns, x, failure)) :
    ∀ e ∈ x.events, e.isOfNode := by
  have hx : x = sim.steps.2.1 := by rw [h]
  rw [hx]
  exact Exchange.stepNodes_isOfNode _ _ _ _ (fun e he => absurd he List.not_mem_nil)

theorem steps_reset {sim : Simulation} {ns : List Node} {x : Exchange}
    {failure : Option (UInt8 × NodeError)} (h : sim.steps = (ns, x, failure)) :
    ns.map Node.reset = sim.nodes.map Node.reset := by
  have hn : ns = sim.steps.1 := by rw [h]
  rw [hn]
  exact Exchange.stepNodes_reset _ _ _ _

theorem map_eq_of_reset {β : Type} {f : Node → β} (hf : ∀ n, f n.reset = f n) {ns ms : List Node}
    (h : ns.map Node.reset = ms.map Node.reset) : ns.map f = ms.map f := by
  have hcomp : f = f ∘ Node.reset := funext fun n => (hf n).symm
  rw [hcomp, ← List.map_map, ← List.map_map, h]

theorem map_reset_reset (ns : List Node) :
    (ns.map Node.reset).map Node.reset = ns.map Node.reset := by
  rw [List.map_map]
  exact List.map_congr_left fun n _ => n.reset_reset

theorem totalOf_eq_sum (f : Node → Nat) (ns : List Node) : totalOf f ns = (ns.map f).sum := by
  rw [totalOf, List.sum_eq_foldl, List.foldl_map]

theorem tick_reset (sim : Simulation) :
    sim.tick.after.nodes.map Node.reset = sim.nodes.map Node.reset := by
  have ht := sim.tick_ticked
  generalize sim.tick = t at ht
  cases ht with
  | idle => rfl
  | halted h hs => exact steps_reset hs
  | advanced h hs hc => exact steps_reset hs
  | @setPassed ns x h hs hc hn =>
    rw [← steps_reset hs]
    exact map_reset_reset ns
  | won h hs hc hn => exact steps_reset hs

theorem setPassed_mem_events {sim : Simulation} {k : Nat} :
    .setPassed k ∈ sim.tick.events ↔
      k = sim.setIndex ∧ sim.tick.after.setsPassed = sim.setsPassed + 1 := by
  have hof : ∀ {ns x failure}, sim.steps = (ns, x, failure) → .setPassed k ∉ x.events :=
    fun hs he => Bool.false_ne_true (steps_isOfNode hs _ he)
  have ht := sim.tick_ticked
  generalize sim.tick = t at ht
  cases ht with
  | idle => simp
  | @halted ns x slot error h hs =>
    simp only [List.mem_append, List.mem_singleton, afterSteps, remix]
    constructor
    · rintro (he | he)
      · exact absurd he (hof hs)
      · cases he
    · rintro ⟨-, hp⟩
      omega
  | @advanced ns x h hs hc =>
    simp only [afterSteps, remix]
    constructor
    · intro he
      exact absurd he (hof hs)
    · rintro ⟨-, hp⟩
      omega
  | @setPassed ns x h hs hc hn =>
    simp only [List.mem_append, List.mem_singleton, Event.setPassed.injEq]
    constructor
    · rintro (he | he)
      · exact absurd he (hof hs)
      · exact ⟨he, rfl⟩
    · exact fun he => .inr he.1
  | @won ns x h hs hc hn =>
    simp only [List.mem_append, List.mem_singleton, Event.setPassed.injEq]
    constructor
    · rintro ((he | he) | he)
      · exact absurd he (hof hs)
      · exact ⟨he, rfl⟩
      · cases he
    · exact fun he => .inl (.inr he.1)

theorem tick_idle {sim : Simulation} (h : ¬ sim.Active) : sim.tick = ⟨.idle, [], sim⟩ :=
  tick_eq_of_ticked (.idle h)

theorem outcomes_idle {sim : Simulation} (h : ¬ sim.Active) (n : Nat) :
    sim.outcomes n = List.replicate n .idle := by
  induction n with
  | zero => rfl
  | succ n ih => rw [outcomes, tick_idle h, ih, List.replicate_succ]

theorem afterTicks_idle {sim : Simulation} (h : ¬ sim.Active) (n : Nat) :
    sim.afterTicks n = sim := by
  induction n with
  | zero => rfl
  | succ n ih => rw [afterTicks_succ, ih, tick_idle h]

/-! Runs. A tick that does not run leaves everything as it is, so a run that has stopped stays
stopped. -/

theorem active_of_afterTicks {sim : Simulation} {m n : Nat}
    (h : (sim.afterTicks (m + n)).Active) : (sim.afterTicks m).Active := by
  by_contra hm
  rw [afterTicks_add, afterTicks_idle hm] at h
  exact hm h

theorem tick_ticks {sim : Simulation} (h : sim.Active) :
    sim.tick.after.ticks = sim.ticks + 1 := by
  have ht := sim.tick_ticked
  generalize sim.tick = t at ht
  cases ht with
  | idle hn => exact absurd h hn
  | halted => rfl
  | advanced => rfl
  | setPassed => rfl
  | won => rfl

theorem afterTicks_ticks {sim : Simulation} {n : Nat} (h : (sim.afterTicks n).Active) :
    (sim.afterTicks n).ticks = sim.ticks + n := by
  induction n with
  | zero => rfl
  | succ n ih =>
    have hn := active_of_afterTicks h
    rw [afterTicks_succ, tick_ticks hn, ih hn]
    rfl

theorem setsPassed_le_tick (sim : Simulation) : sim.setsPassed ≤ sim.tick.after.setsPassed := by
  have ht := sim.tick_ticked
  generalize sim.tick = t at ht
  cases ht with
  | idle => exact Nat.le_refl _
  | halted => exact Nat.le_refl _
  | advanced => exact Nat.le_refl _
  | setPassed => exact Nat.le_succ _
  | won => exact Nat.le_succ _

theorem setsPassed_mono (sim : Simulation) {m n : Nat} (h : m ≤ n) :
    (sim.afterTicks m).setsPassed ≤ (sim.afterTicks n).setsPassed := by
  obtain ⟨d, rfl⟩ := Nat.exists_eq_add_of_le h
  clear h
  induction d with
  | zero => exact Nat.le_refl _
  | succ d ih =>
    rw [← Nat.add_assoc, afterTicks_succ]
    exact Nat.le_trans ih (setsPassed_le_tick _)

theorem tick_won {sim : Simulation} {score : Score}
    (h : sim.tick.outcome = .won score) :
    sim.tick.after.mode = .won ∧ sim.tick.after.score = some score := by
  have ht := sim.tick_ticked
  generalize sim.tick = t at h ht
  cases ht with
  | won =>
    cases h
    exact ⟨rfl, rfl⟩
  | idle => cases h
  | halted => cases h
  | advanced => cases h
  | setPassed => cases h

theorem tick_mode {sim : Simulation} (h : ∀ score, sim.tick.outcome ≠ .won score) :
    sim.tick.after.mode = sim.mode := by
  have ht := sim.tick_ticked
  generalize sim.tick = t at h ht
  cases ht with
  | won => exact absurd rfl (h _)
  | idle => rfl
  | halted => rfl
  | advanced => rfl
  | setPassed => rfl

/-- A run that comes to be won has a tick that wins it, and stays there. -/
theorem exists_winning_tick {sim : Simulation} (hmode : sim.mode ≠ .won) {n : Nat}
    (h : (sim.afterTicks n).mode = .won) :
    ∃ k score, k < n ∧ (sim.afterTicks k).tick.outcome = .won score ∧
      sim.afterTicks n = (sim.afterTicks k).tick.after := by
  induction n with
  | zero => exact absurd h hmode
  | succ n ih =>
    by_cases hn : (sim.afterTicks n).mode = .won
    · obtain ⟨k, score, hk, hw, he⟩ := ih hn
      have hidle : ¬ (sim.afterTicks n).Active := fun ha => by
        rw [ha.1] at hn
        cases hn
      refine ⟨k, score, Nat.lt_succ_of_lt hk, hw, ?_⟩
      rw [afterTicks_succ, tick_idle hidle]
      exact he
    · by_cases hw : ∃ score, (sim.afterTicks n).tick.outcome = .won score
      · obtain ⟨score, hw⟩ := hw
        exact ⟨n, score, n.lt_succ_self, hw, afterTicks_succ n sim⟩
      · have hm := tick_mode fun score hs => hw ⟨score, hs⟩
        rw [afterTicks_succ, hm] at h
        exact absurd h hn

theorem active_of_outcome {sim : Simulation} (h : sim.tick.outcome ≠ .idle) : sim.Active := by
  by_contra hn
  rw [tick_idle hn] at h
  exact h rfl

theorem goes_on_before {sim : Simulation} {k n : Nat} (h : (sim.afterTicks n).Active) (hk : k < n) :
    (∀ score, (sim.afterTicks k).tick.outcome ≠ .won score) ∧
      ∀ slot error, (sim.afterTicks k).tick.outcome ≠ .halted slot error := by
  obtain ⟨d, rfl⟩ := Nat.exists_eq_add_of_lt hk
  have hnext : (sim.afterTicks k).tick.after.Active := by
    rw [← afterTicks_succ]
    apply active_of_afterTicks (n := d)
    rwa [Nat.add_right_comm]
  have ht := (sim.afterTicks k).tick_ticked
  generalize (sim.afterTicks k).tick = t at ht hnext
  cases ht with
  | idle => simp
  | halted => exact absurd rfl hnext.2
  | advanced => simp
  | setPassed => simp
  | won => cases hnext.1

/-- A node that puts out what it is given, on a puzzle of two test sets. -/
def echo : Simulation :=
  { puzzle :=
      { id := "echo", title := "", goal := ""
        sets := [⟨#[3], #[3]⟩, ⟨#[4, 5], #[4, 5]⟩] }
    settings := {}
    nodes := [{ nodeClass := .tiny, slot := 0
                program := [⟨.mov, [.register .output, .register .input], 0⟩] }] }

end Simulation
end Lockstep
