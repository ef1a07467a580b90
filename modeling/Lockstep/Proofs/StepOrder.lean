import Lockstep.Proofs.Guise
import Lockstep.Proofs.Mixing
import Lockstep.Proofs.Synchrony
import Lockstep.Proofs.Ticking
import Mathlib.Logic.Equiv.Basic

/-!
The order of the nodes does not matter. Two simulations whose nodes are the same up to their slots
end every tick in the same way and stay the same up to the slots, until a tick in which some node
fails. That tick fails in both, but which node is reported and what the failing nodes keep depends
on the order.
-/
namespace Lockstep

inductive OutcomeKind where
  | idle
  | advanced
  | setPassed (set : Nat)
  | won (score : Score)
  | halted
  deriving Repr, DecidableEq

def Outcome.kind : Outcome → OutcomeKind
  | idle => .idle
  | advanced => .advanced
  | setPassed set => .setPassed set
  | won score => .won score
  | halted _ _ => .halted

namespace Node

def moved (σ : Equiv.Perm UInt8) (n : Node) : Node := { n with slot := σ n.slot }

theorem moved_eq_inGuise (σ : Equiv.Perm UInt8) (n : Node) :
    n.moved σ = n.inGuise { slot := σ } := by
  have hi : Instruction.inGuise { slot := σ } = id := rfl
  have he : NodeError.inGuise { slot := σ } = id := by
    funext e
    cases e <;> rfl
  simp [moved, inGuise, hi, he]

theorem ask_moved (σ : Equiv.Perm UInt8) (n : Node) (input : Int) (ch : Channels) :
    (n.moved σ).ask input ch =
      ((n.ask input ch).1, (n.ask input ch).2.1.moved σ, (n.ask input ch).2.2) := by
  simp only [moved_eq_inGuise]
  exact step_inGuise _ _ ch n _

def putsOut (n : Node) (input : Int) (ch : Channels) : Option Int := (n.ask input ch).2.2.offers

end Node

namespace Exchange
variable {offer : Offer} {ch : Channels} {x : Exchange} {ns ms : List Node}
  {σ : Equiv.Perm UInt8}

theorem granted_moved (n : Node) : x.Granted offer ch (n.moved σ) ↔ x.Granted offer ch n := by
  constructor
  · rintro ⟨hs, ht⟩
    rw [Node.ask_moved] at hs ht
    exact ⟨hs, ht⟩
  · rintro ⟨hs, ht⟩
    refine ⟨?_, ?_⟩ <;> rw [Node.ask_moved]
    · exact hs
    · exact ht

theorem agree_map_moved : x.Agree offer ch (ns.map (Node.moved σ)) ↔ x.Agree offer ch ns := by
  constructor
  · rintro ⟨hg, hs⟩
    refine ⟨fun n hn => (granted_moved n).mp (hg _ (List.mem_map_of_mem hn)), ?_⟩
    intro n hn m hm v w hv hw
    apply hs _ (List.mem_map_of_mem hn) _ (List.mem_map_of_mem hm) v w
    · rw [Node.ask_moved]; exact hv
    · rw [Node.ask_moved]; exact hw
  · rintro ⟨hg, hs⟩
    constructor
    · intro n' hn'
      obtain ⟨n, hn, rfl⟩ := List.mem_map.mp hn'
      exact (granted_moved n).mpr (hg n hn)
    · intro n' hn' m' hm' v w hv hw
      obtain ⟨n, hn, rfl⟩ := List.mem_map.mp hn'
      obtain ⟨m, hm, rfl⟩ := List.mem_map.mp hm'
      rw [Node.ask_moved] at hv hw
      exact hs n hn m hm v w hv hw

theorem Agree.perm (h : x.Agree offer ch ns) (hp : ns.Perm ms) : x.Agree offer ch ms :=
  ⟨fun n hn => h.granted n (hp.mem_iff.mpr hn),
    fun n hn m hm => h.same n (hp.mem_iff.mpr hn) m (hp.mem_iff.mpr hm)⟩

theorem heard_comm (offer : Offer) {p q : Request} (x : Exchange)
    (h : ∀ v w, p.offers = some v → q.offers = some w → v = w) :
    (x.heard offer p).heard offer q = (x.heard offer q).heard offer p := by
  have hc : ((x.consumed || (p.reads && offer.input.isSome)) || (q.reads && offer.input.isSome)) =
      ((x.consumed || (q.reads && offer.input.isSome)) || (p.reads && offer.input.isSome)) := by
    rw [Bool.or_assoc, Bool.or_assoc, Bool.or_comm (p.reads && _)]
  simp only [heard, hc]
  rcases hx : x.written with _ | taken
  · rcases hp : p.offers with _ | v <;> rcases hq : q.offers with _ | w
    · rfl
    · rfl
    · rfl
    · obtain rfl := h v w hp hq
      rfl
  · rfl

theorem heardAll_perm (h : x.Agree offer ch ns) (hp : ns.Perm ms) :
    x.heardAll offer ch ns = x.heardAll offer ch ms :=
  hp.foldl_eq' (fun n hn m hm y => heard_comm offer y (h.same n hn m hm)) x

theorem heardAll_map_moved :
    x.heardAll offer ch (ns.map (Node.moved σ)) = x.heardAll offer ch ns := by
  simp only [heardAll, List.foldl_map, Node.ask_moved]

end Exchange

namespace Simulation
variable {σ : Equiv.Perm UInt8} {s t : Simulation}

/-- The two simulations differ only in the slots of their nodes, which `σ` renames. -/
structure Renamed (σ : Equiv.Perm UInt8) (s t : Simulation) : Prop where
  run : t = { s with nodes := t.nodes }
  nodes : (s.nodes.map (Node.moved σ)).Perm t.nodes

/-- All nodes get through the tick. -/
def Unanimous (s : Simulation) : Prop :=
  Exchange.Agree s.offer s.channels { output := s.output } s.nodes

def stepped (s : Simulation) : List Node :=
  s.nodes.map fun n => (n.ask s.offer.value s.channels).2.1.clearAccWritten

theorem steps_of_unanimous (h : s.Unanimous) : ∃ x, s.steps = (s.stepped, x, none) ∧
    x.SameBooks (Exchange.heardAll s.offer s.channels s.nodes { output := s.output }) :=
  Exchange.stepNodes_agree h

theorem steps_of_not_unanimous (h : ¬ s.Unanimous) :
    ∃ ns x slot error, s.steps = (ns, x, some (slot, error)) := by
  have hf : s.steps.2.2 ≠ none := Exchange.stepNodes_not_agree h
  generalize s.steps = r at hf
  obtain ⟨ns, x, _ | ⟨slot, error⟩⟩ := r
  · exact absurd rfl hf
  · exact ⟨ns, x, slot, error, rfl⟩

theorem Renamed.unanimous_iff (h : Renamed σ s t) : t.Unanimous ↔ s.Unanimous := by
  obtain ⟨hrun, hp⟩ := h
  generalize t.nodes = ms at hrun hp
  subst hrun
  constructor
  · intro ha
    exact Exchange.agree_map_moved.mp (Exchange.Agree.perm ha hp.symm)
  · intro ha
    exact Exchange.Agree.perm (Exchange.agree_map_moved.mpr ha) hp

theorem Renamed.stepped (h : Renamed σ s t) : (s.stepped.map (Node.moved σ)).Perm t.stepped := by
  obtain ⟨hrun, hp⟩ := h
  generalize t.nodes = ms at hrun hp
  subst hrun
  have hmap : s.stepped.map (Node.moved σ) = (s.nodes.map (Node.moved σ)).map
      fun n => (n.ask s.offer.value s.channels).2.1.clearAccWritten := by
    simp only [Simulation.stepped, List.map_map]
    apply List.map_congr_left
    intro n _
    simp only [Function.comp_apply, Node.ask_moved]
    rfl
  rw [hmap]
  exact hp.map _

theorem Renamed.heardAll (h : Renamed σ s t) (ha : s.Unanimous) :
    Exchange.heardAll t.offer t.channels t.nodes { output := t.output } =
      Exchange.heardAll s.offer s.channels s.nodes { output := s.output } := by
  obtain ⟨hrun, hp⟩ := h
  generalize t.nodes = ms at hrun hp ⊢
  subst hrun
  have hperm := Exchange.heardAll_perm (Exchange.agree_map_moved.mpr ha) hp
  exact hperm.symm.trans Exchange.heardAll_map_moved

theorem Renamed.afterSteps (h : Renamed σ s t) {ns ms : List Node} {x y : Exchange}
    (hns : (ns.map (Node.moved σ)).Perm ms) (hxy : y.SameBooks x) :
    Renamed σ (s.afterSteps ns x) (t.afterSteps ms y) := by
  obtain ⟨hrun, -⟩ := h
  generalize t.nodes = ls at hrun
  subst hrun
  obtain ⟨ho, -, hc⟩ := hxy
  have hmix : mixChannels ms = mixChannels ns := by
    apply mixChannels_perm
    have hb : (ns.map (Node.moved σ)).map Node.broadcasts = ns.map Node.broadcasts := by
      rw [List.map_map]
      rfl
    exact hb ▸ (hns.map Node.broadcasts).symm
  refine ⟨?_, hns⟩
  simp only [Simulation.afterSteps, remix, ho, hc, hmix]

theorem Renamed.resetSet (h : Renamed σ s t) : Renamed σ s.resetSet t.resetSet := by
  obtain ⟨hrun, hp⟩ := h
  generalize t.nodes = ms at hrun hp
  subst hrun
  refine ⟨rfl, ?_⟩
  have hr : (s.nodes.map Node.reset).map (Node.moved σ) =
      (s.nodes.map (Node.moved σ)).map Node.reset := by
    simp only [List.map_map]
    rfl
  simp only [Simulation.resetSet, hr]
  exact hp.map Node.reset

theorem Renamed.currentScore (h : Renamed σ s t) : t.currentScore = s.currentScore := by
  obtain ⟨hrun, hp⟩ := h
  generalize t.nodes = ms at hrun hp
  subst hrun
  have hi := (hp.map fun n => n.program.length).sum_eq
  have hc := (hp.map fun n => n.nodeClass.cost).sum_eq
  simp only [List.map_map] at hi hc
  simp only [Simulation.currentScore, totalOf_eq_sum, Score.mk.injEq, and_true]
  exact ⟨hi.symm, hc.symm⟩

theorem Renamed.active_iff (h : Renamed σ s t) : t.Active ↔ s.Active := by
  rw [h.run]
  exact Iff.rfl

theorem Renamed.completes_iff (h : Renamed σ s t) {x y : Exchange} (hxy : y.SameBooks x) :
    t.Completes y ↔ s.Completes x := by
  rw [h.run]
  obtain ⟨ho, -, hc⟩ := hxy
  simp only [Completes, nextCursor, ho, hc]
  exact Iff.rfl

theorem tick_kind_halted_iff : s.tick.outcome.kind = .halted ↔ s.Active ∧ ¬ s.Unanimous := by
  constructor
  · intro hk
    have ht := s.tick_ticked
    generalize s.tick = u at hk ht
    cases ht with
    | halted h hs =>
      refine ⟨h, fun hu => ?_⟩
      obtain ⟨x, hx, -⟩ := steps_of_unanimous hu
      rw [hx] at hs
      cases hs
    | idle => cases hk
    | advanced => cases hk
    | setPassed => cases hk
    | won => cases hk
  · rintro ⟨ha, hu⟩
    obtain ⟨ns, x, slot, error, hs⟩ := steps_of_not_unanimous hu
    rw [tick_eq_of_ticked (.halted ha hs)]
    rfl

theorem tick_halted_not_active (h : s.tick.outcome.kind = .halted) : ¬ s.tick.after.Active := by
  obtain ⟨ha, hu⟩ := tick_kind_halted_iff.mp h
  obtain ⟨ns, x, slot, error, hs⟩ := steps_of_not_unanimous hu
  rw [tick_eq_of_ticked (.halted ha hs)]
  exact fun hh => hh.2 rfl

/-- One tick: it ends in the same way, and if it does not halt it leaves the two simulations the
same up to the slots. -/
theorem Renamed.tick (h : Renamed σ s t) :
    t.tick.outcome.kind = s.tick.outcome.kind ∧
      (s.tick.outcome.kind ≠ .halted → Renamed σ s.tick.after t.tick.after) := by
  by_cases ha : s.Active
  · have hb : t.Active := h.active_iff.mpr ha
    by_cases hu : s.Unanimous
    · have hv : t.Unanimous := h.unanimous_iff.mpr hu
      obtain ⟨x, hx, hbx⟩ := steps_of_unanimous hu
      obtain ⟨y, hy, hby⟩ := steps_of_unanimous hv
      -- the events come in another order, the books are the same
      have hxy : y.SameBooks x := by
        rw [h.heardAll hu] at hby
        exact hby.trans ⟨hbx.1.symm, hbx.2.1.symm, hbx.2.2.symm⟩
      have hstep := h.afterSteps h.stepped hxy
      have hidx : t.setIndex = s.setIndex := by rw [h.run]
      have hsets : t.puzzle.sets = s.puzzle.sets := by rw [h.run]
      have hpassed : t.setsPassed = s.setsPassed := by rw [h.run]
      by_cases hc : s.Completes x
      · have hd : t.Completes y := (h.completes_iff hxy).mpr hc
        by_cases hn : s.setIndex + 1 < s.puzzle.sets.length
        · have hm : t.setIndex + 1 < t.puzzle.sets.length := by rw [hidx, hsets]; exact hn
          rw [tick_eq_of_ticked (.setPassed ha hx hc hn), tick_eq_of_ticked (.setPassed hb hy hd hm)]
          refine ⟨by simp only [Outcome.kind, hidx], fun _ => ?_⟩
          apply Renamed.resetSet
          refine ⟨?_, hstep.nodes⟩
          conv_lhs => rw [hstep.run]
          simp only [hidx, hpassed]
        · have hm : ¬ t.setIndex + 1 < t.puzzle.sets.length := by rw [hidx, hsets]; exact hn
          have hscore : t.finalScore t.stepped y = s.finalScore s.stepped x := hstep.currentScore
          rw [tick_eq_of_ticked (.won ha hx hc hn), tick_eq_of_ticked (.won hb hy hd hm)]
          refine ⟨by simp only [Outcome.kind, hscore], fun _ => ?_⟩
          refine ⟨?_, hstep.nodes⟩
          simp only [toWon, hscore, hpassed]
          conv_lhs => rw [hstep.run]
      · have hd : ¬ t.Completes y := fun hd => hc ((h.completes_iff hxy).mp hd)
        rw [tick_eq_of_ticked (.advanced ha hx hc), tick_eq_of_ticked (.advanced hb hy hd)]
        exact ⟨rfl, fun _ => hstep⟩
    · -- which node is the first to fail depends on the order, not that one does
      have hk : s.tick.outcome.kind = .halted := tick_kind_halted_iff.mpr ⟨ha, hu⟩
      have hl : t.tick.outcome.kind = .halted :=
        tick_kind_halted_iff.mpr ⟨hb, fun hv => hu (h.unanimous_iff.mp hv)⟩
      exact ⟨hl.trans hk.symm, fun hne => absurd hk hne⟩
  · have hb : ¬ t.Active := fun hb => ha (h.active_iff.mp hb)
    rw [tick_idle ha, tick_idle hb]
    exact ⟨rfl, fun _ => h⟩

theorem Renamed.outcomes (h : Renamed σ s t) (n : Nat) :
    (t.outcomes n).map Outcome.kind = (s.outcomes n).map Outcome.kind := by
  induction n generalizing s t with
  | zero => rfl
  | succ n ih =>
    obtain ⟨hkind, hafter⟩ := h.tick
    simp only [Simulation.outcomes, List.map_cons, hkind]
    congr 1
    by_cases hh : s.tick.outcome.kind = .halted
    · rw [outcomes_idle (tick_halted_not_active hh),
        outcomes_idle (tick_halted_not_active (hkind.trans hh))]
    · exact ih (hafter hh)

theorem Renamed.afterTicks (h : Renamed σ s t) (n : Nat)
    (hn : .halted ∉ (s.outcomes n).map Outcome.kind) :
    Renamed σ (s.afterTicks n) (t.afterTicks n) := by
  induction n generalizing s t with
  | zero => exact h
  | succ n ih =>
    simp only [Simulation.outcomes, List.map_cons, List.mem_cons, not_or] at hn
    exact ih (h.tick.2 (Ne.symm hn.1)) hn.2

def putsOut (s : Simulation) (n : Node) : Option Int := n.putsOut s.offer.value s.channels

theorem tick_collision (ha : s.Active) {a b : Node} (has : a ∈ s.nodes) (hbs : b ∈ s.nodes)
    {v w : Int} (hv : s.putsOut a = some v) (hw : s.putsOut b = some w) (hne : v ≠ w) :
    s.tick.outcome.kind = .halted :=
  tick_kind_halted_iff.mpr ⟨ha, fun hu => hne (hu.same a has b hbs v w hv hw)⟩

/-- The order in which nodes take their steps does not show: renaming the slots changes no kind of
outcome and, until a tick halts, nothing but the slots. Two values put out in one tick halt the run
in every order. -/
theorem run_independent_of_slots (σ : Equiv.Perm UInt8) (s t : Simulation) (h : Renamed σ s t) :
    (∀ n, (t.outcomes n).map Outcome.kind = (s.outcomes n).map Outcome.kind) ∧
    (∀ n, .halted ∉ (s.outcomes n).map Outcome.kind →
      Renamed σ (s.afterTicks n) (t.afterTicks n)) ∧
    ∀ n, (s.afterTicks n).Active →
      ∀ a ∈ (s.afterTicks n).nodes, ∀ b ∈ (s.afterTicks n).nodes, ∀ v w,
        (s.afterTicks n).putsOut a = some v → (s.afterTicks n).putsOut b = some w → v ≠ w →
        (s.afterTicks n).tick.outcome.kind = .halted ∧
          (t.afterTicks n).tick.outcome.kind = .halted := by
  refine ⟨h.outcomes, h.afterTicks, ?_⟩
  intro n ha a has b hbs v w hv hw hne
  have hs := tick_collision ha has hbs hv hw hne
  have hk := h.outcomes (n + 1)
  rw [outcomes_succ, outcomes_succ, List.map_append, List.map_append] at hk
  have hlast := List.append_inj_right' hk rfl
  simp only [List.map_cons, List.map_nil, List.cons.injEq, and_true] at hlast
  exact ⟨hs, hlast.trans hs⟩

def writer (slot : UInt8) (value : Int64) : Node :=
  { nodeClass := .tiny, slot, program := [⟨.mov, [.register .output, .immediate value], 0⟩] }

def rivals (first second : Int64) : Simulation :=
  { puzzle := { id := "rivals", title := "", goal := "", sets := [⟨#[], #[1]⟩] }
    settings := {}
    nodes := [writer 0 first, writer 1 second]
    mode := .running }

theorem run_independent_of_slots_rivals :
    Renamed (Equiv.swap 0 1) (rivals 1 2) (rivals 2 1) ∧
      ((rivals 2 1).outcomes 3).map Outcome.kind = ((rivals 1 2).outcomes 3).map Outcome.kind ∧
      (rivals 2 1).tick.outcome.kind = .halted := by
  have h : Renamed (Equiv.swap 0 1) (rivals 1 2) (rivals 2 1) :=
    ⟨rfl, List.Perm.swap _ _ _⟩
  obtain ⟨hout, -, hrivals⟩ := run_independent_of_slots (Equiv.swap 0 1) _ _ h
  refine ⟨h, hout 3, ?_⟩
  exact (hrivals 0 ⟨rfl, Bool.false_ne_true⟩ (writer 0 1) (.head _) (writer 1 2) (.tail _ (.head _))
    1 2 rfl rfl (by decide)).2

end Simulation
end Lockstep
