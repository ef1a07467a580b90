import Lockstep.Proofs.Ticking
import Mathlib.Algebra.BigOperators.Intervals

/-!
Test sets are independent. The part of a run that is spent on one test set is the run of the same
nodes on the puzzle with that set alone, seen `within` the whole puzzle: only the puzzle, the number
of the set and the count of ticks differ. So the run of the whole puzzle is the runs of its sets one
after another.
-/
namespace Lockstep

namespace Simulation
open scoped BigOperators

/-- The same simulation on the puzzle with the one test set `i`. -/
def alone (sim : Simulation) (i : Nat) : Simulation :=
  { sim with puzzle := { sim.puzzle with sets := sim.puzzle.sets[i]?.toList } }

/-- A run on one test set as it looks in a run on all of them: `ticks` more ticks have gone by, and
the set has number `i`. -/
def within (whole : Puzzle) (i ticks : Nat) (g : Simulation) : Simulation :=
  { g with puzzle := whole, setIndex := i, setsPassed := i, ticks := ticks + g.ticks }

/-- `g` is at some point of the run of `sim` on test set `i` alone, which is not won yet. -/
structure OnSet (sim : Simulation) (i : Nat) (g : Simulation) : Prop where
  bound : i < sim.puzzle.sets.length
  puzzle : g.puzzle = (sim.alone i).puzzle
  settings : g.settings = sim.settings
  mode : g.mode = .running
  setIndex : g.setIndex = 0
  setsPassed : g.setsPassed = 0
  score : g.score = none
  nodes : g.nodes.map Node.reset = sim.nodes.map Node.reset

variable {sim g : Simulation} {i ticks : Nat}

theorem onSet_begun (hi : i < sim.puzzle.sets.length) : OnSet sim i (sim.alone i).begun := by
  refine ⟨hi, rfl, rfl, rfl, rfl, rfl, rfl, ?_⟩
  exact map_reset_reset sim.nodes

theorem OnSet.set (h : OnSet sim i g) : g.puzzle.sets[0]? = sim.puzzle.sets[i]? := by
  rw [h.puzzle]
  simp only [alone]
  cases sim.puzzle.sets[i]? <;> rfl

theorem OnSet.one_set (h : OnSet sim i g) : g.puzzle.sets.length = 1 := by
  rw [h.puzzle]
  simp [alone, h.bound]

theorem OnSet.currentSet (h : OnSet sim i g) (ticks : Nat) :
    (g.within sim.puzzle i ticks).currentSet = g.currentSet := by
  simp only [Simulation.currentSet, within, h.setIndex, h.set]

theorem OnSet.steps (h : OnSet sim i g) (ticks : Nat) :
    (g.within sim.puzzle i ticks).steps = g.steps := by
  simp only [Simulation.steps, offer, h.currentSet]
  rfl

theorem OnSet.completes_iff (h : OnSet sim i g) (ticks : Nat) (x : Exchange) :
    (g.within sim.puzzle i ticks).Completes x ↔ g.Completes x := by
  simp only [Completes, h.currentSet]
  exact Iff.rfl

theorem OnSet.last (h : OnSet sim i g) : ¬ g.setIndex + 1 < g.puzzle.sets.length := by
  rw [h.setIndex, h.one_set]
  exact Nat.lt_irrefl _

theorem OnSet.tick_within (h : OnSet sim i g) (ticks : Nat)
    (hw : ∀ score, g.tick.outcome ≠ .won score) :
    (g.within sim.puzzle i ticks).tick =
      ⟨g.tick.outcome, g.tick.events, g.tick.after.within sim.puzzle i ticks⟩ := by
  apply tick_eq_of_ticked
  have ht := g.tick_ticked
  generalize g.tick = t at hw ht
  cases ht with
  | idle hn => exact .idle hn
  | halted ha hs => exact .halted ha ((h.steps ticks).trans hs)
  | advanced ha hs hc =>
    exact .advanced ha ((h.steps ticks).trans hs) (fun hd => hc ((h.completes_iff ticks _).mp hd))
  | setPassed ha hs hc hn => exact absurd hn h.last
  | won => exact absurd rfl (hw _)

theorem OnSet.tick (h : OnSet sim i g) (hw : ∀ score, g.tick.outcome ≠ .won score) :
    OnSet sim i g.tick.after := by
  have hr := g.tick_reset
  have ht := g.tick_ticked
  generalize g.tick = t at hw ht hr
  cases ht with
  | idle => exact h
  | halted => exact ⟨h.bound, h.puzzle, h.settings, h.mode, h.setIndex, h.setsPassed, h.score,
      hr.trans h.nodes⟩
  | advanced => exact ⟨h.bound, h.puzzle, h.settings, h.mode, h.setIndex, h.setsPassed, h.score,
      hr.trans h.nodes⟩
  | setPassed ha hs hc hn => exact absurd hn h.last
  | won => exact absurd rfl (hw _)

theorem OnSet.tick_next (h : OnSet sim i g) (ticks : Nat) {score : Score}
    (hw : g.tick.outcome = .won score) (hnext : i + 1 < sim.puzzle.sets.length) :
    (g.within sim.puzzle i ticks).tick.after =
        (sim.alone (i + 1)).begun.within sim.puzzle (i + 1) (ticks + score.ticks) ∧
      .setPassed i ∈ (g.within sim.puzzle i ticks).tick.events ∧ score.ticks = g.ticks + 1 := by
  have ht := g.tick_ticked
  generalize g.tick = t at hw ht
  cases ht with
  | @won ns x ha hs hc hl =>
    cases hw
    have ha' : (g.within sim.puzzle i ticks).Active := ha
    have hs' := (h.steps ticks).trans hs
    have hc' := (h.completes_iff ticks x).mpr hc
    rw [tick_eq_of_ticked (.setPassed ha' hs' hc' hnext)]
    refine ⟨?_, by simp [within], rfl⟩
    have hnodes := (steps_reset hs).trans h.nodes
    have hhalt : g.halted = false := by simpa using ha.2
    simp only [toNextSet, within, begun, resetRun, resetSet, alone, afterSteps, remix, hnodes,
      hhalt, h.settings, h.mode, h.score, finalScore, currentScore]
    rfl
  | idle => cases hw
  | halted => cases hw
  | advanced => cases hw
  | setPassed => cases hw

theorem OnSet.tick_last (h : OnSet sim i g) (ticks : Nat) {score : Score}
    (hw : g.tick.outcome = .won score) (hlast : ¬ i + 1 < sim.puzzle.sets.length) :
    (g.within sim.puzzle i ticks).tick.outcome = .won { score with ticks := ticks + score.ticks } ∧
      .setPassed i ∈ (g.within sim.puzzle i ticks).tick.events ∧ score.ticks = g.ticks + 1 := by
  have ht := g.tick_ticked
  generalize g.tick = t at hw ht
  cases ht with
  | @won ns x ha hs hc hl =>
    cases hw
    have ha' : (g.within sim.puzzle i ticks).Active := ha
    have hs' := (h.steps ticks).trans hs
    have hc' := (h.completes_iff ticks x).mpr hc
    rw [tick_eq_of_ticked (.won ha' hs' hc' hlast)]
    exact ⟨rfl, by simp [within], rfl⟩
  | idle => cases hw
  | halted => cases hw
  | advanced => cases hw
  | setPassed => cases hw

theorem OnSet.afterTicks_within (h : OnSet sim i g) (ticks n : Nat)
    (hw : ∀ k < n, ∀ score, (g.afterTicks k).tick.outcome ≠ .won score) :
    (g.within sim.puzzle i ticks).afterTicks n = (g.afterTicks n).within sim.puzzle i ticks ∧
      OnSet sim i (g.afterTicks n) := by
  induction n with
  | zero => exact ⟨rfl, h⟩
  | succ n ih =>
    obtain ⟨he, ho⟩ := ih fun k hk => hw k (Nat.lt_succ_of_lt hk)
    have hn := hw n n.lt_succ_self
    rw [afterTicks_succ, afterTicks_succ, he, ho.tick_within ticks hn]
    exact ⟨rfl, ho.tick hn⟩

/-! Runs that are won, and runs that halt. -/

def ReachesWon (sim : Simulation) : Prop := ∃ n, (sim.afterTicks n).mode = .won

def Wins (sim : Simulation) (score : Score) : Prop :=
  ∃ n, (sim.afterTicks n).mode = .won ∧ (sim.afterTicks n).score = some score

def HaltsWith (sim : Simulation) (slot : UInt8) (error : NodeError) : Prop :=
  ∃ n, (sim.afterTicks n).tick.outcome = .halted slot error

theorem ReachesWon.wins (hmode : sim.mode ≠ .won) (h : sim.ReachesWon) : ∃ score, sim.Wins score := by
  obtain ⟨n, hn⟩ := h
  obtain ⟨k, score, -, hw, -⟩ := exists_winning_tick hmode hn
  obtain ⟨hm, hs⟩ := tick_won hw
  exact ⟨score, k + 1, by rw [afterTicks_succ]; exact ⟨hm, hs⟩⟩

theorem Wins.reachesWon {score : Score} (h : sim.Wins score) : sim.ReachesWon :=
  h.imp fun _ hn => hn.1

theorem Wins.winning_tick {score : Score} (hmode : sim.mode ≠ .won) (h : sim.Wins score) :
    ∃ k, (sim.afterTicks k).tick.outcome = .won score ∧ (sim.afterTicks k).Active := by
  obtain ⟨n, hn, hs⟩ := h
  obtain ⟨k, score', -, hw, he⟩ := exists_winning_tick hmode hn
  have hs' := (tick_won hw).2
  rw [← he, hs] at hs'
  cases hs'
  exact ⟨k, hw, active_of_outcome (by rw [hw]; exact fun h => by cases h)⟩

def ticksBefore (score : Nat → Score) (i : Nat) : Nat := ∑ j ∈ Finset.range i, (score j).ticks

theorem begun_mode (sim : Simulation) : sim.begun.mode ≠ .won := fun h => by cases h

/-- When the sets before `i` have been won, the run is at the start of set `i`. -/
theorem begun_reaches_set {score : Nat → Score} (hi : i < sim.puzzle.sets.length)
    (hwins : ∀ j < i, (sim.alone j).begun.Wins (score j)) :
    sim.begun.afterTicks (ticksBefore score i) =
      (sim.alone i).begun.within sim.puzzle i (ticksBefore score i) := by
  induction i with
  | zero => rfl
  | succ i ih =>
    have hi' := Nat.lt_of_succ_lt hi
    have hstart := ih hi' fun j hj => hwins j (Nat.lt_succ_of_lt hj)
    obtain ⟨k, hw, hk⟩ := (hwins i i.lt_succ_self).winning_tick (begun_mode _)
    obtain ⟨hrun, hon⟩ := (onSet_begun hi').afterTicks_within (ticksBefore score i) k
      fun j hj => (goes_on_before hk hj).1
    obtain ⟨hafter, -, hticks⟩ := hon.tick_next (ticksBefore score i) hw hi
    -- alone the set is won with the tick that passes it here
    have hcount : (score i).ticks = k + 1 := by
      rw [hticks, afterTicks_ticks hk]
      exact congrArg (· + 1) (Nat.zero_add k)
    have hsum : ticksBefore score (i + 1) = ticksBefore score i + (k + 1) := by
      rw [ticksBefore, Finset.sum_range_succ, hcount]
      rfl
    rw [hsum, afterTicks_add, hstart, afterTicks_succ, hrun, hafter, hcount]

theorem begun_passes_set {score : Nat → Score} (hi : i < sim.puzzle.sets.length)
    (hwins : ∀ j < i + 1, (sim.alone j).begun.Wins (score j)) :
    ∃ n, n + 1 = ticksBefore score (i + 1) ∧ .setPassed i ∈ (sim.begun.afterTicks n).tick.events ∧
      (¬ i + 1 < sim.puzzle.sets.length → (sim.begun.afterTicks n).tick.outcome =
        .won { score i with ticks := ticksBefore score (i + 1) }) := by
  have hstart := begun_reaches_set hi fun j hj => hwins j (Nat.lt_succ_of_lt hj)
  obtain ⟨k, hw, hk⟩ := (hwins i i.lt_succ_self).winning_tick (begun_mode _)
  obtain ⟨hrun, hon⟩ := (onSet_begun hi).afterTicks_within (ticksBefore score i) k
    fun j hj => (goes_on_before hk hj).1
  have hsum : ticksBefore score (i + 1) = ticksBefore score i + (score i).ticks :=
    Finset.sum_range_succ _ _
  have hstate : sim.begun.afterTicks (ticksBefore score i + k) =
      ((sim.alone i).begun.afterTicks k).within sim.puzzle i (ticksBefore score i) := by
    rw [afterTicks_add, hstart, hrun]
  have hticks : ((sim.alone i).begun.afterTicks k).ticks = k :=
    (afterTicks_ticks hk).trans (Nat.zero_add k)
  refine ⟨ticksBefore score i + k, ?_⟩
  rw [hstate]
  by_cases hnext : i + 1 < sim.puzzle.sets.length
  · obtain ⟨-, hev, hcount⟩ := hon.tick_next (ticksBefore score i) hw hnext
    exact ⟨by omega, hev, fun hl => absurd hnext hl⟩
  · obtain ⟨hwon, hev, hcount⟩ := hon.tick_last (ticksBefore score i) hw hnext
    exact ⟨by omega, hev, fun _ => by rw [hwon, hsum]⟩

theorem setIndex_eq_setsPassed (sim : Simulation) (n : Nat)
    (h : (sim.begun.afterTicks n).mode = .running) :
    (sim.begun.afterTicks n).setIndex = (sim.begun.afterTicks n).setsPassed := by
  induction n with
  | zero => rfl
  | succ n ih =>
    rw [afterTicks_succ] at h ⊢
    have ht := (sim.begun.afterTicks n).tick_ticked
    generalize (sim.begun.afterTicks n).tick = t at h ht
    cases ht with
    | idle => exact ih h
    | halted => exact ih h
    | advanced => exact ih h
    | setPassed ha => exact congrArg (· + 1) (ih ha.1)
    | won => cases h

theorem setsPassed_of_event {n k : Nat} (h : .setPassed k ∈ (sim.begun.afterTicks n).tick.events) :
    (sim.begun.afterTicks n).setsPassed = k ∧ (sim.begun.afterTicks (n + 1)).setsPassed = k + 1 := by
  have ha : (sim.begun.afterTicks n).Active := by
    by_contra hn
    rw [tick_idle hn] at h
    exact absurd h List.not_mem_nil
  obtain ⟨hk, hp⟩ := setPassed_mem_events.mp h
  have hidx := setIndex_eq_setsPassed sim n ha.1
  rw [afterTicks_succ]
  omega

theorem setPassed_once {m n k : Nat} (hm : .setPassed k ∈ (sim.begun.afterTicks m).tick.events)
    (hn : .setPassed k ∈ (sim.begun.afterTicks n).tick.events) : m = n := by
  obtain ⟨hm₀, hm₁⟩ := setsPassed_of_event hm
  obtain ⟨hn₀, hn₁⟩ := setsPassed_of_event hn
  rcases Nat.lt_trichotomy m n with hlt | heq | hgt
  · have hmono : (sim.begun.afterTicks (m + 1)).setsPassed ≤ (sim.begun.afterTicks n).setsPassed :=
      setsPassed_mono sim.begun hlt
    omega
  · exact heq
  · have hmono : (sim.begun.afterTicks (n + 1)).setsPassed ≤ (sim.begun.afterTicks m).setsPassed :=
      setsPassed_mono sim.begun hgt
    omega

/-- When set `i` alone is never won and those before it are, the run stays on set `i` for good. -/
theorem begun_stays_on_set {score : Nat → Score} (hi : i < sim.puzzle.sets.length)
    (hwins : ∀ j < i, (sim.alone j).begun.Wins (score j)) (hnot : ¬ (sim.alone i).begun.ReachesWon)
    (n : Nat) :
    sim.begun.afterTicks (ticksBefore score i + n) =
        ((sim.alone i).begun.afterTicks n).within sim.puzzle i (ticksBefore score i) ∧
      OnSet sim i ((sim.alone i).begun.afterTicks n) := by
  rw [afterTicks_add, begun_reaches_set hi hwins]
  apply (onSet_begun hi).afterTicks_within
  intro k _ score hw
  exact hnot ⟨k + 1, by rw [afterTicks_succ]; exact (tick_won hw).1⟩

theorem begun_haltsWith_iff {score : Nat → Score} (hi : i < sim.puzzle.sets.length)
    (hwins : ∀ j < i, (sim.alone j).begun.Wins (score j)) (hnot : ¬ (sim.alone i).begun.ReachesWon)
    (slot : UInt8) (error : NodeError) :
    sim.begun.HaltsWith slot error ↔ (sim.alone i).begun.HaltsWith slot error := by
  have hstay := begun_stays_on_set hi hwins hnot
  have htick : ∀ n, (sim.begun.afterTicks (ticksBefore score i + n)).tick.outcome =
      ((sim.alone i).begun.afterTicks n).tick.outcome := by
    intro n
    obtain ⟨hrun, hon⟩ := hstay n
    rw [hrun, hon.tick_within]
    intro s hw
    exact hnot ⟨n + 1, by rw [afterTicks_succ]; exact (tick_won hw).1⟩
  constructor
  · rintro ⟨n, hn⟩
    rcases Nat.lt_or_ge n (ticksBefore score i) with hlt | hge
    · -- a halt before set `i` would leave the run inactive at the start of it
      have hactive : (sim.begun.afterTicks (ticksBefore score i)).Active := by
        rw [begun_reaches_set hi hwins]
        exact (sim.alone i).begun_active
      exact absurd hn ((goes_on_before hactive hlt).2 slot error)
    · obtain ⟨d, rfl⟩ := Nat.exists_eq_add_of_le hge
      exact ⟨d, (htick d).symm.trans hn⟩
  · rintro ⟨n, hn⟩
    exact ⟨ticksBefore score i + n, (htick n).trans hn⟩

theorem begun_setsPassed_le {score : Nat → Score} (hi : i < sim.puzzle.sets.length)
    (hwins : ∀ j < i, (sim.alone j).begun.Wins (score j)) (hnot : ¬ (sim.alone i).begun.ReachesWon)
    (n : Nat) : (sim.begun.afterTicks n).setsPassed ≤ i := by
  have hle := setsPassed_mono sim.begun (Nat.le_add_left n (ticksBefore score i))
  rw [(begun_stays_on_set hi hwins hnot n).1] at hle
  exact hle

theorem begun_not_won {score : Nat → Score} (hi : i < sim.puzzle.sets.length)
    (hwins : ∀ j < i, (sim.alone j).begun.Wins (score j)) (hnot : ¬ (sim.alone i).begun.ReachesWon) :
    ¬ sim.begun.ReachesWon := by
  rintro ⟨n, hn⟩
  have hidle : ¬ (sim.begun.afterTicks n).Active := fun ha => by
    rw [ha.1] at hn
    cases hn
  have hlater : sim.begun.afterTicks (ticksBefore score i + n) = sim.begun.afterTicks n := by
    rw [Nat.add_comm, afterTicks_add, afterTicks_idle hidle]
  obtain ⟨hrun, hon⟩ := begun_stays_on_set hi hwins hnot n
  have hm := hon.mode
  rw [hlater] at hrun
  rw [hrun] at hn
  rw [show ((sim.alone i).begun.afterTicks n).mode = .won from hn] at hm
  cases hm

theorem exists_scores (h : ∀ j < i, (sim.alone j).begun.ReachesWon) :
    ∃ score : Nat → Score, ∀ j < i, (sim.alone j).begun.Wins (score j) := by
  have hj : ∀ j, ∃ score, j < i → (sim.alone j).begun.Wins score := by
    intro j
    by_cases hlt : j < i
    · obtain ⟨score, hs⟩ := (h j hlt).wins (begun_mode _)
      exact ⟨score, fun _ => hs⟩
    · exact ⟨⟨0, 0, 0⟩, fun hlt' => absurd hlt' hlt⟩
  choose score hscore using hj
  exact ⟨score, hscore⟩

theorem begun_wins {score : Nat → Score} (hsets : sim.puzzle.sets ≠ [])
    (hwins : ∀ j < sim.puzzle.sets.length, (sim.alone j).begun.Wins (score j)) :
    ∃ total, sim.begun.Wins total ∧ total.ticks = ticksBefore score sim.puzzle.sets.length := by
  obtain ⟨last, hlast⟩ := Nat.exists_eq_succ_of_ne_zero (List.length_eq_zero_iff.not.mpr hsets)
  obtain ⟨n, hn, -, hwon⟩ := begun_passes_set (i := last) (hlast ▸ last.lt_succ_self) fun j hj =>
    hwins j (hlast ▸ hj)
  obtain ⟨hm, hs⟩ := tick_won (hwon (by rw [hlast]; exact Nat.lt_irrefl _))
  refine ⟨{ score last with ticks := ticksBefore score (last + 1) }, ⟨n + 1, ?_⟩, by rw [hlast]⟩
  rw [afterTicks_succ]
  exact ⟨hm, hs⟩

/-- Test sets are independent: the run of a puzzle is won exactly if the run of the same layout on
each of its sets alone is won, in as many ticks as those take together, and otherwise it goes as
the first of them that is not won. -/
theorem run_is_runs_of_sets (sim : Simulation) (hmode : sim.mode = .edit)
    (hsets : sim.puzzle.sets ≠ []) :
    ∃ full : Simulation, ∃ single : Nat → Simulation,
      sim.start = .ok full ∧
      (∀ i < sim.puzzle.sets.length, (sim.alone i).start = .ok (single i)) ∧
      (full.ReachesWon ↔ ∀ i < sim.puzzle.sets.length, (single i).ReachesWon) ∧
      (∀ score : Nat → Score, (∀ i < sim.puzzle.sets.length, (single i).Wins (score i)) →
        (∃ total, full.Wins total ∧
          total.ticks = ∑ i ∈ Finset.range sim.puzzle.sets.length, (score i).ticks) ∧
        ∀ k < sim.puzzle.sets.length, ∀ n, .setPassed k ∈ (full.afterTicks n).tick.events ↔
          n + 1 = ∑ i ∈ Finset.range (k + 1), (score i).ticks) ∧
      ∀ i < sim.puzzle.sets.length, (∀ j < i, (single j).ReachesWon) → ¬ (single i).ReachesWon →
        (∃ n, (full.afterTicks n).setsPassed = i) ∧ (∀ n, (full.afterTicks n).setsPassed ≤ i) ∧
        ∀ slot error, full.HaltsWith slot error ↔ (single i).HaltsWith slot error := by
  refine ⟨sim.begun, fun i => (sim.alone i).begun, start_eq_begun hmode hsets, ?_, ?_, ?_, ?_⟩
  · intro i hi
    have hone : (sim.alone i).puzzle.sets ≠ [] := by simp [alone, hi]
    exact start_eq_begun hmode hone
  · constructor
    · intro hwon i
      induction i using Nat.strong_induction_on with
      | _ i ih =>
        intro hi
        by_contra hnot
        obtain ⟨score, hscore⟩ := exists_scores fun j hj => ih j hj (hj.trans hi)
        exact begun_not_won hi hscore hnot hwon
    · intro hall
      obtain ⟨score, hscore⟩ := exists_scores hall
      obtain ⟨total, htotal, -⟩ := begun_wins hsets hscore
      exact htotal.reachesWon
  · intro score hwins
    refine ⟨begun_wins hsets hwins, ?_⟩
    intro k hk n
    obtain ⟨m, hm, hev, -⟩ := begun_passes_set hk fun j hj => hwins j (by omega)
    constructor
    · intro hn
      rw [setPassed_once hn hev]
      exact hm
    · intro hn
      obtain rfl : n = m := Nat.succ.inj (hn.trans hm.symm)
      exact hev
  · intro i hi hbefore hnot
    obtain ⟨score, hscore⟩ := exists_scores hbefore
    refine ⟨⟨ticksBefore score i, ?_⟩, begun_setsPassed_le hi hscore hnot,
      begun_haltsWith_iff hi hscore hnot⟩
    rw [begun_reaches_set hi hscore]
    rfl

theorem run_is_runs_of_sets_echo :
    echo.mode = .edit ∧ echo.puzzle.sets ≠ [] ∧
      ∃ full total, echo.start = .ok full ∧ full.Wins total ∧ total.ticks = 1 + 2 := by
  have hsets : echo.puzzle.sets ≠ [] := List.cons_ne_nil _ _
  obtain ⟨full, single, hfull, hsingle, -, hwins, -⟩ := run_is_runs_of_sets echo rfl hsets
  have h₀ : (echo.alone 0).begun = single 0 := Except.ok.inj (hsingle 0 (by decide))
  have h₁ : (echo.alone 1).begun = single 1 := Except.ok.inj (hsingle 1 (by decide))
  obtain ⟨⟨total, htotal, hticks⟩, -⟩ := hwins (fun i => ⟨1, 1, i + 1⟩) <| by
    intro i hi
    have hi' : i = 0 ∨ i = 1 := by
      have hlen : echo.puzzle.sets.length = 2 := rfl
      omega
    rcases hi' with rfl | rfl
    · exact h₀ ▸ ⟨1, rfl, rfl⟩
    · exact h₁ ▸ ⟨2, rfl, rfl⟩
  exact ⟨rfl, hsets, full, total, hfull, htotal, hticks⟩

end Simulation
end Lockstep
