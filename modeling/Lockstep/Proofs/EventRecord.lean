import Lockstep.Proofs.Operations
import Mathlib.Data.List.Induction

/-!
The events of a run, recorded from its start on. Cut where a test set is passed, the record tells
for each set what was put out for it; `Faithful` says how the record and the simulation hang
together, whatever is edited while the simulation runs.
-/
namespace Lockstep

namespace Event

def passedSet? : Event → Option Nat
  | setPassed set => some set
  | _ => none

def winningScore? : Event → Option Score
  | won score => some score
  | _ => none

def accepted? : Event → Option (Int × Nat)
  | outputAccepted _ value index => some (value, index)
  | _ => none

def isMismatch : Event → Bool
  | outputMismatch _ _ _ _ => true
  | _ => false

theorem passedSet?_of_isOfNode {e : Event} (h : e.isOfNode) : e.passedSet? = none := by
  cases e <;> first | rfl | cases h

theorem winningScore?_of_isOfNode {e : Event} (h : e.isOfNode) : e.winningScore? = none := by
  cases e <;> first | rfl | cases h

end Event

namespace Record

def accepted (events : List Event) : List (Int × Nat) := events.filterMap Event.accepted?

def values (events : List Event) : List Int := (accepted events).map (·.1)

def Mismatched (events : List Event) : Prop := ∃ e ∈ events, e.isMismatch

def cutAt : List (List Event) × List Event → Event → List (List Event) × List Event
  | (done, running), e =>
    match e with
    | .setPassed _ => (done ++ [running], [])
    | e => (done, running ++ [e])

/-- The record cut at each test set that is passed. -/
def cut (events : List Event) : List (List Event) × List Event := events.foldl cutAt ([], [])

def completed (events : List Event) : List (List Event) := (cut events).1

def running (events : List Event) : List Event := (cut events).2

theorem cut_append_setPassed (events : List Event) (k : Nat) :
    cut (events ++ [.setPassed k]) = (completed events ++ [running events], []) := by
  rw [cut, List.foldl_append]
  rfl

theorem cut_append (events es : List Event) (hes : ∀ e ∈ es, e.passedSet? = none) :
    cut (events ++ es) = (completed events, running events ++ es) := by
  induction es generalizing events with
  | nil => simp [completed, running]
  | cons e es ih =>
    have hone : cut (events ++ [e]) = (completed events, running events ++ [e]) := by
      rw [cut, List.foldl_append]
      have he := hes e (.head _)
      cases e with
      | setPassed k => cases he
      | _ => rfl
    have hrest := ih (events ++ [e]) fun f hf => hes f (.tail _ hf)
    rw [List.append_assoc, List.singleton_append] at hrest
    rw [hrest, completed, running, hone, List.append_assoc, List.singleton_append]

theorem completed_prefix (events es : List Event) : completed events <+: completed (events ++ es) := by
  induction es generalizing events with
  | nil => simpa only [List.append_nil] using List.prefix_rfl
  | cons e es ih =>
    have hone : completed events <+: completed (events ++ [e]) := by
      cases e with
      | setPassed k =>
        rw [completed, completed, cut_append_setPassed]
        exact List.prefix_append _ _
      | _ =>
        rw [completed, completed, cut_append events _ (by simp [Event.passedSet?])]
        exact List.prefix_refl _
    have hrest := ih (events ++ [e])
    rw [List.append_assoc, List.singleton_append] at hrest
    exact hone.trans hrest

theorem mem_segment {events : List Event} {e : Event} (he : e ∈ events)
    (hp : e.passedSet? = none) : (∃ seg ∈ completed events, e ∈ seg) ∨ e ∈ running events := by
  induction events using List.reverseRecOn with
  | nil => cases he
  | append_singleton events f ih =>
    cases hf : f.passedSet? with
    | some k =>
      obtain rfl : f = .setPassed k := by
        cases f <;> simp_all [Event.passedSet?]
      have he' : e ∈ events := by
        rcases List.mem_append.mp he with he | he
        · exact he
        · rw [List.mem_singleton.mp he] at hp
          cases hp
      left
      rw [completed, cut_append_setPassed]
      rcases ih he' with ⟨seg, hseg, hmem⟩ | hmem
      · exact ⟨seg, List.mem_append_left _ hseg, hmem⟩
      · exact ⟨_, List.mem_append_right _ (List.mem_singleton_self _), hmem⟩
    | none =>
      rw [completed, running, cut_append events _ (by simpa using hf)]
      rcases List.mem_append.mp he with he | he
      · rcases ih he with hdone | hmem
        · exact .inl hdone
        · exact .inr (List.mem_append_left _ hmem)
      · exact .inr (List.mem_append_right _ he)

theorem mem_completed {before after : List Event} {e : Event} {k : Nat} (he : e ∈ before)
    (hp : e.passedSet? = none) (hk : .setPassed k ∈ after) :
    ∃ seg ∈ completed (before ++ after), e ∈ seg := by
  obtain ⟨a, b, rfl⟩ := List.append_of_mem hk
  have hpre := completed_prefix (before ++ a ++ [.setPassed k]) b
  rw [completed, cut_append_setPassed] at hpre
  have hsplit : before ++ a ++ [.setPassed k] ++ b = before ++ (a ++ .setPassed k :: b) := by simp
  rw [hsplit] at hpre
  rcases mem_segment (List.mem_append_left a he) hp with ⟨seg, hseg, hmem⟩ | hmem
  · exact ⟨seg, hpre.subset (List.mem_append_left _ hseg), hmem⟩
  · exact ⟨_, hpre.subset (List.mem_append_right _ (List.mem_singleton_self _)), hmem⟩

/-- A segment tells what was put out: every value with its index, and whether it goes wrong. -/
structure Tells (events : List Event) (output expected : Array Int) : Prop where
  accepted : accepted events = output.toList.zipIdx
  mismatched : Mismatched events ↔ ¬ output.toList <+: expected.toList

theorem Tells.values_eq {events : List Event} {output expected : Array Int}
    (h : Tells events output expected) : values events = output.toList := by
  rw [values, h.accepted, List.zipIdx_map_fst]

theorem Tells.append_other {events : List Event} {output expected : Array Int}
    (h : Tells events output expected) {e : Event} (ha : e.accepted? = none)
    (hm : e.isMismatch = false) : Tells (events ++ [e]) output expected := by
  refine ⟨?_, ?_⟩
  · rw [← h.accepted]
    simp [Record.accepted, ha]
  · rw [← h.mismatched]
    simp [Mismatched, or_and_right, exists_or, hm]

theorem concat_prefix_iff {l m : List Int} {v : Int} :
    l ++ [v] <+: m ↔ l <+: m ∧ m[l.length]? = some v := by
  constructor
  · rintro ⟨rest, rfl⟩
    refine ⟨⟨v :: rest, by simp⟩, by simp⟩
  · rintro ⟨⟨rest, rfl⟩, hv⟩
    cases rest with
    | nil => simp at hv
    | cons w rest =>
      obtain rfl : w = v := by simpa using hv
      exact ⟨rest, by simp⟩

end Record

namespace Exchange
open Record (Tells)

theorem tells_accept {events : List Event} {offer : Offer} {x : Exchange} (slot : UInt8) (v : Int)
    (h : Tells (events ++ x.events) x.output offer.expected) :
    Tells (events ++ (x.accept offer slot v).events) (x.accept offer slot v).output
      offer.expected := by
  have hidx : (x.output.push v).toList.zipIdx = x.output.toList.zipIdx ++ [(v, x.output.size)] := by
    simp [List.zipIdx_append]
  have hpre : (x.output.push v).toList <+: offer.expected.toList ↔
      x.output.toList <+: offer.expected.toList ∧ offer.expected[x.output.size]? = some v := by
    rw [Array.toList_push, Record.concat_prefix_iff]
    simp
  simp only [accept, record]
  split_ifs with hv
  · refine ⟨?_, ?_⟩
    · rw [hidx, ← h.accepted]
      simp [Record.accepted, Event.accepted?]
    · rw [hpre, and_iff_left hv, ← h.mismatched]
      simp [Record.Mismatched, or_and_right, exists_or, Event.isMismatch]
  · refine ⟨?_, ?_⟩
    · rw [hidx, ← h.accepted]
      simp [Record.accepted, Event.accepted?]
    · rw [hpre]
      refine iff_of_true ⟨.outputMismatch slot x.output.size offer.expected[x.output.size]? v,
        ?_, rfl⟩ fun hp => hv hp.2
      simp

theorem tells_stepNodes {events : List Event} (offer : Offer) (ch : Channels) (ns : List Node)
    {x : Exchange} (h : Tells (events ++ x.events) x.output offer.expected) :
    Tells (events ++ (stepNodes offer ch ns x).2.1.events) (stepNodes offer ch ns x).2.1.output
      offer.expected := by
  have hk : Kept offer fun x => Tells (events ++ x.events) x.output offer.expected := by
    refine ⟨fun x _ hx => hx, fun x slot v hx => ?_, fun x slot v _ _ hx => tells_accept slot _ hx⟩
    simp only [record, ← List.append_assoc]
    exact hx.append_other rfl rfl
  exact hk.stepNodes ch ns h

end Exchange

namespace Simulation
open Record

theorem steps_tells {sim : Simulation} {events : List Event} {ns : List Node} {x : Exchange}
    {failure : Option (UInt8 × NodeError)} (h : sim.steps = (ns, x, failure))
    (hevents : Tells events sim.output sim.currentSet.output) :
    Tells (events ++ x.events) x.output sim.currentSet.output := by
  have hx : x = sim.steps.2.1 := by rw [h]
  rw [hx]
  have hstart : Tells (events ++ []) sim.output sim.offer.expected := by
    rw [List.append_nil]
    exact hevents
  exact Exchange.tells_stepNodes sim.offer sim.channels sim.nodes hstart

def Passes (seg : List Event) (set : TestSet) : Prop := Tells seg set.output set.output

structure Underway (events : List Event) (sim : Simulation) : Prop where
  mode : sim.mode = .running ∨ sim.mode = .paused
  setIndex : sim.setIndex = sim.setsPassed
  bound : sim.setIndex < sim.puzzle.sets.length
  tells : Tells (running events) sim.output sim.currentSet.output
  not_won : events.filterMap Event.winningScore? = []

structure Over (events : List Event) (sim : Simulation) : Prop where
  mode : sim.mode = .won
  all : sim.setsPassed = sim.puzzle.sets.length
  last : ∃ before score, events = before ++ [.won score] ∧
    before.filterMap Event.winningScore? = [] ∧ running events = [.won score]

/-- How the record and the simulation hang together; `busy` counts the ticks that ran. -/
structure Recorded (whole : Puzzle) (events : List Event) (busy : Nat) (sim : Simulation) :
    Prop where
  puzzle : sim.puzzle = whole
  ticks : sim.ticks = busy
  passed : events.filterMap Event.passedSet? = List.range sim.setsPassed
  count : (completed events).length = sim.setsPassed
  done : ∀ (i : Nat) (seg : List Event), (completed events)[i]? = some seg →
    ∃ set, whole.sets[i]? = some set ∧ Passes seg set
  state : Underway events sim ∨ Over events sim

theorem recorded_begun {sim : Simulation} (hsets : sim.puzzle.sets ≠ []) :
    Recorded sim.puzzle [] 0 sim.begun := by
  have hlen : 0 < sim.puzzle.sets.length := List.length_pos_iff.mpr hsets
  refine ⟨rfl, rfl, rfl, rfl, fun i seg h => absurd h (by simp [completed, cut]), .inl ?_⟩
  refine ⟨.inl rfl, rfl, hlen, ⟨rfl, ?_⟩, rfl⟩
  simp [Mismatched, running, cut, begun, resetRun, resetSet]

theorem record_steps {sim : Simulation} {ns : List Node} {x : Exchange}
    {failure : Option (UInt8 × NodeError)} (h : sim.steps = (ns, x, failure)) (events : List Event) :
    cut (events ++ x.events) = (completed events, running events ++ x.events) ∧
      x.events.filterMap Event.passedSet? = [] ∧ x.events.filterMap Event.winningScore? = [] := by
  have hof := steps_isOfNode h
  refine ⟨cut_append _ _ fun e he => Event.passedSet?_of_isOfNode (hof e he), ?_, ?_⟩
  · exact List.filterMap_eq_nil_iff.mpr fun e he => Event.passedSet?_of_isOfNode (hof e he)
  · exact List.filterMap_eq_nil_iff.mpr fun e he => Event.winningScore?_of_isOfNode (hof e he)

theorem currentSet_eq {sim : Simulation} (h : sim.setIndex < sim.puzzle.sets.length) :
    sim.puzzle.sets[sim.setIndex]? = some sim.currentSet := by
  rw [currentSet, List.getElem?_eq_getElem h, Option.getD_some]

variable {whole : Puzzle} {events : List Event} {busy : Nat} {sim : Simulation}

theorem Recorded.underway (h : Recorded whole events busy sim) (hm : sim.mode ≠ .won) :
    Underway events sim :=
  h.state.resolve_right fun ho => hm ho.mode

structure PassesOn (whole : Puzzle) (events : List Event) (sets : Nat) : Prop where
  passed : events.filterMap Event.passedSet? = List.range sets
  count : (completed events).length = sets
  done : ∀ (i : Nat) (seg : List Event), (completed events)[i]? = some seg →
    ∃ set, whole.sets[i]? = some set ∧ Passes seg set
  fresh : running events = []
  not_won : events.filterMap Event.winningScore? = []

theorem Recorded.passesOn (h : Recorded whole events busy sim) (ha : sim.Active) {ns : List Node}
    {x : Exchange} (hs : sim.steps = (ns, x, none)) (hc : sim.Completes x) :
    PassesOn whole (events ++ x.events ++ [.setPassed sim.setIndex]) (sim.setsPassed + 1) := by
  have hu := h.underway ha.mode_ne_won
  obtain ⟨hcut, hpassed, hwon⟩ := record_steps hs events
  have htells := steps_tells hs hu.tells
  rw [hc.1] at htells
  have hcut' : cut (events ++ x.events ++ [.setPassed sim.setIndex]) =
      (completed events ++ [running events ++ x.events], []) := by
    rw [cut_append_setPassed, completed, running, hcut]
  refine ⟨?_, ?_, ?_, ?_, ?_⟩
  · simp [h.passed, hpassed, Event.passedSet?, List.range_succ, hu.setIndex]
  · rw [completed, hcut', List.length_append, h.count]
    rfl
  · intro i seg hseg
    rw [completed, hcut'] at hseg
    by_cases hi : i < (completed events).length
    · rw [List.getElem?_append_left hi] at hseg
      exact h.done i seg hseg
    · -- the segment that this tick completes belongs to the set that was running
      rw [List.getElem?_append_right (Nat.le_of_not_lt hi)] at hseg
      have hlast : i - (completed events).length = 0 ∧
          running events ++ x.events = seg := by
        cases hd : i - (completed events).length with
        | zero => simpa [hd] using hseg
        | succ d => simp [hd] at hseg
      obtain rfl : i = sim.setIndex := by
        rw [hu.setIndex, ← h.count]
        omega
      rw [← hlast.2, ← h.puzzle]
      exact ⟨_, currentSet_eq hu.bound, htells⟩
  · rw [running, hcut']
  · simp [hu.not_won, hwon, Event.winningScore?]

theorem Recorded.goesOn (h : Recorded whole events busy sim) (ha : sim.Active) {ns : List Node}
    {x : Exchange} {failure : Option (UInt8 × NodeError)} (hs : sim.steps = (ns, x, failure))
    (es : List Event) (hes : ∀ e ∈ es, ∃ slot line message, e = .runtimeError slot line message)
    (halted : Bool) (htells : Tells (running events ++ (x.events ++ es)) x.output
      sim.currentSet.output) :
    Recorded whole (events ++ (x.events ++ es)) (busy + 1)
      { sim.afterSteps ns x with halted := halted } := by
  have hu := h.underway ha.mode_ne_won
  obtain ⟨-, hpassed, hwon⟩ := record_steps hs events
  have hpassed' : es.filterMap Event.passedSet? = [] := by
    apply List.filterMap_eq_nil_iff.mpr
    intro e he
    obtain ⟨slot, line, message, rfl⟩ := hes e he
    rfl
  have hwon' : es.filterMap Event.winningScore? = [] := by
    apply List.filterMap_eq_nil_iff.mpr
    intro e he
    obtain ⟨slot, line, message, rfl⟩ := hes e he
    rfl
  have hcut : cut (events ++ (x.events ++ es)) =
      (completed events, running events ++ (x.events ++ es)) := by
    apply cut_append
    intro e he
    rcases List.mem_append.mp he with he | he
    · exact List.filterMap_eq_nil_iff.mp hpassed e he
    · exact List.filterMap_eq_nil_iff.mp hpassed' e he
  refine ⟨h.puzzle, congrArg (· + 1) h.ticks, ?_, ?_, ?_, .inl ⟨hu.mode, hu.setIndex, hu.bound,
    ?_, ?_⟩⟩
  · simp only [List.filterMap_append, hpassed, hpassed', List.append_nil]
    exact h.passed
  · rw [completed, hcut]
    exact h.count
  · rw [completed, hcut]
    exact h.done
  · rw [running, hcut]
    exact htells
  · simp only [List.filterMap_append, hwon, hwon', List.append_nil]
    exact hu.not_won

theorem Recorded.tick (h : Recorded whole events busy sim) :
    Recorded whole (events ++ sim.tick.events)
      (busy + if sim.tick.outcome = .idle then 0 else 1) sim.tick.after := by
  have ht := sim.tick_ticked
  generalize sim.tick = t at ht
  cases ht with
  | idle hn => simpa using h
  | @halted ns x slot error ha hs =>
    refine h.goesOn ha hs _ (by simp) true ?_
    rw [← List.append_assoc]
    exact (steps_tells hs (h.underway ha.mode_ne_won).tells).append_other rfl rfl
  | @advanced ns x ha hs hc =>
    have hrest := h.goesOn ha hs [] (by simp) sim.halted
    rw [List.append_nil] at hrest
    exact hrest (steps_tells hs (h.underway ha.mode_ne_won).tells)
  | @setPassed ns x ha hs hc hn =>
    have hu := h.underway ha.mode_ne_won
    have hp := h.passesOn ha hs hc
    rw [List.append_assoc] at hp
    refine ⟨h.puzzle, congrArg (· + 1) h.ticks, hp.passed, hp.count, hp.done,
      .inl ⟨hu.mode, congrArg (· + 1) hu.setIndex, hn, ?_, hp.not_won⟩⟩
    rw [hp.fresh]
    refine ⟨rfl, ?_⟩
    simp [Mismatched, toNextSet, resetSet]
  | @won ns x ha hs hc hl =>
    -- the win is told after the last set is passed, so it is alone in the segment that is open
    have hu := h.underway ha.mode_ne_won
    have hp := h.passesOn ha hs hc
    have hcut := cut_append (events ++ x.events ++ [.setPassed sim.setIndex])
      [.won (sim.finalScore ns x)] (by simp [Event.passedSet?])
    rw [← List.append_assoc, ← List.append_assoc]
    refine ⟨h.puzzle, congrArg (· + 1) h.ticks, ?_, ?_, ?_, .inr ⟨rfl, ?_, _, _, rfl, hp.not_won,
      ?_⟩⟩
    · rw [List.filterMap_append, hp.passed]
      exact List.append_nil _
    · rw [completed, hcut]
      exact hp.count
    · rw [completed, hcut]
      exact hp.done
    · have hb := hu.bound
      have hi := hu.setIndex
      simp only [toWon, afterSteps, remix]
      omega
    · rw [running, hcut, hp.fresh]
      rfl

def afterAll : List Operation → Simulation → Simulation
  | [], sim => sim
  | op :: ops, sim => afterAll ops (op.after sim)

theorem Reachable.afterAll {sim : Simulation} (h : Reachable sim) (ops : List Operation) :
    Reachable (sim.afterAll ops) := by
  induction ops generalizing sim with
  | nil => exact h
  | cons op ops ih => exact ih (h.after op)

def record : List Operation → Simulation → List Event
  | [], _ => []
  | op :: ops, sim => op.events sim ++ record ops (op.after sim)

def busyTicks : List Operation → Simulation → Nat
  | [], _ => 0
  | op :: ops, sim => op.busy sim + busyTicks ops (op.after sim)

theorem Recorded.operation (h : Recorded whole events busy sim) {op : Operation}
    (hop : op ≠ .stop) :
    Recorded whole (events ++ op.events sim) (busy + op.busy sim) (op.after sim) := by
  by_cases htick : op = .tick
  · subst htick
    exact h.tick
  · have hbusy : op.busy sim = 0 := by
      cases op <;> first | rfl | exact absurd rfl htick
    have hevents : op.events sim = [] := by
      cases op <;> first | rfl | exact absurd rfl htick
    have hoped := operated op sim
    rw [hbusy, hevents, Nat.add_zero, List.append_nil]
    generalize op.events sim = es at hoped
    generalize op.after sim = t at hoped
    cases hoped with
    | edited _ he =>
      obtain ⟨nodes, channels, halted, rfl⟩ := he.same_run
      refine ⟨h.puzzle, h.ticks, h.passed, h.count, h.done, ?_⟩
      rcases h.state with hu | ho
      · exact .inl ⟨hu.mode, hu.setIndex, hu.bound, hu.tells, hu.not_won⟩
      · exact .inr ⟨ho.mode, ho.all, ho.last⟩
    | started hm _ =>
      -- a recorded simulation has been started, and only a stop takes it back to editing
      have hu := h.underway (by simp [hm])
      rcases hu.mode with hr | hr <;> rw [hm] at hr <;> cases hr
    | paused hm =>
      have hu := h.underway (by simp [hm])
      exact ⟨h.puzzle, h.ticks, h.passed, h.count, h.done,
        .inl ⟨.inr rfl, hu.setIndex, hu.bound, hu.tells, hu.not_won⟩⟩
    | resumed hm =>
      have hu := h.underway (by simp [hm])
      exact ⟨h.puzzle, h.ticks, h.passed, h.count, h.done,
        .inl ⟨.inl rfl, hu.setIndex, hu.bound, hu.tells, hu.not_won⟩⟩
    | stopped => exact absurd rfl hop
    | ticked => exact absurd rfl htick

theorem Recorded.operations (h : Recorded whole events busy sim) {ops : List Operation}
    (hops : .stop ∉ ops) :
    Recorded whole (events ++ sim.record ops) (busy + sim.busyTicks ops) (sim.afterAll ops) := by
  induction ops generalizing events busy sim with
  | nil =>
    rw [record, List.append_nil]
    exact h
  | cons op ops ih =>
    rw [List.mem_cons, not_or] at hops
    have hrest := ih (h.operation (Ne.symm hops.1)) hops.2
    rw [List.append_assoc, Nat.add_assoc] at hrest
    exact hrest

theorem recorded_of_start {sim begun : Simulation} (hstart : sim.start = .ok begun)
    {ops : List Operation} (hops : .stop ∉ ops) :
    Recorded begun.puzzle (begun.record ops) (begun.busyTicks ops) (begun.afterAll ops) := by
  obtain ⟨-, hsets, rfl⟩ := start_eq_ok hstart
  have h := (recorded_begun hsets).operations hops
  rw [Nat.zero_add] at h
  exact h

theorem Passes.values_eq {seg : List Event} {set : TestSet} (h : Passes seg set) :
    values seg = set.output.toList :=
  Tells.values_eq h

theorem Passes.not_mismatched {seg : List Event} {set : TestSet} (h : Passes seg set) :
    ¬ Mismatched seg := by
  intro hm
  exact h.mismatched.mp hm List.prefix_rfl

theorem Recorded.not_mismatched (h : Recorded whole events busy sim) {seg : List Event}
    (hseg : seg ∈ completed events) : ¬ Mismatched seg := by
  obtain ⟨i, hi⟩ := List.mem_iff_getElem?.mp hseg
  obtain ⟨set, -, hp⟩ := h.done i seg hi
  exact hp.not_mismatched

theorem Recorded.over_of_won (h : Recorded whole events busy sim) {score : Score}
    (hw : .won score ∈ events) : Over events sim := by
  apply h.state.resolve_left
  intro hu
  have hn := List.filterMap_eq_nil_iff.mp hu.not_won _ hw
  cases hn

theorem Recorded.won_iff (h : Recorded whole events busy sim) :
    sim.mode = .won ↔ ∃ score, .won score ∈ events := by
  constructor
  · intro hm
    rcases h.state with hu | ho
    · rcases hu.mode with hr | hr <;> rw [hm] at hr <;> cases hr
    · obtain ⟨before, score, hlast, -⟩ := ho.last
      exact ⟨score, hlast ▸ List.mem_append_right _ (List.mem_singleton_self _)⟩
  · rintro ⟨score, hw⟩
    exact (h.over_of_won hw).mode

theorem Recorded.segments (h : Recorded whole events busy sim) {seg : List Event}
    (hseg : seg ∈ completed events ++ [running events]) : accepted seg = (values seg).zipIdx := by
  have htold : ∀ {output expected : Array Int}, Tells seg output expected →
      accepted seg = (values seg).zipIdx := by
    intro output expected ht
    rw [ht.values_eq]
    exact ht.accepted
  rcases List.mem_append.mp hseg with hseg | hseg
  · obtain ⟨i, hi⟩ := List.mem_iff_getElem?.mp hseg
    obtain ⟨set, -, hp⟩ := h.done i seg hi
    exact htold hp
  · rw [List.mem_singleton] at hseg
    subst hseg
    rcases h.state with hu | ho
    · exact htold hu.tells
    · obtain ⟨_, _, _, _, hr⟩ := ho.last
      rw [hr]
      rfl

theorem Recorded.mismatched_iff (h : Recorded whole events busy sim) {i : Nat} {seg : List Event}
    {set : TestSet} (hseg : (completed events ++ [running events])[i]? = some seg)
    (hset : whole.sets[i]? = some set) :
    Mismatched seg ↔ ¬ values seg <+: set.output.toList := by
  by_cases hi : i < (completed events).length
  · rw [List.getElem?_append_left hi] at hseg
    obtain ⟨set', hset', hp⟩ := h.done i seg hseg
    obtain rfl : set' = set := Option.some.inj (hset'.symm.trans hset)
    rw [hp.values_eq]
    exact hp.mismatched
  · have hlt : i < (completed events ++ [running events]).length :=
      (List.getElem?_eq_some_iff.mp hseg).1
    obtain rfl : i = (completed events).length := by
      rw [List.length_append, List.length_singleton] at hlt
      omega
    obtain rfl : running events = seg := by simpa using hseg
    rw [h.count] at hset
    rcases h.state with hu | ho
    · have hcur := currentSet_eq hu.bound
      rw [h.puzzle, hu.setIndex, hset] at hcur
      rw [Option.some.inj hcur, hu.tells.values_eq]
      exact hu.tells.mismatched
    · rw [ho.all, h.puzzle] at hset
      simp at hset

theorem Recorded.after_mismatch (h : Recorded whole events busy sim) {before after : List Event}
    (hsplit : events = before ++ after) (hm : Mismatched before) {e : Event} (he : e ∈ after) :
    e.passedSet? = none ∧ e.winningScore? = none := by
  obtain ⟨f, hf, hmis⟩ := hm
  have hfp : f.passedSet? = none := by
    cases f <;> first | rfl | cases hmis
  cases e with
  | setPassed k =>
    obtain ⟨seg, hseg, hmem⟩ := mem_completed hf hfp he
    rw [← hsplit] at hseg
    exact absurd ⟨f, hmem, hmis⟩ (h.not_mismatched hseg)
  | won score =>
    have hin : f ∈ events := hsplit ▸ List.mem_append_left _ hf
    have ho := h.over_of_won (hsplit ▸ List.mem_append_right _ he)
    rcases mem_segment hin hfp with ⟨seg, hseg, hmem⟩ | hmem
    · exact absurd ⟨f, hmem, hmis⟩ (h.not_mismatched hseg)
    · obtain ⟨-, score', -, -, hr⟩ := ho.last
      rw [hr, List.mem_singleton] at hmem
      rw [hmem] at hmis
      cases hmis
  | _ => exact ⟨rfl, rfl⟩

theorem Recorded.won_once (h : Recorded whole events busy sim) :
    (events.filterMap Event.winningScore?).length ≤ 1 := by
  rcases h.state with hu | ho
  · rw [hu.not_won]
    exact Nat.zero_le _
  · obtain ⟨before, score, rfl, hb, -⟩ := ho.last
    rw [List.filterMap_append, hb]
    exact Nat.le_refl _

theorem Recorded.won_last (h : Recorded whole events busy sim) {before after : List Event}
    {score : Score} (hsplit : events = before ++ .won score :: after) :
    before.filterMap Event.passedSet? = List.range whole.sets.length := by
  have ho := h.over_of_won (hsplit ▸ List.mem_append_right _ (List.mem_cons_self ..))
  have hp := h.passed
  rw [ho.all, h.puzzle] at hp
  obtain ⟨first, score', hlast, hfirst, -⟩ := ho.last
  -- the two ways to split the record at a win are one, as there is only one win
  have hafter : after = [] := by
    rcases List.eq_nil_or_concat after with rfl | ⟨after', e, rfl⟩
    · rfl
    · have hinit : first = before ++ .won score :: after' := by
        have heq : first ++ [.won score'] = (before ++ .won score :: after') ++ [e] := by
          rw [← hlast, hsplit]
          simp
        exact (List.append_inj' heq rfl).1
      rw [hinit, List.filterMap_append] at hfirst
      exact absurd hfirst (by simp [Event.winningScore?])
  rw [hsplit, hafter, List.filterMap_append] at hp
  exact (List.append_nil _).symm.trans hp

theorem busyTicks_append (before after : List Operation) (sim : Simulation) :
    sim.busyTicks (before ++ after) =
      sim.busyTicks before + (sim.afterAll before).busyTicks after := by
  induction before generalizing sim with
  | nil => exact (Nat.zero_add _).symm
  | cons op before ih =>
    simp only [List.cons_append, busyTicks, ih, Nat.add_assoc]
    rfl

theorem Recorded.score (h : Recorded whole events busy sim) {score : Score}
    (hw : .won score ∈ sim.tick.events) :
    score =
      { instructions := (sim.nodes.map fun n => n.program.length).sum
        cost := (sim.nodes.map fun n => n.nodeClass.cost).sum
        ticks := busy + Operation.tick.busy sim } := by
  simp only [Operation.busy]
  have ht := sim.tick_ticked
  generalize sim.tick = t at ht hw
  have hnode : ∀ {x : Exchange} {ns : List Node} {failure : Option (UInt8 × NodeError)},
      sim.steps = (ns, x, failure) → .won score ∉ x.events :=
    fun hs he => Bool.false_ne_true (steps_isOfNode hs _ he)
  cases ht with
  | idle => cases hw
  | halted ha hs => simp [hnode hs] at hw
  | advanced ha hs hc => exact absurd hw (hnode hs)
  | setPassed ha hs hc hn => simp [hnode hs] at hw
  | @won ns x ha hs hc hl =>
    have heq : score = sim.finalScore ns x := by simpa [hnode hs] using hw
    have hn := steps_reset hs
    have hlines := map_eq_of_reset (f := fun n => n.program.length) (fun _ => rfl) hn
    have hcost := map_eq_of_reset (f := fun n => n.nodeClass.cost) (fun _ => rfl) hn
    rw [heq, finalScore, currentScore, totalOf_eq_sum, totalOf_eq_sum, ← h.ticks, ← hlines, ← hcost]
    rfl

/-- What the record of a run says, and that it is true. -/
structure Faithful (sim : Simulation) (ops : List Operation) : Prop where
  passed : (sim.record ops).filterMap Event.passedSet? = List.range (sim.afterAll ops).setsPassed
  count : (completed (sim.record ops)).length = (sim.afterAll ops).setsPassed
  numbered : ∀ seg ∈ completed (sim.record ops) ++ [running (sim.record ops)],
    accepted seg = (values seg).zipIdx
  complete : ∀ (i : Nat) (seg : List Event), (completed (sim.record ops))[i]? = some seg →
    ∃ set, sim.puzzle.sets[i]? = some set ∧ values seg = set.output.toList ∧ ¬ Mismatched seg
  /-- Until the win, the segment that is open tells the output so far. -/
  open_segment : (∀ score, .won score ∉ sim.record ops) →
    values (running (sim.record ops)) = (sim.afterAll ops).output.toList
  /-- A mismatch is reported for a test set exactly if what was put out does not begin its output. -/
  mismatch_iff : ∀ (i : Nat) (seg : List Event) (set : TestSet),
    (completed (sim.record ops) ++ [running (sim.record ops)])[i]? = some seg →
    sim.puzzle.sets[i]? = some set → (Mismatched seg ↔ ¬ values seg <+: set.output.toList)
  mismatch_final : ∀ before after, sim.record ops = before ++ after → Mismatched before →
    ∀ e ∈ after, e.passedSet? = none ∧ e.winningScore? = none
  won_iff : (sim.afterAll ops).mode = .won ↔ ∃ score, .won score ∈ sim.record ops
  won_once : ((sim.record ops).filterMap Event.winningScore?).length ≤ 1
  won_last : ∀ before score after, sim.record ops = before ++ .won score :: after →
    before.filterMap Event.passedSet? = List.range sim.puzzle.sets.length
  /-- The score of the win counts the ticks that ran and the nodes that were there. -/
  score : ∀ before after score, ops = before ++ .tick :: after →
    .won score ∈ (sim.afterAll before).tick.events →
    score =
      { instructions := ((sim.afterAll before).nodes.map fun n => n.program.length).sum
        cost := ((sim.afterAll before).nodes.map fun n => n.nodeClass.cost).sum
        ticks := sim.busyTicks (before ++ [.tick]) }

/-- A win is earned and the events tell the truth, from a start until the simulation is stopped,
whatever is done to it in between. -/
theorem record_faithful (sim begun : Simulation) (ops : List Operation)
    (hstart : sim.start = .ok begun) (hops : .stop ∉ ops) : Faithful begun ops := by
  have h := recorded_of_start hstart hops
  refine ⟨h.passed, h.count, fun seg hseg => h.segments hseg, ?_, ?_,
    fun i seg set => h.mismatched_iff, fun before after hsplit hm e => h.after_mismatch hsplit hm,
    h.won_iff, h.won_once, fun before score after => h.won_last, ?_⟩
  · intro i seg hseg
    obtain ⟨set, hset, hp⟩ := h.done i seg hseg
    exact ⟨set, hset, hp.values_eq, hp.not_mismatched⟩
  · intro hnot
    have hmode : (begun.afterAll ops).mode ≠ .won := fun hm => by
      obtain ⟨score, hw⟩ := h.won_iff.mp hm
      exact hnot score hw
    exact (h.underway hmode).tells.values_eq
  · rintro before after score rfl hw
    have hbefore : Operation.stop ∉ before := fun hb => hops (List.mem_append_left _ hb)
    rw [busyTicks_append]
    exact (recorded_of_start hstart hbefore).score hw

def interruptedWin : List Operation :=
  [.tick, .pause, .tick, .addNode .tiny 7, .resume, .tick, .tick, .tick]

theorem record_faithful_echo :
    echo.start = .ok echo.begun ∧ .stop ∉ interruptedWin ∧
      (echo.begun.afterAll interruptedWin).mode = .won ∧
      Faithful echo.begun interruptedWin := by
  have hops : Operation.stop ∉ interruptedWin := by simp [interruptedWin]
  exact ⟨rfl, hops, rfl, record_faithful echo echo.begun interruptedWin rfl hops⟩

end Simulation
end Lockstep
