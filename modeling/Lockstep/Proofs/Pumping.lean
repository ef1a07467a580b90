import Lockstep.Proofs.Pausing

/-!
What a pump runs. It looks at the clock and runs a tick by turns: as many ticks are run as are taken
from the pacer, each of them due, and it ends when the limit is reached, the simulation no longer
goes on, or nothing is due. Only where the time of a tick to come is no time is there nothing after
it.
-/
namespace Lockstep

namespace Pacer
variable {p q r : Pacer} {now : Nanos} {count : Nat}

def Takes (p : Pacer) (now : Nanos) (count : Nat) (q : Pacer) : Prop :=
  ∃ deadlines, p.pollUpTo now count = .ok (deadlines, q) ∧ deadlines.length = count

theorem takes_zero_iff : p.Takes now 0 q ↔ q = p := by
  constructor
  · rintro ⟨deadlines, h, -⟩
    cases h
    rfl
  · rintro rfl
    exact ⟨[], rfl, rfl⟩

theorem takes_succ_iff :
    p.Takes now (count + 1) r ↔ ∃ q, p.poll now = .ok (some q) ∧ q.Takes now count r := by
  constructor
  · rintro ⟨deadlines, h, hlength⟩
    obtain ⟨next, hpoll, h⟩ := bind_eq_ok h
    cases next with
    | none =>
      cases h
      cases hlength
    | some q =>
      obtain ⟨⟨rest, last⟩, hrest, h⟩ := bind_eq_ok h
      cases h
      exact ⟨q, hpoll, rest, hrest, Nat.succ.inj hlength⟩
  · rintro ⟨q, hpoll, deadlines, hrest, hlength⟩
    refine ⟨q.deadline :: deadlines, ?_, congrArg (· + 1) hlength⟩
    simp only [pollUpTo, hpoll, hrest, bind, Except.bind, pure, Except.pure]

/-- A tick is due, and the time of the next one would be no time. -/
def Outlasts (p : Pacer) (now : Nanos) : Prop :=
  ∃ due duration, p.deadline = some due ∧ due ≤ now ∧ p.tickDuration due = some duration ∧
    Nanos.limit ≤ due + duration

theorem poll_eq_error_iff : p.poll now = .error .sum ↔ p.Outlasts now := by
  rw [poll, Outlasts]
  cases hdue : p.deadline with
  | none => simp
  | some due =>
    by_cases hnow : now < due
    · simp [hnow]
    · cases hduration : p.tickDuration due with
      | none => simp [hnow, hduration]
      | some duration =>
        by_cases hfits : due + duration < Nanos.limit
        · simp [hnow, hduration, Nanos.plus, hfits, bind, Except.bind, pure, Except.pure]
        · simp [hnow, hduration, Nanos.plus, hfits, bind, Except.bind, Nat.not_lt.mp hnow,
            Nat.not_lt.mp hfits]

end Pacer

namespace Simulation

theorem Active.outcome_ne_idle {sim : Simulation} (h : sim.Active) : sim.tick.outcome ≠ .idle := by
  have ht := sim.tick_ticked
  generalize sim.tick = t at ht
  cases ht with
  | idle hn => exact absurd h hn
  | halted => exact Outcome.noConfusion
  | advanced => exact Outcome.noConfusion
  | setPassed => exact Outcome.noConfusion
  | won => exact Outcome.noConfusion

theorem Active.goesOn_iff {sim : Simulation} (h : sim.Active) :
    sim.tick.outcome.goesOn = true ↔ sim.tick.after.Active := by
  have ht := sim.tick_ticked
  generalize sim.tick = t at ht
  cases ht with
  | idle hn => exact absurd h hn
  | halted => exact iff_of_false Bool.false_ne_true fun ha => ha.2 rfl
  | advanced => exact iff_of_true rfl h
  | setPassed => exact iff_of_true rfl h
  | won => exact iff_of_false Bool.false_ne_true fun ha => Mode.noConfusion ha.1

end Simulation

namespace Session
variable {s : Session} {limit : Nat} {pumped : Pumped}

def ticked (s : Session) (pacer : Pacer) : Session :=
  { s with sim := s.sim.tick.after, pacer := pacer }

def Pumped.cons (t : Simulation.Tick) (rest : Pumped) : Pumped :=
  ⟨t.outcome :: rest.outcomes, t.events ++ rest.events, rest.after⟩

theorem pumpUpTo_stopped (h : ¬ s.sim.Active) : s.pumpUpTo limit = .ok ⟨[], [], s⟩ := by
  cases limit with
  | zero => rfl
  | succ limit => exact if_neg h

theorem pumpUpTo_failed {e : TimeOverflow} (hactive : s.sim.Active)
    (hpoll : s.pacer.poll s.now = .error e) : s.pumpUpTo (limit + 1) = .error e := by
  refine (if_pos hactive).trans ?_
  rw [hpoll]
  rfl

theorem pumpUpTo_waiting (hactive : s.sim.Active) (hpoll : s.pacer.poll s.now = .ok none) :
    s.pumpUpTo (limit + 1) = .ok ⟨[], [], s⟩ := by
  refine (if_pos hactive).trans ?_
  rw [hpoll]
  rfl

/-- A pump that runs a tick goes on as a pump of the session after it, also where it ends at once:
the simulation has stopped then, and the next look at it would end the pump as well. -/
theorem pumpUpTo_tick {pacer : Pacer} (hactive : s.sim.Active)
    (hpoll : s.pacer.poll s.now = .ok (some pacer)) :
    s.pumpUpTo (limit + 1) = ((s.ticked pacer).pumpUpTo limit).map (Pumped.cons s.sim.tick) := by
  refine (if_pos hactive).trans ?_
  rw [hpoll]
  change (if s.sim.tick.outcome.goesOn = true then _ else _) = _
  split_ifs with hgoes
  · change ((s.ticked pacer).pumpUpTo limit >>= _) = _
    cases (s.ticked pacer).pumpUpTo limit <;> rfl
  · have hstopped : ¬ (s.ticked pacer).sim.Active := mt hactive.goesOn_iff.mpr hgoes
    rw [pumpUpTo_stopped hstopped]
    simp only [Except.map, Pumped.cons, List.append_nil]
    rfl

/-- The ticks of a pump are those that are due, neither more nor fewer within the limit. -/
structure RunsDue (s : Session) (limit : Nat) (pumped : Pumped) : Prop where
  few : pumped.outcomes.length ≤ limit
  not_idle : .idle ∉ pumped.outcomes
  goes_on : ∀ outcome ∈ pumped.outcomes.dropLast, outcome.goesOn = true
  outcomes : pumped.outcomes = s.sim.outcomes pumped.outcomes.length
  events : pumped.events = s.sim.record (List.replicate pumped.outcomes.length .tick)
  after : pumped.after =
    { s with sim := s.sim.afterTicks pumped.outcomes.length, pacer := pumped.after.pacer }
  ticks : pumped.after.sim.ticks = s.sim.ticks + pumped.outcomes.length
  takes : s.pacer.Takes s.now pumped.outcomes.length pumped.after.pacer
  stops : pumped.outcomes.length < limit →
    ¬ pumped.after.sim.Active ∨ pumped.after.pacer.poll s.now = .ok none

theorem runsDue_nil (hstops : 0 < limit → ¬ s.sim.Active ∨ s.pacer.poll s.now = .ok none) :
    s.RunsDue limit ⟨[], [], s⟩ where
  few := Nat.zero_le limit
  not_idle := List.not_mem_nil
  goes_on _ h := absurd h List.not_mem_nil
  outcomes := rfl
  events := rfl
  after := rfl
  ticks := rfl
  takes := Pacer.takes_zero_iff.mpr rfl
  stops := hstops

theorem RunsDue.active (h : s.RunsDue limit pumped) (hne : pumped.outcomes ≠ []) :
    s.sim.Active := by
  by_contra hidle
  have hall := h.outcomes.trans (Simulation.outcomes_idle hidle _)
  have hmem := h.not_idle
  rw [hall, List.mem_replicate] at hmem
  exact hmem ⟨mt List.length_eq_zero_iff.mp hne, rfl⟩

theorem RunsDue.cons {pacer : Pacer} (h : (s.ticked pacer).RunsDue limit pumped)
    (hactive : s.sim.Active) (hpoll : s.pacer.poll s.now = .ok (some pacer)) :
    s.RunsDue (limit + 1) (pumped.cons s.sim.tick) where
  few := Nat.succ_le_succ h.few
  not_idle hmem := by
    rcases List.mem_cons.mp hmem with hfirst | hrest
    · exact hactive.outcome_ne_idle hfirst.symm
    · exact h.not_idle hrest
  goes_on := by
    simp only [Pumped.cons]
    cases hrest : pumped.outcomes with
    | nil => exact fun _ hmem => absurd hmem List.not_mem_nil
    | cons first others =>
      have hnext : s.sim.tick.after.Active := h.active (by simp [hrest])
      refine List.forall_mem_cons.mpr ⟨hactive.goesOn_iff.mpr hnext, ?_⟩
      rw [← hrest]
      exact h.goes_on
  outcomes := congrArg (s.sim.tick.outcome :: ·) h.outcomes
  events := congrArg (s.sim.tick.events ++ ·) h.events
  after := h.after
  ticks := by
    have hticks := h.ticks
    simp only [ticked, Simulation.tick_ticks hactive] at hticks
    simp only [Pumped.cons, List.length_cons, hticks]
    omega
  takes := Pacer.takes_succ_iff.mpr ⟨pacer, hpoll, h.takes⟩
  stops hlt := h.stops (Nat.lt_of_succ_lt_succ hlt)

theorem runsDue_pumpUpTo (h : s.pumpUpTo limit = .ok pumped) : s.RunsDue limit pumped := by
  induction limit generalizing s pumped with
  | zero =>
    cases h
    exact runsDue_nil fun hlt => absurd hlt (Nat.lt_irrefl 0)
  | succ limit ih =>
    by_cases hactive : s.sim.Active
    · cases hpoll : s.pacer.poll s.now with
      | error e =>
        rw [pumpUpTo_failed hactive hpoll] at h
        cases h
      | ok next =>
        cases next with
        | none =>
          rw [pumpUpTo_waiting hactive hpoll] at h
          cases h
          exact runsDue_nil fun _ => .inr hpoll
        | some pacer =>
          rw [pumpUpTo_tick hactive hpoll] at h
          cases hrest : (s.ticked pacer).pumpUpTo limit with
          | error e =>
            rw [hrest] at h
            cases h
          | ok rest =>
            rw [hrest] at h
            cases h
            exact (ih hrest).cons hactive hpoll
    · rw [pumpUpTo_stopped hactive] at h
      cases h
      exact runsDue_nil fun _ => .inl hactive

/-- Within the limit, and before anything else ends the pump, a tick is due such that the next one
has no time. -/
def Overflows (s : Session) (limit : Nat) : Prop :=
  ∃ count pacer, count < limit ∧ s.pacer.Takes s.now count pacer ∧
    (s.sim.afterTicks count).Active ∧ pacer.Outlasts s.now

theorem overflows_succ_iff : s.Overflows (limit + 1) ↔ s.sim.Active ∧
    (s.pacer.Outlasts s.now ∨
      ∃ pacer, s.pacer.poll s.now = .ok (some pacer) ∧ (s.ticked pacer).Overflows limit) := by
  constructor
  · rintro ⟨count, last, hcount, htakes, hactive, hlate⟩
    have hfirst : s.sim.Active := Simulation.active_of_afterTicks (m := 0) (by rwa [Nat.zero_add])
    refine ⟨hfirst, ?_⟩
    cases count with
    | zero =>
      rw [Pacer.takes_zero_iff.mp htakes] at hlate
      exact .inl hlate
    | succ count =>
      obtain ⟨pacer, hfirst, htakes⟩ := Pacer.takes_succ_iff.mp htakes
      exact .inr ⟨pacer, hfirst, count, last, Nat.lt_of_succ_lt_succ hcount, htakes, hactive, hlate⟩
  · rintro ⟨hactive, hlate | ⟨pacer, hfirst, count, last, hcount, htakes, hlast, hlate⟩⟩
    · exact ⟨0, s.pacer, Nat.succ_pos limit, Pacer.takes_zero_iff.mpr rfl, hactive, hlate⟩
    · exact ⟨count + 1, last, Nat.succ_lt_succ hcount,
        Pacer.takes_succ_iff.mpr ⟨pacer, hfirst, htakes⟩, hlast, hlate⟩

theorem pumpUpTo_eq_error_iff : s.pumpUpTo limit = .error .sum ↔ s.Overflows limit := by
  induction limit generalizing s with
  | zero =>
    refine iff_of_false (by simp [pumpUpTo]) ?_
    rintro ⟨count, pacer, hcount, -⟩
    exact absurd hcount (Nat.not_lt_zero count)
  | succ limit ih =>
    rw [overflows_succ_iff, ← Pacer.poll_eq_error_iff]
    by_cases hactive : s.sim.Active
    · cases hpoll : s.pacer.poll s.now with
      | error e => simp [pumpUpTo_failed hactive hpoll, hactive]
      | ok next =>
        cases next with
        | none => simp [pumpUpTo_waiting hactive hpoll]
        | some pacer =>
          rw [pumpUpTo_tick hactive hpoll]
          have hrest := ih (s := s.ticked pacer)
          cases hafter : (s.ticked pacer).pumpUpTo limit <;>
            simpa [hafter, Except.map, hactive] using hrest
    · simp [pumpUpTo_stopped hactive, hactive]

/-- A pump runs exactly the ticks that are due: unless a sum of times is no time, which happens only
with a tick that is due, it gives the outcomes of the ticks it has run, as many as it has taken from
the pacer, and it leaves one that is due only if the limit is reached or the run does not go on. -/
theorem pump_runs_due (s : Session) :
    (s.pump = .error .sum ↔ s.Overflows s.pumpLimit) ∧
      (s.pump = .error .sum ∨ ∃ pumped, s.pump = .ok pumped ∧ s.RunsDue s.pumpLimit pumped) := by
  refine ⟨pumpUpTo_eq_error_iff, ?_⟩
  cases hpump : s.pump with
  | error e =>
    cases e
    exact .inl rfl
  | ok pumped => exact .inr ⟨pumped, rfl, runsDue_pumpUpTo hpump⟩

def lastMoment : Nanos := Nanos.limit - .ofMillis 500

def belated : Session :=
  { sim := Simulation.vacant.begun
    pacer :=
      { timing := {}, lastTick := lastMoment, deadline := some (lastMoment + .ofMillis 400)
        fastSince := lastMoment }
    now := lastMoment + .ofMillis 400 }

/-- The second tick would be due beyond the end of time, so that the first one cannot be run. -/
theorem pump_fails_belated :
    opening .vacant lastMoment = .ok { belated with sim := .vacant, now := lastMoment } ∧
      Call.start.after { belated with sim := .vacant, now := lastMoment } lastMoment =
        some { belated with now := lastMoment } ∧
      belated.pacer.deadline = some belated.now ∧
      belated.pump = .error .sum := by
  refine ⟨?_, ?_, rfl, ?_⟩
  · cbv
  · cbv
  · cbv

end Session
end Lockstep
