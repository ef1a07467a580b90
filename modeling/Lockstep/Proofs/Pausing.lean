import Lockstep.Proofs.Invariants
import Lockstep.Proofs.Pacing

/-!
Time that passes in a pause. A pacer that is paused waits for nothing, and counts from the time when
it is set going again. It is paused together with its simulation, but a pace can be set while the
simulation is paused; from then on the pacer counts, and a tick of its can be overdue when the
simulation goes on. That is the only way in which a pause brings about ticks.
-/
namespace Lockstep

namespace Pacer
variable {p q : Pacer} {pace : Pace} {now start : Nanos}

def Timed (p : Pacer) : Prop := p.deadline = none ↔ p.pace = .paused

def DueFrom (p : Pacer) (now : Nanos) : Prop := ∃ due, p.deadline = some due ∧ now ≤ due

/-- The pacer has been counting, and its tick is past, by its own pace or by the one it is given. -/
def Overdue (p : Pacer) (pace : Pace) (now : Nanos) : Prop :=
  ∃ due, p.deadline = some due ∧
    (due < now ∨ pace ≠ p.pace ∧ ∃ duration,
      (p.enter pace now).tickDuration now = some duration ∧ p.lastTick + duration < now)

theorem Repaced.pace_eq (h : Repaced p pace now q) : q.pace = pace := by
  cases h with
  | same h => exact h.symm
  | paused => rfl
  | going => rfl

theorem Repaced.timed (h : Repaced p pace now q) (hp : p.Timed) : q.Timed := by
  cases h with
  | same => exact hp
  | paused _ hpace => exact iff_of_true rfl hpace
  | going _ hpace => exact iff_of_false (Option.some_ne_none _) hpace

theorem Timed.exists_deadline (h : p.Timed) (hgoing : p.pace ≠ .paused) :
    ∃ due, p.deadline = some due :=
  Option.ne_none_iff_exists'.mp (mt h.mp hgoing)

theorem Timed.not_paused {due : Nanos} (h : p.Timed) (hdue : p.deadline = some due) :
    p.pace ≠ .paused := by
  intro hpaused
  rw [h.mpr hpaused] at hdue
  cases hdue

theorem Polled.timed (h : Polled p now (some q)) (hp : p.Timed) : q.Timed := by
  cases h with
  | @ticked due hdue hnow =>
    have hgoing := hp.not_paused hdue
    refine iff_of_false ?_ hgoing
    rw [Option.map_eq_none_iff, tickDuration_eq_none_iff]
    exact hgoing

theorem timed_starting {timing : Timing} (h : starting timing now = .ok p) : p.Timed := by
  rw [starting_eq_ok h]
  exact iff_of_false (Option.some_ne_none _) Pace.noConfusion

theorem nextDue_paused (hp : p.Timed) (hpaused : p.pace = .paused) (duration : Nanos) :
    p.nextDue pace now duration = now + duration := by
  rw [nextDue, hp.mpr hpaused, enter, if_pos hpaused]
  rfl

theorem nextDue_going {due : Nanos} (hdue : p.deadline = some due) (hgoing : p.pace ≠ .paused)
    (duration : Nanos) : p.nextDue pace now duration = min due (p.lastTick + duration) := by
  rw [nextDue, hdue, enter, if_neg hgoing]
  rfl

theorem Repaced.dueFrom_iff (h : Repaced p pace now q) (hp : p.Timed) (hpace : pace ≠ .paused) :
    q.DueFrom now ↔ ¬p.Overdue pace now := by
  cases h with
  | same hsame =>
    obtain ⟨due, hdue⟩ := hp.exists_deadline (hsame ▸ hpace)
    simp only [DueFrom, Overdue, hdue, hsame, Option.some.injEq, exists_eq_left', ne_eq,
      not_true_eq_false, false_and, or_false, Nat.not_lt]
  | paused _ hpaused => exact absurd hpaused hpace
  | @going duration hne _ hd =>
    by_cases hpaused : p.pace = .paused
    · have hnone := hp.mpr hpaused
      simp only [DueFrom, Overdue, hnone, nextDue_paused hp hpaused, Option.some.injEq,
        exists_eq_left', reduceCtorEq, false_and, exists_false, not_false_eq_true, iff_true]
      exact Nat.le_add_right now duration
    · obtain ⟨due, hdue⟩ := hp.exists_deadline hpaused
      simp only [DueFrom, Overdue, hdue, hd, nextDue_going hdue hpaused, Option.some.injEq,
        exists_eq_left', ne_eq, hne, not_false_eq_true, true_and, not_or, Nat.not_lt]
      exact Nat.le_min

/-- No tick that is still to come is due before the time. -/
structure CountsFrom (p : Pacer) (start : Nanos) : Prop where
  last : start ≤ p.lastTick
  next : ∀ due, p.deadline = some due → start ≤ due

theorem countsFrom_starting {timing : Timing} (h : starting timing now = .ok p)
    (hnow : start ≤ now) : p.CountsFrom start := by
  rw [starting_eq_ok h]
  refine ⟨hnow, fun due hdue => ?_⟩
  cases hdue
  exact Nat.le_add_right_of_le hnow

theorem Repaced.countsFrom (h : Repaced p pace now q) (hnow : start ≤ now)
    (hp : p.CountsFrom start) : q.CountsFrom start := by
  have hlast : start ≤ (p.enter pace now).lastTick := by
    simp only [enter]
    split_ifs
    · exact hnow
    · exact hp.last
  cases h with
  | same => exact hp
  | paused =>
    refine ⟨hlast, fun due hdue => ?_⟩
    cases hdue
  | @going duration =>
    refine ⟨hlast, fun due hdue => ?_⟩
    cases hdue
    rw [nextDue]
    cases hold : p.deadline with
    | none => exact Nat.le_add_right_of_le hlast
    | some due => exact Nat.le_min.mpr ⟨hp.next due hold, Nat.le_add_right_of_le hlast⟩

theorem Polled.countsFrom (h : Polled p now (some q)) (hp : p.CountsFrom start) :
    q.CountsFrom start := by
  cases h with
  | @ticked due hdue hnow =>
    have hstart := hp.next due hdue
    refine ⟨hstart, fun next hnext => ?_⟩
    obtain ⟨duration, -, rfl⟩ := Option.map_eq_some_iff.mp hnext
    exact Nat.le_add_right_of_le hstart

theorem Repaced.countsFrom_now (h : Repaced p pace now q) (hp : p.Timed)
    (hpaused : p.pace = .paused) (hpace : pace ≠ .paused) : q.CountsFrom now := by
  cases h with
  | same hsame => exact absurd (hsame.trans hpaused) hpace
  | paused _ hstill => exact absurd hstill hpace
  | @going duration =>
    refine ⟨?_, fun due hdue => ?_⟩
    · simp only [enter, if_pos hpaused, le_refl]
    · cases hdue
      rw [nextDue_paused hp hpaused]
      exact Nat.le_add_right now duration

end Pacer

namespace Simulation

theorem Active.tick_not_paused {sim : Simulation} (h : sim.Active) :
    sim.tick.after.mode ≠ .paused := by
  have hmode : sim.mode ≠ .paused := by
    rw [h.1]
    exact Mode.noConfusion
  have ht := sim.tick_ticked
  generalize sim.tick = t at ht
  cases ht with
  | won => exact Mode.noConfusion
  | idle => exact hmode
  | halted => exact hmode
  | advanced => exact hmode
  | setPassed => exact hmode

end Simulation

namespace Session
variable {s t : Session} {now start : Nanos} {dues : List Nanos}

theorem Ticks.timed (h : Ticks s dues t) (hs : s.pacer.Timed) : t.pacer.Timed := by
  induction h with
  | done => exact hs
  | tick _ _ _ hpoll _ ih => exact ih ((Pacer.polled hpoll).timed hs)

theorem Ticks.now_eq (h : Ticks s dues t) : t.now = s.now := by
  induction h with
  | done => rfl
  | tick _ _ _ _ _ ih => exact ih

theorem Ticks.dues_from (h : Ticks s dues t) (hs : s.pacer.CountsFrom start) :
    (∀ due ∈ dues, start ≤ due) ∧ t.pacer.CountsFrom start := by
  induction h with
  | done => exact ⟨fun due hdue => absurd hdue List.not_mem_nil, hs⟩
  | tick _ hdue _ hpoll _ ih =>
    obtain ⟨hrest, hafter⟩ := ih ((Pacer.polled hpoll).countsFrom hs)
    exact ⟨List.forall_mem_cons.mpr ⟨hs.next _ hdue, hrest⟩, hafter⟩

theorem Ticks.eq_of_paused (h : Ticks s dues t) (ht : t.sim.mode = .paused) : t = s := by
  induction h with
  | done => rfl
  | tick hactive _ _ _ _ ih =>
    have hmode := congrArg (fun u : Session => u.sim.mode) (ih ht)
    exact absurd (hmode.symm.trans ht) hactive.tick_not_paused

/-! What calls keep. -/

theorem Leads.timed {made : Session → Call → Prop} (h : Leads made s t) (hs : s.pacer.Timed) :
    t.pacer.Timed := by
  refine h.keeps (P := fun s => s.pacer.Timed) hs ?_
  intro t u now call _ _ hcalled ht
  cases hcalled with
  | refused => exact ht
  | started _ h => exact Pacer.timed_starting h
  | paused _ h => exact (Pacer.repaced h).timed ht
  | resumed _ h => exact (Pacer.repaced h).timed ht
  | paced h => exact (Pacer.repaced h).timed ht
  | stopped => exact ht
  | pumped h => exact h.timed ht

theorem Leads.countsFrom {made : Session → Call → Prop} (h : Leads made s t)
    (hs : s.pacer.CountsFrom start) (hstart : start ≤ s.now) :
    t.pacer.CountsFrom start ∧ start ≤ t.now := by
  refine h.keeps (P := fun s => s.pacer.CountsFrom start ∧ start ≤ s.now) ⟨hs, hstart⟩ ?_
  intro t u now call hnow _ hcalled ht
  have hclock : start ≤ now := ht.2.trans hnow
  cases hcalled with
  | refused => exact ⟨ht.1, hclock⟩
  | started _ h => exact ⟨Pacer.countsFrom_starting h hclock, hclock⟩
  | paused _ h => exact ⟨(Pacer.repaced h).countsFrom hclock ht.1, hclock⟩
  | resumed _ h => exact ⟨(Pacer.repaced h).countsFrom hclock ht.1, hclock⟩
  | paced h => exact ⟨(Pacer.repaced h).countsFrom hclock ht.1, hclock⟩
  | stopped => exact ⟨ht.1, hclock⟩
  | pumped h => exact ⟨(h.dues_from ht.1).2, h.now_eq ▸ hclock⟩

def heedsPause (s : Session) (call : Call) : Prop :=
  s.sim.mode = .paused → ∀ pace, call = .setPace pace → pace = .paused

theorem Leads.paused_together (h : Leads heedsPause s t) (hs : s.sim.mode ≠ .paused)
    (ht : t.sim.mode = .paused) : t.pacer.pace = .paused := by
  refine h.keeps (P := fun s => s.sim.mode = .paused → s.pacer.pace = .paused)
    (fun hpaused => absurd hpaused hs) ?_ ht
  intro t u now call _ hheeds hcalled ht hu
  cases hcalled with
  | refused => exact ht hu
  | started => cases hu
  | paused _ h => exact (Pacer.repaced h).pace_eq
  | resumed => cases hu
  | @paced pacer pace h => exact (Pacer.repaced h).pace_eq.trans (hheeds hu pace rfl)
  | stopped => cases hu
  | pumped h =>
    obtain rfl := h.eq_of_paused hu
    exact ht hu

theorem Leads.anyway {made : Session → Call → Prop} (h : Leads made s t) : Leads anyCall s t := by
  induction h with
  | refl => exact .refl
  | call _ hnow _ hu ih => exact .call ih hnow trivial hu

/-- A tick after a pause is due after it. Whatever calls went before, the tick that a resumed
session waits for is not past exactly if the pacer had none overdue; and it had none, nor will a
later pump run a tick that was due in the pause, if no pace was set while the simulation was
paused. -/
theorem resume_not_overdue {sim : Simulation} {opened s resumed : Session} {began now : Nanos}
    {pace : Pace} (limit : Nat) (hopen : opening sim began = .ok opened)
    (hs : Leads anyCall { opened with pumpLimit := limit } s) (hpace : pace ≠ .paused)
    (hresume : (s.setClock now).resume pace = .ok resumed) :
    (resumed.pacer.DueFrom now ↔ ¬s.pacer.Overdue pace now) ∧
    (sim.mode ≠ .paused → Leads heedsPause { opened with pumpLimit := limit } s →
      resumed.pacer.DueFrom now ∧
      ∀ {later : Session} {time : Nanos} {pumped : Pumped}, Leads anyCall resumed later →
        later.now ≤ time → (later.setClock time).pump = .ok pumped →
        ∃ dues, (later.setClock time).Ticks dues pumped.after ∧
          dues.length = pumped.outcomes.length ∧ ∀ due ∈ dues, now ≤ due) := by
  obtain ⟨pacer, hstarting, hopen⟩ := bind_eq_ok hopen
  cases hopen
  obtain ⟨hmode, pacer', hset, rfl⟩ := resume_eq_ok hresume
  have hrepaced : s.pacer.Repaced pace now pacer' := Pacer.repaced hset
  have htimed : s.pacer.Timed := hs.timed (Pacer.timed_starting hstarting)
  have hdue := hrepaced.dueFrom_iff htimed hpace
  refine ⟨hdue, fun hsim hheeds => ?_⟩
  have hpaused : s.pacer.pace = .paused := hheeds.paused_together hsim hmode
  have hcounts : pacer'.CountsFrom now := hrepaced.countsFrom_now htimed hpaused hpace
  constructor
  · rw [hdue]
    rintro ⟨due, hsome, -⟩
    rw [htimed.mpr hpaused] at hsome
    cases hsome
  · intro later time pumped hlater _ hpump
    obtain ⟨dues, hticks, hlength⟩ := ticks_pumpUpTo hpump
    have hlast := (hlater.countsFrom hcounts le_rfl).1
    exact ⟨dues, hticks, hlength, (hticks.dues_from hlast).1⟩

def fresh : Session :=
  { sim := .vacant
    pacer := { timing := {}, lastTick := 0, deadline := some (.ofMillis 400), fastSince := 0 }
    now := 0 }

theorem opening_fresh : opening .vacant 0 = .ok fresh := by
  cbv

theorem start_fresh :
    Call.start.after fresh 0 = some { fresh with sim := Simulation.vacant.begun } := by
  cbv

def resting : Session :=
  { fresh with
    sim := { Simulation.vacant.begun with mode := .paused }
    pacer := { fresh.pacer with pace := .paused, deadline := none }
    now := .ofMillis 100 }

theorem leads_resting : Leads heedsPause fresh resting := by
  have hpause : Call.pause.after { fresh with sim := Simulation.vacant.begun } (.ofMillis 100) =
      some resting := by
    cbv
  have hstarted : Leads heedsPause fresh { fresh with sim := Simulation.vacant.begun } :=
    .call .refl le_rfl (fun _ _ h => Call.noConfusion h) start_fresh
  exact hstarted.call (Nat.zero_le _) (fun _ _ h => Call.noConfusion h) hpause

def waking : Session :=
  { fresh with
    sim := Simulation.vacant.begun
    pacer := { fresh.pacer with lastTick := .ofMillis 10000, deadline := some (.ofMillis 10400) }
    now := .ofMillis 10000 }

theorem resume_not_overdue_resting :
    (resting.setClock (.ofMillis 10000)).resume .normal = .ok waking ∧
      waking.pacer.DueFrom (.ofMillis 10000) ∧
      ∃ pumped, (waking.setClock (.ofMillis 12000)).pump = .ok pumped ∧
        ∃ dues, (waking.setClock (.ofMillis 12000)).Ticks dues pumped.after ∧
          dues.length = 5 ∧ ∀ due ∈ dues, .ofMillis 10000 ≤ due := by
  have hresume : (resting.setClock (.ofMillis 10000)).resume .normal = .ok waking := by
    cbv
  obtain ⟨pumped, hpump, hcount⟩ : ∃ pumped,
      (waking.setClock (.ofMillis 12000)).pump = .ok pumped ∧ pumped.outcomes.length = 5 :=
    ⟨_, rfl, rfl⟩
  have hmode : Simulation.vacant.mode ≠ .paused := Mode.noConfusion
  obtain ⟨hdue, hlater⟩ := (resume_not_overdue 64 opening_fresh leads_resting.anyway
    Pace.noConfusion hresume).2 hmode leads_resting
  obtain ⟨dues, hticks, hlength, hdues⟩ := hlater .refl (by decide) hpump
  exact ⟨hresume, hdue, pumped, hpump, dues, hticks, hlength.trans hcount, hdues⟩

/-- Started, paused at once, and set to the normal pace. -/
def restless : Session :=
  { fresh with sim := { Simulation.vacant.begun with mode := .paused } }

theorem leads_restless : Leads anyCall fresh restless := by
  have hpause : Call.pause.after { fresh with sim := Simulation.vacant.begun } 0 =
      some { resting with now := 0 } := by
    cbv
  have hpace : (Call.setPace .normal).after { resting with now := 0 } 0 = some restless := by
    cbv
  have hstarted : Leads anyCall fresh { fresh with sim := Simulation.vacant.begun } :=
    .call .refl le_rfl trivial start_fresh
  exact (hstarted.call le_rfl trivial hpause).call le_rfl trivial hpace

/-- Ten seconds later it goes on, and runs the ticks of ten seconds at once. -/
theorem pause_ticks_restless :
    opening .vacant 0 = .ok fresh ∧ Leads anyCall fresh restless ∧
      ∃ resumed pumped, (restless.setClock (.ofMillis 10000)).resume .normal = .ok resumed ∧
        resumed.pacer.deadline = some (.ofMillis 400) ∧
        resumed.pump = .ok pumped ∧ pumped.outcomes.length = 25 :=
  ⟨opening_fresh, leads_restless, _, _, rfl, rfl, rfl, rfl⟩

end Session
end Lockstep
