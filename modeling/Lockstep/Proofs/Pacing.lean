import Lockstep.Proofs.Operations
import Lockstep.Proofs.ProgramCode
import Lockstep.Session

/-!
What can be done to a session, as data: `Call` lists the calls, `Called` what each of them can do,
and `Leads` the sessions that calls lead to while the clock goes on. A pump is told tick by tick,
each with the time at which it was due.
-/
namespace Lockstep

namespace Pacer

/-- The tick that a pacer waits for once it has entered a pace. One that was due before stays so. -/
def nextDue (p : Pacer) (pace : Pace) (now duration : Nanos) : Nanos :=
  (p.deadline.map (min · ((p.enter pace now).lastTick + duration))).getD
    ((p.enter pace now).lastTick + duration)

inductive Repaced (p : Pacer) (pace : Pace) (now : Nanos) : Pacer → Prop
  | same (h : pace = p.pace) : Repaced p pace now p
  | paused (h : pace ≠ p.pace) (hpace : pace = .paused) :
      Repaced p pace now { p.enter pace now with deadline := none }
  | going {duration : Nanos} (h : pace ≠ p.pace) (hpace : pace ≠ .paused)
      (hd : (p.enter pace now).tickDuration now = some duration) :
      Repaced p pace now
        { p.enter pace now with deadline := some (p.nextDue pace now duration) }

inductive Polled (p : Pacer) (now : Nanos) : Option Pacer → Prop
  | waiting (h : ∀ due ∈ p.deadline, now < due) : Polled p now none
  | ticked {due : Nanos} (hdue : p.deadline = some due) (hnow : due ≤ now) :
      Polled p now (some { p with lastTick := due, deadline := (p.tickDuration due).map (due + ·) })

theorem tickDuration_eq_none_iff {p : Pacer} {time : Nanos} :
    p.tickDuration time = none ↔ p.pace = .paused := by
  rw [tickDuration]
  cases p.pace <;> simp

theorem plus_eq_ok {a b c : Nanos} (h : a.plus b = .ok c) : c = a + b := by
  rw [Nanos.plus] at h
  split_ifs at h
  exact (Except.ok.inj h).symm

theorem repaced {p q : Pacer} {pace : Pace} {now : Nanos} (h : p.setPace pace now = .ok q) :
    Repaced p pace now q := by
  rw [setPace] at h
  split_ifs at h with hpace
  · cases h
    exact .same hpace
  · simp only at h
    split at h
    · rename_i hd
      cases h
      exact .paused hpace (tickDuration_eq_none_iff.mp hd)
    · rename_i duration hd
      obtain ⟨due, hdue, h⟩ := bind_eq_ok h
      cases h
      rw [plus_eq_ok hdue]
      refine .going hpace ?_ hd
      intro hpaused
      rw [tickDuration_eq_none_iff.mpr hpaused] at hd
      cases hd

theorem polled {p : Pacer} {now : Nanos} {next : Option Pacer} (h : p.poll now = .ok next) :
    Polled p now next := by
  rw [poll] at h
  split at h
  · rename_i hnone
    cases h
    exact .waiting fun due hdue => by cases hnone.symm.trans hdue
  · rename_i due hdue
    split_ifs at h with hnow
    · cases h
      refine .waiting fun other hother => ?_
      cases hdue.symm.trans hother
      exact hnow
    · have hticked := Polled.ticked hdue (Nat.not_lt.mp hnow)
      split at h
      · rename_i hd
        cases h
        rwa [hd] at hticked
      · rename_i duration hd
        obtain ⟨due', hdue', h⟩ := bind_eq_ok h
        cases h
        rw [plus_eq_ok hdue']
        rwa [hd] at hticked

theorem starting_eq_ok {timing : Timing} {now : Nanos} {p : Pacer}
    (h : starting timing now = .ok p) :
    p = { timing, lastTick := now, deadline := some (now + Nanos.ofMillis timing.tick)
          fastSince := now } := by
  obtain ⟨due, hdue, h⟩ := bind_eq_ok h
  cases h
  rw [plus_eq_ok hdue]

end Pacer

namespace Session

inductive Ticks : Session → List Nanos → Session → Prop
  | done (s : Session) : Ticks s [] s
  | tick {s after : Session} {due : Nanos} {dues : List Nanos} {pacer : Pacer}
      (hactive : s.sim.Active) (hdue : s.pacer.deadline = some due) (hnow : due ≤ s.now)
      (hpoll : s.pacer.poll s.now = .ok (some pacer))
      (hrest : Ticks { s with sim := s.sim.tick.after, pacer := pacer } dues after) :
      Ticks s (due :: dues) after

theorem ticks_pumpUpTo {s : Session} {limit : Nat} {pumped : Pumped}
    (h : s.pumpUpTo limit = .ok pumped) :
    ∃ dues, s.Ticks dues pumped.after ∧ dues.length = pumped.outcomes.length := by
  induction limit generalizing s pumped with
  | zero =>
    cases h
    exact ⟨[], .done s, rfl⟩
  | succ limit ih =>
    rw [pumpUpTo] at h
    split_ifs at h with hactive
    · obtain ⟨next, hpoll, h⟩ := bind_eq_ok h
      cases Pacer.polled hpoll with
      | waiting =>
        cases h
        exact ⟨[], .done s, rfl⟩
      | ticked hdue hnow =>
        simp only at h
        split_ifs at h with hgoes
        · obtain ⟨rest, hrest, h⟩ := bind_eq_ok h
          cases h
          obtain ⟨dues, hticks, hlength⟩ := ih hrest
          exact ⟨_, .tick hactive hdue hnow hpoll hticks, congrArg (· + 1) hlength⟩
        · cases h
          exact ⟨_, .tick hactive hdue hnow hpoll (.done _), rfl⟩
    · cases h
      exact ⟨[], .done s, rfl⟩

inductive Call where
  | start
  | pause
  | resume (pace : Pace)
  | setPace (pace : Pace)
  | stop
  | pump
  deriving Repr, DecidableEq

def Call.perform (s : Session) : Call → Except SessionError Session
  | start => s.start
  | pause => s.pause
  | resume pace => s.resume pace
  | setPace pace => timed (s.setPace pace)
  | stop => .ok s.stop
  | pump => timed (s.pump.map (·.after))

/-- The session after a call at a time. One that is refused changes nothing but the time; where a
sum of times is no time there is nothing after it. -/
def Call.after (s : Session) (now : Nanos) (call : Call) : Option Session :=
  match call.perform (s.setClock now) with
  | .ok after => some after
  | .error (.refused _) => some (s.setClock now)
  | .error (.time _) => none

inductive Called (s : Session) : Call → Session → Prop
  | refused (call : Call) : Called s call s
  | started {pacer : Pacer} (hmode : s.sim.mode = .edit)
      (h : Pacer.starting s.sim.begun.settings.timing s.now = .ok pacer) :
      Called s .start { s with sim := s.sim.begun, pacer := pacer }
  | paused {pacer : Pacer} (hmode : s.sim.mode = .running)
      (h : s.pacer.setPace .paused s.now = .ok pacer) :
      Called s .pause { s with sim := { s.sim with mode := .paused }, pacer := pacer }
  | resumed {pacer : Pacer} {pace : Pace} (hmode : s.sim.mode = .paused)
      (h : s.pacer.setPace pace s.now = .ok pacer) :
      Called s (.resume pace) { s with sim := { s.sim with mode := .running }, pacer := pacer }
  | paced {pacer : Pacer} {pace : Pace} (h : s.pacer.setPace pace s.now = .ok pacer) :
      Called s (.setPace pace) { s with pacer := pacer }
  | stopped : Called s .stop s.stop
  | pumped {after : Session} {dues : List Nanos} (h : s.Ticks dues after) : Called s .pump after

theorem mapError_eq_ok {ε δ α : Type} {f : ε → δ} {r : Except ε α} {a : α}
    (h : r.mapError f = .ok a) : r = .ok a := by
  cases r with
  | error e => cases h
  | ok b => exact congrArg Except.ok (Except.ok.inj h)

theorem setPace_eq_ok {s t : Session} {pace : Pace} (h : s.setPace pace = .ok t) :
    ∃ pacer, s.pacer.setPace pace s.now = .ok pacer ∧ t = { s with pacer := pacer } := by
  obtain ⟨pacer, hpacer, h⟩ := bind_eq_ok h
  exact ⟨pacer, hpacer, (Except.ok.inj h).symm⟩

theorem resume_eq_ok {s t : Session} {pace : Pace} (h : s.resume pace = .ok t) :
    s.sim.mode = .paused ∧ ∃ pacer, s.pacer.setPace pace s.now = .ok pacer ∧
      t = { s with sim := { s.sim with mode := .running }, pacer := pacer } := by
  obtain ⟨sim, hsim, h⟩ := bind_eq_ok h
  obtain ⟨hmode, rfl⟩ := Simulation.transition_eq_ok (mapError_eq_ok hsim)
  obtain ⟨pacer, hpacer, rfl⟩ := setPace_eq_ok (mapError_eq_ok h)
  exact ⟨hmode, pacer, hpacer, rfl⟩

theorem called_of_perform {s t : Session} {call : Call} (h : call.perform s = .ok t) :
    Called s call t := by
  cases call with
  | start =>
    obtain ⟨sim, hsim, h⟩ := bind_eq_ok h
    obtain ⟨pacer, hpacer, h⟩ := bind_eq_ok h
    obtain ⟨hmode, -, rfl⟩ := Simulation.start_eq_ok (mapError_eq_ok hsim)
    cases h
    exact .started hmode (mapError_eq_ok hpacer)
  | pause =>
    obtain ⟨sim, hsim, h⟩ := bind_eq_ok h
    obtain ⟨hmode, rfl⟩ := Simulation.transition_eq_ok (mapError_eq_ok hsim)
    obtain ⟨pacer, hpacer, rfl⟩ := setPace_eq_ok (mapError_eq_ok h)
    exact .paused hmode hpacer
  | resume pace =>
    obtain ⟨hmode, pacer, hpacer, rfl⟩ := resume_eq_ok h
    exact .resumed hmode hpacer
  | setPace pace =>
    obtain ⟨pacer, hpacer, rfl⟩ := setPace_eq_ok (mapError_eq_ok h)
    exact .paced hpacer
  | stop =>
    cases h
    exact .stopped
  | pump =>
    have hpump := mapError_eq_ok h
    cases hp : s.pump with
    | error e =>
      rw [hp] at hpump
      cases hpump
    | ok pumped =>
      rw [hp] at hpump
      cases hpump
      obtain ⟨dues, hticks, -⟩ := ticks_pumpUpTo hp
      exact .pumped hticks

theorem called {s t : Session} {now : Nanos} {call : Call} (h : call.after s now = some t) :
    Called (s.setClock now) call t := by
  rw [Call.after] at h
  split at h
  · rename_i hperform
    cases h
    exact called_of_perform hperform
  · cases h
    exact .refused call
  · cases h

/-- The sessions that calls lead to, at times that never go back. Each call is one of those that are
made there. -/
inductive Leads (made : Session → Call → Prop) (s : Session) : Session → Prop
  | refl : Leads made s s
  | call {t u : Session} {now : Nanos} {call : Call} (h : Leads made s t) (hnow : t.now ≤ now)
      (hmade : made t call) (hu : call.after t now = some u) : Leads made s u

def anyCall (_ : Session) (_ : Call) : Prop := True

theorem Leads.keeps {made : Session → Call → Prop} {P : Session → Prop} {s t : Session}
    (h : Leads made s t) (hs : P s)
    (hstep : ∀ {t u : Session} {now : Nanos} {call : Call}, t.now ≤ now → made t call →
      Called (t.setClock now) call u → P t → P u) : P t := by
  induction h with
  | refl => exact hs
  | call _ hnow hmade hu ih => exact hstep hnow hmade (called hu) ih

end Session
end Lockstep
