import Lockstep.Proofs.Pausing

/-!
How long a pacer waits. The next tick is never before the last one and never further from it than a
tick of the pace can be, whatever changes of pace and looks at the clock there have been, at times
that may go back as well. A change of pace brings the tick that was due nearer or leaves it.
-/
namespace Lockstep

namespace Pacer
variable {p q : Pacer} {pace : Pace} {now due duration : Nanos} {timing : Timing}

inductive Reached (timing : Timing) : Pacer → Prop
  | starting {p : Pacer} {now : Nanos} (h : starting timing now = .ok p) : Reached timing p
  | setPace {p q : Pacer} {pace : Pace} {now : Nanos} (h : Reached timing p)
      (hq : p.setPace pace now = .ok q) : Reached timing q
  | poll {p q : Pacer} {now : Nanos} (h : Reached timing p) (hq : p.poll now = .ok (some q)) :
      Reached timing q

def longestTick (timing : Timing) : Pace → Nanos
  | .normal => .ofMillis timing.tick
  | .fastForward => .ofMillis timing.fastStart
  | .paused => 0

/-- The ticks of a fast forward are at their longest when it begins. -/
def Eases (timing : Timing) : Prop :=
  ∀ elapsed, timing.fastDuration elapsed ≤ .ofMillis timing.fastStart

theorem tickDuration_le (heases : Eases p.timing) (h : p.tickDuration now = some duration) :
    duration ≤ longestTick p.timing p.pace := by
  rw [tickDuration] at h
  cases hpace : p.pace with
  | normal =>
    rw [hpace] at h
    cases h
    exact Nat.le_refl _
  | fastForward =>
    rw [hpace] at h
    cases h
    exact heases _
  | paused =>
    rw [hpace] at h
    cases h

/-- A pacer that waits for a tick no earlier than the last one, and no longer than a tick lasts. -/
structure Bounded (timing : Timing) (p : Pacer) : Prop where
  timing_eq : p.timing = timing
  timed : p.Timed
  last_le : ∀ due, p.deadline = some due → p.lastTick ≤ due
  le_longest : ∀ due, p.deadline = some due → due ≤ p.lastTick + longestTick timing p.pace

theorem nextDue_le (p : Pacer) (pace : Pace) (now duration : Nanos) :
    p.nextDue pace now duration ≤ (p.enter pace now).lastTick + duration := by
  rw [nextDue]
  cases p.deadline with
  | none => exact Nat.le_refl _
  | some due => exact Nat.min_le_right _ _

theorem Bounded.last_le_nextDue (h : Bounded timing p) :
    (p.enter pace now).lastTick ≤ p.nextDue pace now duration := by
  by_cases hpaused : p.pace = .paused
  · rw [nextDue_paused h.timed hpaused, enter, if_pos hpaused]
    exact Nat.le_add_right now duration
  · obtain ⟨due, hdue⟩ := h.timed.exists_deadline hpaused
    rw [nextDue_going hdue hpaused, enter, if_neg hpaused]
    exact Nat.le_min.mpr ⟨h.last_le due hdue, Nat.le_add_right _ _⟩

theorem bounded_starting (h : starting timing now = .ok p) : Bounded timing p := by
  have htimed := timed_starting h
  rw [starting_eq_ok h] at htimed ⊢
  refine ⟨rfl, htimed, ?_, ?_⟩
  · rintro due ⟨⟩
    exact Nat.le_add_right _ _
  · rintro due ⟨⟩
    exact Nat.le_refl _

theorem Bounded.repaced (h : Bounded timing p) (heases : Eases timing)
    (hq : Repaced p pace now q) : Bounded timing q := by
  have htimed := hq.timed h.timed
  cases hq with
  | same => exact h
  | paused =>
    refine ⟨h.timing_eq, htimed, ?_, ?_⟩
    · rintro due ⟨⟩
    · rintro due ⟨⟩
  | @going duration _ _ hduration =>
    have hentered : (p.enter pace now).timing = timing := h.timing_eq
    have hle : duration ≤ longestTick timing pace := by
      rw [← hentered] at heases ⊢
      exact tickDuration_le heases hduration
    refine ⟨h.timing_eq, htimed, ?_, ?_⟩
    · rintro due ⟨⟩
      exact h.last_le_nextDue
    · rintro due ⟨⟩
      exact (p.nextDue_le pace now duration).trans (Nat.add_le_add_left hle _)

theorem Bounded.polled (h : Bounded timing p) (heases : Eases timing)
    (hq : Polled p now (some q)) : Bounded timing q := by
  have htimed := hq.timed h.timed
  cases hq with
  | @ticked due hdue hnow =>
    rw [← h.timing_eq] at heases
    refine ⟨h.timing_eq, htimed, ?_, ?_⟩
    · intro next hnext
      obtain ⟨duration, -, rfl⟩ := Option.map_eq_some_iff.mp hnext
      exact Nat.le_add_right due duration
    · intro next hnext
      obtain ⟨duration, hduration, rfl⟩ := Option.map_eq_some_iff.mp hnext
      have hle := tickDuration_le heases hduration
      rw [h.timing_eq] at hle
      exact Nat.add_le_add_left hle due

theorem Reached.bounded (h : Reached timing p) (heases : Eases timing) : Bounded timing p := by
  induction h with
  | starting h => exact bounded_starting h
  | setPace _ hq ih => exact ih.repaced heases (Pacer.repaced hq)
  | poll _ hq ih => exact ih.polled heases (Pacer.polled hq)

theorem Repaced.sooner (h : Repaced p pace now q) (hp : p.Timed) (hdue : p.deadline = some due)
    (hpace : pace ≠ .paused) : ∃ next, q.deadline = some next ∧ next ≤ due := by
  cases h with
  | same => exact ⟨due, hdue, Nat.le_refl due⟩
  | paused _ hpaused => exact absurd hpaused hpace
  | going =>
    refine ⟨_, rfl, ?_⟩
    rw [nextDue_going hdue (hp.not_paused hdue)]
    exact Nat.min_le_left _ _

/-- Waits stay bounded, and a change of pace never lengthens them: whatever was done to a pacer and
whenever, it waits for a tick unless it is paused, no earlier than the last one and no later than
the longest tick of its pace after it; and at another pace it waits no longer than before. -/
theorem waits_bounded (heases : Eases timing) (h : Reached timing p) :
    (p.deadline = none ↔ p.pace = .paused) ∧
      ∀ due, p.deadline = some due →
        p.lastTick ≤ due ∧
        (p.pace = .normal → due ≤ p.lastTick + Nanos.ofMillis timing.tick) ∧
        (p.pace = .fastForward → due ≤ p.lastTick + Nanos.ofMillis timing.fastStart) ∧
        ∀ pace now q, pace ≠ .paused → p.setPace pace now = .ok q →
          q.pace = pace ∧ ∃ next, q.deadline = some next ∧ next ≤ due := by
  have hbounded := h.bounded heases
  refine ⟨hbounded.timed, fun due hdue => ⟨hbounded.last_le due hdue, ?_, ?_, ?_⟩⟩
  · intro hpace
    have hle := hbounded.le_longest due hdue
    rwa [hpace] at hle
  · intro hpace
    have hle := hbounded.le_longest due hdue
    rwa [hpace] at hle
  · intro pace now q hpace hq
    have hrepaced := Pacer.repaced hq
    exact ⟨hrepaced.pace_eq, hrepaced.sooner hbounded.timed hdue hpace⟩

def abrupt : Timing := { fastRamp := 0 }

theorem eases_abrupt : Eases abrupt := by
  intro elapsed
  have hshare : remainingShare elapsed (.ofMillis abrupt.fastRamp) =
      remainingShare 0 (.ofMillis abrupt.fastRamp) := by
    simp only [remainingShare, abrupt, Nanos.ofMillis, Nat.zero_mul, if_pos]
  rw [Timing.fastDuration, hshare]
  decide +kernel

/-- Set to a fast forward at 100 ms and looked at then, which takes a tick that was due at 4 ms, and
set back to the normal pace by a clock that says 50 ms. -/
def wavering : Pacer :=
  { timing := abrupt, lastTick := .ofMillis 4, deadline := some (.ofMillis 8)
    fastSince := .ofMillis 100 }

theorem reached_wavering : Reached abrupt wavering := by
  have hstart : starting abrupt 0 = .ok
      { timing := abrupt, lastTick := 0, deadline := some (.ofMillis 400), fastSince := 0 } := by
    decide +kernel
  have hfast : setPace
      { timing := abrupt, lastTick := 0, deadline := some (.ofMillis 400), fastSince := 0 }
      .fastForward (.ofMillis 100) = .ok
      { timing := abrupt, pace := .fastForward, lastTick := 0, deadline := some (.ofMillis 4)
        fastSince := .ofMillis 100 } := by
    decide +kernel
  have hpoll : poll
      { timing := abrupt, pace := .fastForward, lastTick := 0, deadline := some (.ofMillis 4)
        fastSince := .ofMillis 100 } (.ofMillis 100) =
      .ok (some { wavering with pace := .fastForward }) := by
    decide +kernel
  have hback : setPace { wavering with pace := .fastForward } .normal (.ofMillis 50) =
      .ok wavering := by
    decide +kernel
  exact (((Reached.starting hstart).setPace hfast).poll hpoll).setPace hback

theorem waits_bounded_wavering :
    Reached abrupt wavering ∧ wavering.lastTick ≤ .ofMillis 8 ∧
      Nanos.ofMillis 8 ≤ wavering.lastTick + .ofMillis 400 ∧
      ∃ q next, wavering.setPace .fastForward (.ofMillis 60) = .ok q ∧
        q.pace = .fastForward ∧ q.deadline = some next ∧ next ≤ .ofMillis 8 := by
  obtain ⟨q, hq⟩ : ∃ q, wavering.setPace .fastForward (.ofMillis 60) = .ok q :=
    ⟨{ wavering with pace := .fastForward, fastSince := .ofMillis 60 }, by decide +kernel⟩
  obtain ⟨-, hwaits⟩ := waits_bounded eases_abrupt reached_wavering
  obtain ⟨hlast, hnormal, -, hpaces⟩ := hwaits (.ofMillis 8) rfl
  obtain ⟨hpace, next, hnext, hle⟩ := hpaces .fastForward (.ofMillis 60) q Pace.noConfusion hq
  exact ⟨reached_wavering, hlast, hnormal rfl, q, next, hq, hpace, hnext, hle⟩

end Pacer
end Lockstep
