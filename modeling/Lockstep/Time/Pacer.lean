import Lockstep.Time.Easing

/-!
When ticks are due. At normal pace they come at equal distances, in a fast forward ever closer
together, and never while paused. The next tick is counted from the one before it and not from when
somebody looked; a change of pace can only bring it nearer.
-/
namespace Lockstep

inductive Pace where
  | normal
  | fastForward
  | paused
  deriving Repr, DecidableEq

structure Pacer where
  timing : Timing
  pace : Pace := .normal
  /-- when the last tick was due, or when counting began -/
  lastTick : Nanos
  deadline : Option Nanos
  fastSince : Nanos
  deriving Repr, DecidableEq

namespace Pacer

def tickDuration (p : Pacer) (time : Nanos) : Option Nanos :=
  match p.pace with
  | .normal => some (Nanos.ofMillis p.timing.tick)
  | .fastForward => some (p.timing.fastDuration (time - p.fastSince))
  | .paused => none

def starting (timing : Timing) (now : Nanos) : Except TimeOverflow Pacer := do
  let due ← now.plus (Nanos.ofMillis timing.tick)
  return { timing, lastTick := now, deadline := some due, fastSince := now }

def enter (p : Pacer) (pace : Pace) (now : Nanos) : Pacer :=
  { p with
    pace := pace
    fastSince := if pace = .fastForward then now else p.fastSince
    lastTick := if p.pace = .paused then now else p.lastTick }

/-- Changes the pace. The tick that was due comes no later than before. -/
def setPace (p : Pacer) (pace : Pace) (now : Nanos) : Except TimeOverflow Pacer :=
  if pace = p.pace then .ok p
  else
    let entered := p.enter pace now
    match entered.tickDuration now with
    | none => .ok { entered with deadline := none }
    | some duration => do
      let due ← entered.lastTick.plus duration
      return { entered with deadline := some ((p.deadline.map (min · due)).getD due) }

def poll (p : Pacer) (now : Nanos) : Except TimeOverflow (Option Pacer) :=
  match p.deadline with
  | none => .ok none
  | some due =>
    if now < due then .ok none
    else
      match p.tickDuration due with
      | none => .ok (some { p with lastTick := due, deadline := none })
      | some duration => do
        let next ← due.plus duration
        return some { p with lastTick := due, deadline := some next }

def pollUpTo (p : Pacer) (now : Nanos) : Nat → Except TimeOverflow (List (Option Nanos) × Pacer)
  | 0 => .ok ([], p)
  | limit + 1 => do
    match ← p.poll now with
    | none => return ([], p)
    | some next =>
      let (deadlines, last) ← next.pollUpTo now limit
      return (next.deadline :: deadlines, last)

end Pacer
end Lockstep
