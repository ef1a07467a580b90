import Lockstep.Settings
import Lockstep.Time.Nanos

/-!
How long a tick is during a fast forward. It shrinks from `fastStart` to `fastLeast`, first quickly
and then slowly: after a share `t` of the ramp, `t * (2 - t)` of the way is done. The share and the
part of the way left are binary64 numbers; the duration that comes of them is rounded to the nearest
nanosecond, and half a nanosecond to the even one.
-/
namespace Lockstep

namespace Nanos

/-- The time in seconds: whole seconds and the rest are rounded each, then added. -/
def toFloat (t : Nanos) : Float :=
  t.seconds.toUInt64.toFloat + t.subsecond.toUInt64.toFloat / 1e9

end Nanos

/-- The integer nearest to a quotient, and of two the even one. -/
def roundedQuotient (num den : Nat) : Nat :=
  let q := num / den
  match compare (2 * (num % den)) den with
  | .lt => q
  | .gt => q + 1
  | .eq => q + q % 2

/-- The seconds that a finite, not negative number stands for, to the nearest nanosecond. -/
def Nanos.ofFloat (x : Float) : Nanos :=
  let bits := x.toBits.toNat
  let exponent := (bits >>> 52) % (1 <<< 11)
  let fraction := bits % (1 <<< 52)
  -- the number is mantissa * 2 ^ (scale - 1075)
  let mantissa := if exponent = 0 then fraction else (1 <<< 52) + fraction
  let scale := if exponent = 0 then 1 else exponent
  roundedQuotient ((mantissa * Nanos.perSecond) <<< (scale - 1075)) (1 <<< (1075 - scale))

def remainingShare (elapsed ramp : Nanos) : Float :=
  let share := if ramp = 0 then 1.0 else elapsed.toFloat / ramp.toFloat
  let t := if share < 1.0 then share else 1.0
  1.0 - t * (2.0 - t)

def Timing.fastDuration (timing : Timing) (elapsed : Nanos) : Nanos :=
  let start := Nanos.ofMillis timing.fastStart
  let least := min (Nanos.ofMillis timing.fastLeast) start
  let share := remainingShare elapsed (Nanos.ofMillis timing.fastRamp)
  least + Nanos.ofFloat (share * Nanos.toFloat (start - least))

end Lockstep
