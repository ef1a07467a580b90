/-!
Times and durations, in nanoseconds. A time has at most 64 bits of seconds; a sum beyond that is an
overflow, not a time.
-/
namespace Lockstep

abbrev Nanos := Nat

namespace Nanos

def perSecond : Nat := 1000000000

def ofMillis (ms : Nat) : Nanos := ms * 1000000

def ofParts (seconds nanos : Nat) : Nanos := seconds * perSecond + nanos

def seconds (t : Nanos) : Nat := t / perSecond

def subsecond (t : Nanos) : Nat := t % perSecond

/-- The first number of nanoseconds that is no time. -/
def limit : Nat := UInt64.size * perSecond

end Nanos

inductive TimeOverflow where
  | sum
  deriving Repr, DecidableEq

def TimeOverflow.message : TimeOverflow → String
  | sum => "overflow when adding durations"

def Nanos.plus (a b : Nanos) : Except TimeOverflow Nanos :=
  if a + b < Nanos.limit then .ok (a + b) else .error .sum

end Lockstep
