/-!
Settings of a simulation. Times are in milliseconds.
-/
namespace Lockstep

structure Timing where
  tick : Nat := 400
  fastStart : Nat := 100
  fastLeast : Nat := 4
  fastRamp : Nat := 5000
  deriving Repr, DecidableEq

def Timing.instant : Timing := ⟨0, 0, 0, 0⟩

structure Settings where
  /-- values that the output takes in one test set -/
  outputLimit : Nat := 40
  timing : Timing := {}
  deriving Repr, DecidableEq

def Settings.headless : Settings := { timing := .instant }

end Lockstep
