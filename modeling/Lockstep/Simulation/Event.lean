import Lockstep.Node.Basic
import Lockstep.Puzzle

/-!
What a tick reports: the events in it, in the order they happen, and how it ended.
-/
namespace Lockstep

inductive Event where
  | outputAccepted (slot : UInt8) (value : Int) (index : Nat)
  | outputMismatch (slot : UInt8) (index : Nat) (expected : Option Int) (actual : Int)
  | accWritten (slot : UInt8) (value : Int)
  | runtimeError (slot : UInt8) (line : Nat) (message : String)
  | setPassed (set : Nat)
  | won (score : Score)
  deriving Repr, DecidableEq

inductive Outcome where
  | idle
  | advanced
  | setPassed (set : Nat)
  | won (score : Score)
  /-- a node failed, the first one by slot being given -/
  | halted (slot : UInt8) (error : NodeError)
  deriving Repr, DecidableEq

def Outcome.goesOn : Outcome → Bool
  | advanced => true
  | setPassed _ => true
  | _ => false

end Lockstep
