import Lockstep.Layout.NodeClass
import Lockstep.Text.Numeral

/-!
Puzzles and scores. A puzzle is a list of test sets, each an input and the output that has to come
of it, with the nodes that the puzzle places by itself.
-/
namespace Lockstep

structure TestSet where
  input : Array Int
  output : Array Int
  deriving Repr, DecidableEq

structure Puzzle where
  id : String
  title : String
  goal : String
  description : Option String := none
  sets : List TestSet
  /-- the classes of the nodes in slots 0, 1, 2 and so on, which cannot be removed -/
  fixedNodes : List NodeClass := []
  deriving Repr, DecidableEq

def Puzzle.longestOutput (p : Puzzle) : Nat := (p.sets.map (·.output.size)).foldl max 0

structure Score where
  instructions : Nat
  cost : Nat
  ticks : Nat
  deriving Repr, DecidableEq

def Score.text (s : Score) : String :=
  Text.numeral s.instructions ++ " lines, cost " ++ Text.numeral s.cost ++ ", "
    ++ Text.numeral s.ticks ++ " ticks"

end Lockstep
