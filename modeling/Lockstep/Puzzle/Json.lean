import Lockstep.Json.Value
import Lockstep.Puzzle

/-!
Puzzles from JSON:

    { "id": "increment", "title": "Increment", "goal": "OUTPUT = INPUT + 1",
      "sets": [{ "input": [3, 7], "output": [4, 8] }], "fixed_nodes": ["8x3"] }

`desc` and `fixed_nodes` may be left out.
-/
namespace Lockstep

open Json (Reader field)

structure TestSet.Draft where
  input : Option (List Int) := none
  output : Option (List Int) := none

def TestSet.reader : Reader TestSet :=
  Json.record
    [field "input" (Json.list Json.int64) fun v (d : TestSet.Draft) => { d with input := some v },
     field "output" (Json.list Json.int64) fun v (d : TestSet.Draft) => { d with output := some v }]
    {} fun d => do return ⟨(← d.input).toArray, (← d.output).toArray⟩

structure Puzzle.Draft where
  id : Option String := none
  title : Option String := none
  goal : Option String := none
  description : Option String := none
  sets : Option (List TestSet) := none
  fixedNodes : List NodeClass := []

def Puzzle.Draft.finish (d : Puzzle.Draft) : Option Puzzle := do
  return {
    id := ← d.id
    title := ← d.title
    goal := ← d.goal
    description := d.description
    sets := ← d.sets
    fixedNodes := d.fixedNodes }

def Puzzle.reader : Reader Puzzle :=
  Json.record
    [field "id" Json.string fun v (d : Puzzle.Draft) => { d with id := some v },
     field "title" Json.string fun v (d : Puzzle.Draft) => { d with title := some v },
     field "goal" Json.string fun v (d : Puzzle.Draft) => { d with goal := some v },
     field "desc" (Json.nullable Json.string) fun v (d : Puzzle.Draft) =>
       { d with description := v },
     field "sets" (Json.list TestSet.reader) fun v (d : Puzzle.Draft) => { d with sets := some v },
     field "fixed_nodes" (Json.list (Json.choice NodeClass.ofName?)) fun v (d : Puzzle.Draft) =>
       { d with fixedNodes := v }]
    {} Puzzle.Draft.finish

def Puzzle.ofJson (text : String) : Except Json.Fault Puzzle := Json.readAll Puzzle.reader text

end Lockstep
