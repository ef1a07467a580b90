import Lockstep.Node.Step
import Lockstep.Simulation.Event

/-!
Input and output during one tick. All nodes that read in a tick are given the same input. The first
value put out is taken; a second node may put out the same value, but no other.
-/
namespace Lockstep

inductive Refusal where
  | collision
  | overflow
  deriving Repr, DecidableEq

def Refusal.message : Refusal → String
  | collision => "Output collision"
  | overflow => "Output overflow"

/-- What a tick has to give: the next input, if any is left, and what is asked for. -/
structure Offer where
  input : Option Int
  expected : Array Int
  limit : Nat

/-- What the nodes have made of it so far. -/
structure Exchange where
  output : Array Int
  written : Option Int := none
  consumed : Bool := false
  events : List Event := []

namespace Exchange

def record (x : Exchange) (e : Event) : Exchange := { x with events := x.events ++ [e] }

def read (offer : Offer) (x : Exchange) : Int × Exchange :=
  match offer.input with
  | some value => (value, { x with consumed := true })
  | none => (0, x)

def accept (offer : Offer) (slot : UInt8) (value : Int) (x : Exchange) : Exchange :=
  let index := x.output.size
  let expected := offer.expected[index]?
  let accepted :=
    { x with output := x.output.push value, written := some value }.record
      (.outputAccepted slot value index)
  if expected = some value then accepted
  else accepted.record (.outputMismatch slot index expected value)

def write (offer : Offer) (slot : UInt8) (value : Int) (x : Exchange) :
    Except String Unit × Exchange :=
  match x.written with
  | some taken => if taken = value then (.ok (), x) else (.error Refusal.collision.message, x)
  | none =>
    if x.output.size < offer.limit then (.ok (), x.accept offer slot (clamp value))
    else (.error Refusal.overflow.message, x)

def terminal (offer : Offer) (slot : UInt8) : Terminal Exchange := ⟨read offer, write offer slot⟩

def stepNode (offer : Offer) (channels : Channels) (node : Node) (x : Exchange) :
    Node × Exchange × Option (UInt8 × NodeError) :=
  match node.step (terminal offer node.slot) channels x with
  | (result, after, x') =>
    let told := if after.accWritten then x'.record (.accWritten after.slot after.acc) else x'
    let failure :=
      match result with
      | .failed _ => after.error.map fun e => (after.slot, e)
      | _ => none
    (after.clearAccWritten, told, failure)

/-- One step of each node in turn; of those that failed the first is reported. -/
def stepNodes (offer : Offer) (channels : Channels) :
    List Node → Exchange → List Node × Exchange × Option (UInt8 × NodeError)
  | [], x => ([], x, none)
  | node :: rest, x =>
    match stepNode offer channels node x with
    | (after, x', failure) =>
      match stepNodes offer channels rest x' with
      | (others, x'', later) => (after :: others, x'', failure <|> later)

end Exchange
end Lockstep
