import Lockstep.Text.Blank
import Lockstep.Text.Casing

/-!
The four sizes of node. The name of each gives its lines of program and the channels it can
broadcast on at once.
-/
namespace Lockstep

inductive NodeClass where
  | tiny
  | small
  | standard
  | large
  deriving Repr, DecidableEq

namespace NodeClass

def all : List NodeClass := [tiny, small, standard, large]

def name : NodeClass → String
  | tiny => "4x1"
  | small => "8x3"
  | standard => "9x3"
  | large => "15x5"

/-- Lines of text that a program may have. -/
def lines : NodeClass → Nat
  | tiny => 4
  | small => 8
  | standard => 9
  | large => 15

/-- Channels that may be broadcast on at once. -/
def channels : NodeClass → Nat
  | tiny => 1
  | small => 3
  | standard => 3
  | large => 5

def cost : NodeClass → Nat
  | tiny => 1
  | small => 3
  | standard => 4
  | large => 8

def code : NodeClass → Char
  | tiny => 'a'
  | small => 'b'
  | standard => 'c'
  | large => 'd'

def ofCode? (code : Char) : Option NodeClass := all.find? fun c => c.code = code

def ofName? (name : String) : Option NodeClass := all.find? fun c => c.name = name

def ofText? (s : List Char) : Option NodeClass :=
  ofName? (String.ofList (Text.lowercase (Text.trim s)))

end NodeClass
end Lockstep
