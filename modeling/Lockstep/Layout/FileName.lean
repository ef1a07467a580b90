import Lockstep.Files.Path
import Lockstep.Layout.NodeClass
import Lockstep.Text.Numeral

/-!
Names of program files. In a layout directory each node has a file that is named for its slot and
its class, such as `3-8x3.qasm`.
-/
namespace Lockstep

def programEnding : String := ".qasm"

def isProgramName (name : String) : Bool := (Path.withoutEnding? programEnding name).any (· ≠ "")

structure FileName where
  slot : UInt8
  nodeClass : NodeClass
  deriving Repr, DecidableEq

namespace FileName

def text (n : FileName) : String :=
  Text.numeral n.slot.toNat ++ "-" ++ n.nodeClass.name ++ programEnding

/-- Slots are decimals up to 255, leading zeros allowed, and end at the first dash. -/
def ofText? (name : String) : Option FileName := do
  let stem ← Path.withoutEnding? programEnding name
  let (slot, nodeClass) ← Text.cutAt '-' stem.toList
  return ⟨← (Text.natural? slot).bind Text.uint8?, ← NodeClass.ofText? nodeClass⟩

def ofPath? (path : String) : Option FileName := (Path.fileName? path).bind ofText?

end FileName
end Lockstep
