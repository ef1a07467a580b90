import Lockstep.Layout.NodeClass
import Lockstep.Program.Code

/-!
The compact code of a layout: for each node the mark `@`, the letter of its class, its slot and the
code of its program. Slots are plain decimals up to 255, and no two nodes share one.
-/
namespace Lockstep

structure LayoutEntry where
  nodeClass : NodeClass
  slot : UInt8
  program : Program
  deriving Repr, DecidableEq

abbrev Layout := List LayoutEntry

namespace Code

def entry (e : LayoutEntry) : Except CodeError (List Char) := do
  let code ← instructionsFrom 0 e.program
  return nodeMark :: e.nodeClass.code :: (Text.digits e.slot.toNat ++ code)

/-- The code of the entries, none of which may have a slot of `taken`. -/
def entries (taken : List UInt8) : Layout → Except CodeError (List Char)
  | [] => .ok []
  | e :: rest =>
    if e.slot ∈ taken then .error (.duplicateSlot e.slot)
    else do
      let first ← entry e
      let more ← entries (e.slot :: taken) rest
      return first ++ more

def readSlot (c : Cursor) : Except CodeError (UInt8 × Cursor) :=
  match c.digits with
  | [] => .error (.truncated c.offset)
  | '0' :: _ :: _ => .error (.nonCanonicalNumber c.offset)
  | ds =>
    match Text.uint8? (Nat.ofDigitChars 10 ds 0) with
    | some slot => .ok (slot, c.skip ds.length)
    | none => .error (.numberOutOfRange c.offset)

def readClass (c : Cursor) : Except CodeError (NodeClass × Cursor) :=
  match c.rest with
  | [] => .error (.truncated c.offset)
  | letter :: _ =>
    match NodeClass.ofCode? letter with
    | some nodeClass => .ok (nodeClass, c.skip 1)
    | none => .error (.unknownNodeClass (leadByte letter) c.offset)

/-- At most `fuel` entries, up to the end of the text. -/
def readEntries : Nat → List UInt8 → Cursor → Except CodeError Layout
  | 0, _, _ => .ok []
  | fuel + 1, taken, c =>
    match c.rest with
    | [] => .ok []
    | mark :: _ =>
      if mark = nodeMark then do
        let (nodeClass, atSlot) ← readClass (c.skip 1)
        let (slot, atProgram) ← readSlot atSlot
        if slot ∈ taken then throw (.duplicateSlot slot)
        else
          let (program, next) ← readProgram atProgram
          let more ← readEntries fuel (slot :: taken) next
          return ⟨nodeClass, slot, program⟩ :: more
      else .error (.missingNodeMarker c.offset)

end Code

namespace Layout

def encode (l : Layout) : Except CodeError String := (Code.entries [] l).map String.ofList

def decode (text : String) : Except CodeError Layout :=
  Code.readEntries text.toList.length [] ⟨0, text.toList⟩

end Layout
end Lockstep
