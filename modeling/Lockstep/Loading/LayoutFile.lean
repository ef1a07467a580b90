import Lockstep.Layout.FileName
import Lockstep.Loading.Error

/-!
Program files of a layout. A directory is read in whatever order it lists its files; the result is
in the order of slots, and no two files may be for one slot.
-/
namespace Lockstep

structure LayoutFile where
  slot : UInt8
  nodeClass : NodeClass
  path : String
  source : String
  deriving Repr, DecidableEq

namespace LayoutFile

def read (files : Files) (path : String) : Except LoadError LayoutFile := do
  match Path.fileName? path with
  | none => throw (.noFileName path)
  | some name =>
    match FileName.ofText? name with
    | none => throw (.notLayoutName path)
    | some ⟨slot, nodeClass⟩ =>
      let source ← (files.read path).mapError (.fileUnreadable path)
      return { slot, nodeClass, path, source }

/-- Reads the files at the paths, none for a slot that is in `read` already. -/
def readAll (files : Files) (read : List LayoutFile) :
    List String → Except LoadError (List LayoutFile)
  | [] => .ok read
  | path :: rest => do
    let file ← LayoutFile.read files path
    match read.find? fun f => f.slot = file.slot with
    | some other => throw (.slotTwice file.slot other.path file.path)
    | none => readAll files (read ++ [file]) rest

def pathsIn (files : Files) (directory : String) : Except LoadError (List String) := do
  let names ← (files.list directory).mapError (.directoryUnreadable directory)
  return (names.map (Path.join directory)).filter fun path =>
    files.isFile path && (FileName.ofPath? path).isSome

def bySlot (fs : List LayoutFile) : List LayoutFile := fs.mergeSort fun a b => a.slot ≤ b.slot

def readDirectory (files : Files) (directory : String) : Except LoadError (List LayoutFile) := do
  return bySlot (← readAll files [] (← pathsIn files directory))

end LayoutFile
end Lockstep
