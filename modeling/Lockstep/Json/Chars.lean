import Lockstep.Json.Reader

/-!
JSON strings. A string that is wanted has to be text: an escape for half of a surrogate pair needs
the other half right behind it. A string that is only skipped may hold any four hex digits.
-/
namespace Lockstep.Json

def hexDigit? (c : Char) : Option Nat :=
  if c.isDigit then some (c.toNat - '0'.toNat)
  else if 'a' ≤ c ∧ c ≤ 'f' then some (c.toNat - 'a'.toNat + 10)
  else if 'A' ≤ c ∧ c ≤ 'F' then some (c.toNat - 'A'.toNat + 10)
  else none

def hexNumber? (cs : List Char) : Option Nat :=
  cs.foldlM (fun n c => (hexDigit? c).map (16 * n + ·)) 0

/-- Four hex digits. The text is too short only if it has not even four bytes left. -/
def hexEscape : Reader Nat := do
  let rest ← get
  set (rest.drop 4)
  match rest, hexNumber? (rest.take 4) with
  | _ :: _ :: _ :: _ :: _, some n => return n
  | _, _ => if (String.ofList rest).utf8ByteSize < 4 then throw .truncated else throw .malformed

def isHighSurrogate (n : Nat) : Bool := 0xD800 ≤ n && n ≤ 0xDBFF

def isLowSurrogate (n : Nat) : Bool := 0xDC00 ≤ n && n ≤ 0xDFFF

def secondSurrogate (high : Nat) : Reader Char := do
  expect ['\\', 'u']
  let low ← hexEscape
  if isLowSurrogate low then return Char.ofNat (0x10000 + (high - 0xD800) * 0x400 + (low - 0xDC00))
  else throw .malformed

def shortEscape? : Char → Option Char
  | '"' => some '"'
  | '\\' => some '\\'
  | '/' => some '/'
  | 'b' => some '\x08'
  | 'f' => some '\x0c'
  | 'n' => some '\n'
  | 'r' => some '\r'
  | 't' => some '\t'
  | _ => none

/-- What stands behind a backslash, by `unicode` for an escape with hex digits. -/
def escapeBy {α : Type} (short : Char → α) (unicode : Reader α) : Reader α := do
  match ← peek with
  | none => throw .truncated
  | some c =>
    skip
    if c = 'u' then unicode
    else
      match shortEscape? c with
      | some d => return short d
      | none => throw .malformed

def escapedChar : Reader Char :=
  escapeBy id do
    let n ← hexEscape
    if isHighSurrogate n then secondSurrogate n
    else if isLowSurrogate n then throw .malformed
    else return Char.ofNat n

def charBy {α : Type} (plain : Char → α) (escaped : Reader α) : Reader (Option α) := do
  match ← peek with
  | none => throw .truncated
  | some c =>
    skip
    if c = '"' then return none
    else if c = '\\' then return some (← escaped)
    else if c < ' ' then throw .malformed
    else return some (plain c)

def stringRest : Reader String := do
  let backwards ← repeatStep (fun read => do
    match ← charBy id escapedChar with
    | some c => return (c :: read, false)
    | none => return (read, true)) []
  return String.ofList backwards.reverse

def skipStringRest : Reader Unit :=
  repeatStep (fun _ => do
    match ← charBy (fun _ => ()) (escapeBy (fun _ => ()) do let _ ← hexEscape) with
    | some _ => return ((), false)
    | none => return ((), true)) ()

end Lockstep.Json
