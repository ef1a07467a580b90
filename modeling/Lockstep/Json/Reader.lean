/-!
Reading JSON, value by value and into the type that is wanted, so that of several faults in a text
the first one met decides. This module has the reader, the blanks between values, and lists and
objects as loops over their items.
-/
namespace Lockstep.Json

inductive Fault where
  | malformed
  /-- it is JSON so far, but not of the form wanted -/
  | unsuitable
  | truncated
  deriving Repr, DecidableEq

def Fault.category : Fault → String
  | malformed => "json syntax"
  | unsuitable => "json data"
  | truncated => "json eof"

/-- A reader takes characters from the front of the text that is left. The number it is given is
above the length of the whole text, and bounds every loop. -/
abbrev Reader := ReaderT Nat (StateT (List Char) (Except Fault))

def isSpace (c : Char) : Bool := c == ' ' || c == '\n' || c == '\t' || c == '\r'

def peek : Reader (Option Char) := return (← get).head?

def skip : Reader Unit := modify List.tail

def skipSpace : Reader Unit := modify (List.dropWhile isSpace)

def peekToken : Reader (Option Char) := do
  skipSpace
  peek

def token : Reader Char := do
  match ← peekToken with
  | some c => return c
  | none => throw .truncated

def expect : List Char → Reader Unit
  | [] => return ()
  | c :: rest => do
    match ← peek with
    | none => throw .truncated
    | some d =>
      skip
      if c = d then expect rest else throw .malformed

def mark (c : Char) : Reader Unit := do
  if (← token) = c then skip else throw .malformed

def takeDigits : Reader (List Char) := do
  let ds := (← get).takeWhile Char.isDigit
  modify (List.dropWhile Char.isDigit)
  return ds

section Loops
variable {σ κ α : Type}

/-- Repeats a step until it is done. A step that is not the last takes a character at least, so that
`fuel` beyond the length of the text is never used up. -/
def iterate (step : σ → Reader (σ × Bool)) : Nat → σ → Reader σ
  | 0, _ => throw .truncated
  | fuel + 1, s => do
    let (next, done) ← step s
    if done then return next else iterate step fuel next

def repeatStep (step : σ → Reader (σ × Bool)) (s : σ) : Reader σ := do
  iterate step (← read) s

def elementFollows (first : Bool) : Reader Bool := do
  let c ← token
  if c = ']' then return false
  else if first then return true
  else if c = ',' then
    skip
    if (← token) = ']' then throw .malformed else return true
  else throw .malformed

def keyFollows (first : Bool) : Reader Bool := do
  let c ← token
  if c = '}' then return false
  else if first then
    if c = '"' then return true else throw .malformed
  else if c = ',' then
    skip
    if (← token) = '"' then return true else throw .malformed
  else throw .malformed

def foldElements (element : σ → Reader σ) (s : σ) : Reader σ := do
  let (_, last) ← repeatStep (fun (first, s) => do
    if ← elementFollows first then return ((false, ← element s), false)
    else return ((first, s), true)) (true, s)
  mark ']'
  return last

/-- The members of an object whose brace has been taken. `member` is called at the key. -/
def foldMembers (member : σ → Reader σ) (s : σ) : Reader σ := do
  let (_, last) ← repeatStep (fun (first, s) => do
    if ← keyFollows first then return ((false, ← member s), false)
    else return ((first, s), true)) (true, s)
  mark '}'
  return last

end Loops

def readAll {α : Type} (reader : Reader α) (text : String) : Except Fault α := do
  let chars := text.toList
  let (a, rest) ← (reader.run (chars.length + 1)).run chars
  if (rest.dropWhile isSpace).isEmpty then return a else throw .malformed

end Lockstep.Json
