import Lockstep.Json.Chars
import Lockstep.Json.Number

/-!
JSON values read into a type: numbers, strings, lists, and records, which are written either as an
object or as a list of their fields in order. Members of an object that are no fields are skipped.
-/
namespace Lockstep.Json

def startsNumber (c : Char) : Bool := c == '-' || c.isDigit

def literal? : Char → Option (List Char)
  | 'n' => some "null".toList
  | 't' => some "true".toList
  | 'f' => some "false".toList
  | _ => none

inductive Bracket where
  | list
  | object
  deriving Repr, DecidableEq

/-- Skips a plain value, or takes the bracket of a list or an object. Gives the brackets that are
open then, the innermost first, and whether the innermost was opened just now. -/
def skipPlain (opened : List Bracket) : Reader (List Bracket × Bool) := do
  let c ← token
  match literal? c with
  | some word =>
    expect word
    return (opened, false)
  | none =>
    if startsNumber c then
      skipNumber
      return (opened, false)
    else if c = '"' then
      skip
      skipStringRest
      return (opened, false)
    else if c = '[' then
      skip
      return (.list :: opened, true)
    else if c = '{' then
      skip
      return (.object :: opened, true)
    else throw .malformed

def nextValue (first : Bool) : List Bracket → Reader (List Bracket)
  | [] => return []
  | .list :: outer => do
    if ← elementFollows first then return .list :: outer
    else
      skip
      nextValue false outer
  | .object :: outer => do
    if ← keyFollows first then
      skip
      skipStringRest
      mark ':'
      return .object :: outer
    else
      skip
      nextValue false outer

def skipValue : Reader Unit := do
  let _ ← repeatStep (fun opened => do
    let (opened, first) ← skipPlain opened
    let inside ← nextValue first opened
    return (inside, inside.isEmpty)) []

/-- A value of another type than the one wanted. A plain one is read first, and may be faulty. -/
def unsuited {α : Type} : Reader α := do
  let c ← token
  match literal? c with
  | some word =>
    expect word
    throw .unsuitable
  | none =>
    if startsNumber c then
      let _ ← number
      throw .unsuitable
    else if c = '"' then
      skip
      let _ ← stringRest
      throw .unsuitable
    else if c = '[' ∨ c = '{' then throw .unsuitable
    else throw .malformed

def integer (low high : Int) : Reader Int := do
  if startsNumber (← token) then
    match ← number with
    | .whole n => if low ≤ n ∧ n < high then return n else throw .unsuitable
    | .other => throw .unsuitable
  else unsuited

def int64 : Reader Int := integer Int64.minValue.toInt (Int64.maxValue.toInt + 1)

def uint64 : Reader Nat := return (← integer 0 UInt64.size).toNat

def string : Reader String := do
  if (← token) = '"' then
    skip
    stringRest
  else unsuited

def null : Reader Unit := do
  if (← token) = 'n' then expect "null".toList else unsuited

def nullable {α : Type} (reader : Reader α) : Reader (Option α) := do
  if (← peekToken) = some 'n' then
    expect "null".toList
    return none
  else return some (← reader)

def list {α : Type} (element : Reader α) : Reader (List α) := do
  if (← token) = '[' then
    skip
    return (← foldElements (fun read => return (← element) :: read) []).reverse
  else unsuited

/-- One of a fixed set of names, given as a string, or as the only key of an object with the value
`null`. -/
def choice {α : Type} (ofName? : String → Option α) : Reader α := do
  let named : Reader α := do
    match ofName? (← string) with
    | some a => return a
    | none => throw .unsuitable
  match ← token with
  | '"' => named
  | '{' =>
    skip
    if (← token) ≠ '"' then throw .malformed
    let a ← named
    mark ':'
    null
    mark '}'
    return a
  | _ => throw .malformed

/-- A field of a record: its name, and the reader that puts its value into a draft. -/
structure Field (δ : Type) where
  name : String
  read : Reader (δ → δ)

def field {δ α : Type} (name : String) (reader : Reader α) (put : α → δ → δ) : Field δ :=
  ⟨name, return put (← reader)⟩

section Record
variable {δ α : Type}

def fieldsInOrder : Bool → List (Field δ) → δ → Reader δ
  | _, [], draft => do
    mark ']'
    return draft
  | first, f :: rest, draft => do
    if ← elementFollows first then
      let put ← f.read
      fieldsInOrder false rest (put draft)
    else
      mark ']'
      return draft

def member (fields : List (Field δ)) : List String × δ → Reader (List String × δ)
  | (seen, draft) => do
    let key ← string
    match fields.find? fun f => f.name = key with
    | some f =>
      if key ∈ seen then throw .unsuitable
      else
        mark ':'
        let put ← f.read
        return (key :: seen, put draft)
    | none =>
      mark ':'
      skipValue
      return (seen, draft)

def record (fields : List (Field δ)) (draft : δ) (finish : δ → Option α) : Reader α := do
  let filled ←
    match ← token with
    | '[' => do
      skip
      fieldsInOrder true fields draft
    | '{' => do
      skip
      let (_, filled) ← foldMembers (member fields) ([], draft)
      pure filled
    | _ => unsuited
  match finish filled with
  | some a => return a
  | none => throw .unsuitable

end Record
end Lockstep.Json
