import Lockstep.Json.Reader

/-!
JSON numbers. Only whole numbers of 64 bits are ever wanted, and one written with a point, with an
exponent or as `-0` is none; but a number beyond the range of binary64 is not a number at all.
-/
namespace Lockstep.Json

inductive Number where
  | whole (n : Int)
  /-- a fraction, `-0`, or a whole number outside 64 bits -/
  | other
  deriving Repr, DecidableEq

/-- The leading digits of a number as a 64-bit word, with the power of ten it is multiplied by. -/
structure Significand where
  value : Nat := 0
  exponent : Int := 0
  full : Bool := false

namespace Significand

def fits (s : Significand) (d : Nat) : Bool := s.value * 10 + d < UInt64.size

/-- A digit before the point. One that does not fit still counts for the power of ten. -/
def wholeDigit (s : Significand) (c : Char) : Significand :=
  let d := c.toNat - '0'.toNat
  if !s.full && s.fits d then { s with value := s.value * 10 + d }
  else { s with exponent := s.exponent + 1, full := true }

def fractionDigit (s : Significand) (c : Char) : Significand :=
  let d := c.toNat - '0'.toNat
  if !s.full && s.fits d then { s with value := s.value * 10 + d, exponent := s.exponent - 1 }
  else { s with full := true }

def overflows (s : Significand) : Bool :=
  if s.value = 0 ∨ s.exponent < 0 then false
  else 308 < s.exponent
    || (s.value.toUInt64.toFloat * Float.ofScientific 1 false s.exponent.toNat).isInf

end Significand

def someDigits (atEnd : Fault) : Reader (List Char) := do
  match ← takeDigits with
  | [] => if (← get).isEmpty then throw atEnd else throw .malformed
  | ds => return ds

def wholeDigits (atEnd : Fault) : Reader (List Char) := do
  match ← someDigits atEnd with
  | '0' :: _ :: _ => throw .malformed
  | ds => return ds

def fractionDigits (atEnd : Fault) : Reader (Option (List Char)) := do
  if (← peek) = some '.' then
    skip
    return some (← someDigits atEnd)
  else return none

def exponentDigits (atEnd : Fault) : Reader (Option (Bool × List Char)) := do
  match ← peek with
  | some c =>
    if c = 'e' ∨ c = 'E' then
      skip
      let sign ← peek
      if sign = some '+' ∨ sign = some '-' then skip
      return some (sign = some '-', ← someDigits atEnd)
    else return none
  | none => return none

def takeMinus : Reader Bool := do
  if (← peek) = some '-' then
    skip
    return true
  else return false

/-- A negative number has its own range, and zero is not in it. -/
def signed (negative : Bool) (magnitude : Nat) : Number :=
  if !negative then .whole magnitude
  else if 0 < magnitude ∧ Int64.minValue.toInt ≤ -(magnitude : Int) then
    .whole (-(magnitude : Int))
  else .other

def number : Reader Number := do
  let negative ← takeMinus
  let integral := (← wholeDigits .truncated).foldl Significand.wholeDigit {}
  let fraction ← fractionDigits .truncated
  let exponent ← exponentDigits .truncated
  let withFraction :=
    match fraction with
    | some ds => ds.foldl Significand.fractionDigit { integral with full := false }
    | none => integral
  let scaled :=
    match exponent with
    | some (below, ds) =>
      let power : Int := Nat.ofDigitChars 10 ds 0
      { withFraction with exponent := withFraction.exponent + if below then -power else power }
    | none => withFraction
  if scaled.overflows then throw .malformed
  else if fraction.isSome || exponent.isSome || integral.full then return .other
  else return signed negative integral.value

/-- A number that is not wanted. Where it ends too early it is not a number. -/
def skipNumber : Reader Unit := do
  let _ ← takeMinus
  let _ ← wholeDigits .malformed
  let _ ← fractionDigits .malformed
  let _ ← exponentDigits .malformed

end Lockstep.Json
