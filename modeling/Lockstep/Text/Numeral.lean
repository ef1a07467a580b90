/-!
Decimal numerals. `digits` writes the canonical numeral of a number; the readers take digits `0` to
`9` only, accept leading zeros, and refuse a number outside the word they read into.
-/
namespace Lockstep.Text

def digits (n : Nat) : List Char := Nat.toDigits 10 n

def numeral (n : Nat) : String := String.ofList (digits n)

def signedNumeral (n : Int) : String :=
  if n < 0 then "-" ++ numeral n.natAbs else numeral n.natAbs

def natural? (s : List Char) : Option Nat :=
  if s ≠ [] ∧ s.all Char.isDigit then some (Nat.ofDigitChars 10 s 0) else none

/-- Digits after at most one sign. -/
def integer? : List Char → Option Int
  | '-' :: s => (natural? s).map fun n => -(n : Int)
  | '+' :: s => (natural? s).map fun n => (n : Int)
  | s => (natural? s).map fun n => (n : Int)

def int64? (n : Int) : Option Int64 :=
  if Int64.minValue.toInt ≤ n ∧ n ≤ Int64.maxValue.toInt then some (Int64.ofInt n) else none

def int32? (n : Int) : Option Int32 :=
  if Int32.minValue.toInt ≤ n ∧ n ≤ Int32.maxValue.toInt then some (Int32.ofInt n) else none

def uint32? (n : Nat) : Option UInt32 := if n < UInt32.size then some (UInt32.ofNat n) else none

def uint8? (n : Nat) : Option UInt8 := if n < UInt8.size then some (UInt8.ofNat n) else none

end Lockstep.Text
