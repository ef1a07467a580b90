import Lockstep.Text.CaseTable

/-!
Lower and upper case of whole texts. Both can change the length: `ß` becomes `SS` above and `İ`
becomes two characters below. A capital sigma becomes `ς` at the end of a word and `σ` elsewhere,
so lower case looks at the letters around it.
-/
namespace Lockstep.Text

/-- The first character that counts for case, looking along `s`, has case. -/
def meetsCased (s : List Char) : Bool :=
  match s.dropWhile (inRanges caseIgnorableRanges) with
  | [] => false
  | c :: _ => inRanges casedRanges c

/-- A sigma is final after a letter and not before one. `before` is read backwards. -/
def lowerSigma (before after : List Char) : Char :=
  if meetsCased before && !meetsCased after then 'ς' else 'σ'

def lowerChar (c : Char) : List Char :=
  if c.toNat < 128 then [c.toLower]
  else if c = 'İ' then ['i', '\u0307']
  else match lowerRuns.findSome? (·.image? c.toNat) with
    | some n => [Char.ofNat n]
    | none => [c]

def upperChar (c : Char) : List Char :=
  if c.toNat < 128 then [c.toUpper]
  else match upperExpansions.lookup c.toNat with
    | some ns => ns.map Char.ofNat
    | none => match upperRuns.findSome? (·.image? c.toNat) with
      | some n => [Char.ofNat n]
      | none => [c]

/-- Lower case of the rest of a text, `before` being what came earlier, last character first. -/
def lowerAfter (before : List Char) : List Char → List Char
  | [] => []
  | c :: rest =>
    (if c = 'Σ' then [lowerSigma before rest] else lowerChar c) ++ lowerAfter (c :: before) rest

def lowercase (s : List Char) : List Char := lowerAfter [] s

def uppercase (s : List Char) : List Char := s.flatMap upperChar

def capitals (s : String) : String := String.ofList (uppercase s.toList)

end Lockstep.Text
