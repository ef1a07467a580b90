/-!
Finite tables: the entries of each in increasing order of their keys. Keys are compared by
`compare`, so a table of names lists them in code point order and a table of numbers in numeric
order.
-/
namespace Lockstep

structure Table (κ α : Type) where
  entries : List (κ × α) := []
  deriving Repr, DecidableEq

namespace Table
variable {κ α : Type} [Ord κ]

def empty : Table κ α := ⟨[]⟩

def findIn (key : κ) : List (κ × α) → Option α
  | [] => none
  | (k, a) :: rest => if compare key k = .eq then some a else findIn key rest

def find? (t : Table κ α) (key : κ) : Option α := findIn key t.entries

def contains (t : Table κ α) (key : κ) : Bool := (t.find? key).isSome

/-- Puts `change old` under the key, `old` being what stood there, and keeps the order of keys. -/
def alterIn (key : κ) (change : Option α → α) : List (κ × α) → List (κ × α)
  | [] => [(key, change none)]
  | (k, a) :: rest =>
    match compare key k with
    | .lt => (key, change none) :: (k, a) :: rest
    | .eq => (k, change (some a)) :: rest
    | .gt => (k, a) :: alterIn key change rest

def insert (t : Table κ α) (key : κ) (a : α) : Table κ α := ⟨alterIn key (fun _ => a) t.entries⟩

/-- Leaves a value that is already there. -/
def insertNew (t : Table κ α) (key : κ) (a : α) : Table κ α :=
  ⟨alterIn key (fun old => old.getD a) t.entries⟩

def add (t : Table κ Int) (key : κ) (n : Int) : Table κ Int :=
  ⟨alterIn key (fun old => old.getD 0 + n) t.entries⟩

def erase (t : Table κ α) (key : κ) : Table κ α :=
  ⟨t.entries.filter fun e => compare key e.1 ≠ .eq⟩

def map {β : Type} (f : α → β) (t : Table κ α) : Table κ β := ⟨t.entries.map fun e => (e.1, f e.2)⟩

def ofList (es : List (κ × α)) : Table κ α := es.foldl (fun t e => t.insert e.1 e.2) empty

end Table
end Lockstep
