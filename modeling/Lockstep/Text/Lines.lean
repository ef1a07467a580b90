/-!
Lines of a text. A line ends at a line feed, and a carriage return right before that belongs to the
end. A text that ends with a line feed has no further, empty line.
-/
namespace Lockstep.Text

def lines : List Char → List (List Char)
  | [] => []
  | '\r' :: '\n' :: rest => [] :: lines rest
  | '\n' :: rest => [] :: lines rest
  | c :: rest =>
    match lines rest with
    | [] => [[c]]
    | line :: more => (c :: line) :: more

def joinLines (ls : List String) : String := String.intercalate "\n" ls

end Lockstep.Text
