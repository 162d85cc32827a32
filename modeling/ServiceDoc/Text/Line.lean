/-! Lines of a text. A line ends at a line feed, a carriage return directly before it belongs to
the ending, and there is no empty line after the last ending. A carriage return elsewhere is a
character of its line. -/
namespace ServiceDoc.Text

def lineChars : List Char → List (List Char)
  | [] => []
  | '\n' :: rest => [] :: lineChars rest
  | '\r' :: '\n' :: rest => [] :: lineChars rest
  | c :: rest =>
    match lineChars rest with
    | [] => [[c]]
    | line :: lines => (c :: line) :: lines

def lines (s : String) : List String := (lineChars s.toList).map String.ofList

end ServiceDoc.Text
