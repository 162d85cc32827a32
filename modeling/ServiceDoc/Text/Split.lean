/-! Texts in parts, divided by a mark. -/
namespace ServiceDoc.Text

/-- Splits at every mark. Parts may be empty, and there is at least one. -/
def split (mark : Char) : List Char → List (List Char)
  | [] => [[]]
  | c :: cs =>
    if c = mark then [] :: split mark cs
    else
      match split mark cs with
      | [] => [[c]]
      | part :: parts => (c :: part) :: parts

def parts (mark : Char) (s : String) : List String :=
  (split mark s.toList).map String.ofList

end ServiceDoc.Text
