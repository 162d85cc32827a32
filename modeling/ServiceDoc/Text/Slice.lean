/-! Parts of a text between places that are counted in bytes of UTF-8. A text cannot be divided inside
a character or past its end. -/
namespace ServiceDoc.Text

/-- What is before a place and what is after it. -/
def divide? : Nat → List Char → Option (List Char × List Char)
  | 0, cs => some ([], cs)
  | _ + 1, [] => none
  | n + 1, c :: cs =>
    if c.utf8Size ≤ n + 1 then
      (divide? (n + 1 - c.utf8Size) cs).map fun (before, after) => (c :: before, after)
    else none

/-- From a place on. -/
def from? (start : Nat) (cs : List Char) : Option (List Char) := (divide? start cs).map Prod.snd

def slice? (start stop : Nat) (cs : List Char) : Option (List Char) := do
  let (before, _) ← divide? stop cs
  from? start before

end ServiceDoc.Text
