/-! Blank characters and trimming. A character is blank when Unicode gives it the property
`White_Space`; trimming takes the longest blank run from each end. -/
namespace ServiceDoc.Text

def isBlank (c : Char) : Bool :=
  let n := c.toNat
  (0x09 ≤ n && n ≤ 0x0D) || n == 0x20 || n == 0x85 || n == 0xA0 || n == 0x1680 ||
    (0x2000 ≤ n && n ≤ 0x200A) || n == 0x2028 || n == 0x2029 || n == 0x202F || n == 0x205F ||
    n == 0x3000

def trimChars (cs : List Char) : List Char :=
  ((cs.dropWhile isBlank).reverse.dropWhile isBlank).reverse

/-- The text of a comment block: a block without a visible character is no documentation. -/
def documentation (comment : String) : Option String :=
  match trimChars comment.toList with
  | [] => none
  | cs => some (String.ofList cs)

end ServiceDoc.Text
