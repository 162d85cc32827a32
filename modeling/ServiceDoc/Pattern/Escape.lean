import ServiceDoc.Pattern.Cursor
import ServiceDoc.Pattern.Expression
import ServiceDoc.Text.Hexadecimal

/-! Escapes: what follows a backslash in a pattern. Marks stand for themselves; letters and digits
need a meaning. Properties of characters by name are not among the meanings. -/
namespace ServiceDoc.Pattern

/-- So many hexadecimal digits, blanks after each. -/
def digits : Nat → List Char → Cursor → Option (List Char × Cursor)
  | 0, done, k => some (done.reverse, k)
  | n + 1, done, k =>
    match k.rest with
    | [] => none
    | c :: rest => digits n (c :: done) (k.moved rest).settled

def numbered (width : Nat) (isByte : Bool) (k : Cursor) : Option (Atom × Cursor) := do
  let (ds, k) ← digits width [] k.settled
  let char ← Text.charOfHex? ds
  return (.letter { char, isByte }, k)

def meaning? : Char → Option Atom
  | 'a' => some (.letter { char := '\x07' })
  | 'f' => some (.letter { char := '\x0c' })
  | 't' => some (.letter { char := '\t' })
  | 'n' => some (.letter { char := '\n' })
  | 'r' => some (.letter { char := '\r' })
  | 'v' => some (.letter { char := '\x0b' })
  | 'd' | 's' | 'w' => some (.kind false)
  | 'D' | 'S' | 'W' => some (.kind true)
  | 'A' | 'z' => some .edge
  | 'b' | 'B' | '<' | '>' => some .wordEdge
  | c => if c.isAlphanum || 0x80 ≤ c.toNat then none else some (.letter { char := c })

def escape (k : Cursor) : Option (Atom × Cursor) :=
  match k.rest with
  | [] => none
  | 'x' :: rest => numbered 2 true (k.moved rest)
  | 'u' :: rest => numbered 4 false (k.moved rest)
  | 'U' :: rest => numbered 8 false (k.moved rest)
  | c :: rest => (meaning? c).map (·, k.moved rest)

end ServiceDoc.Pattern
