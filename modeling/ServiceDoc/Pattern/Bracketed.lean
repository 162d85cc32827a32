import ServiceDoc.Pattern.Escape

/-! Sets of characters between brackets. They nest, and two marks of one kind combine what stands
before them with what follows. -/
namespace ServiceDoc.Pattern

def setNames : List String :=
  ["alnum", "alpha", "ascii", "blank", "cntrl", "digit", "graph", "lower", "print", "punct",
    "space", "upper", "word", "xdigit"]

/-- A name between colons, after the bracket before it. Anything else begins a set. -/
def namedSet? (cs : List Char) : Option (Bracket × List Char) :=
  match cs with
  | ':' :: rest =>
    let (negated, rest) : Bool × List Char :=
      match rest with
      | '^' :: rest => (true, rest)
      | _ => (false, rest)
    let name := String.ofList (rest.takeWhile (· ≠ ':'))
    match rest.dropWhile (· ≠ ':') with
    | ':' :: ']' :: rest => if setNames.contains name then some (.named negated, rest) else none
    | _ => none
  | _ => none

/-- A character or an escape. -/
def setAtom (k : Cursor) : Option (Atom × Cursor) :=
  match k.rest with
  | [] => none
  | '\\' :: rest => escape (k.moved rest)
  | c :: rest => some (.letter { char := c }, k.moved rest)

def single? : Atom → Option Bracket
  | .letter l => some (.letter l)
  | .kind negated => some (.kind negated)
  | _ => none

def range? : Atom → Atom → Option Bracket
  | .letter first, .letter last =>
    if first.char ≤ last.char then some (.range first last) else none
  | _, _ => none

/-- A dash makes a range, unless a bracket or another dash comes after it. -/
def setPart (k : Cursor) : Option (Bracket × Cursor) := do
  let (first, k) ← setAtom k
  let k := k.settled
  let alone := (single? first).map (·, k)
  match k.rest with
  | '-' :: rest =>
    let dashed := k.moved rest
    if dashed.ahead? = some ']' || dashed.ahead? = some '-' then alone
    else
      let (last, k) ← setAtom dashed.settled
      (range? first last).map (·, k)
  | _ => alone

/-- Dashes at the start of a set stand for themselves. -/
def leadingDashes : Nat → List Bracket → Cursor → List Bracket × Cursor
  | 0, found, k => (found, k)
  | fuel + 1, found, k =>
    match k.rest with
    | '-' :: rest => leadingDashes fuel (.letter { char := '-' } :: found) (k.moved rest).settled
    | _ => (found, k)

/-- The start of a set, after its bracket: whether it is negated, and what stands for itself only
there. -/
def setStart (k : Cursor) : Bool × List Bracket × Cursor :=
  let k := k.settled
  let (negated, k) : Bool × Cursor :=
    match k.rest with
    | '^' :: rest => (true, (k.moved rest).settled)
    | _ => (false, k)
  let (found, k) := leadingDashes k.rest.length [] k
  match found, k.rest with
  | [], ']' :: rest => (negated, [.letter { char := ']' }], (k.moved rest).settled)
  | _, _ => (negated, found, k)

/-- What combines two sets. -/
def combines : List Char → Option (List Char)
  | '&' :: '&' :: rest => some rest
  | '-' :: '-' :: rest => some rest
  | '~' :: '~' :: rest => some rest
  | _ => none

def combinedWith (left : Option Bracket) (found : List Bracket) : Bracket :=
  let b := Bracket.ofParts found.reverse
  match left with
  | none => b
  | some left => .combined left b

/-- The rest of a set with its closing bracket, after what was found of it. -/
def setRest : Nat → Option Bracket → List Bracket → Cursor → Option (Bracket × Cursor)
  | 0, _, _, _ => none
  | fuel + 1, left, found, k =>
    let k := k.settled
    match k.rest with
    | [] => none
    | ']' :: rest => some (combinedWith left found, k.moved rest)
    | '[' :: rest =>
      match namedSet? rest with
      | some (b, rest) => setRest fuel left (b :: found) (k.moved rest)
      | none => do
        let (negated, inner, k) := setStart (k.moved rest)
        let (b, k) ← setRest fuel none inner k
        setRest fuel left (.nested negated b :: found) k
    | cs =>
      match combines cs with
      | some rest => setRest fuel (some (combinedWith left found)) [] (k.moved rest)
      | none => do
        let (b, k) ← setPart k
        setRest fuel left (b :: found) k

/-- A set after its opening bracket. -/
def bracketed (k : Cursor) : Option (Atom × Cursor) := do
  let (negated, found, k) := setStart k
  let (b, k) ← setRest (k.rest.length + 1) none found k
  return (.bracket negated b, k)

end ServiceDoc.Pattern
