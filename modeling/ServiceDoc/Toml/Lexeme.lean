import ServiceDoc.Decimal.Range
import ServiceDoc.Text.Hexadecimal

/-! Lexemes of TOML. A reader takes something from the start of a text and gives the rest; it
refuses by giving nothing. Numbers and dates are only checked, since no setting is one. -/
namespace ServiceDoc.Toml

/-- Characters of texts and comments: no control but the tab, and no delete. -/
def isText (c : Char) : Bool :=
  let n := c.toNat
  n == 0x09 || (0x20 ≤ n && n ≤ 0x7E) || 0x80 ≤ n

def isSpace (c : Char) : Bool := c = ' ' || c = '\t'

def dropSpaces (cs : List Char) : List Char := cs.dropWhile isSpace

/-- A carriage return counts only before a line feed. -/
def newLine? : List Char → Option (List Char)
  | '\n' :: rest => some rest
  | '\r' :: '\n' :: rest => some rest
  | _ => none

def dropComment : List Char → List Char
  | '#' :: rest => rest.dropWhile isText
  | cs => cs

/-- The rest of a line that holds nothing more, and its end. -/
def lineEnd? (cs : List Char) : Option (List Char) :=
  match dropComment (dropSpaces cs) with
  | [] => some []
  | rest => newLine? rest

/-- Spaces, comments and line ends. A comment here has to end with its line. -/
def dropLinesFrom (inComment : Bool) : List Char → Option (List Char)
  | [] => if inComment then none else some []
  | '\n' :: rest => dropLinesFrom false rest
  | '\r' :: '\n' :: rest => dropLinesFrom false rest
  | c :: rest =>
    if inComment then if isText c then dropLinesFrom true rest else none
    else if isSpace c then dropLinesFrom false rest
    else if c = '#' then dropLinesFrom true rest
    else if c = '\r' then none
    else some (c :: rest)

def dropLines (cs : List Char) : Option (List Char) := dropLinesFrom false cs

/-! ### Texts -/

def shortEscape? : Char → Option Char
  | 'b' => some '\x08'
  | 'f' => some '\x0c'
  | 'n' => some '\n'
  | 'r' => some '\r'
  | 't' => some '\t'
  | '\\' => some '\\'
  | '"' => some '"'
  | _ => none

/-- What follows a backslash. -/
def escape? : List Char → Option (Char × List Char)
  | [] => none
  | c :: rest =>
    let width := if c = 'u' then 4 else if c = 'U' then 8 else 0
    if width = 0 then (shortEscape? c).map (·, rest)
    else if rest.length < width then none
    else (Text.charOfHex? (rest.take width)).map (·, rest.drop width)

/-- Every step uses up a character, here and below, so a text's length is fuel enough. -/
def basicAfter (done : List Char) : Nat → List Char → Option (String × List Char)
  | 0, _ => none
  | _, [] => none
  | fuel + 1, c :: rest =>
    if c = '"' then some (String.ofList done.reverse, rest)
    else if c = '\\' then do
      let (e, rest) ← escape? rest
      basicAfter (e :: done) fuel rest
    else if isText c then basicAfter (c :: done) fuel rest
    else none

def literalAfter (cs : List Char) : Option (String × List Char) :=
  let inside (c : Char) : Bool := isText c && c != '\''
  match cs.dropWhile inside with
  | '\'' :: rest => some (String.ofList (cs.takeWhile inside), rest)
  | _ => none

/-- A text that its closing marks end; up to two marks may stand before them. -/
def closing? (mark : Char) : List Char → Option (List Char × List Char)
  | a :: b :: c :: rest =>
    if a = mark ∧ b = mark ∧ c = mark then
      match rest with
      | d :: e :: rest' =>
        if d = mark then if e = mark then some ([d, e], rest') else some ([d], e :: rest')
        else some ([], rest)
      | [d] => if d = mark then some ([d], []) else some ([], rest)
      | [] => some ([], [])
    else none
  | _ => none

/-- Line ends and spaces, after a backslash that ends a line. -/
def dropBlankLines (cs : List Char) : Nat → List Char
  | 0 => cs
  | fuel + 1 =>
    match newLine? (dropSpaces cs) with
    | some rest => dropBlankLines rest fuel
    | none => dropSpaces cs

def longBasicAfter (done : List Char) : Nat → List Char → Option (String × List Char)
  | 0, _ => none
  | _, [] => none
  | fuel + 1, c :: rest =>
    match closing? '"' (c :: rest) with
    | some (extra, rest) => some (String.ofList (done.reverse ++ extra), rest)
    | none =>
      if c = '\\' then
        match newLine? (dropSpaces rest) with
        | some after => longBasicAfter done fuel (dropBlankLines after after.length)
        | none => do
          let (e, rest) ← escape? rest
          longBasicAfter (e :: done) fuel rest
      else
        match newLine? (c :: rest) with
        | some rest => longBasicAfter ('\n' :: done) fuel rest
        | none => if isText c then longBasicAfter (c :: done) fuel rest else none

def longLiteralAfter (done : List Char) : Nat → List Char → Option (String × List Char)
  | 0, _ => none
  | _, [] => none
  | fuel + 1, c :: rest =>
    match closing? '\'' (c :: rest) with
    | some (extra, rest) => some (String.ofList (done.reverse ++ extra), rest)
    | none =>
      match newLine? (c :: rest) with
      | some rest => longLiteralAfter ('\n' :: done) fuel rest
      | none => if isText c then longLiteralAfter (c :: done) fuel rest else none

/-- A line end right after the opening marks is no part of a long text. -/
def dropFirstLineEnd (cs : List Char) : List Char := (newLine? cs).getD cs

def text? : List Char → Option (String × List Char)
  | '"' :: '"' :: '"' :: rest => longBasicAfter [] rest.length (dropFirstLineEnd rest)
  | '\'' :: '\'' :: '\'' :: rest => longLiteralAfter [] rest.length (dropFirstLineEnd rest)
  | '"' :: rest => basicAfter [] rest.length rest
  | '\'' :: rest => literalAfter rest
  | _ => none

/-! ### Keys -/

def isBare (c : Char) : Bool := c.isAlphanum || c = '_' || c = '-'

def simpleKey? : List Char → Option (String × List Char)
  | '"' :: rest => basicAfter [] rest.length rest
  | '\'' :: rest => literalAfter rest
  | cs =>
    match cs.takeWhile isBare with
    | [] => none
    | key => some (String.ofList key, cs.dropWhile isBare)

def keyParts (done : List String) : Nat → List Char → Option (List String × List Char)
  | 0, _ => none
  | fuel + 1, cs => do
    let (part, rest) ← simpleKey? (dropSpaces cs)
    match dropSpaces rest with
    | '.' :: rest => keyParts (part :: done) fuel rest
    | rest => some ((part :: done).reverse, rest)

/-- Keys and values may be nested less deep than this. -/
def depthLimit : Nat := 80

def key? (cs : List Char) : Option (List String × List Char) := keyParts [] (depthLimit - 1) cs

/-! ### Numbers and dates -/

def digitRun (cs : List Char) : List Char := cs.dropWhile Char.isDigit

/-- Digits and the rest. An underscore stands only between two digits and is left out. -/
def moreDigits (isDigit : Char → Bool) : List Char → Option (List Char × List Char)
  | '_' :: d :: rest =>
    if isDigit d then (moreDigits isDigit rest).map fun (ds, rest) => (d :: ds, rest) else none
  | c :: rest =>
    if isDigit c then (moreDigits isDigit rest).map fun (ds, rest) => (c :: ds, rest)
    else if c = '_' then none
    else some ([], c :: rest)
  | [] => some ([], [])

def someDigits (isDigit : Char → Bool) : List Char → Option (List Char × List Char)
  | c :: rest =>
    if isDigit c then (moreDigits isDigit rest).map fun (ds, rest) => (c :: ds, rest) else none
  | [] => none

def dropSign : List Char → List Char
  | '+' :: rest => rest
  | '-' :: rest => rest
  | cs => cs

def valueIn (radix : Nat) (digits : List Char) : Nat :=
  digits.foldl (fun n c => radix * n + (Text.hexDigit? c).getD 0) 0

/-- The digits after a sign. A zero stands alone. -/
def whole? (cs : List Char) : Option (List Char × List Char) :=
  match dropSign cs with
  | '0' :: rest => some (['0'], rest)
  | rest => someDigits Char.isDigit rest

def radixInteger? (radix : Nat) (cs : List Char) : Option (List Char) := do
  let (digits, rest) ← someDigits (fun c => (Text.hexDigit? c).any (· < radix)) cs
  if valueIn radix digits < Decimal.twoTo 63 then some rest else none

def integer? (cs : List Char) : Option (List Char) :=
  match cs with
  | '0' :: 'x' :: rest => radixInteger? 16 rest
  | '0' :: 'o' :: rest => radixInteger? 8 rest
  | '0' :: 'b' :: rest => radixInteger? 2 rest
  | cs => do
    let (digits, rest) ← whole? cs
    let bound := if cs.head? = some '-' then Decimal.twoTo 63 + 1 else Decimal.twoTo 63
    if valueIn 10 digits < bound then some rest else none

/-- A point with its digits. -/
def fraction? : List Char → Option (List Char × List Char)
  | '.' :: cs => someDigits Char.isDigit cs
  | cs => some ([], cs)

/-- An exponent with its mark: its value and the rest. -/
def exponent? : List Char → Option (Option Int × List Char)
  | c :: cs =>
    if c = 'e' ∨ c = 'E' then do
      let (digits, rest) ← someDigits Char.isDigit (dropSign cs)
      let n : Int := valueIn 10 digits
      some (some (if cs.head? = some '-' then -n else n), rest)
    else some (none, c :: cs)
  | [] => some (none, [])

/-- A fraction or an exponent or both make a float. Too large is refused only upwards. -/
def decimalFloat? (cs : List Char) : Option (List Char) := do
  let (digits, rest) ← whole? cs
  let (fraction, rest) ← fraction? rest
  let (e?, rest) ← exponent? rest
  if fraction.isEmpty ∧ e?.isNone then none
  else
    let e := e?.getD 0 - fraction.length
    if cs.head? = some '-' || Decimal.isFinite (valueIn 10 (digits ++ fraction)) e then some rest
    else none

def specialFloat? (cs : List Char) : Option (List Char) :=
  match dropSign cs with
  | 'i' :: 'n' :: 'f' :: rest => some rest
  | 'n' :: 'a' :: 'n' :: rest => some rest
  | _ => none

/-- Two digits within bounds. -/
def twoDigits? (least most : Nat) : List Char → Option (Nat × List Char)
  | a :: b :: rest =>
    let n := 10 * (a.toNat - 48) + (b.toNat - 48)
    if a.isDigit && b.isDigit && least ≤ n && n ≤ most then some (n, rest) else none
  | _ => none

def mark? (c : Char) : List Char → Option (List Char)
  | d :: rest => if c = d then some rest else none
  | [] => none

def daysIn (year month : Nat) : Nat :=
  if month = 2 then
    if year % 4 = 0 ∧ (year % 100 ≠ 0 ∨ year % 400 = 0) then 29 else 28
  else if month = 4 ∨ month = 6 ∨ month = 9 ∨ month = 11 then 30
  else 31

def date? (cs : List Char) : Option (List Char) := do
  let (century, rest) ← twoDigits? 0 99 cs
  let (year, rest) ← twoDigits? 0 99 rest
  let (month, rest) ← twoDigits? 1 12 (← mark? '-' rest)
  let (_, rest) ← twoDigits? 1 (daysIn (100 * century + year) month) (← mark? '-' rest)
  some rest

def time? (cs : List Char) : Option (List Char) := do
  let (_, rest) ← twoDigits? 0 23 cs
  let (_, rest) ← twoDigits? 0 59 (← mark? ':' rest)
  let (_, rest) ← twoDigits? 0 60 (← mark? ':' rest)
  match rest with
  | '.' :: d :: more => if d.isDigit then some (digitRun more) else some rest
  | rest => some rest

def offset? : List Char → Option (List Char)
  | c :: rest =>
    if c = 'Z' ∨ c = 'z' then some rest
    else if c = '+' ∨ c = '-' then do
      let (_, rest) ← twoDigits? 0 23 rest
      let (_, rest) ← twoDigits? 0 59 (← mark? ':' rest)
      some rest
    else none
  | [] => none

/-- A date, with a time after `T` or a space if there is one, or a time alone. -/
def dateTime? (cs : List Char) : Option (List Char) :=
  match date? cs with
  | none => time? cs
  | some rest =>
    match rest with
    | c :: after =>
      if c = 'T' ∨ c = 't' ∨ c = ' ' then
        match time? after with
        | some rest => some ((offset? rest).getD rest)
        | none => some rest
      else some rest
    | [] => some []

def number? (cs : List Char) : Option (List Char) :=
  (dateTime? cs).or <| (decimalFloat? cs).or <| (specialFloat? cs).or (integer? cs)

def truth? : List Char → Option (List Char)
  | 't' :: 'r' :: 'u' :: 'e' :: rest => some rest
  | 'f' :: 'a' :: 'l' :: 's' :: 'e' :: rest => some rest
  | _ => none

end ServiceDoc.Toml
