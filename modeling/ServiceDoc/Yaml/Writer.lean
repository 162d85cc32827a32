import ServiceDoc.Json.Writer
import ServiceDoc.Yaml.Scalar

/-! Block YAML. The writer keeps the text, the column, and whether it stands after a space or at
an indentation; from these it knows where a line has to end. Lines are never folded. -/
namespace ServiceDoc.Yaml

/-- The text so far, latest character first. -/
structure Page where
  text : List Char := []
  column : Nat := 0
  afterSpace : Bool := true
  atIndent : Bool := true

namespace Page

def put (p : Page) (c : Char) : Page := { p with text := c :: p.text, column := p.column + 1 }

def putAll (p : Page) (cs : List Char) : Page := cs.foldl put p

def putBreak (p : Page) (c : Char) : Page := { p with text := c :: p.text, column := 0 }

/-- Goes to a column, on a new line if this one has passed it. -/
def indent (p : Page) (column : Nat) : Page :=
  let p :=
    if !p.atIndent || column < p.column || (p.column == column && !p.afterSpace) then
      p.putBreak '\n'
    else p
  let p := p.putAll (List.replicate (column - p.column) ' ')
  { p with afterSpace := true, atIndent := true }

/-- A mark of the format. -/
def mark (p : Page) (cs : List Char) (needsSpace endsSpace indents : Bool) : Page :=
  let p := if needsSpace && !p.afterSpace then p.put ' ' else p
  let p := p.putAll cs
  { p with afterSpace := endsSpace, atIndent := p.atIndent && indents }

def inText (p : Page) : Page := { p with afterSpace := false, atIndent := false }

def writePlain (p : Page) (cs : List Char) : Page :=
  let p := if !p.afterSpace && !cs.isEmpty then p.put ' ' else p
  (p.putAll cs).inText

/-- One character of a single quoted text; `broken` says that a line has just ended. -/
def putSingle (column : Nat) (s : Page × Bool) (c : Char) : Page × Bool :=
  let (p, broken) := s
  if isBreak c then
    let p := if !broken && c = '\n' then p.putBreak '\n' else p
    ({ p.putBreak c with atIndent := true }, true)
  else
    let p := if broken then p.indent column else p
    let p := if c = '\'' then p.put '\'' else p
    ({ p.put c with atIndent := false }, false)

def writeSingle (p : Page) (column : Nat) (cs : List Char) : Page :=
  let (p, broken) := cs.foldl (putSingle column) (p.mark ['\''] true false false, false)
  let p := if broken then p.indent column else p
  (p.mark ['\''] false false false).inText

def hexDigits (width n : Nat) : List Char :=
  let ds := (Nat.toDigits 16 n).map Char.toUpper
  List.replicate (width - ds.length) '0' ++ ds

def escapeName? (n : Nat) : Option Char :=
  match n with
  | 0x00 => some '0'
  | 0x07 => some 'a'
  | 0x08 => some 'b'
  | 0x09 => some 't'
  | 0x0A => some 'n'
  | 0x0B => some 'v'
  | 0x0C => some 'f'
  | 0x0D => some 'r'
  | 0x1B => some 'e'
  | 0x22 => some '"'
  | 0x5C => some '\\'
  | 0x85 => some 'N'
  | 0xA0 => some '_'
  | 0x2028 => some 'L'
  | 0x2029 => some 'P'
  | _ => none

def doubleChar (c : Char) : List Char :=
  let n := c.toNat
  if !isPrintable c || isBreak c || c = '"' || c = '\\' then
    '\\' :: match escapeName? n with
      | some name => [name]
      | none =>
        if n ≤ 0xFF then 'x' :: hexDigits 2 n
        else if n ≤ 0xFFFF then 'u' :: hexDigits 4 n
        else 'U' :: hexDigits 8 n
  else [c]

def writeDouble (p : Page) (cs : List Char) : Page :=
  let p := (p.mark ['"'] true false false).putAll (cs.flatMap doubleChar)
  (p.mark ['"'] false false false).inText

/-- How the end of a literal is told: without its only break, as it is, or with all its breaks. -/
def literalEnd (cs : List Char) : List Char :=
  match cs.reverse with
  | [] => ['-']
  | last :: before =>
    if !isBreak last then ['-']
    else
      match before with
      | [] => ['+']
      | c :: _ => if isBreak c then ['+'] else []

def putLiteral (column : Nat) (s : Page × Bool) (c : Char) : Page × Bool :=
  let (p, broken) := s
  if isBreak c then ({ p.putBreak c with atIndent := true }, true)
  else
    let p := if broken then p.indent column else p
    ({ p.put c with atIndent := false }, false)

def writeLiteral (p : Page) (column : Nat) (cs : List Char) : Page :=
  let p := p.mark ['|'] true false false
  let p := if startsWith (fun c => c = ' ' || isBreak c) cs then p.mark ['2'] false false false else p
  let ending := literalEnd cs
  let p := if ending.isEmpty then p else p.mark ending false false false
  let p := { p.putBreak '\n' with atIndent := true, afterSpace := true }
  (cs.foldl (putLiteral column) (p, true)).1

/-- A text inside a node at some indentation. -/
def writeText (p : Page) (column : Nat) (s : String) (simpleKey : Bool) : Page :=
  let cs := s.toList
  match styleOf s simpleKey with
  | .plain => p.writePlain cs
  | .single => p.writeSingle column cs
  | .double => p.writeDouble cs
  | .literal => p.writeLiteral column cs

def writeKey (p : Page) (column : Nat) (key : String) : Page :=
  let p := p.indent column
  if !isMultiline key.toList && key.utf8ByteSize ≤ 128 then
    (p.writeText (column + 2) key true).mark [':'] false false false
  else
    let p := (p.mark ['?'] true false true).writeText (column + 2) key false
    (p.indent column).mark [':'] true false true

end Page

/-- The indentation of what is inside a node; outside everything there is none. -/
def inner : Option Nat → Nat
  | none => 0
  | some n => n + 2

/-- Texts go two columns further in than their node, also at the top. -/
def textColumn : Option Nat → Nat
  | none => 2
  | some n => n + 2

mutual

def writeNode (p : Page) (indent : Option Nat) (inMap : Bool) : Datum → Page
  | .null => p.writePlain ['n', 'u', 'l', 'l']
  | .bool b => p.writePlain (if b then ['t', 'r', 'u', 'e'] else ['f', 'a', 'l', 's', 'e'])
  | .int n => p.writePlain (Json.writeInt n)
  | .float x => p.writePlain (Json.writeDouble x)
  | .text s => p.writeText (textColumn indent) s false
  | .list items =>
    if items.isEmpty then (p.mark ['['] true true false).mark [']'] false false false
    else writeItems p (if inMap && !p.atIndent then indent.getD 0 else inner indent) items
  | .map members =>
    if members.isEmpty then (p.mark ['{'] true true false).mark ['}'] false false false
    else writeMembers p (inner indent) members

def writeItems (p : Page) (column : Nat) : List Datum → Page
  | [] => p
  | d :: rest =>
    let p := (p.indent column).mark ['-'] true false true
    writeItems (writeNode p (some column) false d) column rest

def writeMembers (p : Page) (column : Nat) : List (String × Datum) → Page
  | [] => p
  | (key, d) :: rest =>
    writeMembers (writeNode (p.writeKey column key) (some column) true d) column rest

end

/-- A whole text; it ends with a line end. -/
def write (d : Datum) : String :=
  String.ofList ((writeNode {} none false d).indent 0).text.reverse

end ServiceDoc.Yaml
