import ServiceDoc.Toml.Lexeme
import ServiceDoc.Toml.Table

/-! TOML texts. A text is read to its table of entries, or refused as a whole. -/
namespace ServiceDoc.Toml

abbrev Reader (α : Type) := List Char → Option (α × List Char)

/-- The items of a list up to its bracket. A comma may follow the last one. -/
def listItems (item : Reader Item) : Nat → List Char → Option (List Char)
  | 0, _ => none
  | fuel + 1, cs => do
    match ← dropLines cs with
    | ']' :: rest => some rest
    | cs =>
      let (_, rest) ← item cs
      match ← dropLines rest with
      | ',' :: rest => listItems item fuel rest
      | ']' :: rest => some rest
      | _ => none

/-- The last part of a key, after the others. -/
def splitKey (parts : List String) : Option (List String × String) :=
  match parts.reverse with
  | [] => none
  | last :: before => some (before.reverse, last)

/-- A key and its value; between them and around the sign only spaces. -/
def keyAndValue (item : Reader Item) : Reader (List String × String × Item) := fun cs => do
  let (parts, rest) ← key? cs
  let (path, name) ← splitKey parts
  let (value, rest) ← item (dropSpaces (← mark? '=' rest))
  some ((path, name, value), rest)

/-- The entries of an inline table after its first brace or a comma. -/
def inlineEntries (item : Reader Item) (es : Entries) : Nat → Reader Entries
  | 0, _ => none
  | fuel + 1, cs => do
    let ((path, name, value), rest) ← keyAndValue item cs
    let es ← es.addInline name value path none
    match dropSpaces rest with
    | ',' :: rest => inlineEntries item es fuel rest
    | '\x7d' :: rest => some (es, rest)
    | _ => none

/-- A value with lists and tables nested less deep than a limit. -/
def value : (room : Nat) → Reader Item
  | room, cs =>
    match cs with
    | '[' :: rest =>
      match room with
      | 0 => none
      | room + 1 => (listItems (value room) rest.length rest).map (.other, ·)
    | '\x7b' :: rest =>
      match room with
      | 0 => none
      | room + 1 =>
        match dropSpaces rest with
        | '\x7d' :: rest => some (.inline .stated [], rest)
        | rest => (inlineEntries (value room) [] rest.length rest).map fun (es, rest) =>
          (.inline .stated es, rest)
    | '"' :: _ => (text? cs).map fun (s, rest) => (.text s, rest)
    | '\'' :: _ => (text? cs).map fun (s, rest) => (.text s, rest)
    | cs => ((number? cs).or (truth? cs)).map (.other, ·)

def topValue : Reader Item := value (depthLimit - 1)

/-- A header with its brackets, and the end of its line. -/
def header (brackets : Nat) : Reader (List String × String) := fun cs => do
  let (parts, rest) ← key? cs
  let (path, name) ← splitKey parts
  let closed := rest.take brackets
  if closed = List.replicate brackets ']' then
    let rest ← lineEnd? (rest.drop brackets)
    some ((path, name), rest)
  else none

/-- One line of a file, or more if its value goes on. -/
def line (d : Draft) (cs : List Char) : Option (Draft × List Char) :=
  match cs with
  | '[' :: '[' :: rest => do
    let ((path, name), rest) ← header 2 rest
    some (← d.startElement path name, rest)
  | '[' :: rest => do
    let ((path, name), rest) ← header 1 rest
    some (← d.startTable path name, rest)
  | '#' :: _ => do some (d, ← lineEnd? cs)
  | '\n' :: rest => some (d, rest)
  | '\r' :: _ => do some (d, ← newLine? cs)
  | cs => do
    let ((path, name, item), rest) ← keyAndValue topValue cs
    let rest ← lineEnd? rest
    some (← d.add path name item, rest)

def linesFrom (d : Draft) : Nat → List Char → Option Draft
  | fuel, cs =>
    match dropSpaces cs with
    | [] => some d
    | cs =>
      match fuel with
      | 0 => none
      | fuel + 1 => do
        let (d, rest) ← line d cs
        linesFrom d fuel rest

/-- A byte order mark at the start is passed over. -/
def read (s : String) : Option Entries := do
  let cs := match s.toList with
    | c :: rest => if c.toNat = 0xFEFF then rest else c :: rest
    | [] => []
  (← linesFrom {} cs.length cs).finish

end ServiceDoc.Toml
