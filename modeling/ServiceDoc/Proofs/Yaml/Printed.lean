import ServiceDoc.Yaml.Writer

/-! The text of data in YAML, told forward. The writer ends a line only when the next one begins; here
each text has its line end, so that what is written inside a node does not depend on what comes after
it. -/
namespace ServiceDoc.Yaml

open Page (doubleChar literalEnd)

def spaces (n : Nat) : List Char := List.replicate n ' '

theorem reverse_spaces (n : Nat) : (spaces n).reverse = spaces n := List.reverse_replicate ..

/-! ### Scalars -/

inductive Scalar where
  | bare (cs : List Char)
  | single (cs : List Char)
  | double (cs : List Char)
  | literal (cs : List Char)

/-- What comes before the next character of a line; `broken` says that the line before has just
ended. -/
def margin (column : Nat) (broken : Bool) : List Char := if broken then spaces column else []

theorem reverse_margin (column : Nat) (broken : Bool) :
    (margin column broken).reverse = margin column broken := by
  cases broken with
  | false => rfl
  | true => exact reverse_spaces column

/-- A text over several lines: each but an empty one begins at its column, and some characters need
something after them. -/
def linesAt (column : Nat) (after : Char → List Char) : Bool → List Char → List Char
  | _, [] => []
  | broken, c :: cs =>
    if isBreak c then c :: linesAt column after true cs
    else margin column broken ++ c :: (after c ++ linesAt column after false cs)

theorem linesAt_break {c : Char} (ends : isBreak c = true) (column : Nat)
    (after : Char → List Char) (broken : Bool) (cs : List Char) :
    linesAt column after broken (c :: cs) = c :: linesAt column after true cs :=
  if_pos ends

theorem linesAt_char {c : Char} (other : isBreak c = false) (column : Nat)
    (after : Char → List Char) (broken : Bool) (cs : List Char) :
    linesAt column after broken (c :: cs) =
      margin column broken ++ c :: (after c ++ linesAt column after false cs) :=
  if_neg (Bool.eq_false_iff.mp other)

theorem linesAt_cons (column : Nat) (after : Char → List Char) (broken : Bool) (c : Char)
    (cs : List Char) :
    linesAt column after broken (c :: cs) =
      linesAt column after broken [c] ++ linesAt column after (isBreak c) cs := by
  cases ends : isBreak c <;> simp [linesAt, ends]

/-- Whether the last character of a text ends a line; an empty text goes on as what is before it. -/
def endsBroken : Bool → List Char → Bool
  | broken, [] => broken
  | _, c :: cs => endsBroken (isBreak c) cs

/-- A quote is written twice. -/
def secondQuote (c : Char) : List Char := if c = '\'' then [c] else []

/-- What stands between single quotes, with the quote that ends it. -/
def singleLines (column : Nat) (cs : List Char) : List Char :=
  linesAt column secondQuote false cs ++ (margin column (endsBroken false cs) ++ ['\''])

def literalMark (cs : List Char) : List Char :=
  '|' :: (if startsWith (fun c => c = ' ' || isBreak c) cs then ['2'] else []) ++ literalEnd cs

def lineEnd (broken : Bool) : List Char := if broken then [] else ['\n']

@[simp] theorem lineEnd_true : lineEnd true = [] := rfl

@[simp] theorem lineEnd_false : lineEnd false = ['\n'] := rfl

/-- The lines of a literal, with the end of the last one. -/
def literalLines (column : Nat) (cs : List Char) : List Char :=
  linesAt column (fun _ => []) true cs ++ lineEnd (endsBroken true cs)

namespace Scalar

def chars : Scalar → List Char
  | bare cs | single cs | double cs | literal cs => cs

/-- What a scalar puts into the line that it begins in. -/
def inline (column : Nat) : Scalar → List Char
  | bare cs => cs
  | single cs => '\'' :: singleLines column cs
  | double cs => '"' :: (cs.flatMap doubleChar ++ ['"'])
  | literal cs => literalMark cs

/-- What stands below the line that a scalar begins in. -/
def body (column : Nat) : Scalar → List Char
  | literal cs => literalLines column cs
  | _ => []

def lines (column : Nat) (s : Scalar) : List Char := s.inline column ++ '\n' :: s.body column

def ofStyle (cs : List Char) : Style → Scalar
  | .plain => bare cs
  | .single => single cs
  | .double => double cs
  | .literal => literal cs

def ofText (s : String) (simpleKey : Bool) : Scalar := ofStyle s.toList (styleOf s simpleKey)

end Scalar

/-! ### Nodes -/

/-- Where a node is written: at the top, after a mark, or after a key of one line. Columns are those
of the mark and of the key. -/
inductive Place where
  | top
  | mark (column : Nat)
  | key (column : Nat)

namespace Place

def indent : Place → Option Nat
  | top => none
  | mark column | key column => some column

def gap : Place → List Char
  | top => []
  | mark _ | key _ => [' ']

/-- Items after a key stand below it. -/
def itemColumn : Place → Nat
  | top => 0
  | mark column => column + 2
  | key column => column

/-- What comes before the first line of a block; after a key it is on a line of its own. -/
def lead (place : Place) (column : Nat) : List Char :=
  match place with
  | top => []
  | mark _ => [' ']
  | key _ => '\n' :: spaces column

end Place

def isSimpleKey (key : String) : Bool := !isMultiline key.toList && key.utf8ByteSize ≤ 128

/-- A key with the mark after it. -/
def keyText (column : Nat) (key : String) : List Char :=
  if isSimpleKey key then (Scalar.ofText key true).inline (column + 2) ++ [':']
  else '?' :: ' ' :: (Scalar.ofText key false).lines (column + 2) ++ spaces column ++ [':']

def valuePlace (column : Nat) (key : String) : Place :=
  if isSimpleKey key then .key column else .mark column

theorem indent_valuePlace (column : Nat) (key : String) :
    (valuePlace column key).indent = some column := by
  unfold valuePlace
  split <;> rfl

mutual

/-- Numbers and nulls, which documents do not have, are left out. -/
def nodeText (place : Place) : Datum → List Char
  | .null | .int _ | .float _ => []
  | .bool b =>
    place.gap ++ (Scalar.bare (if b then ['t', 'r', 'u', 'e'] else ['f', 'a', 'l', 's', 'e'])).lines
      (textColumn place.indent)
  | .text s => place.gap ++ (Scalar.ofText s false).lines (textColumn place.indent)
  | .list items =>
    if items.isEmpty then place.gap ++ (Scalar.bare ['[', ']']).lines (textColumn place.indent)
    else itemsText (place.lead place.itemColumn) place.itemColumn items
  | .map members =>
    if members.isEmpty then
      place.gap ++ (Scalar.bare ['\x7b', '\x7d']).lines (textColumn place.indent)
    else membersText (place.lead (inner place.indent)) (inner place.indent) members

/-- Items at a column; the first one stands after what leads the block in. -/
def itemsText (lead : List Char) (column : Nat) : List Datum → List Char
  | [] => []
  | d :: rest =>
    lead ++ '-' :: nodeText (.mark column) d ++ itemsText (spaces column) column rest

def membersText (lead : List Char) (column : Nat) : List (String × Datum) → List Char
  | [] => []
  | (key, d) :: rest =>
    lead ++ keyText column key ++ nodeText (valuePlace column key) d ++
      membersText (spaces column) column rest

end

end ServiceDoc.Yaml
