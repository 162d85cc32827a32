import ServiceDoc.Decimal.Power
import ServiceDoc.Decimal.Range

/-! Scalars of YAML: which way of writing a text asks for, and which ways it allows. A text that
would be read as something else than a text is quoted. -/
namespace ServiceDoc.Yaml

def isBreak (c : Char) : Bool :=
  c = '\r' || c = '\n' || c.toNat = 0x85 || c.toNat = 0x2028 || c.toNat = 0x2029

def isPrintable (c : Char) : Bool :=
  let n := c.toNat
  n == 0x0A || (0x20 ≤ n && n ≤ 0x7E) || (0xA0 ≤ n && n ≤ 0xD7FF) ||
    (0xE000 ≤ n && n ≤ 0xFFFD && n != 0xFEFF) || 0x10000 ≤ n

def isSeparator (c : Char) : Bool := c = ' ' || c = '\t' || c.toNat = 0 || isBreak c

def separatorOrEnd : Option Char → Bool
  | none => true
  | some c => isSeparator c

/-- Each character with the one after it. -/
def withNext (cs : List Char) : List (Char × Option Char) :=
  cs.zip (cs.tail.map some ++ [none])

/-- Each character but the first with the one before it. -/
def withPrevious (cs : List Char) : List (Char × Char) := cs.zip cs.tail

/-- Whether the text holds something that means structure when it is written bare. -/
def hasIndicator (cs : List Char) : Bool :=
  ['-', '-', '-'].isPrefixOf cs || ['.', '.', '.'].isPrefixOf cs ||
    (match withNext cs with
      | [] => false
      | (c, next) :: rest =>
        "#,[]\x7b\x7d&*!|>'\"%@`".toList.contains c ||
          (['?', ':', '-'].contains c && separatorOrEnd next) ||
          rest.any fun (c, next) => c = ':' && separatorOrEnd next) ||
    (withPrevious cs).any fun (before, c) => c = '#' && isSeparator before

def isMultiline (cs : List Char) : Bool := cs.any isBreak

def hasSpecial (cs : List Char) : Bool := cs.any fun c => !isPrintable c

def spaceAfterBreak (cs : List Char) : Bool :=
  (withPrevious cs).any fun (before, c) => isBreak before && c = ' '

def breakAfterSpace (cs : List Char) : Bool :=
  (withPrevious cs).any fun (before, c) => before = ' ' && isBreak c

def startsWith (p : Char → Bool) (cs : List Char) : Bool := cs.head?.any p

def endsWith (p : Char → Bool) (cs : List Char) : Bool := cs.getLast?.any p

def isSpace (c : Char) : Bool := c = ' '

def plainAllowed (cs : List Char) : Bool :=
  !(startsWith isSpace cs || endsWith isSpace cs || startsWith isBreak cs || endsWith isBreak cs ||
    spaceAfterBreak cs || breakAfterSpace cs || hasSpecial cs || isMultiline cs || hasIndicator cs)

def singleAllowed (cs : List Char) : Bool :=
  !(spaceAfterBreak cs || breakAfterSpace cs || hasSpecial cs)

def literalAllowed (cs : List Char) : Bool :=
  !cs.isEmpty && !(endsWith isSpace cs || breakAfterSpace cs || hasSpecial cs)

/-! ### Texts that look like numbers -/

def digit? (radix : Nat) (c : Char) : Option Nat :=
  let n := c.toNat
  let value :=
    if 48 ≤ n ∧ n ≤ 57 then n - 48
    else if 97 ≤ n ∧ n ≤ 102 then n - 87
    else if 65 ≤ n ∧ n ≤ 70 then n - 55
    else radix
  if value < radix then some value else none

/-- The number that a run of digits denotes; no digits denote none. -/
def natural? (radix : Nat) : List Char → Option Nat
  | [] => none
  | cs => cs.foldlM (fun n c => (digit? radix c).map (radix * n + ·)) 0

def isSign (c : Char) : Bool := c = '+' || c = '-'

/-- Digits after a leading zero. -/
def hasLeadingZero (cs : List Char) : Bool :=
  match (match cs with
    | c :: rest => if isSign c then rest else cs
    | [] => []) with
  | '0' :: d :: rest => (d :: rest).all Char.isDigit
  | _ => false

def radixOf : Char → Option Nat
  | 'x' => some 16
  | 'o' => some 8
  | 'b' => some 2
  | _ => none

def withoutPlus : List Char → List Char
  | '+' :: rest => rest
  | cs => cs

def fits (n : Option Nat) (bound : Nat) : Bool := n.any (· < bound)

/-- Integers from zero up to 128 bits. -/
def isUnsigned (cs : List Char) : Bool :=
  let bare := withoutPlus cs
  (match bare with
    | '0' :: r :: rest =>
      match radixOf r with
      | some radix => fits (natural? radix rest) (Decimal.twoTo 128)
      | none => false
    | _ => false) ||
    (!startsWith isSign bare && !hasLeadingZero cs && fits (natural? 10 bare) (Decimal.twoTo 128))

/-- Signed integers of 128 bits. -/
def isSigned (cs : List Char) : Bool :=
  (match cs with
    | '-' :: '0' :: r :: rest =>
      match radixOf r with
      | some radix => fits (natural? radix rest) (Decimal.twoTo 127 + 1)
      | none => false
    | _ => false) ||
    (!hasLeadingZero cs &&
      match cs with
      | '-' :: rest => fits (natural? 10 rest) (Decimal.twoTo 127 + 1)
      | cs => fits (natural? 10 (withoutPlus cs)) (Decimal.twoTo 127))

/-- The exponent that ends a number; a number may have none. -/
def exponent? : List Char → Option Int
  | [] => some 0
  | e :: rest =>
    if e = 'e' ∨ e = 'E' then
      match rest with
      | '-' :: ds => (natural? 10 ds).map fun n => -(n : Int)
      | ds => (natural? 10 (withoutPlus ds)).map fun n => (n : Int)
    else none

/-- Decimal numbers with a fraction or an exponent or neither, within the range of doubles. -/
def isDecimal (cs : List Char) : Bool :=
  let cs := match cs with
    | c :: rest => if isSign c then rest else cs
    | [] => []
  let whole := cs.takeWhile Char.isDigit
  let rest := cs.dropWhile Char.isDigit
  let (fraction, rest) : List Char × List Char :=
    match rest with
    | '.' :: rest => (rest.takeWhile Char.isDigit, rest.dropWhile Char.isDigit)
    | rest => ([], rest)
  match natural? 10 (whole ++ fraction), exponent? rest with
  | some digits, some e => Decimal.isFinite digits (e - fraction.length)
  | _, _ => false

def isFloat (s : String) : Bool :=
  let cs := s.toList
  let bare := withoutPlus cs
  !(cs != bare && startsWith isSign bare) &&
    ([".inf", ".Inf", ".INF"].contains (String.ofList bare) ||
      ["-.inf", "-.Inf", "-.INF", ".nan", ".NaN", ".NAN"].contains s ||
      isDecimal bare)

def isKeyword (s : String) : Bool :=
  ["", "null", "Null", "NULL", "~", "true", "True", "TRUE", "false", "False", "FALSE"].contains s

inductive Style where
  | plain
  | single
  | double
  | literal
deriving DecidableEq, Repr

/-- What a text asks for by itself. -/
def wantedStyle (s : String) : Style :=
  let cs := s.toList
  if cs.contains '\n' then .literal
  else if isKeyword s || isUnsigned cs || isSigned cs || hasLeadingZero cs || isFloat s then .single
  else .plain

/-- What it gets; a simple key has to stay on one line. -/
def styleOf (s : String) (simpleKey : Bool) : Style :=
  let cs := s.toList
  let style := wantedStyle s
  let style := if simpleKey && isMultiline cs then .double else style
  let style := if style = .plain && !plainAllowed cs then .single else style
  let style := if style = .single && !singleAllowed cs then .double else style
  if style = .literal && (!literalAllowed cs || simpleKey) then .double else style

end ServiceDoc.Yaml
