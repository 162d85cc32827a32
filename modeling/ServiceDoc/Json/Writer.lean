import ServiceDoc.Json.Decode

/-! Written JSON: compact, or indented by two spaces a level. Quotes, backslashes and control
characters are escaped; every other character stands for itself. -/
namespace ServiceDoc.Json

def hexDigit (n : Nat) : Char := Nat.digitChar n

def escape (c : Char) : List Char :=
  match c with
  | '"' => ['\\', '"']
  | '\\' => ['\\', '\\']
  | '\x08' => ['\\', 'b']
  | '\x0c' => ['\\', 'f']
  | '\n' => ['\\', 'n']
  | '\r' => ['\\', 'r']
  | '\t' => ['\\', 't']
  | c =>
    if c.toNat < 0x20 then
      ['\\', 'u', '0', '0', hexDigit (c.toNat / 16), hexDigit (c.toNat % 16)]
    else [c]

def writeText (s : String) : List Char := '"' :: (s.toList.flatMap escape ++ ['"'])

def writeInt (n : Int) : List Char :=
  if n < 0 then '-' :: Nat.toDigits 10 n.natAbs else Nat.toDigits 10 n.natAbs

def writeDouble (x : Float) : List Char :=
  if x.isFinite then floatLayout.writeFloat x else ['n', 'u', 'l', 'l']

namespace Datum

mutual

def compact : Datum → List Char
  | .null => ['n', 'u', 'l', 'l']
  | .bool true => ['t', 'r', 'u', 'e']
  | .bool false => ['f', 'a', 'l', 's', 'e']
  | .int n => writeInt n
  | .float x => writeDouble x
  | .text s => writeText s
  | .list [] => ['[', ']']
  | .list (d :: ds) => '[' :: (compact d ++ compactItems ds)
  | .map [] => ['{', '}']
  | .map ((key, d) :: rest) => '{' :: (writeText key ++ ':' :: (compact d ++ compactMembers rest))

def compactItems : List Datum → List Char
  | [] => [']']
  | d :: ds => ',' :: (compact d ++ compactItems ds)

def compactMembers : List (String × Datum) → List Char
  | [] => ['}']
  | (key, d) :: rest => ',' :: (writeText key ++ ':' :: (compact d ++ compactMembers rest))

end

def newLine (depth : Nat) : List Char := '\n' :: List.replicate (2 * depth) ' '

mutual

def indented (depth : Nat) : Datum → List Char
  | .list [] => ['[', ']']
  | .list (d :: ds) =>
    '[' :: (newLine (depth + 1) ++ (indented (depth + 1) d ++ indentedItems depth ds))
  | .map [] => ['{', '}']
  | .map ((key, d) :: rest) =>
    '{' :: (newLine (depth + 1) ++
      (writeText key ++ ':' :: ' ' :: (indented (depth + 1) d ++ indentedMembers depth rest)))
  | .null => ['n', 'u', 'l', 'l']
  | .bool true => ['t', 'r', 'u', 'e']
  | .bool false => ['f', 'a', 'l', 's', 'e']
  | .int n => writeInt n
  | .float x => writeDouble x
  | .text s => writeText s

def indentedItems (depth : Nat) : List Datum → List Char
  | [] => newLine depth ++ [']']
  | d :: ds =>
    ',' :: (newLine (depth + 1) ++ (indented (depth + 1) d ++ indentedItems depth ds))

def indentedMembers (depth : Nat) : List (String × Datum) → List Char
  | [] => newLine depth ++ ['}']
  | (key, d) :: rest =>
    ',' :: (newLine (depth + 1) ++
      (writeText key ++ ':' :: ' ' :: (indented (depth + 1) d ++ indentedMembers depth rest)))

end

end Datum

def write (d : Datum) : String := String.ofList (Datum.compact d)

def writeIndented (d : Datum) : String := String.ofList (Datum.indented 0 d)

end ServiceDoc.Json
