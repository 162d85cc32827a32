import ServiceDoc.Json.Numeral
import ServiceDoc.Json.QuotedText

/-! Tokens of a JSON text. The scan ends with the text or at the first token that is broken, which
is then the last one. -/
namespace ServiceDoc.Json

inductive Token where
  | openList
  | closeList
  | openObject
  | closeObject
  | comma
  | colon
  | null
  | bool (b : Bool)
  | number (n : Numeral)
  | text (q : QuotedText)
  | brokenText (b : Break)
  | broken (b : Break)
deriving DecidableEq, Repr

namespace Token

def isSpace (c : Char) : Bool := c = ' ' || c = '\t' || c = '\n' || c = '\r'

/-- The rest of a literal after its first letter. -/
def takeLiteral : List Char → List Char → Except Break (List Char)
  | [], rest => .ok rest
  | _ :: _, [] => .error (.of (.textEnds .value))
  | w :: word, c :: rest => if c = w then takeLiteral word rest else .error (.of .literalExpected)

def punctuation? : Char → Option Token
  | '[' => some .openList
  | ']' => some .closeList
  | '{' => some .openObject
  | '}' => some .closeObject
  | ',' => some .comma
  | ':' => some .colon
  | _ => none

/-- The token that starts with a character that is no space, and the rest of the text. -/
def take (c : Char) (rest : List Char) : Except Token (Token × List Char) :=
  match punctuation? c with
  | some t => .ok (t, rest)
  | none =>
    if c = '"' then
      ((QuotedText.take rest).map fun (q, rest) => (.text q, rest)).mapError .brokenText
    else if c = '-' ∨ c.isDigit then
      ((Numeral.take (c :: rest)).map fun (n, rest) => (.number n, rest)).mapError .broken
    else
      Except.mapError .broken <|
        match c with
        | 'n' => (takeLiteral ['u', 'l', 'l'] rest).map (.null, ·)
        | 't' => (takeLiteral ['r', 'u', 'e'] rest).map (.bool true, ·)
        | 'f' => (takeLiteral ['a', 'l', 's', 'e'] rest).map (.bool false, ·)
        | _ => .error (.of .valueExpected)

/-- Every step uses up a character, so the length of the text is fuel enough. -/
def scanOnto (done : List Token) : Nat → List Char → List Token
  | _, [] => done.reverse
  | 0, _ => done.reverse
  | fuel + 1, c :: rest =>
    if isSpace c then scanOnto done fuel rest
    else
      match take c rest with
      | .ok (t, rest) => scanOnto (t :: done) fuel rest
      | .error t => (t :: done).reverse

def scan (cs : List Char) : List Token := scanOnto [] cs.length cs

end Token
end ServiceDoc.Json
