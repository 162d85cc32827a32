import ServiceDoc.Text.Blank

/-! Where the reading of a pattern stands. While blanks are ignored, so are comments: from a number
sign to the end of the line. -/
namespace ServiceDoc.Pattern

structure Cursor where
  rest : List Char
  ignoresBlanks : Bool := false
  /-- Names of groups so far. -/
  names : List (List Char) := []
deriving DecidableEq, Repr

/-- What comes after blanks and comments. -/
def dropIgnored (inComment : Bool) : List Char → List Char
  | [] => []
  | c :: cs =>
    if inComment then dropIgnored (c ≠ '\n') cs
    else if Text.isBlank c then dropIgnored false cs
    else if c = '#' then dropIgnored true cs
    else c :: cs

/-- The next character that is not blank, for looking ahead: a number sign is passed over once, and
its comment is not. -/
def firstAhead? (inComment : Bool) : List Char → Option Char
  | [] => none
  | c :: cs =>
    if Text.isBlank c then firstAhead? inComment cs
    else if !inComment && c = '#' then firstAhead? true cs
    else some c

namespace Cursor

def moved (k : Cursor) (rest : List Char) : Cursor := { k with rest }

def settled (k : Cursor) : Cursor :=
  if k.ignoresBlanks then k.moved (dropIgnored false k.rest) else k

def ahead? (k : Cursor) : Option Char :=
  if k.ignoresBlanks then (firstAhead? false k.rest).or k.rest.head? else k.rest.head?

end Cursor
end ServiceDoc.Pattern
