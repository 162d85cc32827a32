import ServiceDoc.Pattern.Bracketed
import ServiceDoc.Text.Alphanumeric

/-! Reading of patterns. A pattern ends with the field it belongs to, at a closing brace, and so it
holds none: an opening brace that counts repetitions is never closed. -/
namespace ServiceDoc.Pattern

def flagNames : List Char := ['i', 'm', 's', 'U', 'u', 'R', 'x', '-']

/-- Every flag and the dash occur once at most, and something follows the dash. -/
def Flags.isProper (f : Flags) : Bool :=
  f.items.all flagNames.contains && f.items.Nodup && f.items.getLast? ≠ some '-'

/-- What a parenthesis opens. -/
inductive Opening where
  | flags (f : Flags)
  | group (f : Flags)
deriving DecidableEq, Repr

def openFlags (k : Cursor) : Option (Opening × Cursor) :=
  let isFlag (c : Char) : Bool := c ≠ ':' && c ≠ ')'
  let f : Flags := ⟨k.rest.takeWhile isFlag⟩
  if !f.isProper then none
  else
    match k.rest.dropWhile isFlag with
    | ':' :: rest => some (.group f, k.moved rest)
    | _ :: rest => if f.items = [] then none else some (.flags f, k.moved rest)
    | [] => none

def isNameStart (c : Char) : Bool := c = '_' || Text.isAlphabetic c

def isNamePart (c : Char) : Bool :=
  c = '_' || c = '.' || c = '[' || c = ']' || Text.isAlphanumeric c

/-- The name of a group: no other group has it. -/
def openName (k : Cursor) : Option (Opening × Cursor) :=
  let name := k.rest.takeWhile (· ≠ '>')
  match name, k.rest.dropWhile (· ≠ '>') with
  | c :: cs, _ :: rest =>
    if isNameStart c && cs.all isNamePart && !k.names.contains name then
      some (.group {}, { k with rest, names := name :: k.names })
    else none
  | _, _ => none

def opening (k : Cursor) : Option (Opening × Cursor) :=
  let k := k.settled
  match k.rest with
  | '?' :: 'P' :: '<' :: rest => openName (k.moved rest)
  | '?' :: '<' :: rest => openName (k.moved rest)
  | '?' :: rest => openFlags (k.moved rest)
  | _ => some (.group {}, k)

/-- What stands before a repetition. Flags cannot be repeated. -/
def repeatedLast : List Expression → Option (List Expression)
  | [] => none
  | .flags _ :: _ => none
  | e :: before => some (.repeated e :: before)

/-- A question mark after a repetition belongs to it. -/
def dropLazy : List Char → List Char
  | '?' :: rest => rest
  | rest => rest

def atom (k : Cursor) : Option (Atom × Cursor) :=
  match k.rest with
  | [] => none
  | '[' :: rest => bracketed (k.moved rest)
  | '\\' :: rest => escape (k.moved rest)
  | '.' :: rest => some (.any, k.moved rest)
  | '^' :: rest => some (.edge, k.moved rest)
  | '$' :: rest => some (.edge, k.moved rest)
  | c :: rest => some (.letter { char := c }, k.moved rest)

def Cursor.heeding (k : Cursor) (f : Flags) : Cursor :=
  { k with ignoresBlanks := (f.state? 'x').getD k.ignoresBlanks }

/-- Reads up to a closing parenthesis or the end, after the choices and the parts found so far. -/
def choices : Nat → List Expression → List Expression → Cursor → Option (Expression × Cursor)
  | 0, _, _, _ => none
  | fuel + 1, before, found, k =>
    let k := k.settled
    let done := Expression.ofSequence found.reverse
    match k.rest with
    | [] | ')' :: _ => some (.ofChoices (done :: before).reverse, k)
    | '|' :: rest => choices fuel (done :: before) [] (k.moved rest)
    | '?' :: rest | '*' :: rest | '+' :: rest => do
      choices fuel before (← repeatedLast found) (k.moved (dropLazy rest))
    | '{' :: _ => none
    | '(' :: rest =>
      match opening (k.moved rest) with
      | none => none
      | some (.flags f, after) => choices fuel before (.flags f :: found) (after.heeding f)
      | some (.group f, inner) =>
        match choices fuel [] [] (inner.heeding f) with
        | some (e, { rest := ')' :: rest, names, .. }) =>
          choices fuel before (.group f e :: found) { k with rest, names }
        | _ => none
    | _ => do
      let (a, k) ← atom k
      choices fuel before (.atom a :: found) k

/-- A closing parenthesis is left over when nothing opened it. -/
def Expression.read? (cs : List Char) : Option Expression :=
  match choices (cs.length + 1) [] [] { rest := cs } with
  | some (e, { rest := [], .. }) => some e
  | _ => none

end ServiceDoc.Pattern
