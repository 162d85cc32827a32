/-! Expressions of patterns: what the value of a field may look like. An expression is only ever
asked how deep it is and whether it can be used; none is compared with a value here. -/
namespace ServiceDoc.Pattern

/-- A character, and whether a byte in two hexadecimal digits stands for it. -/
structure Letter where
  char : Char
  isByte : Bool := false
deriving DecidableEq, Repr

/-- Flags as they are written; those after a dash are switched off. -/
structure Flags where
  items : List Char := []
deriving DecidableEq, Repr

/-- What flags say about one of them. -/
def Flags.state? (f : Flags) (flag : Char) : Option Bool :=
  if (f.items.takeWhile (· ≠ '-')).contains flag then some true
  else if f.items.contains flag then some false
  else none

/-- What stands between brackets: a set of characters. -/
inductive Bracket where
  | letter (l : Letter)
  | range (first last : Letter)
  /-- A set by its name, between colons. -/
  | named (negated : Bool)
  /-- Digits, blanks or word characters. -/
  | kind (negated : Bool)
  | nested (negated : Bool) (inner : Bracket)
  | union (parts : List Bracket)
  /-- An intersection or a difference. -/
  | combined (left right : Bracket)
deriving Repr

def Bracket.ofParts : List Bracket → Bracket
  | [b] => b
  | parts => .union parts

/-- One place of an expression. -/
inductive Atom where
  | letter (l : Letter)
  | kind (negated : Bool)
  | any
  /-- An end of a line or text. -/
  | edge
  /-- An end of a word, or none. -/
  | wordEdge
  | bracket (negated : Bool) (b : Bracket)
deriving Repr

inductive Expression where
  | atom (a : Atom)
  /-- Flags for what follows, up to the end of the group. -/
  | flags (f : Flags)
  | group (f : Flags) (e : Expression)
  | repeated (e : Expression)
  | sequence (es : List Expression)
  | choice (es : List Expression)
deriving Repr

namespace Expression

def ofSequence : List Expression → Expression
  | [e] => e
  | es => .sequence es

def ofChoices : List Expression → Expression
  | [e] => e
  | es => .choice es

end Expression

/-! ### Depth -/

mutual

def Bracket.depth : Bracket → Nat
  | .nested _ inner => inner.depth + 1
  | .union parts => if parts.isEmpty then 0 else Bracket.greatestDepth parts + 1
  | .combined left right => max left.depth right.depth + 1
  | _ => 0

def Bracket.greatestDepth : List Bracket → Nat
  | [] => 0
  | b :: bs => max b.depth (Bracket.greatestDepth bs)

end

def Atom.depth : Atom → Nat
  | .bracket _ b => b.depth + 1
  | _ => 0

mutual

def Expression.depth : Expression → Nat
  | .atom a => a.depth
  | .flags _ => 0
  | .group _ e => e.depth + 1
  | .repeated e => e.depth + 1
  | .sequence es => if es.isEmpty then 0 else Expression.greatestDepth es + 1
  | .choice es => Expression.greatestDepth es + 1

def Expression.greatestDepth : List Expression → Nat
  | [] => 0
  | e :: es => max e.depth (Expression.greatestDepth es)

end

end ServiceDoc.Pattern
