import ServiceDoc.Pattern.Reader

/-! Patterns that cannot be used. Tables of characters are not at hand: neither case nor digits,
blanks and word characters are known beyond ASCII. Without Unicode a pattern is about bytes, and
may not take a character apart. -/
namespace ServiceDoc.Pattern

structure Mode where
  ignoresCase : Bool := false
  unicode : Bool := true
deriving DecidableEq, Repr

def Mode.heeding (m : Mode) (f : Flags) : Mode where
  ignoresCase := (f.state? 'i').getD m.ignoresCase
  unicode := (f.state? 'u').getD m.unicode

def Letter.isAscii (l : Letter) : Bool := l.char.toNat < 0x80

mutual

/-- A set without members needs no table. -/
def Bracket.isUsable (m : Mode) : Bracket → Bool
  | .letter l => if m.unicode then !m.ignoresCase else l.isAscii
  | .range first last => if m.unicode then !m.ignoresCase else first.isAscii && last.isAscii
  | .named negated => if m.unicode then !m.ignoresCase else !negated
  | .kind negated => !m.unicode && !negated
  | .nested negated inner => inner.isUsable m && (m.unicode || !negated)
  | .union parts => Bracket.areUsable m parts
  | .combined left right => left.isUsable m && right.isUsable m

def Bracket.areUsable (m : Mode) : List Bracket → Bool
  | [] => true
  | b :: bs => b.isUsable m && Bracket.areUsable m bs

end

def Atom.isUsable (m : Mode) : Atom → Bool
  | .letter l => if m.unicode then !m.ignoresCase else !l.isByte || l.isAscii
  | .kind negated => !m.unicode && !negated
  | .any => m.unicode
  | .edge | .wordEdge => true
  | .bracket negated b => b.isUsable m && (m.unicode || !negated)

mutual

/-- The mode after an expression: that of a group ends with it. -/
def Expression.modeAfter (m : Mode) : Expression → Mode
  | .flags f => m.heeding f
  | .sequence es | .choice es => Expression.modeAfterAll m es
  | _ => m

def Expression.modeAfterAll (m : Mode) : List Expression → Mode
  | [] => m
  | e :: es => Expression.modeAfterAll (e.modeAfter m) es

end

mutual

/-- All places of an expression, each with its mode. -/
def Expression.atoms (m : Mode) : Expression → List (Mode × Atom)
  | .atom a => [(m, a)]
  | .flags _ => []
  | .group f e => e.atoms (m.heeding f)
  | .repeated e => e.atoms m
  | .sequence es | .choice es => Expression.allAtoms m es

def Expression.allAtoms (m : Mode) : List Expression → List (Mode × Atom)
  | [] => []
  | e :: es => e.atoms m ++ Expression.allAtoms (e.modeAfter m) es

end

inductive Fault where
  | unusable
  /-- Ends of words are found only among bytes. -/
  | wordEdge
deriving DecidableEq, Repr

def Fault.message : Fault → String
  | .unusable => "error building NFA"
  | .wordEdge => "unsupported regex feature for DFAs: cannot build DFAs for regexes with Unicode " ++
      "word boundaries; switch to ASCII word boundaries, or heuristically enable Unicode word " ++
      "boundaries or use a different regex engine"

def depthLimit : Nat := 250

def needsWords : Mode × Atom → Bool
  | (m, .wordEdge) => m.unicode
  | _ => false

def Expression.fault? (e : Expression) : Option Fault :=
  let atoms := e.atoms {}
  if depthLimit < e.depth || !atoms.all (fun (m, a) => a.isUsable m) then some .unusable
  else if atoms.any needsWords then some .wordEdge
  else none

/-- What is wrong with a pattern, if anything. -/
def fault? (pattern : String) : Option Fault :=
  match Expression.read? pattern.toList with
  | none => some .unusable
  | some e => e.fault?

end ServiceDoc.Pattern
