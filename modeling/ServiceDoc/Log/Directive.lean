import ServiceDoc.Log.Field
import ServiceDoc.Log.Line
import ServiceDoc.Text.Slice

/-! Directives: which lines are let through, and from whom. A directive is a level, a target, or
both with an equals sign between them; brackets after the target name a span and, in braces, a
field. Blanks at the ends of a directive are no part of its form, but places in it are counted
without them while texts are cut from the whole: a blank at the start moves every text, and may move
the end of one into a character. Such a word is torn: reading it breaks off. -/
namespace ServiceDoc.Log

/-- The highest rank that is let through; nothing has rank zero. -/
structure Threshold where
  rank : Nat
deriving DecidableEq, Repr

namespace Threshold

def admits (t : Threshold) (l : Level) : Bool := l.rank ≤ t.rank

def upTo (l : Level) : Threshold := ⟨l.rank⟩

/-- A rank as a number, with or without a plus sign. -/
def number? (cs : List Char) : Option Threshold :=
  let digits := match cs with
    | '+' :: rest => rest
    | _ => cs
  let n := digits.foldl (fun n c => 10 * n + (c.toNat - '0'.toNat)) 0
  if digits ≠ [] && digits.all Char.isDigit && n ≤ Level.trace.rank then some ⟨n⟩ else none

/-- A level by its name, in any case. -/
def named? (cs : List Char) : Option Threshold :=
  match String.ofList (cs.map Char.toLower) with
  | "off" => some ⟨0⟩
  | "error" => some (upTo .error)
  | "warn" => some (upTo .warn)
  | "info" => some (upTo .info)
  | "debug" => some (upTo .debug)
  | "trace" => some (upTo .trace)
  | _ => none

def ofWord? (cs : List Char) : Option Threshold := (number? cs).or (named? cs)

end Threshold

structure Directive where
  /-- What the source of a line starts with. -/
  target : Option String := none
  span : Option String := none
  field : Option Field := none
  threshold : Threshold := .upTo .trace
deriving DecidableEq, Repr

/-- Why a word is no directive. -/
inductive Refusal where
  | form
  | level
  | field (f : Pattern.Fault)
deriving DecidableEq, Repr

def Refusal.message : Refusal → String
  | .form => "invalid filter directive"
  | .field f => "invalid field filter: " ++ f.message
  | .level => "error parsing level filter: expected one of \"off\", \"error\", \"warn\", " ++
      "\"info\", \"debug\", \"trace\", or a number 0-5"

namespace Directive

/-- What is being read, and where it starts. -/
inductive Place where
  | start
  /-- A level or a target: only the end tells. -/
  | word (start : Nat)
  | span (start : Nat)
  | field (start : Nat)
  | fieldEnd
  | bracketEnd
  | level (start : Nat)
deriving DecidableEq, Repr

def mayStart (c : Char) : Bool := c = '-' || c = ':' || c = '_' || Text.isAlphanumeric c

/-- What comes of reading: a refusal or what is read, or nothing from a torn word. -/
abbrev Reading := ExceptT Refusal Option

/-- A text of a word, once it is known where it ends. -/
def cut (word : List Char) (start stop : Nat) : Reading String :=
  ExceptT.lift ((Text.slice? start stop word).map String.ofList)

/-- The last text of a word. -/
def cutFrom (word : List Char) (start : Nat) : Reading (List Char) :=
  ExceptT.lift (Text.from? start word)

/-- One character at its place in the word. -/
def step (word : List Char) (d : Directive) (p : Place) (i : Nat) (c : Char) :
    Reading (Directive × Place) :=
  match p with
  | .start =>
    if c = '[' then return (d, .span (i + 1))
    else if mayStart c then return (d, .word i)
    else throw .form
  | .word start =>
    if c = '=' then do
      let target ← cut word start i
      return ({ d with target := some target }, .level (i + 1))
    else if c = '[' then do
      let target ← cut word start i
      return ({ d with target := some target }, .span (i + 1))
    else return (d, p)
  | .span start =>
    if c = ']' then do
      let span ← cut word start i
      return ({ d with span := some span }, .bracketEnd)
    else if c = '{' then do
      let span ← cut word start i
      return ({ d with span := if span = "" then none else some span }, .field (i + 1))
    else return (d, p)
  | .field start =>
    if c = '}' then do
      let text ← cut word start i
      let field := Field.ofText text
      if text = "" then throw .form
      else
        match field.fault? with
        | some f => throw (.field f)
        | none => return ({ d with field := some field }, .fieldEnd)
    else return (d, p)
  | .fieldEnd => if c = ']' then return (d, .bracketEnd) else throw .form
  | .bracketEnd => if c = '=' then return (d, .level (i + 1)) else throw .form
  | .level _ => return (d, p)

/-- The last text goes to the end of the word. -/
def finish (word : List Char) (d : Directive) : Place → Reading Directive
  | .word start => do
    let text ← cutFrom word start
    match Threshold.ofWord? text with
    | some threshold => return { d with threshold }
    | none => return { d with target := some (String.ofList text) }
  | .level start => do
    match ← cutFrom word start with
    | [] => return d
    | text =>
      match Threshold.ofWord? text with
      | some threshold => return { d with threshold }
      | none => throw .level
  | .bracketEnd => return d
  | _ => throw .form

def readFrom (word : List Char) (d : Directive) (p : Place) (i : Nat) :
    List Char → Reading Directive
  | [] => finish word d p
  | c :: cs => do
    let (d, p) ← step word d p i c
    readFrom word d p (i + c.utf8Size) cs

def read (word : String) : Option (Except Refusal Directive) :=
  (readFrom word.toList {} .start 0 (Text.trimChars word.toList)).run

/-- Outside of spans, and whatever the values of fields are. -/
def isStatic (d : Directive) : Bool :=
  d.span.isNone && d.field.all fun f => f.value.isNone

def concerns (d : Directive) (l : Line) : Bool :=
  d.isStatic && d.target.all (fun t => t.toList.isPrefixOf l.source.toList) &&
    d.field.all fun f => l.fieldNames.contains f.name

/-- The length of the target; no target is shorter than any. -/
def reach (d : Directive) : Nat :=
  match d.target with
  | none => 0
  | some t => t.utf8ByteSize + 1

def fieldBefore : Option Field → Option Field → Bool
  | _, none => false
  | none, some _ => true
  | some a, some b => a.name < b.name

/-- Of two directives that concern a line, the longer target decides, then a field, then the
later name of a field. -/
def yieldsTo (a b : Directive) : Bool :=
  a.reach < b.reach || (a.reach = b.reach && fieldBefore a.field b.field)

end Directive
end ServiceDoc.Log
