import ServiceDoc.Json.Fault
import ServiceDoc.Text.Hexadecimal

/-! Quoted texts. A text is written as characters and sixteen-bit units; two units that are a
leading and a trailing surrogate stand for one character, and a reader refuses any other
surrogate. -/
namespace ServiceDoc.Json

inductive Piece where
  | char (c : Char)
  | unit (n : Nat)
deriving DecidableEq, Repr

/-- The pieces between two quotes. -/
structure QuotedText where
  pieces : List Piece
deriving DecidableEq, Repr

namespace QuotedText

def isLeading (n : Nat) : Bool := 0xD800 ≤ n && n ≤ 0xDBFF

def isTrailing (n : Nat) : Bool := 0xDC00 ≤ n && n ≤ 0xDFFF

def join (leading trailing : Nat) : Char :=
  Char.ofNat (0x10000 + (leading - 0xD800) * 0x400 + (trailing - 0xDC00))

/-- The characters so far, latest first, and a leading surrogate that waits for its partner. -/
structure Progress where
  waiting : Option Nat
  done : List Char

def Progress.step (p : Progress) : Piece → Except Fault Progress
  | .char c =>
    match p.waiting with
    | none => .ok ⟨none, c :: p.done⟩
    | some _ => .error .surrogateCutShort
  | .unit n =>
    match p.waiting with
    | none =>
      if isTrailing n then .error .loneSurrogate
      else if isLeading n then .ok ⟨some n, p.done⟩
      else .ok ⟨none, Char.ofNat n :: p.done⟩
    | some leading =>
      if isTrailing n then .ok ⟨none, join leading n :: p.done⟩ else .error .loneSurrogate

def progress (pieces : List Piece) : Except Fault Progress :=
  pieces.foldlM Progress.step ⟨none, []⟩

def readChars (q : QuotedText) : Except Fault (List Char) := do
  let p ← progress q.pieces
  match p.waiting with
  | none => return p.done.reverse
  | some _ => throw .surrogateCutShort

def read (q : QuotedText) : Except Fault String := q.readChars.map String.ofList

def unit? (a b c d : Char) : Option Nat := do
  let digit := Text.hexDigit?
  return (((← digit a) * 16 + (← digit b)) * 16 + (← digit c)) * 16 + (← digit d)

def escaped? : Char → Option Char
  | '"' => some '"'
  | '\\' => some '\\'
  | '/' => some '/'
  | 'b' => some '\x08'
  | 'f' => some '\x0c'
  | 'n' => some '\n'
  | 'r' => some '\r'
  | 't' => some '\t'
  | _ => none

/-- A text that stops after some pieces. A surrogate that was refused before comes first, and one
that still waits gives its own reason. -/
def breakAfter (done : List Piece) (cause whileWaiting : Fault) : Break :=
  let kept :=
    match progress done.reverse with
    | .error f => f
    | .ok ⟨none, _⟩ => cause
    | .ok ⟨some _, _⟩ => whileWaiting
  ⟨kept, cause⟩

/-- Four hexadecimal digits are missing where the rest begins; only a rest of four bytes shows
that they are wrong and not cut off. -/
def missingUnit (rest : List Char) : Fault :=
  if (String.ofList rest).utf8ByteSize < 4 then .textEnds .string else .badEscape

/-- The text after an opening quote, and what follows its closing quote. -/
def takeAfter (done : List Piece) : List Char → Except Break (QuotedText × List Char)
  | [] => .error (breakAfter done (.textEnds .string) (.textEnds .string))
  | '"' :: rest => .ok (⟨done.reverse⟩, rest)
  | ['\\'] => .error (breakAfter done (.textEnds .string) (.textEnds .string))
  | '\\' :: 'u' :: rest =>
    match rest with
    | a :: b :: c :: d :: rest' =>
      match unit? a b c d with
      | some n => takeAfter (.unit n :: done) rest'
      | none => .error (breakAfter done .badEscape .badEscape)
    | rest => .error (breakAfter done (missingUnit rest) (missingUnit rest))
  | '\\' :: e :: rest =>
    match escaped? e with
    | some c => takeAfter (.char c :: done) rest
    | none => .error (breakAfter done .badEscape .surrogateCutShort)
  | c :: rest =>
    if c.toNat < 0x20 then .error (breakAfter done .controlCharacter .surrogateCutShort)
    else takeAfter (.char c :: done) rest

def take (cs : List Char) : Except Break (QuotedText × List Char) := takeAfter [] cs

end QuotedText
end ServiceDoc.Json
