import ServiceDoc.Decimal.Layout
import ServiceDoc.Json.Shape
import ServiceDoc.Json.Tree
import ServiceDoc.Text.Quoted

/-! Decoding. A tree is read against a shape; the first thing in the text that does not fit is the
complaint. Records may be written as objects, with members in any order and unknown members passed
over, or as lists of their members in order. What is read has every member of its record, in the
catalogue's order. -/
namespace ServiceDoc.Json

/-- Doubles have a fraction, and an exponent from `10 ^ 16` upwards and below `10 ^ -5`. -/
def floatLayout : Decimal.Layout := ⟨-5, 16, ['e', '+'], ['e', '-']⟩

def writeFloat (x : Float) : String := String.ofList (floatLayout.writeFloat x)

namespace Tree

def isNull : Tree → Bool
  | .null => true
  | _ => false

/-- The name of what was found. Only the bracket of a list or object has been read. -/
def found : Tree → Except Fault String
  | .null => .ok "null"
  | .bool b => .ok (if b then "boolean `true`" else "boolean `false`")
  | .number n =>
    n.read.map fun
      | .int k => "integer `" ++ toString k ++ "`"
      | .float x => "floating point `" ++ writeFloat x ++ "`"
  | .text q => q.read.map fun s => "string " ++ Text.quoted s
  | .list .. => .ok "sequence"
  | .object .. => .ok "map"
  | .broken b => .error b.kept

def mismatch (t : Tree) (wanted : String) : Fault :=
  match t.found with
  | .ok found => .wrongType found wanted
  | .error f => f

/-- Passes over a value of any shape. -/
def skip (t : Tree) : Except Fault Unit :=
  match t.cut? with
  | none => .ok ()
  | some b => .error b.skipped

end Tree

/-- The whole numbers with a given number of bits. -/
def Numeral.readInt (n : Numeral) (bits : Nat) (wanted : String) : Except Fault Int := do
  match ← n.read with
  | .int k =>
    let bound : Int := Decimal.twoTo (bits - 1)
    if -bound ≤ k ∧ k < bound then .ok k else .error (.outOfRange k wanted)
  | .float x => .error (.wrongType ("floating point `" ++ writeFloat x ++ "`") wanted)

def Numeral.readCode (n : Numeral) (what : String) (bound : Nat) : Except Fault Int := do
  let k ← n.readInt 32 "i32"
  if 0 ≤ k ∧ k < bound then .ok k else .error (.unknownCode what k)

def Numeral.readDouble (n : Numeral) : Except Fault Float := do
  match ← n.read with
  | .int k => .ok (Float.ofInt k)
  | .float x => .ok x

/-- The members found so far, each with its value. -/
abbrev Found := List (String × Datum)

def Found.has (found : Found) (name : String) : Bool := found.any fun entry => entry.1 == name

/-- A record in the catalogue's order. -/
def Found.complete (members : List (Member ρ)) (found : Found) : Datum :=
  .map (members.map fun m => (m.name, (found.lookup m.name).getD m.fallback))

/-- The end of an object. -/
def endOfObject (cut : Option Break) : Except Fault Unit :=
  match cut with
  | none => .ok ()
  | some b => .error b.kept

/-- The end of a list that stands for a record, after members of which some may be left out. -/
def endOfRecordList (allRead : Bool) (cut : Option Break) : Except Fault Unit :=
  match cut with
  | none => .ok ()
  | some b => .error (if allRead && b.kept == .listEndExpected then .trailingText else b.kept)

namespace Catalogue

mutual

/-- Reads a value. `room` is how many more lists and objects may be open around its parts. -/
def decode (c : Catalogue ρ) (room : Nat) (shape : Shape ρ) : Tree → Except Fault Datum
  | .broken b => .error b.kept
  | .text q =>
    match shape with
    | .text | .location => q.read.map .text
    | _ => .error ((Tree.text q).mismatch (c.wanted shape))
  | .bool b =>
    match shape with
    | .bool => .ok (.bool b)
    | _ => .error ((Tree.bool b).mismatch (c.wanted shape))
  | .number n =>
    match shape with
    | .int32 => (n.readInt 32 "i32").map .int
    | .int64 => (n.readInt 64 "i64").map .int
    | .float => n.readDouble.map .float
    | .code what bound => (n.readCode what bound).map .int
    | _ => .error ((Tree.number n).mismatch (c.wanted shape))
  | .list items cut =>
    match shape with
    | .list item =>
      match room with
      | 0 => .error .tooDeep
      | room + 1 => do
        let values ← decodeItems c room item items
        endOfObject cut
        return .list values
    | .record r =>
      match room with
      | 0 => .error .tooDeep
      | room + 1 => do
        let found ← decodeInOrder c room [] (c.members r) items cut
        return Found.complete (c.members r) found
    | _ => .error ((Tree.list items cut).mismatch (c.wanted shape))
  | .object members cut =>
    match shape with
    | .record r =>
      match room with
      | 0 => .error .tooDeep
      | room + 1 => do
        let found ← decodeMembers c room r [] members
        endOfObject cut
        return Found.complete (c.members r) found
    | _ => .error ((Tree.object members cut).mismatch (c.wanted shape))
  | .null => .error (Tree.null.mismatch (c.wanted shape))

def decodeItems (c : Catalogue ρ) (room : Nat) (item : Shape ρ) :
    List Tree → Except Fault (List Datum)
  | [] => .ok []
  | t :: ts => do
    let value ← decode c room item t
    let values ← decodeItems c room item ts
    return value :: values

/-- A record that is written as a list. -/
def decodeInOrder (c : Catalogue ρ) (room : Nat) (found : Found) (members : List (Member ρ)) :
    List Tree → Option Break → Except Fault Found
  | [], cut => do
    endOfRecordList members.isEmpty cut
    return found
  | t :: ts, cut =>
    match members with
    | [] => .error .trailingText
    | m :: members =>
      if m.nullable && t.isNull then decodeInOrder c room ((m.name, m.fallback) :: found) members ts cut
      else do
        let value ← decode c room m.shape t
        decodeInOrder c room ((m.name, value) :: found) members ts cut

/-- A record that is written as an object. A member that comes twice is refused at its key. -/
def decodeMembers (c : Catalogue ρ) (room : Nat) (r : ρ) (found : Found) :
    List (QuotedText × Tree) → Except Fault Found
  | [] => .ok found
  | (key, t) :: rest => do
    let name ← key.read
    match c.member? r name with
    | none =>
      t.skip
      decodeMembers c room r found rest
    | some m =>
      if found.has name then .error (.duplicate name)
      else if m.nullable && t.isNull then
        decodeMembers c room r ((name, m.fallback) :: found) rest
      else do
        let value ← decode c room m.shape t
        decodeMembers c room r ((name, value) :: found) rest

end

/-- Lists and objects may be nested this deep. -/
def depthLimit : Nat := 127

/-- Reads a whole text as one value. -/
def read (c : Catalogue ρ) (shape : Shape ρ) (s : String) : Except Fault Datum := do
  let text := Text.read s
  let value ← c.decode depthLimit shape text.value
  if text.more then throw .trailingText
  return value

end Catalogue
end ServiceDoc.Json
