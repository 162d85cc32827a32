import ServiceDoc.Json.Token

/-! The tree that a JSON text denotes, as far as the text is JSON. A text that stops being JSON
gives a tree that is cut at that place: everything before it is there, and every list and object
that was open knows of the break. -/
namespace ServiceDoc.Json

inductive Tree where
  | null
  | bool (b : Bool)
  | number (n : Numeral)
  | text (q : QuotedText)
  | list (items : List Tree) (cut : Option Break)
  | object (members : List (QuotedText × Tree)) (cut : Option Break)
  | broken (b : Break)
deriving Inhabited

namespace Tree

/-- A tree holds at most one break, and the outermost node knows of it. -/
def cut? : Tree → Option Break
  | .list _ cut => cut
  | .object _ cut => cut
  | .broken b => some b
  | _ => none

/-- What is open around a place in the text, entries latest first. -/
inductive Frame where
  | items (done : List Tree)
  | members (done : List (QuotedText × Tree))
  | member (done : List (QuotedText × Tree)) (key : QuotedText)

/-- What may come next: a value (at the top and after a colon), an entry of the innermost list or
object right after its bracket or after a comma, a colon, or the end of an entry. -/
inductive Expecting where
  | value
  | firstItem
  | nextItem
  | firstKey
  | nextKey
  | colon
  | afterEntry

/-- Closes all frames around a subtree that holds a break. -/
def encloseCut (b : Break) : Tree → List Frame → Tree
  | t, [] => t
  | t, .items done :: frames => encloseCut b (.list (t :: done).reverse (some b)) frames
  | t, .member done key :: frames =>
    encloseCut b (.object ((key, t) :: done).reverse (some b)) frames
  | t, .members _ :: frames => encloseCut b t frames

/-- A break where a value should start. -/
def cutAtValue (b : Break) (frames : List Frame) : Tree := encloseCut b (.broken b) frames

/-- A break between the entries of the innermost list or object. -/
def cutInside (b : Break) : List Frame → Tree
  | .items done :: frames => encloseCut b (.list done.reverse (some b)) frames
  | .members done :: frames => encloseCut b (.object done.reverse (some b)) frames
  | frames => cutAtValue b frames

/-- Why the text cannot end here. -/
def cutAtEnd (frames : List Frame) : Expecting → Tree
  | .value | .nextItem => cutAtValue (.of (.textEnds .value)) frames
  | .firstItem => cutInside (.of (.textEnds .list)) frames
  | .firstKey => cutInside (.of (.textEnds .object)) frames
  | .nextKey => cutInside ⟨.textEnds .value, .textEnds .object⟩ frames
  | .colon => cutAtValue (.of (.textEnds .object)) frames
  | .afterEntry =>
    match frames with
    | .items _ :: _ => cutInside (.of (.textEnds .list)) frames
    | frames => cutInside (.of (.textEnds .object)) frames

inductive State where
  | expecting (e : Expecting) (frames : List Frame)
  | complete (v : Tree)
  | cut (t : Tree)

/-- After a complete value. -/
def place (v : Tree) : List Frame → State
  | [] => .complete v
  | .items done :: frames => .expecting .afterEntry (.items (v :: done) :: frames)
  | .member done key :: frames => .expecting .afterEntry (.members ((key, v) :: done) :: frames)
  | .members done :: frames => .expecting .afterEntry (.members done :: frames)

/-- A value starts with this token. -/
def start (frames : List Frame) : Token → State
  | .null => place .null frames
  | .bool b => place (.bool b) frames
  | .number n => place (.number n) frames
  | .text q => place (.text q) frames
  | .openList => .expecting .firstItem (.items [] :: frames)
  | .openObject => .expecting .firstKey (.members [] :: frames)
  | .brokenText b => .cut (cutAtValue b frames)
  | .broken b => .cut (cutAtValue b frames)
  | _ => .cut (cutAtValue (.of .valueExpected) frames)

def startKey (frames : List Frame) : Token → State
  | .text q =>
    match frames with
    | .members done :: frames => .expecting .colon (.member done q :: frames)
    | frames => .expecting .colon frames
  | .brokenText b => .cut (cutInside b frames)
  | _ => .cut (cutInside (.of .keyExpected) frames)

def afterEntry (frames : List Frame) (t : Token) : State :=
  match frames with
  | .items done :: outer =>
    match t with
    | .comma => .expecting .nextItem frames
    | .closeList => place (.list done.reverse none) outer
    | _ => .cut (cutInside (.of .listEndExpected) frames)
  | .members done :: outer =>
    match t with
    | .comma => .expecting .nextKey frames
    | .closeObject => place (.object done.reverse none) outer
    | _ => .cut (cutInside (.of .objectEndExpected) frames)
  | frames => .cut (cutInside (.of .objectEndExpected) frames)

def step (t : Token) (frames : List Frame) : Expecting → State
  | .value => start frames t
  | .firstItem => if t = .closeList then place (.list [] none) frames.tail else start frames t
  | .nextItem =>
    if t = .closeList then .cut (cutInside ⟨.danglingComma, .valueExpected⟩ frames)
    else start frames t
  | .firstKey => if t = .closeObject then place (.object [] none) frames.tail else startKey frames t
  | .nextKey =>
    if t = .closeObject then .cut (cutInside ⟨.danglingComma, .keyExpected⟩ frames)
    else startKey frames t
  | .colon =>
    if t = .colon then .expecting .value frames else .cut (cutAtValue (.of .colonExpected) frames)
  | .afterEntry => afterEntry frames t

/-- The first value of a token list, and the tokens after it. -/
def grow : List Token → Expecting → List Frame → Tree × List Token
  | [], e, frames => (cutAtEnd frames e, [])
  | t :: ts, e, frames =>
    match step t frames e with
    | .expecting e frames => grow ts e frames
    | .complete v => (v, ts)
    | .cut v => (v, [])

end Tree

/-- The value at the start of a text, and whether anything but spaces follows it. -/
structure Text where
  value : Tree
  more : Bool

def Text.read (s : String) : Text :=
  let (value, rest) := Tree.grow (Token.scan s.toList) .value []
  ⟨value, !rest.isEmpty⟩

end ServiceDoc.Json
