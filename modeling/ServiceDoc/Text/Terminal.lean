/-! Texts for a terminal, without what would steer it: control characters, but for those that lay
out a text, and the sequences that an escape character starts. A sequence that does not end takes
the rest of the text with it. -/
namespace ServiceDoc.Text

/-- Where in a sequence a character stands. -/
inductive Steering where
  | ground
  | escape
  | intermediate
  /-- Parameters of a control sequence. -/
  | parameters
  /-- A command that a bell ends. -/
  | command
  /-- The three parts before the string that goes to a device. -/
  | device
  | deviceParameters
  | deviceIntermediate
  /-- A string, up to the byte that ends it. -/
  | string
deriving DecidableEq, Repr

namespace Steering

def isControl (c : Char) : Bool := c.toNat < 0x20 || c.toNat = 0x7F

def isLayout (c : Char) : Bool := c = '\t' || c = '\n' || c = '\x0c' || c = '\r'

def isCancel (c : Char) : Bool := c = '\x18' || c = '\x1a'

/-- Shown outside of sequences. -/
def isShown (c : Char) : Bool := isLayout c || !isControl c

def isWithin (first last : Nat) (c : Char) : Bool := first ≤ c.toNat && c.toNat ≤ last

def isIntermediate (c : Char) : Bool := isWithin 0x20 0x2F c

/-- The byte that ends a string may be any but the first of a character. -/
def endsString (c : Char) : Bool := (String.utf8EncodeChar c).contains 0x9C

def afterEscape (c : Char) : Steering :=
  if isIntermediate c then .intermediate
  else
    match c with
    | '[' => .parameters
    | ']' => .command
    | 'P' => .device
    | 'X' | '^' | '_' => .string
    | c => if isWithin 0x30 0x7E c then .ground else .escape

/-- Where the next character stands; one that cancels or escapes does so everywhere. -/
def next (s : Steering) (c : Char) : Steering :=
  if c = '\x1b' then .escape
  else if isCancel c then .ground
  else
    match s with
    | .ground => .ground
    | .escape => afterEscape c
    | .intermediate => if isWithin 0x30 0x7E c then .ground else s
    | .parameters => if isWithin 0x40 0x7E c then .ground else s
    | .command => if c = '\x07' then .ground else s
    | .device =>
      if isIntermediate c then .deviceIntermediate
      else if isWithin 0x30 0x3F c then .deviceParameters
      else if isWithin 0x40 0x7E c then .string
      else s
    | .deviceParameters =>
      if isIntermediate c then .deviceIntermediate
      else if isWithin 0x3C 0x7E c then .string
      else s
    | .deviceIntermediate => if isWithin 0x30 0x7E c then .string else s
    | .string => if endsString c then .ground else s

/-- Layout is shown also within a sequence that is not a command or a string. -/
def shows (s : Steering) (c : Char) : Bool :=
  match s with
  | .ground => isShown c
  | .escape | .intermediate | .parameters => isLayout c
  | _ => false

/-- A shown character ends its sequence. -/
def plain (s : Steering) : List Char → List Char
  | [] => []
  | c :: cs => if s.shows c then c :: plain .ground cs else plain (s.next c) cs

/-- A shown character within a sequence lets others follow, as if outside, up to the next control
character, which goes on with the sequence. A character beyond ASCII ends it. -/
def printed (s : Steering) (follows : Bool) : List Char → List Char
  | [] => []
  | c :: cs =>
    if follows && isShown c || s.shows c then
      c :: printed (if c.toNat < 0x80 then s else .ground) true cs
    else printed (s.next c) false cs

end Steering

/-- A text to be kept. -/
def plain (s : String) : String := String.ofList (Steering.plain .ground s.toList)

/-- A text as it is printed where no terminal is. -/
def printed (s : String) : String := String.ofList (Steering.printed .ground false s.toList)

end ServiceDoc.Text
