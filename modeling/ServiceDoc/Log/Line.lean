/-! Log lines. In a message, controls that a terminal would obey are shown by their codes; line
ends are not among them. Values of fields are shown as they are. -/
namespace ServiceDoc.Log

inductive Level where
  | error
  | warn
  | info
  | debug
  | trace
deriving DecidableEq, Inhabited, Repr

/-- The more a level tells, the higher it ranks. -/
def Level.rank : Level → Nat
  | .error => 1
  | .warn => 2
  | .info => 3
  | .debug => 4
  | .trace => 5

def Level.name : Level → String
  | .error => "ERROR"
  | .warn => "WARN"
  | .info => "INFO"
  | .debug => "DEBUG"
  | .trace => "TRACE"

structure Line where
  level : Level
  /-- The part of the program that speaks. -/
  source : String
  message : String
  /-- Names with values as they are shown. -/
  fields : List (String × String) := []
deriving DecidableEq, Repr

def messageChar (c : Char) : List Char :=
  match c with
  | '\x07' => ['\\', 'x', '0', '7']
  | '\x08' => ['\\', 'x', '0', '8']
  | '\x0c' => ['\\', 'x', '0', 'c']
  | '\x1b' => ['\\', 'x', '1', 'b']
  | '\x7f' => ['\\', 'x', '7', 'f']
  | c =>
    if 0x80 ≤ c.toNat && c.toNat ≤ 0x9F then
      '\\' :: 'u' :: '{' :: (Nat.toDigits 16 c.toNat ++ ['}'])
    else [c]

namespace Line

/-- The message counts as a field. -/
def fieldNames (l : Line) : List String := "message" :: l.fields.map Prod.fst

def shownMessage (l : Line) : String := String.ofList (l.message.toList.flatMap messageChar)

def shownFields (l : Line) : String :=
  String.join (l.fields.map fun (name, value) => " " ++ name ++ "=" ++ value)

def shown (l : Line) : String := l.level.name ++ " " ++ l.shownMessage ++ l.shownFields

end Line
end ServiceDoc.Log
