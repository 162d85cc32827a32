/-! Why a text is not read. Each cause has one message; the category tells data that does not fit
from text that is no JSON and from text that ends too early. -/
namespace ServiceDoc.Json

/-- What a text was inside of when it ended. -/
inductive Place where
  | value
  | list
  | object
  | string
deriving DecidableEq, Repr

inductive Fault where
  | textEnds (inside : Place)
  | valueExpected
  | literalExpected
  | colonExpected
  | listEndExpected
  | objectEndExpected
  | keyExpected
  | danglingComma
  | trailingText
  | tooDeep
  | badNumber
  | numberTooLarge
  | badEscape
  | controlCharacter
  | loneSurrogate
  | surrogateCutShort
  | wrongType (found wanted : String)
  | outOfRange (n : Int) (wanted : String)
  | duplicate (key : String)
  | unknownCode (what : String) (n : Int)
deriving DecidableEq, Repr

inductive Fault.Category where
  | data
  | grammar
  | early
deriving DecidableEq, Repr

def Place.name : Place → String
  | .value => "a value"
  | .list => "a list"
  | .object => "an object"
  | .string => "a string"

namespace Fault

def category : Fault → Category
  | .textEnds _ => .early
  | .wrongType .. | .outOfRange .. | .duplicate _ | .unknownCode .. => .data
  | _ => .grammar

def message : Fault → String
  | .textEnds inside => "EOF while parsing " ++ inside.name
  | .valueExpected => "expected value"
  | .literalExpected => "expected ident"
  | .colonExpected => "expected `:`"
  | .listEndExpected => "expected `,` or `]`"
  | .objectEndExpected => "expected `,` or `\x7d`"
  | .keyExpected => "key must be a string"
  | .danglingComma => "trailing comma"
  | .trailingText => "trailing characters"
  | .tooDeep => "recursion limit exceeded"
  | .badNumber => "invalid number"
  | .numberTooLarge => "number out of range"
  | .badEscape => "invalid escape"
  | .controlCharacter => "control character (\\u0000-\\u001F) found while parsing a string"
  | .loneSurrogate => "lone leading surrogate in hex escape"
  | .surrogateCutShort => "unexpected end of hex escape"
  | .wrongType found wanted => "invalid type: " ++ found ++ ", expected " ++ wanted
  | .outOfRange n wanted => "invalid value: integer `" ++ toString n ++ "`, expected " ++ wanted
  | .duplicate key => "duplicate field `" ++ key ++ "`"
  | .unknownCode what n => "unknown " ++ what ++ " " ++ toString n

/-- The message of a reader that says what it was reading. -/
def report (f : Fault) : String := "JSON error: " ++ f.message

end Fault

/-- Where a text stops being JSON: the cause for a reader that wants the value, and the cause for
one that only passes over it. -/
structure Break where
  kept : Fault
  skipped : Fault
deriving DecidableEq, Repr

def Break.of (f : Fault) : Break := ⟨f, f⟩

end ServiceDoc.Json
