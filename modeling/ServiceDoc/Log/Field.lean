import ServiceDoc.Pattern.Fault
import ServiceDoc.Text.Split

/-! Fields of directives: a name, or a name and a value. A value is a number or a pattern, and what
follows a second equals sign is of no concern. -/
namespace ServiceDoc.Log

structure Field where
  name : String
  value : Option String := none
deriving DecidableEq, Repr

namespace Field

def isDigits (cs : List Char) : Bool := cs ≠ [] && cs.all Char.isDigit

def dropSign : List Char → List Char
  | '+' :: cs => cs
  | '-' :: cs => cs
  | cs => cs

def isExponent : List Char → Bool
  | [] => true
  | c :: cs => (c = 'e' || c = 'E') && isDigits (dropSign cs)

/-- Decimal digits with a point somewhere, or nowhere, and then an exponent or none. -/
def isDecimal (cs : List Char) : Bool :=
  let whole := cs.takeWhile Char.isDigit
  match cs.dropWhile Char.isDigit with
  | '.' :: rest =>
    isDigits (whole ++ rest.takeWhile Char.isDigit) && isExponent (rest.dropWhile Char.isDigit)
  | rest => isDigits whole && isExponent rest

def isNumber (cs : List Char) : Bool :=
  let bare := dropSign cs
  ["inf", "infinity", "nan"].contains (String.ofList (bare.map Char.toLower)) || isDecimal bare

/-- Why a field cannot be used: its value is no number and no pattern. -/
def fault? (f : Field) : Option Pattern.Fault :=
  match f.value with
  | none => none
  | some v => if isNumber v.toList then none else Pattern.fault? v

def ofText (s : String) : Field :=
  match Text.parts '=' s with
  | name :: value :: _ => { name, value := some value }
  | _ => { name := s }

end Field
end ServiceDoc.Log
