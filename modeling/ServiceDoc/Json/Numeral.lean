import ServiceDoc.Decimal.Power
import ServiceDoc.Json.Fault

/-! JSON numbers: their written form, and the value a reader gives it. Integers are exact as far
as 64 bits reach; everything else becomes a double by a short computation that may be off by a
rounding: the leading digits that fit in 64 bits, scaled by one power of ten at a time. -/
namespace ServiceDoc.Json

/-- A number as written, digits as values. -/
structure Numeral where
  negative : Bool
  whole : List Nat
  fraction : List Nat
  /-- Negative or not, and the digits. -/
  exponent : Option (Bool × List Nat)
deriving DecidableEq, Repr

inductive Number where
  | int (n : Int)
  | float (x : Float)

namespace Numeral

def digits (cs : List Char) : List Nat :=
  (cs.takeWhile Char.isDigit).map fun c => c.toNat - 48

def afterDigits (cs : List Char) : List Char := cs.dropWhile Char.isDigit

/-- A digit is missing where the rest begins. -/
def missingDigit : List Char → Break
  | [] => ⟨.textEnds .value, .badNumber⟩
  | _ => .of .badNumber

def takeExponent : List Char → Except Break (Option (Bool × List Nat) × List Char)
  | c :: rest =>
    if c = 'e' ∨ c = 'E' then
      let (negative, rest) : Bool × List Char :=
        match rest with
        | '+' :: rest => (false, rest)
        | '-' :: rest => (true, rest)
        | rest => (false, rest)
      match digits rest with
      | [] => .error (missingDigit rest)
      | ds => .ok (some (negative, ds), afterDigits rest)
    else .ok (none, c :: rest)
  | [] => .ok (none, [])

def takeFraction : List Char → Except Break (List Nat × List Char)
  | '.' :: rest =>
    match digits rest with
    | [] => .error (missingDigit rest)
    | ds => .ok (ds, afterDigits rest)
  | rest => .ok ([], rest)

/-- No digit follows a leading zero. -/
def takeWhole (cs : List Char) : Except Break (List Nat × List Char) :=
  match digits cs with
  | [] => .error (missingDigit cs)
  | 0 :: _ :: _ => .error (.of .badNumber)
  | ds => .ok (ds, afterDigits cs)

/-- The number at the start of a text, and the rest of the text. -/
def take (cs : List Char) : Except Break (Numeral × List Char) := do
  let (negative, cs) : Bool × List Char :=
    match cs with
    | '-' :: rest => (true, rest)
    | cs => (false, cs)
  let (whole, cs) ← takeWhole cs
  let (fraction, cs) ← takeFraction cs
  let (exponent, cs) ← takeExponent cs
  return (⟨negative, whole, fraction, exponent⟩, cs)

/-- The digits that still fit in 64 bits after `n`, and the others. -/
def absorb (n : Nat) : List Nat → Nat × List Nat
  | [] => (n, [])
  | d :: ds => if 10 * n + d < Decimal.twoTo 64 then absorb (10 * n + d) ds else (n, d :: ds)

def valueOf (ds : List Nat) : Nat := ds.foldl (fun n d => 10 * n + d) 0

def powerOfTen (k : Nat) : Float := Float.ofScientific 1 false k

/-- `x / 10 ^ k`, by at most 308 places at a time. -/
def shrink (x : Float) (k : Nat) : Float :=
  if k ≤ 308 then x / powerOfTen k
  else if x == 0 then x
  else shrink (x / powerOfTen 308) (k - 308)
termination_by k
decreasing_by omega

/-- `n * 10 ^ e`. -/
def scale (n : Nat) (e : Int) : Except Fault Float :=
  let x := (UInt64.ofNat n).toFloat
  if e < 0 then .ok (shrink x e.natAbs)
  else if e ≤ 308 then
    let y := x * powerOfTen e.natAbs
    if y.isInf then .error .numberTooLarge else .ok y
  else if x == 0 then .ok x
  else .error .numberTooLarge

def signed (negative : Bool) (x : Float) : Float := if negative then -x else x

/-- The value as a double. An exponent beyond 32 bits decides alone. -/
def readFloat (n : Numeral) : Except Fault Float :=
  let (lead, wholeRest) := absorb 0 n.whole
  let (lead, fractionRest) := absorb lead n.fraction
  let shift : Int := wholeRest.length - (n.fraction.length - fractionRest.length : Nat)
  match n.exponent with
  | none => (scale lead shift).map (signed n.negative)
  | some (down, ds) =>
    let e := valueOf ds
    if e < Decimal.twoTo 31 then
      (scale lead (if down then shift - e else shift + e)).map (signed n.negative)
    else if lead ≠ 0 ∧ !down then .error .numberTooLarge
    else .ok (signed n.negative 0)

/-- A plain run of digits is an integer if 64 bits hold it, signed when it has a sign; zero has no
negative integer. -/
def read (n : Numeral) : Except Fault Number :=
  let magnitude := valueOf n.whole
  let fits : Bool :=
    if n.negative then 0 < magnitude ∧ magnitude ≤ Decimal.twoTo 63
    else magnitude < Decimal.twoTo 64
  if n.fraction = [] ∧ n.exponent = none ∧ fits then
    .ok (.int (if n.negative then -magnitude else magnitude))
  else n.readFloat.map .float

end Numeral
end ServiceDoc.Json
