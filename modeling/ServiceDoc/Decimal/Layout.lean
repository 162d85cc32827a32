import ServiceDoc.Decimal.Power
import ServiceDoc.Decimal.Shortest

/-! Written decimals. A layout says which exponents are written positionally and how the others
are marked; `Float.written` applies it to the shortest decimal of a double. -/
namespace ServiceDoc

/-- Numbers `d.ddd * 10 ^ x` with `least ≤ x < bound` are positional and always have a fraction;
the others have one digit before the point and a marked exponent. -/
structure Decimal.Layout where
  least : Int
  bound : Int
  positiveMark : List Char
  negativeMark : List Char

namespace Decimal

def digitChars (n : Nat) : List Char := Nat.toDigits 10 n

def Layout.positional (digits : List Char) (exponent lead : Int) : List Char :=
  if 0 ≤ exponent then
    digits ++ List.replicate exponent.toNat '0' ++ ['.', '0']
  else if 0 ≤ lead then
    digits.take (lead.toNat + 1) ++ '.' :: digits.drop (lead.toNat + 1)
  else
    '0' :: '.' :: List.replicate (-lead - 1).toNat '0' ++ digits

def Layout.marked (layout : Layout) (digits : List Char) (lead : Int) : List Char :=
  let mark := if lead < 0 then layout.negativeMark else layout.positiveMark
  let mantissa :=
    match digits with
    | d :: e :: rest => d :: '.' :: e :: rest
    | ds => ds
  mantissa ++ mark ++ digitChars lead.natAbs

def Layout.write (layout : Layout) (d : Decimal) : List Char :=
  let digits := digitChars d.digits
  let lead : Int := d.exponent + digits.length - 1
  if layout.least ≤ lead ∧ lead < layout.bound then positional digits d.exponent lead
  else layout.marked digits lead

/-- A finite double. The sign of zero is kept. -/
def Layout.writeFloat (layout : Layout) (x : Float) : List Char :=
  let bits := x.toBits
  let sign := if bits.toNat / twoTo 63 = 0 then [] else ['-']
  let b := Binary.ofBits bits
  sign ++ if b.mantissa = 0 then ['0', '.', '0'] else layout.write (shortest b)

end Decimal
end ServiceDoc
