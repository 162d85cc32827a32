import ServiceDoc.Decimal.Power

/-! The range of doubles. A decimal rounds to a finite double when it stays below the point half
way between the largest double and the next power of two. -/
namespace ServiceDoc.Decimal

/-- `digits * 10 ^ exponent` rounds to a finite double. Only a lead near `10 ^ 308` needs the exact
comparison. -/
def isFinite (digits : Nat) (exponent : Int) : Bool :=
  let lead : Int := (Nat.toDigits 10 digits).length + exponent
  if digits = 0 ∨ lead < 308 then true
  else if 310 < lead then false
  else digits * tenTo exponent.toNat < (twoTo 1024 - twoTo 970) * tenTo (-exponent).toNat

end ServiceDoc.Decimal
