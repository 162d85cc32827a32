import ServiceDoc.Decimal.Power

/-! Shortest decimals of binary floating point numbers. A positive finite double is `m * 2 ^ q`;
the reals that round to it form an interval around it, closed exactly when `m` is even. The
shortest decimal is the point of the coarsest power-of-ten grid that has a point in the interval,
and of two such points the nearer one. -/
namespace ServiceDoc

/-- The number `digits * 10 ^ exponent`. -/
structure Decimal where
  digits : Nat
  exponent : Int
deriving DecidableEq, Repr

namespace Decimal

/-- A positive double as `mantissa * 2 ^ exponent`. -/
structure Binary where
  mantissa : Nat
  exponent : Int

/-- The magnitude of a finite double. -/
def Binary.ofBits (bits : UInt64) : Binary :=
  let fraction : Nat := bits.toNat % twoTo 52
  let biased : Nat := bits.toNat / twoTo 52 % twoTo 11
  if biased = 0 then ⟨fraction, -1074⟩ else ⟨twoTo 52 + fraction, biased - 1075⟩

/-- A binary number and the ends of its rounding interval in one unit `2 ^ (exponent - 2)`. Below
a power of two the neighbour is only half as far away. -/
structure Interval where
  low : Nat
  value : Nat
  high : Nat
  closed : Bool
  unit : Int

def Binary.interval (b : Binary) : Interval where
  low := if b.mantissa = twoTo 52 ∧ -1074 < b.exponent then 4 * b.mantissa - 1 else 4 * b.mantissa - 2
  value := 4 * b.mantissa
  high := 4 * b.mantissa + 2
  closed := b.mantissa % 2 == 0
  unit := b.exponent - 2

def Interval.holds (i : Interval) (scale point : Nat) : Bool :=
  if i.closed then i.low * scale ≤ point && point ≤ i.high * scale
  else i.low * scale < point && point < i.high * scale

/-- The best multiple of `10 ^ k` in the interval. Only the two neighbours of the value on that
grid can be the best one; an exact tie goes to the even digit. -/
def Interval.onGrid (i : Interval) (k : Int) : Option Nat :=
  let scale := twoTo i.unit.toNat * tenTo (-k).toNat
  let step := tenTo k.toNat * twoTo (-i.unit).toNat
  let below := i.value * scale / step
  let above := below + 1
  match i.holds scale (below * step), i.holds scale (above * step) with
  | false, false => none
  | true, false => some below
  | false, true => some above
  | true, true =>
    let down := i.value * scale - below * step
    let up := above * step - i.value * scale
    if down < up ∨ (down = up ∧ below % 2 = 0) then some below else some above

/-- Searches grids from coarse to fine. -/
def Interval.search (i : Interval) : Nat → Int → Decimal
  | 0, k => ⟨0, k⟩
  | tries + 1, k =>
    match i.onGrid k with
    | some digits => ⟨digits, k⟩
    | none => i.search tries (k - 1)

/-- The first grid is coarser than the number, and 17 digits tell any two doubles apart. -/
def shortest (b : Binary) : Decimal :=
  let top : Int := (b.mantissa.log2 + b.exponent + 1) * 30103 / 100000 + 2
  b.interval.search 24 top

end Decimal
end ServiceDoc
