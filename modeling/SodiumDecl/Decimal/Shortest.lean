/-!
# Shortest decimals

A finite binary double stands for every real that rounds to it, an interval around its
value. `shortest` finds the fewest decimal digits that name a point of that interval, and
of those the nearest to the value. A decimal grid has a point in the interval exactly when
one of the two grid points around the value lies in it, so each digit count is settled by
looking at two candidates in exact integer arithmetic.
-/

namespace SodiumDecl

/-- A positive decimal `digits · 10 ^ exponent`. -/
structure Decimal where
  digits : Nat
  exponent : Int
  deriving DecidableEq, Repr

namespace Decimal

/-- The interval of a positive double, in units of `2 ^ scale`: its two ends, its value
between them, and whether the ends belong to it. -/
structure Interval where
  low : Nat
  value : Nat
  high : Nat
  closed : Bool
  scale : Int

/-- The interval of a positive finite double, from its bits without the sign. Below a
power of two the neighbours are twice as close as above it. -/
def Interval.ofBits (bits : Nat) : Interval :=
  let fraction : Nat := bits % Nat.pow 2 52
  let field : Nat := bits / Nat.pow 2 52
  let significand : Nat := if field = 0 then fraction else fraction + Nat.pow 2 52
  { low := 4 * significand - (if fraction = 0 && 1 < field then 1 else 2)
    value := 4 * significand
    high := 4 * significand + 2
    closed := significand % 2 = 0
    scale := (max field 1 : Nat) - (1077 : Int) }

/-- Numerator and denominator of `n · 2 ^ scale / 10 ^ k`. -/
def ratio (n : Nat) (scale k : Int) : Nat × Nat :=
  (n * Nat.pow 2 scale.toNat * Nat.pow 10 (-k).toNat, Nat.pow 2 (-scale).toNat * Nat.pow 10 k.toNat)

/-- The point `c · 10 ^ k` lies in the interval. -/
def Interval.contains (i : Interval) (k : Int) (c : Nat) : Bool :=
  let (low, d) := ratio i.low i.scale k
  let (high, _) := ratio i.high i.scale k
  if i.closed then low ≤ c * d && c * d ≤ high else low < c * d && c * d < high

/-- The point of the grid `10 ^ k` in the interval that is nearest to the value. An exact
tie goes to the even point. -/
def Interval.nearest? (i : Interval) (k : Int) : Option Nat :=
  let (n, d) := ratio i.value i.scale k
  let below := n / d
  let twice := 2 * (n % d)
  let first := if twice < d || (twice = d && below % 2 = 0) then below else below + 1
  let second := if first = below then below + 1 else below
  [first, second].find? fun c => 0 < c && i.contains k c

/-- The exponent of the leading digit of the value. -/
def Interval.magnitude (i : Interval) : Int :=
  let (n, d) := ratio i.value i.scale 0
  let estimate : Int := (Nat.toDigits 10 n).length - (Nat.toDigits 10 d).length
  let (n, d) := ratio i.value i.scale estimate
  if n < d then estimate - 1 else estimate

/-- Drop the trailing zeros of the digits, at most `fuel` of them. -/
def trim : Nat → Decimal → Decimal
  | 0, x => x
  | fuel + 1, x =>
    if x.digits % 10 = 0 && 0 < x.digits then trim fuel ⟨x.digits / 10, x.exponent + 1⟩ else x

/-- The shortest decimal of the positive finite double with these bits. Seventeen digits
always suffice. -/
def shortest (bits : Nat) : Decimal :=
  let i := Interval.ofBits bits
  let top := i.magnitude
  let found := (List.range 17).findSome? fun (n : Nat) =>
    let k := top - n
    (i.nearest? k).map fun c => ⟨c, k⟩
  trim 17 (found.getD ⟨0, 0⟩)

end Decimal

end SodiumDecl
