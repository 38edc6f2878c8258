import SodiumDecl.Decimal.Shortest

/-!
# Numbers

`Literal` is a number as it is written. `Literal.number?` gives its value: an integer when
it is written as one and fits 64 bits, otherwise a double, or nothing when it is too large
for a double. A double is read from the leading digits that fit an unsigned 64-bit
significand, which is then multiplied or divided by a power of ten in double precision, so
the last bit may differ from the nearest double.

`Number.text` writes a number: an integer in decimal, a double in its shortest form.
-/

namespace SodiumDecl.Json

/-- A number as written: sign, digits before the point, digits after it, and sign and
digits of the exponent. -/
structure Literal where
  negative : Bool
  whole : List Char
  fraction : List Char
  exponent : Option (Bool × List Char)
  deriving DecidableEq, Repr

/-- The value of a number, a double by its bits. -/
inductive Number
  | integer (value : Int)
  | float (bits : UInt64)
  deriving DecidableEq, Repr

/-- The value of a decimal digit. -/
def digitValue (c : Char) : Nat := c.toNat - '0'.toNat

/-- The natural number that `digits` continue from `n`. -/
def readDigits (n : Nat) (digits : List Char) : Nat :=
  digits.foldl (fun n c => 10 * n + digitValue c) n

/-- Continue the significand `s` by the digits that keep it below `2 ^ 64`. The digits
from the first one that does not are left over. -/
def takeSignificant : Nat → List Char → Nat × List Char
  | s, [] => (s, [])
  | s, c :: cs =>
    let next := 10 * s + digitValue c
    if next < Nat.pow 2 64 then takeSignificant next cs else (s, c :: cs)

/-- The double nearest to `10 ^ n`, for `n` up to 308. -/
def powerOfTen (n : Nat) : Float := Float.ofScientific 1 false n

/-- Divide by `10 ^ n`, in steps of at most `10 ^ 308`. Two steps take any significand that
is left to zero, so a third has nothing to divide. -/
def shrink (f : Float) (n : Nat) : Float :=
  if n ≤ 308 then f / powerOfTen n
  else f / powerOfTen 308 / powerOfTen (min (n - 308) 308)

/-- Multiply by `10 ^ n`, unless the result is infinite. -/
def grow? (f : Float) (n : Nat) : Option Float :=
  if n ≤ 308 then
    let g := f * powerOfTen n
    if g.isInf then none else some g
  else if f == 0 then some f
  else none

/-- The double `significand · 10 ^ exponent`. -/
def scaled? (significand : Nat) (exponent : Int) : Option Float :=
  let f := significand.toUInt64.toFloat
  if 0 ≤ exponent then grow? f exponent.toNat else some (shrink f (-exponent).toNat)

/-- The largest exponent that is read as it stands. A larger one makes zero of what it
shrinks and is out of range where it would grow. -/
def exponentLimit : Nat := Nat.pow 2 31 - 1

namespace Literal

/-- The magnitude of a number that is not written as a 64-bit integer. -/
def magnitude? (l : Literal) : Option Float :=
  let (whole, dropped) := takeSignificant 0 l.whole
  let (significand, ignored) := takeSignificant whole l.fraction
  let shift : Int := dropped.length - (l.fraction.length - ignored.length : Nat)
  match l.exponent with
  | none => scaled? significand shift
  | some (negative, digits) =>
    let e := readDigits 0 digits
    if e ≤ exponentLimit then scaled? significand (if negative then shift - e else shift + e)
    else if significand = 0 || negative then some 0
    else none

/-- The value, if it is written as an integer and fits 64 bits: up to `2 ^ 64 - 1` above
zero and down to `-2 ^ 63` below it. The text `-0` is not an integer. -/
def integer? (l : Literal) : Option Int :=
  if l.fraction.isEmpty && l.exponent.isNone then
    let n := readDigits 0 l.whole
    if l.negative then
      if 0 < n && n ≤ Nat.pow 2 63 then some (-n) else none
    else if n < Nat.pow 2 64 then some n
    else none
  else none

/-- The value of a number as written. -/
def number? (l : Literal) : Option Number :=
  match l.integer? with
  | some n => some (.integer n)
  | none => l.magnitude?.map fun f => .float (if l.negative then -f else f).toBits

end Literal

/-- The text of a shortest decimal: positional with at least one digit after the point
while the point stands within sixteen digits, up to four zeros after it, and otherwise
with one digit before the point and an exponent with its sign. -/
def decimalText (x : Decimal) : List Char :=
  let digits := Nat.toDigits 10 x.digits
  let point := digits.length + x.exponent
  if 0 ≤ x.exponent && point ≤ 16 then
    digits ++ List.replicate x.exponent.toNat '0' ++ ['.', '0']
  else if 0 < point && point ≤ 16 then
    digits.take point.toNat ++ '.' :: digits.drop point.toNat
  else if -5 < point && point ≤ 0 then
    '0' :: '.' :: List.replicate (-point).toNat '0' ++ digits
  else
    let mantissa := match digits with
      | [] | [_] => digits
      | d :: ds => d :: '.' :: ds
    let power := point - 1
    mantissa ++ 'e' :: (if power < 0 then '-' else '+') :: Nat.toDigits 10 power.natAbs

/-- The text of a double. -/
def floatText (bits : UInt64) : List Char :=
  let magnitude := bits.toNat % Nat.pow 2 63
  (if Nat.pow 2 63 ≤ bits.toNat then ['-'] else []) ++
    if magnitude = 0 then ['0', '.', '0'] else decimalText (Decimal.shortest magnitude)

/-- The text of an integer. -/
def integerText (n : Int) : List Char :=
  (if n < 0 then ['-'] else []) ++ Nat.toDigits 10 n.natAbs

/-- The text of a number. -/
def Number.text : Number → List Char
  | .integer n => integerText n
  | .float bits => floatText bits

end SodiumDecl.Json
