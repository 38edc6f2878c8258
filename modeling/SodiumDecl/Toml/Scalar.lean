/-!
# Numbers, truth values and dates

The values of TOML that are neither text nor made of other values. Settings are texts, so
such a value is only checked: `isScalar` accepts the spellings of integers of 64 bits, of
floats that are not too large for a double, of truth values, and of dates and times of day
that exist.
-/

namespace SodiumDecl.Toml

/-- A digit of a number in some base. -/
def isDigitOf (base : Nat) (c : Char) : Bool :=
  let value :=
    if c.isDigit then c.toNat - '0'.toNat
    else if 'a' ≤ c && c ≤ 'f' then c.toNat - 'a'.toNat + 10
    else if 'A' ≤ c && c ≤ 'F' then c.toNat - 'A'.toNat + 10
    else 16
  value < base

/-- The value of digits in some base. -/
def digitsValue (base : Nat) (cs : List Char) : Nat :=
  cs.foldl (fun n c =>
    let d :=
      if c.isDigit then c.toNat - '0'.toNat
      else if 'a' ≤ c then c.toNat - 'a'.toNat + 10
      else c.toNat - 'A'.toNat + 10
    base * n + d) 0

/-- The digits of a run in which single underscores may stand between digits. -/
def digits? (base : Nat) (cs : List Char) : Option (List Char) :=
  let groups := cs.splitOn '_'
  if groups.all fun g => !g.isEmpty && g.all (isDigitOf base) then some groups.flatten else none

/-- The digits of a run in base ten that starts with no zero, unless it is one. -/
def whole? (cs : List Char) : Option (List Char) :=
  match digits? 10 cs with
  | some ('0' :: _ :: _) => none
  | other => other

/-- A sign, true when it is a minus, and what follows it. -/
def sign (cs : List Char) : Bool × List Char :=
  match cs with
  | '-' :: cs => (true, cs)
  | '+' :: cs => (false, cs)
  | cs => (false, cs)

/-! ## Integers -/

/-- An integer in base ten that fits 64 bits. -/
def isDecimal (cs : List Char) : Bool :=
  let (negative, rest) := sign cs
  match whole? rest with
  | some ds =>
    let n := digitsValue 10 ds
    if negative then n ≤ Nat.pow 2 63 else n < Nat.pow 2 63
  | none => false

/-- Digits in some base that make an integer that fits 64 bits. -/
def isNatural (base : Nat) (cs : List Char) : Bool :=
  match digits? base cs with
  | some ds => digitsValue base ds < Nat.pow 2 63
  | none => false

/-- An integer. -/
def isInteger (cs : List Char) : Bool :=
  match cs with
  | '0' :: 'x' :: ds => isNatural 16 ds
  | '0' :: 'o' :: ds => isNatural 8 ds
  | '0' :: 'b' :: ds => isNatural 2 ds
  | cs => isDecimal cs

/-! ## Floats -/

/-- The least number that no finite double is nearest to. -/
def doubleLimit : Nat := Nat.pow 2 1024 - Nat.pow 2 970

/-- `n · 10 ^ exponent` is too large for a double. -/
def isTooLarge (n : Nat) (exponent : Int) : Bool :=
  let places := (Nat.toDigits 10 n).length + exponent
  n ≠ 0 && (310 < places ||
    (308 ≤ places && doubleLimit * Nat.pow 10 (-exponent).toNat ≤ n * Nat.pow 10 exponent.toNat))

/-- The parts of a float: the digits before and after the point, and the exponent. -/
def floatParts? (cs : List Char) : Option (List Char × List Char × Int) := do
  let isMark (c : Char) : Bool := c = 'e' || c = 'E'
  let mantissa := cs.takeWhile (!isMark ·)
  let (exponent, marked) ←
    match cs.dropWhile (!isMark ·) with
    | [] => some ((0 : Int), false)
    | _ :: power =>
      let (negative, power) := sign power
      let ds ← digits? 10 power
      let n : Int := digitsValue 10 ds
      some (if negative then -n else n, true)
  let whole ← whole? (mantissa.takeWhile (· ≠ '.'))
  match mantissa.dropWhile (· ≠ '.') with
  | [] => if marked then some (whole, [], exponent) else none
  | _ :: fraction => return (whole, ← digits? 10 fraction, exponent)

/-- A float. Only a positive one can be too large. -/
def isFloat (cs : List Char) : Bool :=
  let (negative, rest) := sign cs
  rest = ['i', 'n', 'f'] || rest = ['n', 'a', 'n'] ||
    match floatParts? rest with
    | some (whole, fraction, exponent) =>
      negative || !isTooLarge (digitsValue 10 (whole ++ fraction)) (exponent - fraction.length)
    | none => false

/-! ## Dates and times -/

/-- The number of a run of exactly `width` digits. -/
def fixed? (width : Nat) (cs : List Char) : Option Nat :=
  if cs.length = width && cs.all Char.isDigit then some (digitsValue 10 cs) else none

/-- A year with a 29th of February. -/
def isLeap (year : Nat) : Bool := (year % 4 = 0 && year % 100 ≠ 0) || year % 400 = 0

/-- The days of a month. -/
def daysIn (year month : Nat) : Nat :=
  if month = 2 then (if isLeap year then 29 else 28)
  else if month ∈ [4, 6, 9, 11] then 30
  else 31

/-- A date that exists. -/
def isDate (cs : List Char) : Bool :=
  match cs.splitOn '-' with
  | [y, m, d] =>
    match fixed? 4 y, fixed? 2 m, fixed? 2 d with
    | some y, some m, some d => 1 ≤ m && m ≤ 12 && 1 ≤ d && d ≤ daysIn y m
    | _, _, _ => false
  | _ => false

/-- Two digits that stand for a number up to `limit`. -/
def isUpTo (limit : Nat) (cs : List Char) : Bool :=
  match fixed? 2 cs with
  | some n => n ≤ limit
  | none => false

/-- A second, with or without a fraction. A minute may have a leap second. -/
def isSecond (cs : List Char) : Bool :=
  isUpTo 60 (cs.takeWhile (· ≠ '.')) &&
    match cs.dropWhile (· ≠ '.') with
    | [] => true
    | _ :: fraction => !fraction.isEmpty && fraction.all Char.isDigit

/-- A time of day. -/
def isTime (cs : List Char) : Bool :=
  match cs.splitOn ':' with
  | [h, m, s] => isUpTo 23 h && isUpTo 59 m && isSecond s
  | _ => false

/-- An offset from the time at Greenwich, without its sign. -/
def isOffset (cs : List Char) : Bool :=
  match cs.splitOn ':' with
  | [h, m] => isUpTo 23 h && isUpTo 59 m
  | _ => false

/-- A time of day, with or without an offset. -/
def isOffsetTime (cs : List Char) : Bool :=
  let isMark (c : Char) : Bool := c ∈ ['Z', 'z', '+', '-']
  let time := cs.takeWhile (!isMark ·)
  match cs.dropWhile (!isMark ·) with
  | [] => isTime time
  | m :: offset =>
    isTime time && if m = 'Z' || m = 'z' then offset.isEmpty else isOffset offset

/-- A date with a time of day behind a `T`. -/
def isDateTime (cs : List Char) : Bool :=
  let isMark (c : Char) : Bool := c = 'T' || c = 't'
  match cs.dropWhile (!isMark ·) with
  | [] => false
  | _ :: time => isDate (cs.takeWhile (!isMark ·)) && isOffsetTime time

/-! ## Scalars -/

/-- The spelling of a truth value, a number, a date or a time. -/
def isScalar (cs : List Char) : Bool :=
  cs = ['t', 'r', 'u', 'e'] || cs = ['f', 'a', 'l', 's', 'e'] ||
    isInteger cs || isFloat cs || isDate cs || isTime cs || isDateTime cs

end SodiumDecl.Toml
