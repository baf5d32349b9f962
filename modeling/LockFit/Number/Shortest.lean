import LockFit.Number.Binary64

/-
  The shortest decimal of a floating-point number.
  Of the decimals that round to the number those with the fewest digits are taken, and of these
  the nearest. They are searched for on the grids of one digit, two digits and so on: if a point
  of a grid rounds to the number, then so does one of the two points next to it. Seventeen digits
  always suffice.
-/

namespace LockFit.Binary64

/-- A decimal: the digits as a whole number, and the power of ten that they are multiplied by. -/
structure Decimal where
  digits : Nat
  power : Int
  deriving DecidableEq

/-- `x` against `c · 10^power`, for the fraction `x = num / den`. -/
def comparePoint (num den c : Nat) (power : Int) : Ordering :=
  if 0 ≤ power then compare num (c * Nat.pow 10 power.toNat * den)
  else compare (num * Nat.pow 10 (-power).toNat) (c * den)

/-- The fractions that round to a positive number: their ends over a common divisor, and whether
    the ends belong to them. The number itself stands in the middle of the list. -/
structure Rounding where
  low : Nat
  value : Nat
  high : Nat
  den : Nat
  closed : Bool

def roundingOf (m : Nat) (e : Int) : Rounding :=
  let low := if m = Nat.pow 2 52 && minExponent < e then 4 * m - 1 else 4 * m - 2
  let (f, den) := scale 1 1 (e - 2)
  ⟨low * f, 4 * m * f, (4 * m + 2) * f, den, m % 2 = 0⟩

/-- The decimal `c · 10^power` rounds to the number. -/
def Rounding.holds (r : Rounding) (c : Nat) (power : Int) : Bool :=
  let below := comparePoint r.low r.den c power
  let above := comparePoint r.high r.den c power
  (below == .lt || (r.closed && below == .eq)) && (above == .gt || (r.closed && above == .eq))

/-- The number of decimal digits of a whole number; zero has none. -/
def digitCount (n : Nat) : Nat := if n = 0 then 0 else (Nat.toDigits 10 n).length

/-- The least `k` with `10^k · num ≥ den`, looked for upwards among so many. -/
def leadingZeros (num den : Nat) : Nat → Nat
  | 0 => 0
  | n + 1 => if den ≤ num then 0 else leadingZeros (num * 10) den n + 1

/-- The number of digits before the point of a positive fraction; below one, less the number of
    zeros that follow the point. -/
def pointOf (num den : Nat) : Int :=
  if den ≤ num then digitCount (num / den) else 1 - (leadingZeros num den 400 : Int)

/-- The point of the grid of so many digits that rounds to the number, if there is one. -/
def Rounding.onGrid (r : Rounding) (point : Int) (places : Nat) : Option Decimal :=
  let power := point - places
  let c := if 0 ≤ power then r.value / (r.den * Nat.pow 10 power.toNat)
    else r.value * Nat.pow 10 (-power).toNat / r.den
  match r.holds c power, r.holds (c + 1) power with
  | true, false => some ⟨c, power⟩
  | false, true => some ⟨c + 1, power⟩
  | false, false => none
  | true, true =>
    match comparePoint (2 * r.value) r.den (2 * c + 1) power with
    | .lt => some ⟨c, power⟩
    | .gt => some ⟨c + 1, power⟩
    | .eq => some ⟨c + c % 2, power⟩

/-- The first grid with a hit, starting from so many digits. -/
def Rounding.search (r : Rounding) (point : Int) (places : Nat) : Nat → Decimal
  | 0 => ⟨0, 0⟩
  | n + 1 => match r.onGrid point places with
    | some d => d
    | none => r.search point (places + 1) n

/-- The decimal with the fewest digits that rounds to a positive number. -/
def shortest (m : Nat) (e : Int) : Decimal :=
  let r := roundingOf m e
  r.search (pointOf r.value r.den) 1 17

/-! ## Writing it -/

/-- The digits without the zeros at their end. -/
def significant (digits : Nat) : List Char :=
  ((Nat.toDigits 10 digits).reverse.dropWhile (· == '0')).reverse

/-- An exponent has a sign and two digits at least. -/
def exponentText (n : Int) : List Char :=
  let digits := Nat.toDigits 10 n.natAbs
  (if n < 0 then '-' else '+') :: (if digits.length < 2 then '0' :: digits else digits)

/-- Digits with a point after so many of them: written out while the point lies at most sixteen
    places to the right of their start and less than four to the left, with an exponent
    elsewhere. -/
def writeDigits (digits : List Char) (point : Int) : List Char :=
  if -4 < point && point ≤ 16 then
    if point ≤ 0 then '0' :: '.' :: List.replicate (-point).toNat '0' ++ digits
    else
      let n := point.toNat
      let tail := digits.drop n
      digits.take n ++ List.replicate (n - digits.length) '0' ++ '.' ::
        (if tail.isEmpty then ['0'] else tail)
  else
    let mantissa := match digits with
      | [] => []
      | [d] => [d]
      | d :: ds => d :: '.' :: ds
    mantissa ++ 'e' :: exponentText (point - 1)

/-- The text of a number: the shortest one that reads back as the same number. -/
def text (x : Binary64) : String :=
  match x with
  | .nan => "nan"
  | .infinite s => if s then "-inf" else "inf"
  | .finite s m e =>
    let body := if m = 0 then ['0', '.', '0'] else
      let d := shortest m e
      writeDigits (significant d.digits) (digitCount d.digits + d.power)
    String.ofList (if s then '-' :: body else body)

example : (ofDecimal false 1 1 (-1)).text = "0.1" := by decide +kernel
example : (ofDecimal true 15 2 15).text = "-1.5e+16" := by decide +kernel
example : (ofDecimal false 5 1 (-324)).text = "5e-324" := by decide +kernel

end LockFit.Binary64
