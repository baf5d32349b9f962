/-
  Floating-point numbers of sixty-four bits, as exact values.
  A finite number is a sign, a whole mantissa below 2^53 and a power of two that is at least
  2^-1074. Reading a decimal and the two operations on numbers work on exact fractions and round
  once, to the nearest number, a tie going to the even mantissa.
-/

namespace LockFit

/-- A number of the sixty-four bit format. -/
inductive Binary64 where
  | nan
  | infinite (negative : Bool)
  | finite (negative : Bool) (mantissa : Nat) (exponent : Int)
  deriving DecidableEq

namespace Binary64

def minExponent : Int := -1074

/-- The greatest power of two that the mantissa of a finite number is multiplied by. -/
def maxExponent : Int := 971

def zero (negative : Bool) : Binary64 := .finite negative 0 minExponent

/-- The quotient of two numbers, rounded to the nearest whole number, a tie to the even one. -/
def roundDiv (num den : Nat) : Nat :=
  let q := num / den
  let r := num % den
  if 2 * r < den then q else if den < 2 * r then q + 1 else q + q % 2

/-- A fraction of two numbers times a power of two, as a fraction without one. -/
def scale (num den : Nat) (power : Int) : Nat × Nat :=
  if 0 ≤ power then (num * Nat.pow 2 power.toNat, den)
  else (num, den * Nat.pow 2 (-power).toNat)

/-- The power of two that leaves fifty-three bits before the point of a positive fraction. -/
def exponentFor (num den : Nat) : Int :=
  let k : Int := (num.log2 : Int) - den.log2
  let (a, b) := scale num den (-k)
  max (if b ≤ a then k - 52 else k - 53) minExponent

/-- The number nearest to a fraction. -/
def ofRatio (negative : Bool) (num den : Nat) : Binary64 :=
  if num = 0 then zero negative
  else
    let e := exponentFor num den
    let (a, b) := scale num den (-e)
    let m := roundDiv a b
    let (m, e) := if m = Nat.pow 2 53 then (Nat.pow 2 52, e + 1) else (m, e)
    if maxExponent < e then .infinite negative else .finite negative m e

/-- The number nearest to `value · 10^power`. Beyond four hundred places either way the answer is
    known without the power: `places` is the number of digits of the value. -/
def ofDecimal (negative : Bool) (value places : Nat) (power : Int) : Binary64 :=
  if value = 0 then zero negative
  else if 400 < places + power then .infinite negative
  else if places + power < -400 then zero negative
  else if 0 ≤ power then ofRatio negative (value * Nat.pow 10 power.toNat) 1
  else ofRatio negative value (Nat.pow 10 (-power).toNat)

def isZero : Binary64 → Bool
  | .finite _ m _ => m = 0
  | _ => false

def isNegative : Binary64 → Bool
  | .nan => false
  | .infinite s => s
  | .finite s _ _ => s

def negate : Binary64 → Binary64
  | .nan => .nan
  | .infinite s => .infinite !s
  | .finite s m e => .finite (!s) m e

/-- The finite number as a fraction: a whole number over a power of two. -/
def fraction (negative : Bool) (m : Nat) (e : Int) : Int × Nat :=
  let (a, b) := scale m 1 e
  (if negative then -a else a, b)

def ofFraction (num : Int) (den : Nat) : Binary64 := ofRatio (num < 0) num.natAbs den

def add : Binary64 → Binary64 → Binary64
  | .nan, _ => .nan
  | _, .nan => .nan
  | .infinite s, .infinite t => if s = t then .infinite s else .nan
  | .infinite s, _ => .infinite s
  | _, .infinite t => .infinite t
  | .finite s m e, .finite t n f =>
    let (a, b) := fraction s m e
    let (c, d) := fraction t n f
    if m = 0 && n = 0 then zero (s && t) else ofFraction (a * d + c * b) (b * d)

def mul : Binary64 → Binary64 → Binary64
  | .nan, _ => .nan
  | _, .nan => .nan
  | .infinite s, y => if y.isZero then .nan else .infinite (s != y.isNegative)
  | x, .infinite t => if x.isZero then .nan else .infinite (x.isNegative != t)
  | .finite s m e, .finite t n f =>
    let (a, b) := scale m 1 e
    let (c, d) := scale n 1 f
    ofRatio (s != t) (a * c) (b * d)

/-- The order of a number and a fraction; none if the number is no number. -/
def compareFraction (x : Binary64) (num : Int) (den : Nat) : Option Ordering :=
  match x with
  | .nan => none
  | .infinite s => some (if s then .lt else .gt)
  | .finite s m e =>
    let (a, b) := fraction s m e
    some (compare (a * den) (num * b))

/-- The order of two numbers; zeros of either sign are equal. -/
def compareTo (x y : Binary64) : Option Ordering :=
  match x, y with
  | x, .finite s m e => let (a, b) := fraction s m e; x.compareFraction a b
  | .nan, _ => none
  | _, .nan => none
  | .infinite s, .infinite t => some (if s = t then .eq else if s then .lt else .gt)
  | .finite .., .infinite t => some (if t then .gt else .lt)

example : ofDecimal false 1 1 (-1) = .finite false 7205759403792794 (-56) := by decide +kernel
example : ofDecimal false 5 1 (-324) = .finite false 1 (-1074) := by decide +kernel
example : ofDecimal true 1 1 400 = .infinite true := by decide +kernel

end Binary64

end LockFit
