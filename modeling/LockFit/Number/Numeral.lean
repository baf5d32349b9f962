import LockFit.Number.Shortest
import LockFit.Text.Digit

/-
  Numerals as people write them.
  Blanks around a numeral do not count, a sign may stand in front of it, and its digits may be those
  of any script. A whole number may carry the mark of its base; one in base ten has a limit on its
  digits, those in the bases two, eight and sixteen have none.
-/

namespace LockFit.Numeral

open Text

/-- The sign in front of a numeral, as whether it is a minus, and what follows it. -/
def splitSign : List Code → Bool × List Code
  | .scalar '-' :: cs => (true, cs)
  | .scalar '+' :: cs => (false, cs)
  | cs => (false, cs)

def dropSign (cs : List Code) : List Code := (splitSign cs).2

/-- The characters up to the first that no numeral holds, which becomes a question mark; blanks and
    digits of other scripts become those of ASCII. -/
def unifyScripts : List Code → List Code
  | [] => []
  | c :: cs =>
    if c.toNat < 127 then c :: unifyScripts cs
    else if isBlank c then ' ' :: unifyScripts cs
    else match digitValue? c with
      | some d => Char.ofNat ('0'.toNat + d) :: unifyScripts cs
      | none => ['?']

/-- A text in ASCII stays as it is. -/
def toAscii (cs : List Code) : List Code :=
  if cs.all fun c => c.toNat < 128 then cs else unifyScripts cs

/-- A blank that does not count at the ends of a numeral. -/
def isMargin (c : Code) : Bool := c = ' ' || ('\t' ≤ c && c ≤ '\r')

/-! ## Whole numbers -/

/-- Why a text is no whole number. -/
inductive WholeFault where
  | tooLong (cause : NumeralTooLong)
  | unreadable
  deriving DecidableEq

/-- The letter that stands for a base behind a zero. -/
def baseMark? (base : Nat) : Option Char :=
  match base with
  | 2 => some 'b'
  | 8 => some 'o'
  | 16 => some 'x'
  | _ => none

/-- What follows the mark of the base, which may be missing and may be a capital. -/
def dropBaseMark (base : Nat) (cs : List Code) : List Code :=
  match cs with
  | .scalar '0' :: .scalar c :: rest => if baseMark? base = some c.toLower then rest else cs
  | _ => cs

def isDigitIn (base : Nat) (c : Code) : Bool := (hexValue? c).any (· < base)

/-- The whole number in a base up to sixteen that a text writes. -/
def readWhole (base : Nat) (cs : List Code) : Except WholeFault Int :=
  let (negative, body) := splitSign ((toAscii cs).dropWhile isMargin)
  let body := dropBaseMark base body
  let digits := body.takeWhile (isDigitIn base)
  let rest := body.dropWhile (isDigitIn base)
  if base = 10 && digitLimit < digits.length then .error (.tooLong ⟨digits.length⟩)
  else if digits.isEmpty || !rest.all isMargin then .error .unreadable
  else
    let size : Int := valueInBase base digits
    .ok (if negative then -size else size)

/-! ## Numbers with a point -/

/-- The digits at the start with the digits behind a point, how many of them those are, and what
    follows. -/
def takeDecimal (cs : List Code) : List Code × Nat × List Code :=
  let whole := cs.takeWhile isAsciiDigit
  match cs.dropWhile isAsciiDigit with
  | .scalar '.' :: rest =>
    let places := rest.takeWhile isAsciiDigit
    (whole ++ places, places.length, rest.dropWhile isAsciiDigit)
  | rest => (whole, 0, rest)

/-- The power of ten that an exponent writes; nothing written is the power zero. -/
def readExponent : List Code → Option Int
  | [] => some 0
  | c :: cs =>
    let (negative, digits) := splitSign cs
    if c ≠ 'e' || digits.isEmpty || !digits.all isAsciiDigit then none
    else
      let size : Int := decimalValue digits
      some (if negative then -size else size)

/-- The number without a sign that a text in lower case writes. -/
def readMagnitude (cs : List Code) : Option Binary64 :=
  if cs = Text.toList "inf" || cs = Text.toList "infinity" then some (.infinite false)
  else if cs = Text.toList "nan" then some .nan
  else
    let (digits, places, rest) := takeDecimal cs
    if digits.isEmpty then none
    else (readExponent rest).map fun power =>
      let value := decimalValue digits
      .ofDecimal false value (Binary64.digitCount value) (power - places)

/-- The number that a text in lower case writes. -/
def readFloat (cs : List Code) : Option Binary64 :=
  let (negative, body) :=
    splitSign (dropEndWhile isMargin ((toAscii cs).dropWhile isMargin))
  (readMagnitude body).map fun x => if negative then x.negate else x

example : (readWhole 16 (Text.toList " -0X1f ")).toOption = some (-31) := by decide +kernel
example : (readWhole 10 (Text.toList "٣٤")).toOption = some 34 := by decide +kernel
example : readFloat (Text.toList " +1.5e1\n") = some (.finite false 8444249301319680 (-49)) := by
  decide +kernel

end LockFit.Numeral
