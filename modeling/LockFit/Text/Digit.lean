import LockFit.Text.Blank

/-
  Decimal digits of every script and the numbers they write.
  Each script that has decimal digits keeps the ten of them in a row, so a digit is known by the
  zero of its row. A numeral is read in base ten whatever the scripts of its digits; one longer
  than `digitLimit` is refused, because the time to read a numeral grows with the square of its
  length.
-/

namespace LockFit.Text

/-- The zero of every script with decimal digits. -/
def digitZeros : List Nat :=
  [0x30, 0x660, 0x6f0, 0x7c0, 0x966, 0x9e6, 0xa66, 0xae6, 0xb66, 0xbe6, 0xc66, 0xce6, 0xd66,
    0xde6, 0xe50, 0xed0, 0xf20, 0x1040, 0x1090, 0x17e0, 0x1810, 0x1946, 0x19d0, 0x1a80, 0x1a90,
    0x1b50, 0x1bb0, 0x1c40, 0x1c50, 0xa620, 0xa8d0, 0xa900, 0xa9d0, 0xa9f0, 0xaa50, 0xabf0,
    0xff10, 0x104a0, 0x10d30, 0x11066, 0x110f0, 0x11136, 0x111d0, 0x112f0, 0x11450, 0x114d0,
    0x11650, 0x116c0, 0x11730, 0x118e0, 0x11950, 0x11c50, 0x11d50, 0x11da0, 0x16a60, 0x16ac0,
    0x16b50, 0x1d7ce, 0x1d7d8, 0x1d7e2, 0x1d7ec, 0x1d7f6, 0x1e140, 0x1e2f0, 0x1e950, 0x1fbf0]

/-- The value of a decimal digit, whose row starts at one of the zeros. -/
def digitValueFrom (n : Nat) : List Nat → Option Nat
  | [] => none
  | first :: rest =>
    if n < first then none
    else if n < first + 10 then some (n - first)
    else digitValueFrom n rest

def digitValue? (c : Code) : Option Nat := digitValueFrom c.toNat digitZeros

/-- A decimal digit of some script. -/
def isDigit (c : Code) : Bool := (digitValue? c).isSome

/-- One of the digits `0` to `9`. -/
def isAsciiDigit (c : Code) : Bool := '0' ≤ c && c ≤ '9'

/-- One of the digits `1` to `9`. -/
def isAsciiNonzero (c : Code) : Bool := '1' ≤ c && c ≤ '9'

/-- A letter of the English alphabet. -/
def isAsciiLetter (c : Code) : Bool := ('a' ≤ c && c ≤ 'z') || ('A' ≤ c && c ≤ 'Z')

/-- The value of a digit in a base up to sixteen; letters may have either case. -/
def hexValue? (c : Code) : Option Nat :=
  if '0' ≤ c && c ≤ '9' then some (c.toNat - '0'.toNat)
  else if 'a' ≤ c && c ≤ 'f' then some (c.toNat - 'a'.toNat + 10)
  else if 'A' ≤ c && c ≤ 'F' then some (c.toNat - 'A'.toNat + 10)
  else none

/-- The number that the digits write in base ten, the first digit counting most. -/
def decimalValue (digits : List Code) : Nat :=
  digits.foldl (fun n c => 10 * n + (digitValue? c).getD 0) 0

/-- The number that the digits write in a base up to sixteen. -/
def valueInBase (base : Nat) (digits : List Code) : Nat :=
  digits.foldl (fun n c => base * n + (hexValue? c).getD 0) 0

/-! ## Reading with a limit -/

/-- The greatest number of digits that is turned into a number. -/
def digitLimit : Nat := 4300

/-- A numeral was longer than the limit; `digits` says how long. -/
structure NumeralTooLong where
  digits : Nat
  deriving DecidableEq

def NumeralTooLong.message (e : NumeralTooLong) : Text :=
  "Exceeds the limit (" ++ toString digitLimit ++ " digits) for integer string conversion: " ++
    "value has " ++ toString e.digits ++
    " digits; use sys.set_int_max_str_digits() to increase the limit"

/-- The number that the digits write, unless there are too many of them. -/
def readNumeral (digits : List Code) : Except NumeralTooLong Nat :=
  if digits.length ≤ digitLimit then .ok (decimalValue digits) else .error ⟨digits.length⟩

theorem readNumeral_eq_ok {digits : List Code} (h : digits.length ≤ digitLimit) :
    readNumeral digits = .ok (decimalValue digits) := by
  simp [readNumeral, h]

/-! ## Writing with a limit -/

/-- A number has more digits than are written out. -/
structure NumberTooLong where
  number : Int
  deriving DecidableEq

def NumberTooLong.message (_ : NumberTooLong) : Text :=
  "Exceeds the limit (" ++ toString digitLimit ++ " digits) for integer string conversion; " ++
    "use sys.set_int_max_str_digits() to increase the limit"

/-- The digits of a number, unless there are too many of them. -/
def writeNumber (n : Int) : Except NumberTooLong Text :=
  if n.natAbs < Nat.pow 10 digitLimit then .ok (toString n) else .error ⟨n⟩

end LockFit.Text
