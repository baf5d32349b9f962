import LockFit.Text.Quoted
import LockFit.Yaml.Moment

/-
  What can be wrong with a YAML text.
  A text is malformed, or its nodes lie too deep in each other, or it is well formed and one of
  its scalars spells no value of the sort that it has by its form or its tag. A moment is scattered
  if it is written as a mapping, and a number is too large if one of its parts is beyond every
  floating-point number.
-/

namespace LockFit.Yaml

inductive Fault where
  | malformed
  | tooDeep
  | noCharacter (code : Nat)
  | numeral (cause : Text.NumeralTooLong)
  | noInteger (text : Text) (base : Nat)
  | noDigits
  | noFloat (text : Text)
  | tooLarge
  | noBoolean (text : Text)
  | noMoment
  | scatteredMoment
  | badMoment (cause : Moment.Fault)
  deriving DecidableEq

namespace Fault

/-- The longest part of a text that is shown of what is no whole number. -/
def shownLimit : Nat := 200

/-- What is said of a scalar that spells no value. -/
def message : Fault → Text
  | malformed | tooDeep | noMoment | scatteredMoment => ""
  | noCharacter code =>
    if code < Nat.pow 2 31 then "chr() arg not in range(0x110000)"
    else "Python int too large to convert to C int"
  | numeral cause => cause.message
  | noInteger text base =>
    "invalid literal for int() with base " ++ toString base ++ ": " ++
      Text.ofList ((Text.quoted text).toList.take shownLimit)
  | noDigits => "string index out of range"
  | noFloat text => "could not convert string to float: " ++ Text.quoted text
  | tooLarge => "int too large to convert to float"
  | noBoolean text => Text.quoted text
  | badMoment cause => cause.message

end Fault

/-- Why a text has no value: it is malformed, which its reader says in words of its own, or reading
    it fails. -/
inductive Refusal where
  | malformed (complaint : Text)
  | failed (cause : Fault)
  deriving DecidableEq

end LockFit.Yaml
