import LockFit.Number.Numeral
import LockFit.Yaml.Moment

/-
  What a scalar is by its form: a truth value, a number, a date, nothing, or else a text.
  `plainTag` gives the full tag. The forms exclude each other, so the order in which they are
  looked at does not matter. One end of a line behind a form does not count.
-/

namespace LockFit.Yaml

/-- The full tag of a sort of values that every document knows. -/
def coreTag (sort : Text) : Text := "tag:yaml.org,2002:" ++ sort

open Text Numeral

def isDigitOrBar (c : Code) : Bool := isAsciiDigit c || c = '_'

/-- The words for true, then those for false. -/
def trueWords : List Text :=
  ["yes", "Yes", "YES", "true", "True", "TRUE", "on", "On", "ON"]

def falseWords : List Text :=
  ["no", "No", "NO", "false", "False", "FALSE", "off", "Off", "OFF"]

def nullWords : List Text := ["", "~", "null", "Null", "NULL"]

/-- Nothing, or an exponent with a sign. -/
def isExponent : List Code → Bool
  | [] => true
  | c :: s :: cs =>
    (c = 'e' || c = 'E') && (s = '-' || s = '+') && !cs.isEmpty && cs.all isAsciiDigit
  | _ => false

/-- A digit, more digits and bars, and what follows them. -/
def afterDigits : List Code → Option (List Code)
  | [] => none
  | c :: cs => if isAsciiDigit c then some (cs.dropWhile isDigitOrBar) else none

/-- One or two digits up to 59. -/
def isSixtieth (cs : List Code) : Bool :=
  cs.all isAsciiDigit && (cs.length = 1 || (cs.length = 2 && cs.all fun _ => cs.headD '9' ≤ '5'))

/-- Parts to the base of sixty, each behind a colon; at least one. -/
def areSixtieths (cs : List Code) : Bool :=
  match splitChars ':' cs with
  | [] :: part :: parts => (part :: parts).all isSixtieth
  | _ => false

def isFloat (cs : List Code) : Bool :=
  let body := dropSign cs
  let decimal := (afterDigits body).any fun rest => match rest with
    | .scalar '.' :: rest => isExponent (rest.dropWhile isDigitOrBar)
    | _ => false
  let fraction := match cs with
    | .scalar '.' :: rest => (afterDigits rest).any isExponent
    | _ => false
  let sixties := (afterDigits body).any fun rest =>
    areSixtieths (rest.takeWhile (· ≠ Code.scalar '.')) &&
      match rest.dropWhile (· ≠ Code.scalar '.') with
      | .scalar '.' :: rest => rest.all isDigitOrBar
      | _ => false
  let isOneOf (words : List Text) (cs : List Code) : Bool := words.any fun w => w.toList = cs
  let infinite := isOneOf [".inf", ".Inf", ".INF"] body
  let noNumber := isOneOf [".nan", ".NaN", ".NAN"] cs
  decimal || fraction || sixties || infinite || noNumber

def isInteger (cs : List Code) : Bool :=
  match dropSign cs with
  | [.scalar '0'] => true
  | .scalar '0' :: .scalar 'b' :: rest =>
    !rest.isEmpty && rest.all fun c => c = '0' || c = '1' || c = '_'
  | .scalar '0' :: .scalar 'x' :: rest =>
    !rest.isEmpty && rest.all fun c => (hexValue? c).isSome || c = '_'
  | .scalar '0' :: rest => rest.all fun c => ('0' ≤ c && c ≤ '7') || c = '_'
  | c :: rest =>
    isAsciiNonzero c &&
      (let rest := rest.dropWhile isDigitOrBar
      rest.isEmpty || areSixtieths rest)
  | [] => false

/-! ## The choice -/

/-- Texts of one character that have a tag of their own, of which no value has the tag. -/
def markWords : List Text := ["!", "&", "*"]

/-- The end of a line at the end of a form does not count, unless there is nothing before it. -/
def dropLastBreak (cs : List Code) : List Code :=
  if cs.getLast? = some '\n' && cs.length ≠ 1 then cs.dropLast else cs

/-- The full tag of a text by its form. -/
def plainTag (text : Text) : Text :=
  let cs := dropLastBreak text.toList
  let isOneOf (words : List Text) : Bool := words.any fun w => w.toList = cs
  if isOneOf nullWords then coreTag "null"
  else if isOneOf trueWords || isOneOf falseWords then coreTag "bool"
  else if isFloat cs then coreTag "float"
  else if isInteger cs then coreTag "int"
  else if Moment.isWritten cs then coreTag "timestamp"
  else if isOneOf ["<<"] then coreTag "merge"
  else if isOneOf ["="] then coreTag "value"
  else if isOneOf markWords then coreTag "yaml"
  else coreTag "str"

example : plainTag "0x1F\n" = coreTag "int" ∧ plainTag "\n" = coreTag "str" := by decide +kernel

end LockFit.Yaml
