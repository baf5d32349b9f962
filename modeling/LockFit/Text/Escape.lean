import LockFit.Text.Basic

/-
  Control sequences of terminals in a text.
  A sequence starts with the escape character and an opening bracket. Parameters follow, then
  intermediate characters, each any number of times, and one final character ends it; the three
  sorts are ranges of ASCII that have no character in common. Where the output is no terminal the
  sequences are left out.
-/

namespace LockFit.Text

/-- A digit or one of `:;<=>?`. -/
def isEscapeParameter (c : Code) : Bool := '0' ≤ c && c ≤ '?'

/-- The space or one of the marks in front of the digits. -/
def isEscapeIntermediate (c : Code) : Bool := ' ' ≤ c && c ≤ '/'

/-- A letter or one of the marks beside the letters. -/
def isEscapeFinal (c : Code) : Bool := '@' ≤ c && c ≤ '~'

/-- What follows a control sequence at the start of the text, if there is one. -/
def afterEscape? (cs : List Code) : Option (List Code) :=
  match cs with
  | .scalar '\x1b' :: .scalar '[' :: rest =>
    match (rest.dropWhile isEscapeParameter).dropWhile isEscapeIntermediate with
    | c :: rest => if isEscapeFinal c then some rest else none
    | [] => none
  | _ => none

/-- The text without control sequences. The first argument bounds the number of characters. -/
def dropEscapeChars : Nat → List Code → List Code
  | 0, cs => cs
  | _ + 1, [] => []
  | fuel + 1, c :: cs => match afterEscape? (c :: cs) with
    | some rest => dropEscapeChars fuel rest
    | none => c :: dropEscapeChars fuel cs

def dropEscapes (s : Text) : Text :=
  Text.ofList (dropEscapeChars s.toList.length s.toList)

example : dropEscapes "a\x1b[31mb\x1b]c" = "ab\x1b]c" := by decide +kernel

example : dropEscapes "a\x1b[?1 ~b\x1b[1 2m" = "ab\x1b[1 2m" := by decide +kernel

end LockFit.Text
