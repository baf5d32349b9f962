import LockFit.Text.Printable

/-
  Quoted text, as messages show it.
  A text stands between single quotes, or between double quotes when it holds a single quote and
  no double one. The quote in use, the backslash, and the code points that are not printable are
  escaped, so that two different texts are never shown alike.
-/

namespace LockFit.Text

def hexDigit (n : Nat) : Code :=
  if n < 10 then Char.ofNat ('0'.toNat + n) else Char.ofNat ('a'.toNat + (n - 10))

/-- The last `width` digits of a number in base sixteen, padded with zeros. -/
def hexText : (width n : Nat) → List Code
  | 0, _ => []
  | width + 1, n => hexText width (n / 16) ++ [hexDigit (n % 16)]

/-- The quote that a text is shown between. -/
def quoteMark (cs : List Code) : Code :=
  if cs.contains '\x27' && !cs.contains '"' then '"' else '\x27'

/-- How a code point is shown between two copies of the quote. -/
def escapeChar (quote c : Code) : List Code :=
  if c = quote || c = '\\' then ['\\', c]
  else if c = '\n' then ['\\', 'n']
  else if c = '\r' then ['\\', 'r']
  else if c = '\t' then ['\\', 't']
  else if isPrintable c then [c]
  else if c.toNat < 0x100 then '\\' :: 'x' :: hexText 2 c.toNat
  else if c.toNat < 0x10000 then '\\' :: 'u' :: hexText 4 c.toNat
  else '\\' :: 'U' :: hexText 8 c.toNat

def quoteChars (cs : List Code) : List Code :=
  let quote := quoteMark cs
  quote :: cs.flatMap (escapeChar quote) ++ [quote]

/-- The text between quotes, with escapes for what cannot stand there. -/
def quoted (s : Text) : Text := Text.ofList (quoteChars s.toList)

/-- Several shown values between brackets, with commas between them. -/
def bracketed (shown : List Text) : Text := "[" ++ Text.intercalate ", " shown ++ "]"

example : quoted "a'b" = "\"a'b\"" := by decide +kernel
example : quoted "\x00é\n" = "'\\x00é\\n'" := by decide +kernel

end LockFit.Text
