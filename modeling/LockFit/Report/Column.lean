import LockFit.Text.Blank

/-
  Texts in a column.
  A character takes one place, apart from control characters, which take none. A text is broken into
  lines at its line feeds, and where a line would be too wide also between words. Tabs become spaces
  only after the width of a column is known, so they can make a line wider than its column.
-/

namespace LockFit.Report

open Text

def charWidth (c : Code) : Nat := if c < ' ' || ('\x7f' ≤ c && c < '\xa0') then 0 else 1

def width (cs : List Code) : Nat := (cs.map charWidth).foldr (· + ·) 0

/-- Control characters that would move the place of printing; they are left out. -/
def movesPrinting (c : Code) : Bool :=
  c = '\x07' || c = '\x08' || c = '\x0b' || c = '\x0c' || c = '\r'

/-- Characters that end a line when the width of a text is taken. -/
def endsLine (c : Code) : Bool :=
  ('\n' ≤ c && c ≤ '\r') || ('\x1c' ≤ c && c ≤ '\x1e') || c = '\x85' || c = '\u2028' || c = '\u2029'

def lineWidths : List Code → List Nat
  | [] => [0]
  | c :: cs =>
    let widths := lineWidths cs
    if endsLine c then 0 :: widths
    else (charWidth c + widths.headD 0) :: widths.drop 1

/-- The width of the widest line of a text. -/
def textWidth (cs : List Code) : Nat := (lineWidths cs).foldl max 0

/-! ## Padding -/

def spaces (n : Nat) : List Code := List.replicate n ' '

def padRight (room : Nat) (cs : List Code) : List Code :=
  cs ++ spaces (room - width cs)

/-- The line in the middle of the room; an odd space goes to the right. -/
def centre (room : Nat) (cs : List Code) : List Code :=
  padRight room (spaces ((room - width cs) / 2) ++ cs)

/-- The line without blanks at its end, as far as it has more characters than there is room for. -/
def trimTo (room : Nat) (cs : List Code) : List Code :=
  let blanks := (cs.reverse.takeWhile isBlank).length
  cs.take (cs.length - min blanks (cs.length - room))

/-- The distance of the places that tabs lead to. -/
def tabStop : Nat := 8

/-- The line with spaces for its tabs, behind so many places. -/
def expandTabs (taken : Nat) : List Code → List Code
  | [] => []
  | c :: cs =>
    if c = '\t' then
      let next := (taken / tabStop + 1) * tabStop
      spaces (next - taken) ++ expandTabs next cs
    else c :: expandTabs (taken + charWidth c) cs

/-! ## Words -/

/-- The words of a line, each with the blanks behind it, the first one also with those in front of
    it. Blanks alone are no word. The first argument bounds the number of words. -/
def words : Nat → List Code → List (List Code)
  | 0, _ => []
  | fuel + 1, cs =>
    let lead := cs.takeWhile isBlank
    let rest := cs.dropWhile isBlank
    let word := rest.takeWhile fun c => !isBlank c
    let rest := rest.dropWhile fun c => !isBlank c
    if word.isEmpty then []
    else (lead ++ word ++ rest.takeWhile isBlank) :: words fuel (rest.dropWhile isBlank)

/-- Pieces of the size, of which the last may be shorter. The first argument bounds their
    number. -/
def chop (size : Nat) : Nat → List Code → List (List Code)
  | 0, _ => []
  | fuel + 1, cs =>
    if cs.length ≤ size then [cs] else cs.take size :: chop size fuel (cs.drop size)

/-- Breaks words into lines; `line` is the line so far. A word that fits no line is chopped, or
    stands on a line of its own. -/
def breakWords (chops : Bool) (room : Nat) (line : List Code) : List (List Code) → List (List Code)
  | [] => [line]
  | w :: ws =>
    let size := width (dropEndWhile isBlank w)
    let before := if line.isEmpty then [] else [line]
    if width line + size ≤ room then breakWords chops room (line ++ w) ws
    else if room < size && chops then
      let pieces := chop room w.length w
      before ++ pieces.dropLast ++ breakWords chops room (pieces.getLastD []) ws
    else before ++ breakWords chops room w ws

/-- The lines that a line is broken into. -/
def breakLine (chops : Bool) (room : Nat) (line : List Code) : List (List Code) :=
  match words line.length line with
  | [] => [line]
  | ws => breakWords chops room [] ws

/-- The lines of a text in a column, each as wide as the column. A column without room has one line
    with nothing on it. -/
def columnLines (room : Nat) (text : List Code) : List (List Code) :=
  if room = 0 then [[]]
  else (splitChars '\n' text).flatMap fun line =>
    (breakLine false room (expandTabs 0 line)).map fun l => padRight room (trimTo room l)

end LockFit.Report
