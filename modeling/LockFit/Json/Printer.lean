import LockFit.Json.Value

/-
  Writing JSON.
  Texts are written with ASCII characters alone: every other code point is an escape, in two halves
  if it lies beyond the first 65536. A value stands on one line, or each item and member stands on
  a line of its own behind as many steps of indentation as lists and objects are open around it.
-/

namespace LockFit.Json

open Text

/-- On one line, or on many with so many spaces for each step of indentation. -/
inductive Layout where
  | line
  | lines (indent : Nat)
  deriving DecidableEq

/-- How a code point is written inside a text. -/
def escapeChar (c : Code) : List Code :=
  if c = '"' || c = '\\' then ['\\', c]
  else if c = '\n' then ['\\', 'n']
  else if c = '\r' then ['\\', 'r']
  else if c = '\t' then ['\\', 't']
  else if c = '\x08' then ['\\', 'b']
  else if c = '\x0c' then ['\\', 'f']
  else if ' ' ≤ c && c ≤ '~' then [c]
  else if c.toNat < 0x10000 then '\\' :: 'u' :: hexText 4 c.toNat
  else
    let n := c.toNat - 0x10000
    Code.scalar '\\' :: 'u' :: hexText 4 (0xd800 + n / 0x400) ++
      Code.scalar '\\' :: 'u' :: hexText 4 (0xdc00 + n % 0x400)

def writeText (s : Text) : List Code :=
  Code.scalar '"' :: s.toList.flatMap escapeChar ++ [Code.scalar '"']

/-- The start of a new line at a depth, or nothing. -/
def Layout.newline (layout : Layout) (depth : Nat) : List Code :=
  match layout with
  | .line => []
  | .lines indent => '\n' :: List.replicate (indent * depth) ' '

/-- What stands between two items at a depth. -/
def Layout.comma (layout : Layout) (depth : Nat) : List Code :=
  match layout with
  | .line => [',', ' ']
  | .lines _ => ',' :: layout.newline depth

def writeFloat (x : Binary64) : List Code :=
  match x with
  | .nan => Text.toList "NaN"
  | .infinite s => if s then Text.toList "-Infinity" else Text.toList "Infinity"
  | x => Text.toList x.text

mutual

/-- The value as it is written inside so many open lists and objects. -/
def write (layout : Layout) (depth : Nat) : Json → List Code
  | null => Text.toList "null"
  | bool b => if b then Text.toList "true" else Text.toList "false"
  | int n => Text.toList (toString n)
  | float x => writeFloat x
  | text s => writeText s
  | list [] => ['[', ']']
  | list (v :: vs) =>
    Code.scalar '[' :: layout.newline (depth + 1) ++ write layout (depth + 1) v ++
      writeItems layout (depth + 1) vs ++ layout.newline depth ++ [Code.scalar ']']
  | object [] => ['\x7b', '\x7d']
  | object ((name, v) :: ms) =>
    Code.scalar '\x7b' :: layout.newline (depth + 1) ++ writeText name ++ Code.scalar ':' :: ' ' ::
      write layout (depth + 1) v ++ writeMembers layout (depth + 1) ms ++
      layout.newline depth ++ [Code.scalar '\x7d']

/-- The items after the first, each behind a comma. -/
def writeItems (layout : Layout) (depth : Nat) : List Json → List Code
  | [] => []
  | v :: vs => layout.comma depth ++ write layout depth v ++ writeItems layout depth vs

/-- The members after the first, each behind a comma. -/
def writeMembers (layout : Layout) (depth : Nat) : List (Text × Json) → List Code
  | [] => []
  | (name, v) :: ms =>
    layout.comma depth ++ writeText name ++ Code.scalar ':' :: ' ' ::
      write layout depth v ++
      writeMembers layout depth ms

end

/-- The text of a value. -/
def print (layout : Layout) (v : Json) : Text := Text.ofList (write layout 0 v)

end LockFit.Json
