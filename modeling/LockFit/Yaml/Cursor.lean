import LockFit.Yaml.Fault

/-
  A place in a YAML text.
  A cursor is what is left of the text together with the number of characters, lines and columns
  before it. Lines end at a line feed, a carriage return, a next-line character or one of the two
  Unicode separators; a carriage return with a line feed behind it is one end.
-/

namespace LockFit.Yaml

def isBreak (c : Code) : Bool :=
  c = '\n' || c = '\r' || c = '\x85' || c = '\u2028' || c = '\u2029'

/-- The end of the text or of a line. -/
def endsLine : Option Code → Bool
  | none => true
  | some c => isBreak c

/-- The end of the text or of a line, or a space. -/
def endsPart : Option Code → Bool
  | none => true
  | some c => c = ' ' || isBreak c

/-- The end of the text or of a line, a space or a tab. -/
def endsWord : Option Code → Bool
  | none => true
  | some c => c = ' ' || c = '\t' || isBreak c

structure Cursor where
  rest : List Code
  index : Nat
  line : Nat
  column : Nat

namespace Cursor

def ofChars (cs : List Code) : Cursor := ⟨cs, 0, 0, 0⟩

def peek (k : Cursor) : Option Code := k.rest.head?

def peekAt (k : Cursor) (n : Nat) : Option Code := k.rest[n]?

/-- One character further; a byte order mark takes no column. -/
def step (k : Cursor) : Cursor :=
  match k.rest with
  | [] => k
  | c :: cs =>
    if isBreak c && !(c = '\r' && cs.head? = some '\n') then ⟨cs, k.index + 1, k.line + 1, 0⟩
    else if c = '\ufeff' then ⟨cs, k.index + 1, k.line, k.column⟩
    else ⟨cs, k.index + 1, k.line, k.column + 1⟩

def skip : Nat → Cursor → Cursor
  | 0, k => k
  | n + 1, k => skip n k.step

/-- The longest run of characters with the property, and the cursor behind it. -/
def span (p : Code → Bool) (k : Cursor) : List Code × Cursor :=
  let run := k.rest.takeWhile p
  (run, k.skip run.length)

def skipSpaces (k : Cursor) : Cursor := (k.span (· = Code.scalar ' ')).2

def skipBlanks (k : Cursor) : Cursor := (k.span fun c => c = ' ' || c = '\t').2

/-- To the end of the line. -/
def skipLine (k : Cursor) : Cursor := (k.span fun c => !isBreak c).2

/-- The end of a line, as the text that it counts as, and the cursor behind it. -/
def takeBreak (k : Cursor) : List Code × Cursor :=
  match k.rest with
  | .scalar '\r' :: .scalar '\n' :: _ => (['\n'], k.skip 2)
  | c :: _ =>
    if c = '\u2028' || c = '\u2029' then ([c], k.step)
    else if isBreak c then (['\n'], k.step)
    else ([], k)
  | [] => ([], k)

/-- Three copies of a character that stand as a word. -/
def atWord (k : Cursor) (c : Code) : Bool := [c, c, c].isPrefixOf k.rest && endsWord (k.peekAt 3)

/-- The marks between documents, which no scalar may hold at the start of a line. -/
def atDocumentMark (k : Cursor) : Bool := k.atWord '-' || k.atWord '.'

/-- The rest of a line that holds nothing but spaces and a comment, with its end. -/
def skipIgnored (k : Cursor) : Except Fault Cursor :=
  let k := k.skipSpaces
  let k := if k.peek = some '#' then k.skipLine else k
  if endsLine k.peek then .ok k.takeBreak.2 else .error .malformed

end Cursor

end LockFit.Yaml
