import LockFit.Text.Digit
import LockFit.Yaml.Cursor

/-
  The text of scalars: plain, in quotes, and in blocks.
  A line that ends inside a plain or a quoted scalar counts as one space, and n empty lines after
  it count as n line feeds. In a block every line stands as it is, or lines are folded in the same
  way; what counts as indentation is no part of the text. Each function takes the cursor at the
  start of a scalar and gives the text with the cursor behind it; `fuel` bounds the characters.
-/

namespace LockFit.Yaml

/-- What a broken line counts as: one space, unless empty lines follow. -/
def foldBreak (first breaks : List Code) : List Code :=
  (if first ≠ [.scalar '\n'] then first else if breaks.isEmpty then [.scalar ' '] else []) ++ breaks

/-! ## Plain scalars -/

/-- Characters that end a plain scalar between brackets. -/
def isFlowMark (c : Code) : Bool :=
  c = ',' || c = '[' || c = ']' || c = '\x7b' || c = '\x7d'

/-- The characters up to the next space or to what ends a plain scalar. -/
def plainRun (flow : Bool) : List Code → List Code
  | [] => []
  | c :: cs =>
    let ends := endsWord (some c) ||
      (c = ':' && (endsWord cs.head? || (flow && cs.head?.any isFlowMark))) ||
      (flow && (c = '?' || isFlowMark c))
    if ends then [] else c :: plainRun flow cs

/-- Empty lines and indentation; none if a mark between documents stands behind them. -/
def plainBreaks : Nat → Cursor → Option (List Code) × Cursor
  | 0, k => (some [], k)
  | fuel + 1, k =>
    if k.peek = some ' ' then plainBreaks fuel k.step
    else if k.peek.any isBreak then
      let (b, k) := k.takeBreak
      if k.atDocumentMark then (none, k)
      else
        let (more, k) := plainBreaks fuel k
        (more.map (b ++ ·), k)
    else (some [], k)

/-- What stands between two runs of a plain scalar, and whether a line ended there. -/
def plainSpaces (k : Cursor) : List Code × Cursor × Bool :=
  let (spaces, k) := k.span (· = Code.scalar ' ')
  if k.peek.any isBreak then
    let (first, k) := k.takeBreak
    if k.atDocumentMark then ([], k, true)
    else
      let (breaks, k) := plainBreaks k.rest.length k
      ((breaks.map (foldBreak first)).getD [], k, true)
  else (spaces, k, false)

/-- A plain scalar that goes on in lines of at least the given column. The last part of the answer
    says whether a line ended behind it. -/
def takePlain (flow : Bool) (indent : Int) : Nat → Cursor → Bool → List Code × Cursor × Bool
  | 0, k, broke => ([], k, broke)
  | fuel + 1, k, broke =>
    let run := plainRun flow k.rest
    if k.peek = some '#' || run.isEmpty then ([], k, broke)
    else
      let (spaces, k, broke) := plainSpaces (k.skip run.length)
      if spaces.isEmpty || k.peek = some '#' || (!flow && k.column < indent) then (run, k, broke)
      else
        let (more, k, broke) := takePlain flow indent fuel k broke
        (if more.isEmpty then run else run ++ spaces ++ more, k, broke)

/-! ## Quoted scalars -/

/-- The characters that a single letter stands for after a backslash. -/
def shortEscape? (c : Code) : Option Code :=
  match c with
  | .scalar '0' => some '\x00'
  | .scalar 'a' => some '\x07'
  | .scalar 'b' => some '\x08'
  | .scalar 't' => some '\t'
  | .scalar '\t' => some '\t'
  | .scalar 'n' => some '\n'
  | .scalar 'v' => some '\x0b'
  | .scalar 'f' => some '\x0c'
  | .scalar 'r' => some '\r'
  | .scalar 'e' => some '\x1b'
  | .scalar ' ' => some ' '
  | .scalar '"' => some '"'
  | .scalar '\\' => some '\\'
  | .scalar '/' => some '/'
  | .scalar 'N' => some '\x85'
  | .scalar '_' => some '\xa0'
  | .scalar 'L' => some '\u2028'
  | .scalar 'P' => some '\u2029'
  | _ => none

/-- How many hexadecimal digits follow a letter after a backslash. -/
def escapeWidth? (c : Code) : Option Nat :=
  match c with
  | .scalar 'x' => some 2
  | .scalar 'u' => some 4
  | .scalar 'U' => some 8
  | _ => none

/-- The code point with a number, as far as there are such. -/
def codePoint (number : Nat) : Except Fault Code :=
  if 0x110000 ≤ number then .error (.noCharacter number) else .ok (Code.ofNat number)

/-- Ends of lines with the blanks before and between them. -/
def quotedBreaks : Nat → Cursor → Except Fault (List Code × Cursor)
  | 0, k => .ok ([], k)
  | fuel + 1, k =>
    if k.atDocumentMark then .error .malformed
    else
      let k := k.skipBlanks
      if k.peek.any isBreak then do
        let (b, k) := k.takeBreak
        let (more, k) ← quotedBreaks fuel k
        return (b ++ more, k)
      else .ok ([], k)

/-- Blanks inside quotes; with the end of a line they count as a broken line. -/
def quotedSpaces (k : Cursor) : Except Fault (List Code × Cursor) := do
  let (blanks, k) := k.span fun c => c = ' ' || c = '\t'
  if k.peek.any isBreak then
    let (first, k) := k.takeBreak
    let (breaks, k) ← quotedBreaks k.rest.length k
    return (foldBreak first breaks, k)
  else return (blanks, k)

/-- What a backslash and the characters after it stand for; the cursor stands behind it. -/
def takeEscape (k : Cursor) : Except Fault (List Code × Cursor) :=
  match k.peek with
  | none => .error .malformed
  | some c => match shortEscape? c with
    | some d => .ok ([d], k.step)
    | none => match escapeWidth? c with
      | some width => do
        let digits := (k.rest.drop 1).take width
        if digits.length < width || digits.any (fun d => (Text.hexValue? d).isNone) then
          throw .malformed
        let d ← codePoint (Text.valueInBase 16 digits)
        return ([d], k.skip (width + 1))
      | none =>
        if isBreak c then quotedBreaks k.rest.length k.takeBreak.2 else .error .malformed

/-- The rest of a quoted scalar. -/
def takeQuoted (double : Bool) : Nat → Cursor → Except Fault (List Code × Cursor)
  | 0, _ => .error .malformed
  | fuel + 1, k =>
    match k.peek with
    | none => .error .malformed
    | some c =>
      if double && c = '"' then .ok ([], k.step)
      else if !double && c = '\x27' then
        if k.peekAt 1 = some '\x27' then do
          let (more, k) ← takeQuoted double fuel (k.skip 2)
          return ('\x27' :: more, k)
        else .ok ([], k.step)
      else if double && c = '\\' then do
        let (text, k) ← takeEscape k.step
        let (more, k) ← takeQuoted double fuel k
        return (text ++ more, k)
      else if endsWord (some c) then do
        let (text, k) ← quotedSpaces k
        let (more, k) ← takeQuoted double fuel k
        return (text ++ more, k)
      else do
        let (more, k) ← takeQuoted double fuel k.step
        return (c :: more, k)

/-! ## Block scalars -/

/-- What happens to the ends of lines at the end of a block. -/
inductive Chomp where
  | clip
  | strip
  | keep
  deriving DecidableEq

def takeChomp (k : Cursor) : Chomp × Cursor :=
  match k.peek with
  | some (.scalar '+') => (.keep, k.step)
  | some (.scalar '-') => (.strip, k.step)
  | _ => (.clip, k)

/-- A digit that says by how much the block is indented; it cannot be zero. -/
def takeIncrement (k : Cursor) : Except Fault (Option Nat × Cursor) :=
  match k.peek with
  | some c =>
    if c = '0' then .error .malformed
    else if Text.isAsciiDigit c then .ok (some (c.toNat - '0'.toNat), k.step)
    else .ok (none, k)
  | none => .ok (none, k)

/-- The two indicators after the mark of a block, in either order. -/
def blockHeader (k : Cursor) : Except Fault (Chomp × Option Nat × Cursor) := do
  let (chomp, k) := takeChomp k
  let (increment, k) ← takeIncrement k
  let (chomp, k) := if chomp = .clip && increment.isSome then takeChomp k else (chomp, k)
  if endsPart k.peek then return (chomp, increment, k) else throw .malformed

/-- Empty lines at the start of a block, and the widest indentation that was seen. -/
def blockStart : Nat → Cursor → Nat → List Code × Nat × Cursor
  | 0, k, widest => ([], widest, k)
  | fuel + 1, k, widest =>
    if k.peek = some ' ' then blockStart fuel k.step (max widest k.step.column)
    else if k.peek.any isBreak then
      let (b, k) := k.takeBreak
      let (more, widest, k) := blockStart fuel k widest
      (b ++ more, widest, k)
    else ([], widest, k)

/-- So many spaces as are needed to reach the column, if there are as many. -/
def skipIndent (indent : Nat) : Nat → Cursor → Cursor
  | 0, k => k
  | fuel + 1, k =>
    if k.column < indent && k.peek = some ' ' then skipIndent indent fuel k.step else k

/-- Empty lines inside a block. -/
def blockBreaks (indent : Nat) : Nat → Cursor → List Code × Cursor
  | 0, k => ([], k)
  | fuel + 1, k =>
    let k := skipIndent indent indent k
    if k.peek.any isBreak then
      let (b, k) := k.takeBreak
      let (more, k) := blockBreaks indent fuel k
      (b ++ more, k)
    else ([], k)

/-- The lines of a block: their text, the end of the last line and the empty lines behind it. -/
structure BlockLines where
  text : List Code
  last : List Code
  breaks : List Code
  cursor : Cursor

def isIndented (k : Cursor) : Bool := k.peek.any fun c : Code => c = ' ' || c = '\t'

def takeLines (folded : Bool) (indent : Nat) : Nat → Cursor → List Code → BlockLines
  | 0, k, breaks => ⟨[], [], breaks, k⟩
  | fuel + 1, k, breaks =>
    if k.column = indent && k.peek.isSome then
      let (line, after) := k.span fun c => !isBreak c
      let (last, after) := after.takeBreak
      let (next, after) := blockBreaks indent after.rest.length after
      if after.column = indent && after.peek.isSome then
        let joined := folded && last = [.scalar '\n'] && !isIndented k && !isIndented after
        let glue := if joined then (if next.isEmpty then [.scalar ' '] else []) else last
        let more := takeLines folded indent fuel after next
        { more with text := breaks ++ line ++ glue ++ more.text }
      else ⟨breaks ++ line, last, next, after⟩
    else ⟨[], [], breaks, k⟩

/-- A block scalar inside lines of the given indentation; the cursor stands behind its mark. -/
def takeBlock (folded : Bool) (parent : Int) (k : Cursor) : Except Fault (List Code × Cursor) := do
  let (chomp, increment, k) ← blockHeader k
  let k ← k.skipIgnored
  let least := (parent + 1).toNat.max 1
  let (breaks, indent, k) := match increment with
    | none =>
      let (breaks, widest, k) := blockStart k.rest.length k 0
      (breaks, max least widest, k)
    | some n =>
      let indent := least + n - 1
      let (breaks, k) := blockBreaks indent k.rest.length k
      (breaks, indent, k)
  let lines := takeLines folded indent (k.rest.length + 1) k breaks
  let tail := match chomp with
    | .strip => []
    | .clip => lines.last
    | .keep => lines.last ++ lines.breaks
  return (lines.text ++ tail, lines.cursor)

end LockFit.Yaml
