import LockFit.Text.Stored
import LockFit.Yaml.Scalar

/-
  The tokens of a YAML text.
  Indentation and the places where a key may have started are kept while the text is read; when a
  colon shows that a scalar was a key, the marks of the key and of its mapping are put in front of
  it. `tokens` gives the tokens up to the first fault, less those that could still get such marks.
-/

namespace LockFit.Yaml

inductive Directive where
  | version (major : Nat)
  | handle (name start : Text)
  | other
  deriving DecidableEq

inductive Token where
  | directive (d : Directive)
  | documentStart
  | documentEnd
  | streamEnd
  | blockSequenceStart
  | blockMappingStart
  | blockEnd
  | flowSequenceStart
  | flowSequenceEnd
  | flowMappingStart
  | flowMappingEnd
  | blockEntry
  | flowEntry
  | key
  | value
  | alias (name : Text)
  | anchor (name : Text)
  | tag (handle : Option Text) (suffix : Text)
  | scalar (text : Text) (plain : Bool)
  deriving DecidableEq

/-- The tokens of a text as far as they are certain, and what is wrong behind them. Behind the end
    of a text no token can be asked for. -/
structure TokenRun where
  tokens : List Token
  fault : Fault

/-! ## Names, tags and directives -/

def isNameChar (c : Code) : Bool :=
  Text.isAsciiLetter c || Text.isAsciiDigit c || c = '-' || c = '_'

def isUriChar (c : Code) : Bool :=
  Text.isAsciiLetter c || Text.isAsciiDigit c || (Text.toList "-;/?:@&=+$,_.!~*'()[]%").contains c

/-- The name of an anchor or an alias, behind its mark. -/
def takeName (k : Cursor) : Except Fault (Text × Cursor) :=
  let (name, k) := k.step.span isNameChar
  let ends := endsWord k.peek || k.peek.any fun c => (Text.toList "?:,]\x7d%@\x60").contains c
  if name.isEmpty || !ends then .error .malformed else .ok (Text.ofList name, k)

/-- Bytes written as a percent sign and two hexadecimal digits each. -/
def takeBytes : Nat → Cursor → Except Fault (List UInt8 × Cursor)
  | 0, k => .ok ([], k)
  | fuel + 1, k =>
    if k.peek = some '%' then do
      let digits := (k.rest.drop 1).take 2
      if digits.length < 2 || digits.any (fun d => (Text.hexValue? d).isNone) then
        throw .malformed
      let (more, k) ← takeBytes fuel (k.skip 3)
      return ((Text.valueInBase 16 digits).toUInt8 :: more, k)
    else .ok ([], k)

/-- The characters of a tag or of the start of tags. -/
def takeUri : Nat → Cursor → Except Fault (List Code × Cursor)
  | 0, k => .ok ([], k)
  | fuel + 1, k =>
    match k.peek with
    | none => .ok ([], k)
    | some c =>
      if c = '%' then do
        let (bytes, k) ← takeBytes (fuel + 1) k
        match Text.decode bytes with
        | .error _ => throw .malformed
        | .ok cs =>
          let (more, k) ← takeUri fuel k
          return (cs ++ more, k)
      else if isUriChar c then do
        let (more, k) ← takeUri fuel k.step
        return (c :: more, k)
      else .ok ([], k)

def takeNonemptyUri (k : Cursor) : Except Fault (Text × Cursor) := do
  let (cs, after) ← takeUri (k.rest.length + 1) k
  if after.index = k.index then throw .malformed
  return (Text.ofList cs, after)

/-- A handle of tags: an exclamation mark, or a name between two. -/
def takeHandle (k : Cursor) : Except Fault (Text × Cursor) :=
  if k.peek ≠ some '!' then .error .malformed
  else if k.peekAt 1 = some ' ' then .ok ("!", k.step)
  else
    let (name, k) := k.step.span isNameChar
    if k.peek = some '!' then .ok ("!" ++ Text.ofList name ++ "!", k.step)
    else .error .malformed

/-- The tag with a handle has another exclamation mark before the next space. -/
def hasHandle (k : Cursor) : Bool :=
  (k.rest.drop 1).takeWhile (fun c => !endsPart (some c)) |>.contains '!'

def takeTag (k : Cursor) : Except Fault (Token × Cursor) := do
  let (handle, suffix, k) ←
    if k.peekAt 1 = some '<' then do
      let (uri, k) ← takeNonemptyUri (k.skip 2)
      if k.peek ≠ some '>' then throw .malformed
      pure (none, uri, k.step)
    else if endsWord (k.peekAt 1) then pure (none, "!", k.step)
    else do
      let (handle, k) ← if hasHandle k then takeHandle k else pure ("!", k.step)
      let (uri, k) ← takeNonemptyUri k
      pure (some handle, uri, k)
  if endsPart k.peek then return (.tag handle suffix, k) else throw .malformed

def takeNumber (k : Cursor) : Except Fault (Nat × Cursor) :=
  let (digits, k) := k.span Text.isAsciiDigit
  if digits.isEmpty then .error .malformed
  else match Text.readNumeral digits with
    | .ok n => .ok (n, k)
    | .error cause => .error (.numeral cause)

/-- A directive, behind its percent sign, with the end of its line. -/
def takeDirective (k : Cursor) : Except Fault (Token × Cursor) := do
  let (name, k) := k.step.span isNameChar
  if name.isEmpty || !endsPart k.peek then throw .malformed
  let (directive, k) ←
    if name = Text.toList "YAML" then do
      let (major, k) ← takeNumber k.skipSpaces
      if k.peek ≠ some '.' then throw .malformed
      let (_, k) ← takeNumber k.step
      if !endsPart k.peek then throw .malformed
      pure (Directive.version major, k)
    else if name = Text.toList "TAG" then do
      let (handle, k) ← takeHandle k.skipSpaces
      if k.peek ≠ some ' ' then throw .malformed
      let (start, k) ← takeNonemptyUri k.skipSpaces
      if !endsPart k.peek then throw .malformed
      pure (Directive.handle handle start, k)
    else pure (Directive.other, k.skipLine)
  let k ← k.skipIgnored
  return (.directive directive, k)

/-! ## The state of reading -/

/-- A place where a key may have started, told by the number of tokens before it. A required key
    stands where the mapping around it needs one. -/
structure KeyPlace where
  level : Nat
  before : Nat
  required : Bool
  index : Nat
  line : Nat
  column : Nat

/-- The tokens so far stand last first; `level` counts the brackets that are open. -/
structure Lexer where
  cursor : Cursor
  indent : Int
  outer : List Int
  level : Nat
  keyAllowed : Bool
  places : List KeyPlace
  tokens : List Token
  count : Nat

namespace Lexer

def ofChars (cs : List Code) : Lexer := ⟨.ofChars cs, -1, [], 0, true, [], [], 0⟩

def push (l : Lexer) (t : Token) : Lexer := { l with tokens := t :: l.tokens, count := l.count + 1 }

/-- The lexer behind so many characters. -/
def skip (l : Lexer) (n : Nat) : Lexer := { l with cursor := l.cursor.skip n }

def allowKey (l : Lexer) (allowed : Bool) : Lexer := { l with keyAllowed := allowed }

/-- Puts tokens in front of the last ones, so that so many stand before them. -/
def insertAt (l : Lexer) (before : Nat) (ts : List Token) : Lexer :=
  let n := l.count - before
  { l with
    tokens := l.tokens.take n ++ ts.reverse ++ l.tokens.drop n
    count := l.count + ts.length }

/-- A key ends on the line where it starts, within so many characters. -/
def keyLimit : Nat := 1024

/-- A key that starts at the place would be too long. -/
def isStale (l : Lexer) (p : KeyPlace) : Bool :=
  p.line ≠ l.cursor.line || keyLimit < l.cursor.index - p.index

/-- Forgets the places whose keys would be too long. -/
def forgetStale (l : Lexer) : Except Fault Lexer :=
  if l.places.any fun p => l.isStale p && p.required then .error .malformed
  else .ok { l with places := l.places.filter fun p => !l.isStale p }

/-- Forgets the place on the present level. -/
def forgetPlace (l : Lexer) : Except Fault Lexer :=
  if l.places.any fun p => p.level = l.level && p.required then .error .malformed
  else .ok { l with places := l.places.filter fun p => p.level ≠ l.level }

/-- Remembers that a key may start here. -/
def markPlace (l : Lexer) : Except Fault Lexer := do
  if !l.keyAllowed then return l
  let required := l.level = 0 && l.indent = l.cursor.column
  let l ← l.forgetPlace
  let place : KeyPlace :=
    ⟨l.level, l.count, required, l.cursor.index, l.cursor.line, l.cursor.column⟩
  return { l with places := place :: l.places }

/-- Ends the blocks that are indented by more than the column. -/
def unwind (column : Int) : Nat → Lexer → Lexer
  | 0, l => l
  | fuel + 1, l =>
    if l.level = 0 && column < l.indent then
      unwind column fuel
        { l with indent := l.outer.headD (-1), outer := l.outer.drop 1 } |>.push .blockEnd
    else l

def unwindTo (column : Int) (l : Lexer) : Lexer := l.unwind column (l.outer.length + 1)

/-- Starts a block at the column if that is further right than the one around it. -/
def indentTo (l : Lexer) (column : Nat) : Option Lexer :=
  if l.indent < column then some { l with outer := l.indent :: l.outer, indent := column }
  else none

/-- To the next token: over spaces, comments and ends of lines. -/
def skipToToken : Nat → Lexer → Lexer
  | 0, l => l
  | fuel + 1, l =>
    let k := l.cursor
    let k := if k.index = 0 && k.peek = some '\ufeff' then k.step else k
    let k := k.skipSpaces
    let k := if k.peek = some '#' then k.skipLine else k
    if k.peek.any isBreak then
      skipToToken fuel
        { l with cursor := k.takeBreak.2, keyAllowed := l.keyAllowed || l.level = 0 }
    else { l with cursor := k }

/-! ## One token -/

/-- A mark between documents or a directive, which ends every block. -/
def endBlocks (l : Lexer) : Except Fault Lexer := do
  let l ← (l.unwindTo (-1)).forgetPlace
  return l.allowKey false

def openFlow (l : Lexer) (t : Token) : Except Fault Lexer := do
  let l ← l.markPlace
  return ({ l with level := l.level + 1 }.allowKey true).push t |>.skip 1

def closeFlow (l : Lexer) (t : Token) : Except Fault Lexer := do
  let l ← l.forgetPlace
  if l.level = 0 then throw .malformed
  return ({ l with level := l.level - 1 }.allowKey false).push t |>.skip 1

def takeFlowEntry (l : Lexer) : Except Fault Lexer := do
  let l ← (l.allowKey true).forgetPlace
  return l.push .flowEntry |>.skip 1

def takeBlockEntry (l : Lexer) : Except Fault Lexer := do
  let l ← if l.level ≠ 0 then pure l
    else if !l.keyAllowed then throw .malformed
    else pure (match l.indentTo l.cursor.column with
      | some l => l.push .blockSequenceStart
      | none => l)
  let l ← (l.allowKey true).forgetPlace
  return l.push .blockEntry |>.skip 1

/-- Starts a mapping for a key or a value that stands where a block may start. -/
def startMapping (l : Lexer) : Except Fault Lexer :=
  if l.level ≠ 0 then .ok l
  else if !l.keyAllowed then .error .malformed
  else .ok (match l.indentTo l.cursor.column with
    | some l => l.push .blockMappingStart
    | none => l)

def takeKey (l : Lexer) : Except Fault Lexer := do
  let l ← l.startMapping
  let l ← (l.allowKey (l.level = 0)).forgetPlace
  return l.push .key |>.skip 1

def takeValue (l : Lexer) : Except Fault Lexer := do
  match l.places.find? fun p => p.level = l.level with
  | some place =>
    let l := { l with places := l.places.filter fun p => p.level ≠ l.level }
    let l := match if l.level = 0 then l.indentTo place.column else none with
      | some l => l.insertAt place.before [.blockMappingStart, .key]
      | none => l.insertAt place.before [.key]
    return ((l.allowKey false).push .value).skip 1
  | none =>
    let l ← l.startMapping
    let l ← (l.allowKey (l.level = 0)).forgetPlace
    return l.push .value |>.skip 1

/-- A token that may be a key, behind which no key may start. -/
def takeAtom (l : Lexer) (take : Cursor → Except Fault (Token × Cursor)) : Except Fault Lexer := do
  let l ← l.markPlace
  let (t, k) ← take l.cursor
  return { l.allowKey false with cursor := k }.push t

def takeBlockScalar (l : Lexer) (folded : Bool) : Except Fault Lexer := do
  let l ← (l.allowKey true).forgetPlace
  let (text, k) ← takeBlock folded l.indent l.cursor.step
  return { l with cursor := k }.push (.scalar (Text.ofList text) false)

def takeQuotedScalar (double : Bool) (k : Cursor) : Except Fault (Token × Cursor) := do
  let (text, k) ← takeQuoted double (k.rest.length + 1) k.step
  return (.scalar (Text.ofList text) false, k)

def takePlainScalar (l : Lexer) : Except Fault Lexer := do
  let l ← l.markPlace
  let (text, k, broke) :=
    takePlain (l.level ≠ 0) (l.indent + 1) (l.cursor.rest.length + 1) l.cursor false
  return { l.allowKey broke with cursor := k }.push (.scalar (Text.ofList text) true)

/-- The characters that no plain scalar starts with. -/
def isIndicator (c : Code) : Bool := (Text.toList "-?:,[]\x7b\x7d#&*!|>'\"%@\x60").contains c

/-- A plain scalar can start here. -/
def atPlain (l : Lexer) : Bool :=
  match l.cursor.peek with
  | none => false
  | some c =>
    !(endsWord (some c) || isIndicator c) ||
      (!endsWord (l.cursor.peekAt 1) && (c = '-' || (l.level = 0 && (c = '?' || c = ':'))))

/-- The next token, when the cursor stands at its start. -/
def takeToken (l : Lexer) : Except Fault Lexer :=
  let k := l.cursor
  let wordEnds := endsWord (k.peekAt 1)
  match k.peek with
  | none => do
    let l ← l.endBlocks
    return l.push .streamEnd
  | some c =>
    if c = '%' && k.column = 0 then do
      let l ← l.endBlocks
      let (t, k) ← takeDirective l.cursor
      return { l with cursor := k }.push t
    else if k.column = 0 && k.atWord '-' then do
      let l ← l.endBlocks
      return l.push .documentStart |>.skip 3
    else if k.column = 0 && k.atWord '.' then do
      let l ← l.endBlocks
      return l.push .documentEnd |>.skip 3
    else if c = '[' then l.openFlow .flowSequenceStart
    else if c = '\x7b' then l.openFlow .flowMappingStart
    else if c = ']' then l.closeFlow .flowSequenceEnd
    else if c = '\x7d' then l.closeFlow .flowMappingEnd
    else if c = ',' then l.takeFlowEntry
    else if c = '-' && wordEnds then l.takeBlockEntry
    else if c = '?' && (l.level ≠ 0 || wordEnds) then l.takeKey
    else if c = ':' && (l.level ≠ 0 || wordEnds) then l.takeValue
    else if c = '*' then l.takeAtom fun k => (takeName k).map fun (name, k) => (.alias name, k)
    else if c = '&' then l.takeAtom fun k => (takeName k).map fun (name, k) => (.anchor name, k)
    else if c = '!' then l.takeAtom takeTag
    else if c = '|' && l.level = 0 then l.takeBlockScalar false
    else if c = '>' && l.level = 0 then l.takeBlockScalar true
    else if c = '\x27' then l.takeAtom (takeQuotedScalar false)
    else if c = '"' then l.takeAtom (takeQuotedScalar true)
    else if l.atPlain then l.takePlainScalar
    else .error .malformed

/-- The tokens that stay as they are whatever follows: those before every place where a key may
    have started. -/
def settled (l : Lexer) : List Token :=
  let starts := (l.places.filter fun p => !l.isStale p).map KeyPlace.before
  l.tokens.reverse.take (starts.foldl min l.count)

/-- The tokens up to the end of the text or to the first fault. -/
def scan : Nat → Lexer → TokenRun
  | 0, l => ⟨l.settled, .malformed⟩
  | fuel + 1, l =>
    let next : Except Fault (Lexer × Bool) := do
      let l' ← (l.skipToToken (l.cursor.rest.length + 1)).forgetStale
      let l' := l'.unwindTo l'.cursor.column
      return (← l'.takeToken, l'.cursor.peek.isNone)
    match next with
    | .error e => ⟨l.settled, e⟩
    | .ok (l', atEnd) => if atEnd then ⟨l'.tokens.reverse, .malformed⟩ else scan fuel l'

end Lexer

/-- The characters that a YAML text may hold. -/
def isAllowed (c : Code) : Bool :=
  c = '\t' || c = '\n' || c = '\r' || (' ' ≤ c && c ≤ '~') || c = '\x85' ||
    (c.isScalar && 0xa0 ≤ c.toNat && c.toNat ≤ 0xfffd) || 0x10000 ≤ c.toNat

/-- The tokens of a text up to the first fault. -/
def tokens (text : Text) : TokenRun :=
  let cs := text.toList
  if cs.all isAllowed then Lexer.scan (cs.length + 2) (.ofChars cs) else ⟨[], .malformed⟩

end LockFit.Yaml
