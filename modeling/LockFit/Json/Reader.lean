import LockFit.Json.Token

/-
  Reading JSON.
  The tokens drive a stack of open lists and objects. `Demand` says what the next token has to be;
  a value that is complete goes into the innermost open list or object, or is the result if none
  is open. The first token that does not fit ends the reading with a complaint about its place.
-/

namespace LockFit.Json

open Text

/-- An open list with its items so far, last first, or an open object with its members so far; a
    field is an object that waits for the value of a name. -/
inductive Frame where
  | items (items : List Json)
  | members (members : List (Text × Json))
  | field (members : List (Text × Json)) (name : Text)

/-- What has to come next. -/
inductive Demand where
  | value
  | valueOrClose
  | nameOrClose
  | name
  | colon
  | commaOrClose
  | nothing (result : Json)

structure State where
  stack : List Frame
  demand : Demand

def State.start : State := ⟨[], .value⟩

/-- A complaint and its place: lines and columns count from one, the offset from zero. -/
structure Misplaced where
  complaint : Complaint
  line : Nat
  column : Nat
  offset : Nat
  deriving DecidableEq

def Misplaced.message (m : Misplaced) : Text :=
  m.complaint.text ++ ": line " ++ toString m.line ++ " column " ++ toString m.column ++
    " (char " ++ toString m.offset ++ ")"

/-- Why a text was not read. -/
inductive ReadError where
  | malformed (cause : Misplaced)
  | numeral (cause : NumeralTooLong)
  | tooDeep
  deriving DecidableEq

/-- The greatest number of lists and objects that may be open at once. -/
def depthLimit : Nat := 990

/-- A reason to stop: the place of a fault is still what is left of the text. -/
inductive Stop where
  | fault (fault : Fault)
  | numeral (cause : NumeralTooLong)
  | tooDeep

/-- Puts a complete value where it belongs. -/
def deliver (v : Json) : List Frame → State
  | [] => ⟨[], .nothing v⟩
  | .items vs :: stack => ⟨.items (v :: vs) :: stack, .commaOrClose⟩
  | .field ms name :: stack => ⟨.members (put name v ms) :: stack, .commaOrClose⟩
  | .members ms :: stack => ⟨.members ms :: stack, .commaOrClose⟩

/-- The stack with one more list or object open. -/
def openFrame (frame : Frame) (demand : Demand) (stack : List Frame) : Except Stop State :=
  if stack.length < depthLimit then .ok ⟨frame :: stack, demand⟩ else .error .tooDeep

/-- A token where a value has to start. -/
def stepValue (stack : List Frame) (t : Token) (at_ : List Code) : Except Stop State :=
  match t with
  | .text s => .ok (deliver (.text s) stack)
  | .value v => .ok (deliver v stack)
  | .mark (.scalar '[') => openFrame (.items []) .valueOrClose stack
  | .mark (.scalar '\x7b') => openFrame (.members []) .nameOrClose stack
  | .broken fault => .error (.fault fault)
  | .tooLong cause => .error (.numeral cause)
  | _ => .error (.fault ⟨.noValue, at_⟩)

/-- A token where a name has to stand. -/
def stepName (stack : List Frame) (t : Token) (at_ : List Code) : Except Stop State :=
  match t, stack with
  | .text name, .members ms :: rest => .ok ⟨.field ms name :: rest, .colon⟩
  | .broken fault, _ => .error (.fault fault)
  | _, _ => .error (.fault ⟨.noName, at_⟩)

/-- Closes the innermost list or object. -/
def close : List Frame → State
  | .items vs :: stack => deliver (.list vs.reverse) stack
  | .members ms :: stack => deliver (.object ms) stack
  | stack => ⟨stack, .value⟩

def step (s : State) (t : Token) (at_ : List Code) : Except Stop State :=
  match s.demand with
  | .value => stepValue s.stack t at_
  | .valueOrClose => match t with
    | .mark (.scalar ']') => .ok (close s.stack)
    | t => stepValue s.stack t at_
  | .nameOrClose => match t with
    | .mark (.scalar '\x7d') => .ok (close s.stack)
    | t => stepName s.stack t at_
  | .name => stepName s.stack t at_
  | .colon => match t with
    | .mark (.scalar ':') => .ok { s with demand := .value }
    | _ => .error (.fault ⟨.noColon, at_⟩)
  | .commaOrClose => match t, s.stack with
    | .mark (.scalar ','), .items _ :: _ => .ok { s with demand := .value }
    | .mark (.scalar ','), .members _ :: _ => .ok { s with demand := .name }
    | .mark (.scalar ']'), .items _ :: _ => .ok (close s.stack)
    | .mark (.scalar '\x7d'), .members _ :: _ => .ok (close s.stack)
    | _, _ => .error (.fault ⟨.noComma, at_⟩)
  | .nothing _ => .error (.fault ⟨.extraData, at_⟩)

def run (s : State) : List (Token × List Code) → Except Stop State
  | [] => .ok s
  | (t, at_) :: rest => match step s t at_ with
    | .ok s => run s rest
    | .error e => .error e

/-- The result at the end of the text, if nothing is missing. -/
def finish (s : State) : Except Stop Json :=
  match s.demand with
  | .nothing v => .ok v
  | .value | .valueOrClose => .error (.fault ⟨.noValue, []⟩)
  | .name | .nameOrClose => .error (.fault ⟨.noName, []⟩)
  | .colon => .error (.fault ⟨.noColon, []⟩)
  | .commaOrClose => .error (.fault ⟨.noComma, []⟩)

/-- The value that the code points write. -/
def readChars (cs : List Code) : Except Stop Json :=
  match cs with
  | .scalar '\ufeff' :: _ => .error (.fault ⟨.byteOrderMark, cs⟩)
  | cs => run State.start (tokens cs) >>= finish

/-- The complaint with its place in the whole text. -/
def Fault.locate (cs : List Code) (f : Fault) : Misplaced :=
  let offset := cs.length - f.rest.length
  let before := cs.take offset
  let line := before.count (.scalar '\n') + 1
  let column := (before.reverse.takeWhile (· != Code.scalar '\n')).length + 1
  ⟨f.complaint, line, column, offset⟩

def Stop.locate (cs : List Code) : Stop → ReadError
  | .fault f => .malformed (f.locate cs)
  | .numeral cause => .numeral cause
  | .tooDeep => .tooDeep

/-- The value that a text writes. -/
def read (text : Text) : Except ReadError Json :=
  let cs := text.toList
  (readChars cs).mapError (Stop.locate cs)

end LockFit.Json
