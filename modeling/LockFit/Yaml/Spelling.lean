import LockFit.Text.LowerCase
import LockFit.Yaml.Atom
import LockFit.Yaml.Fault
import LockFit.Yaml.Plain

/-
  The atoms that scalars spell, by their tags.
  A scalar has the sort of its form, or the sort of a tag that is written in front of it; in the
  second case its text may spell no value of that sort. Bars in a number do not count.
-/

namespace LockFit.Yaml

open Text

/-! ## Numbers -/

def dropBars (text : Text) : List Code := text.toList.filter (· ≠ Code.scalar '_')

/-- A whole number as a numeral in a base. -/
def readNumeralIn (base : Nat) (cs : List Code) : Except Fault Int :=
  match Numeral.readWhole base cs with
  | .ok n => .ok n
  | .error (.tooLong cause) => .error (.numeral cause)
  | .error .unreadable => .error (.noInteger (Text.ofList cs) base)

/-- A whole number: in base two, eight, ten or sixteen, or with parts in base sixty. -/
def readInteger (text : Text) : Except Fault Int := do
  let (negative, body) := Numeral.splitSign (dropBars text)
  let size ← match body with
    | [] => throw .noDigits
    | [.scalar '0'] => pure 0
    | .scalar '0' :: .scalar 'b' :: digits => readNumeralIn 2 digits
    | .scalar '0' :: .scalar 'x' :: digits => readNumeralIn 16 digits
    | .scalar '0' :: _ => readNumeralIn 8 body
    | _ =>
      if body.contains ':' then
        let parts ← (splitChars ':' body).mapM (readNumeralIn 10)
        pure (parts.foldl (fun n part => 60 * n + part) 0)
      else readNumeralIn 10 body
  return if negative then -size else size

def readFloatPart (cs : List Code) : Except Fault Binary64 :=
  match Numeral.readFloat cs with
  | some x => .ok x
  | none => .error (.noFloat (Text.ofList cs))

/-- The sum of the parts in base sixty, the last part first, each sum and product rounded. The
    weight of every part has to be a finite number. -/
def sumSixties (sum : Binary64) (weight : Nat) : List Binary64 → Except Fault Binary64
  | [] => .ok sum
  | x :: xs => match Binary64.ofRatio false weight 1 with
    | .finite s m e => sumSixties (sum.add (x.mul (.finite s m e))) (60 * weight) xs
    | _ => .error .tooLarge

/-- A number with a point. The standard spelling of what is no number has no place of its own. -/
def readFloat (place : Nat) (text : Text) : Except Fault Atom := do
  let cs := lower (dropBars text)
  let (negative, body) := Numeral.splitSign cs
  let signed (x : Binary64) : Binary64 := if negative then x.negate else x
  if cs.isEmpty then throw .noDigits
  else if body = Text.toList ".inf" then return .float (signed (.infinite false))
  else if body = Text.toList ".nan" then return .notANumber none
  else if body.contains ':' then
    let parts ← (splitChars ':' body).mapM readFloatPart
    return .ofFloat (some place) (signed (← sumSixties (.zero false) 1 parts.reverse))
  else return .ofFloat (some place) (signed (← readFloatPart body))

def readBoolean (text : Text) : Except Fault Bool :=
  let word := Text.ofList (lower text.toList)
  if trueWords.contains word then .ok true
  else if falseWords.contains word then .ok false
  else .error (.noBoolean word)

/-! ## Dates -/

def readMoment (text : Text) : Except Fault Moment :=
  match Moment.takeWritten (dropLastBreak text.toList) with
  | none => .error .noMoment
  | some m => (Moment.ofWritten m).mapError .badMoment

/-! ## Bytes -/

/-- The six bits that a character of the base-64 alphabet stands for. -/
def base64Value? (c : Code) : Option Nat :=
  if 'A' ≤ c && c ≤ 'Z' then some (c.toNat - 'A'.toNat)
  else if 'a' ≤ c && c ≤ 'z' then some (c.toNat - 'a'.toNat + 26)
  else if isAsciiDigit c then some (c.toNat - '0'.toNat + 52)
  else if c = '+' then some 62
  else if c = '/' then some 63
  else none

/-- The bytes that the characters write: `held` are the bits of an incomplete group, of which
    `used` characters came, and `pads` counts the equals signs behind them. Characters outside the
    alphabet are passed over. -/
def readBase64 (held used pads : Nat) : List Code → Option (List UInt8)
  | [] => if used = 0 then some [] else none
  | c :: cs =>
    if c = '=' then
      if 2 ≤ used && 4 ≤ used + pads + 1 then some []
      else readBase64 held used (if 2 ≤ used then pads + 1 else pads) cs
    else match base64Value? c with
      | none => readBase64 held used pads cs
      | some v =>
        let bits := held * 64 + v
        match used with
        | 0 => readBase64 bits 1 0 cs
        | 1 => (readBase64 (bits % 16) 2 0 cs).map ((bits / 16).toUInt8 :: ·)
        | 2 => (readBase64 (bits % 4) 3 0 cs).map ((bits / 4).toUInt8 :: ·)
        | _ => (readBase64 0 0 0 cs).map (bits.toUInt8 :: ·)

def readBytes (text : Text) : Except Fault (List UInt8) :=
  let cs := text.toList
  if cs.any fun c => 128 ≤ c.toNat then .error .malformed
  else match readBase64 0 0 0 cs with
    | some bs => .ok bs
    | none => .error .malformed

/-! ## All sorts -/

/-- The atom that a text spells under a full tag, at a place of the document. -/
def readAtom (place : Nat) (tag text : Text) : Except Fault Atom :=
  if tag = coreTag "str" then .ok (.text text)
  else if tag = coreTag "null" then .ok .null
  else if tag = coreTag "bool" then (readBoolean text).map .bool
  else if tag = coreTag "int" then (readInteger text).map .int
  else if tag = coreTag "float" then readFloat place text
  else if tag = coreTag "timestamp" then (readMoment text).map .moment
  else if tag = coreTag "binary" then (readBytes text).map .bytes
  else .error .malformed

end LockFit.Yaml
