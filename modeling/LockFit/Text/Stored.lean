import LockFit.Text.Basic

/-
  The text of a stored file: bytes in UTF-8, with lines ended in any of the three usual ways.
  Decoding stops at the first byte that cannot be part of a character. The fault says how many
  bytes from there on had been taken for a character when it became clear that they are none.
-/

namespace LockFit.Text

/-- Why bytes are no character. -/
inductive ByteFault where
  | start
  | continuation
  | ended
  deriving DecidableEq

def ByteFault.text : ByteFault → Text
  | .start => "invalid start byte"
  | .continuation => "invalid continuation byte"
  | .ended => "unexpected end of data"

/-- So many bytes at the start of what is left are no character. -/
structure Undecodable where
  reason : ByteFault
  count : Nat
  rest : List UInt8
  deriving DecidableEq

def isContinuation (b : UInt8) : Bool := 0x80 ≤ b && b < 0xc0

/-- The byte can be the second one behind a byte that starts three or four: longer forms of
    shorter characters, halves of pairs and numbers beyond the last character are left out. -/
def isSecond (first second : UInt8) : Bool :=
  isContinuation second &&
    (if first = 0xe0 then 0xa0 ≤ second
    else if first = 0xed then second < 0xa0
    else if first = 0xf0 then 0x90 ≤ second
    else if first = 0xf4 then second < 0x90
    else true)

/-- The low six bits, which a continuation byte adds. -/
def lowBits (b : UInt8) : Nat := b.toNat % 64

/-- The characters that the bytes encode. -/
def decode : List UInt8 → Except Undecodable (List Code)
  | [] => .ok []
  | b :: bs =>
    let fault (reason : ByteFault) (count : Nat) : Except Undecodable (List Code) :=
      .error ⟨reason, count, b :: bs⟩
    let yield (n : Nat) (rest : Except Undecodable (List Code)) :=
      rest.map fun cs => .scalar (Char.ofNat n) :: cs
    if b < 0x80 then yield b.toNat (decode bs)
    else if b < 0xc2 || 0xf5 ≤ b then fault .start 1
    else match bs with
      | [] => fault .ended 1
      | c :: cs =>
        if b < 0xe0 then
          if isContinuation c then yield (b.toNat % 32 * 64 + lowBits c) (decode cs)
          else fault .continuation 1
        else if !isSecond b c then fault .continuation 1
        else match cs with
          | [] => fault .ended 2
          | d :: ds =>
            if !isContinuation d then fault .continuation 2
            else
              let high := b.toNat % 16 * 4096 + lowBits c * 64 + lowBits d
              if b < 0xf0 then yield high (decode ds)
              else match ds with
                | [] => fault .ended 3
                | e :: es =>
                  if !isContinuation e then fault .continuation 3
                  else yield ((b.toNat % 8 * 4096 + lowBits c * 64 + lowBits d) * 64 + lowBits e)
                    (decode es)

/-- Every end of a line as a line feed: a carriage return, alone or with a line feed, counts as
    one end. -/
def unifyLines : List Code → List Code
  | [] => []
  | .scalar '\r' :: .scalar '\n' :: cs => '\n' :: unifyLines cs
  | c :: cs => (if c = '\r' then '\n' else c) :: unifyLines cs

/-- A fault with its place in the file. -/
structure EncodingError where
  reason : ByteFault
  position : Nat
  count : Nat
  first : UInt8
  deriving DecidableEq

/-- The text of a file with these bytes. -/
def ofStored (bytes : List UInt8) : Except EncodingError Text :=
  match decode bytes with
  | .ok cs => .ok (Text.ofList (unifyLines cs))
  | .error u => .error ⟨u.reason, bytes.length - u.rest.length, u.count, u.rest.headD 0⟩

end LockFit.Text
