import LockFit.Number.Shortest
import LockFit.Text.Quoted
import LockFit.Yaml.Moment

/-
  Values without parts: nothing, truth values, numbers, texts, bytes and dates.
  They alone can be keys of mappings. Keys that are equal as numbers, or that mean the same moment,
  are one key. What is no number differs from everything, and even from other writings of itself;
  its standard spellings count as one writing.
-/

namespace LockFit.Yaml

/-- A value without parts. `notANumber` names the place where it was written, unless it is the
    standard one. -/
inductive Atom where
  | null
  | bool (b : Bool)
  | int (n : Int)
  | float (x : Binary64)
  | notANumber (place : Option Nat)
  | text (s : Text)
  | moment (m : Moment)
  | bytes (bs : List UInt8)
  deriving DecidableEq

namespace Atom

/-- The atom of a floating-point number, with the place where it stands. -/
def ofFloat (place : Option Nat) : Binary64 → Atom
  | .nan => notANumber place
  | x => float x

/-- The value counts as true: it is neither null, false, zero nor empty. -/
def isTruthy : Atom → Bool
  | null => false
  | bool b => b
  | int n => n ≠ 0
  | float x => !x.isZero
  | text s => s ≠ ""
  | bytes bs => !bs.isEmpty
  | notANumber _ | moment _ => true

/-! ## Order and equality -/

/-- Atoms of one family have an order; those of two have none. -/
inductive Family where
  | null
  | number
  | text
  | moment (kind : Moment.Kind)
  | bytes
  deriving DecidableEq

def family : Atom → Family
  | null => .null
  | bool _ | int _ | float _ | notANumber _ => .number
  | text _ => .text
  | moment m => .moment m.kind
  | bytes _ => .bytes

/-- A truth value or a number as a fraction. -/
def numeric? : Atom → Option Binary64
  | bool b => some (.finite false (if b then 1 else 0) 0)
  | int n => some (.finite (n < 0) n.natAbs 0)
  | float x => some x
  | _ => none

def compareLists [Ord α] : List α → List α → Ordering
  | [], [] => .eq
  | [], _ => .lt
  | _, [] => .gt
  | a :: as, b :: bs => (compare a b).then (compareLists as bs)

/-- The order of two atoms of one family; what is no number comes neither before nor after
    others. -/
def compare? (a b : Atom) : Option Ordering :=
  match a, b with
  | null, null => some .eq
  | text s, text t => some (if s < t then .lt else if s = t then .eq else .gt)
  | bytes s, bytes t => some (compareLists (s.map UInt8.toNat) (t.map UInt8.toNat))
  | moment m, moment n => if m.kind = n.kind then some (compare m.instant n.instant) else none
  | notANumber p, notANumber q => if p = q then some .eq else none
  | a, b => match a.numeric?, b.numeric? with
    | some x, some y => x.compareTo y
    | _, _ => none

/-- The two are one key. -/
def sameKey (a b : Atom) : Bool := a.compare? b == some .eq

def precedes (a b : Atom) : Bool := a.compare? b == some .lt

/-- Puts an atom in front of the first one that does not precede it. -/
def place (a : Atom) : List Atom → List Atom
  | [] => [a]
  | b :: bs => if precedes b a then b :: place a bs else a :: b :: bs

/-- The atoms in ascending order; none if two of them have no order. -/
def sort? (atoms : List Atom) : Option (List Atom) :=
  match atoms with
  | [] => some []
  | a :: as => if as.all fun b => b.family = a.family then some (atoms.foldr place []) else none

/-! ## How messages show an atom -/

def shownByte (b : UInt8) (quote : Code) : List Code :=
  let c := Code.ofNat b.toNat
  if c = quote || c = '\\' then ['\\', c]
  else if c = '\t' then ['\\', 't']
  else if c = '\n' then ['\\', 'n']
  else if c = '\r' then ['\\', 'r']
  else if ' ' ≤ c && c ≤ '~' then [c]
  else '\\' :: 'x' :: Text.hexText 2 b.toNat

def shownBytes (bs : List UInt8) : Text :=
  let quote := Text.quoteMark (bs.map fun b => Code.ofNat b.toNat)
  Text.ofList (Code.scalar 'b' :: quote :: bs.flatMap (shownByte · quote) ++ [quote])

/-- The atom as messages show it; a whole number with too many digits is not written out. -/
def shown : Atom → Except Text.NumberTooLong Text
  | null => .ok "None"
  | bool b => .ok (if b then "True" else "False")
  | int n => Text.writeNumber n
  | float x => .ok x.text
  | notANumber _ => .ok "nan"
  | text s => .ok (Text.quoted s)
  | moment m => .ok m.shown
  | bytes bs => .ok (shownBytes bs)

end Atom

end LockFit.Yaml
