import LockFit.Text.Quoted
import LockFit.Text.Stored

/-
  What is said of a file that is no text, and of a text that no file can hold.
  One byte or one code point is named by its value and place, several by their places alone.
  Halves of pairs are the code points that have no encoding.
-/

namespace LockFit.Text

def EncodingError.message (e : EncodingError) : Text :=
  let place : Text := if e.count = 1
    then "byte 0x" ++ Text.ofList (hexText 2 e.first.toNat) ++ " in position " ++
      toString e.position
    else "bytes in position " ++ toString e.position ++ "-" ++ toString (e.position + e.count - 1)
  "'utf-8' codec can't decode " ++ place ++ ": " ++ e.reason.text

/-- The same, with the name of the file in front. -/
def EncodingError.inFile (e : EncodingError) (path : Text) : Text :=
  path ++ ": not valid UTF-8: " ++ e.message

/-! ## Halves -/

/-- A run of halves in a text that was to be encoded. -/
structure HalvesError where
  first : Code
  position : Nat
  count : Nat
  deriving DecidableEq

def HalvesError.message (e : HalvesError) : Text :=
  let place : Text := if e.count = 1
    then "character '\\u" ++ Text.ofList (hexText 4 e.first.toNat) ++ "' in position " ++
      toString e.position
    else "characters in position " ++ toString e.position ++ "-" ++
      toString (e.position + e.count - 1)
  "'utf-8' codec can't encode " ++ place ++ ": surrogates not allowed"

/-- The characters of a code point where a text has to be shown at all costs: a half is shown by its
    number. -/
def visibleChars : Code → List Char
  | .scalar c => [c]
  | c => '\\' :: 'u' :: (hexText 4 c.toNat).flatMap fun
    | .scalar d => [d]
    | _ => []

def visible (s : Text) : String := String.ofList (s.toList.flatMap visibleChars)

/-- The first run of halves, in a text of which so many code points lie in front. -/
def findHalves (position : Nat) : List Code → Option HalvesError
  | [] => none
  | c :: cs =>
    if c.isScalar then findHalves (position + 1) cs
    else some ⟨c, position, 1 + (cs.takeWhile fun d => !d.isScalar).length⟩

/-- The text is made of characters alone, so that it has an encoding. -/
def IsScalar (s : Text) : Prop := ∀ c ∈ s.toList, c.isScalar = true

instance (s : Text) : Decidable s.IsScalar :=
  inferInstanceAs (Decidable (∀ c ∈ s.toList, c.isScalar = true))

theorem findHalves_eq_none {position : Nat} {cs : List Code} :
    findHalves position cs = none ↔ ∀ c ∈ cs, c.isScalar = true := by
  induction cs generalizing position with
  | nil => simp [findHalves]
  | cons c cs ih =>
    by_cases hc : c.isScalar = true
    · simp [findHalves, hc, ih]
    · simp [findHalves, hc]

end LockFit.Text
