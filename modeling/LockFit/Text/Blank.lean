import LockFit.Text.Basic

/-
  Blank characters and trimming.
  A blank is a character that the Unicode tables give as white space or as a separator of lines,
  paragraphs, files, groups, records or units. Trimming removes the blanks at both ends of a text
  and nothing else. The lists of characters are what proofs speak of; `trim` wraps them.
-/

namespace LockFit.Text

/-- The blanks, as ranges of code points with both ends included. -/
def blankRanges : List (Nat × Nat) :=
  [(0x9, 0xd), (0x1c, 0x20), (0x85, 0x85), (0xa0, 0xa0), (0x1680, 0x1680), (0x2000, 0x200a),
    (0x2028, 0x2029), (0x202f, 0x202f), (0x205f, 0x205f), (0x3000, 0x3000)]

/-- A number lies in one of the ascending ranges. -/
def inRanges (n : Nat) : List (Nat × Nat) → Bool
  | [] => false
  | (lo, hi) :: rest => if n < lo then false else n ≤ hi || inRanges n rest

def isBlank (c : Code) : Bool := inRanges c.toNat blankRanges

/-- The list without its longest final run of characters with the property. -/
def dropEndWhile (p : Code → Bool) (cs : List Code) : List Code :=
  (cs.reverse.dropWhile p).reverse

def trimChars (cs : List Code) : List Code := dropEndWhile isBlank (cs.dropWhile isBlank)

/-- The text without the blanks at its two ends. -/
def trim (s : Text) : Text := Text.ofList (trimChars s.toList)

/-- The text without the slashes, or other copies of a character, at its end. -/
def dropEnd (c : Code) (s : Text) : Text := Text.ofList (dropEndWhile (· == c) s.toList)

/-- The pieces between the separators: always one more than there are separators. -/
def splitChars (sep : Code) : List Code → List (List Code)
  | [] => [[]]
  | c :: cs =>
    if c = sep then [] :: splitChars sep cs
    else match splitChars sep cs with
      | [] => [[c]]
      | piece :: pieces => (c :: piece) :: pieces

/-- The pieces of a text between the separators. -/
def split (sep : Code) (s : Text) : List Text := (splitChars sep s.toList).map Text.ofList

def startsWith (start s : Text) : Bool := start.toList.isPrefixOf s.toList

/-- What follows the start of a text, if the text has that start. -/
def afterStart? (start s : Text) : Option Text :=
  if startsWith start s then some (Text.ofList (s.toList.drop start.toList.length)) else none

/-! ## What the operations keep -/

@[simp] theorem toList_trim (s : Text) : (trim s).toList = trimChars s.toList := by
  simp [trim]

@[simp] theorem toList_dropEnd (c : Code) (s : Text) :
    (dropEnd c s).toList = dropEndWhile (· == c) s.toList := by
  simp [dropEnd]

theorem startsWith_iff {start s : Text} :
    startsWith start s = true ↔ start.toList <+: s.toList := by
  simp [startsWith]

end LockFit.Text
