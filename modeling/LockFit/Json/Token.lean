import LockFit.Json.Value
import LockFit.Text.Digit

/-
  The tokens of a JSON text.
  A token is taken from the start of a text; what is left of the text says where the next one
  starts, and a fault carries what is left where it stands. A broken text or a numeral that is too
  long is a token of its own kind: whether it is reported depends on what was expected there.
-/

namespace LockFit.Json

open Text

/-- What is wrong with a text that is no JSON. -/
inductive Complaint where
  | noValue
  | noName
  | noColon
  | noComma
  | openText
  | controlChar
  | badEscape
  | badUnit
  | extraData
  | byteOrderMark
  deriving DecidableEq

def Complaint.text : Complaint → Text
  | noValue => "Expecting value"
  | noName => "Expecting property name enclosed in double quotes"
  | noColon => "Expecting ':' delimiter"
  | noComma => "Expecting ',' delimiter"
  | openText => "Unterminated string starting at"
  | controlChar => "Invalid control character at"
  | badEscape => "Invalid \\escape"
  | badUnit => "Invalid \\uXXXX escape"
  | extraData => "Extra data"
  | byteOrderMark => "Unexpected UTF-8 BOM (decode using utf-8-sig)"

/-- A complaint and what is left of the text at the place that it names. -/
structure Fault where
  complaint : Complaint
  rest : List Code
  deriving DecidableEq

inductive Token where
  | mark (c : Code)
  | text (s : Text)
  | value (v : Json)
  | broken (fault : Fault)
  | tooLong (numeral : NumeralTooLong)
  | other

/-- The space between tokens. -/
def isSpace (c : Code) : Bool := c = ' ' || c = '\t' || c = '\n' || c = '\r'

def skipSpace (cs : List Code) : List Code := cs.dropWhile isSpace

/-! ## Texts -/

/-- The value of four hexadecimal digits, and what follows them. -/
def takeUnit : List Code → Option (Nat × List Code)
  | a :: b :: c :: d :: rest => do
    let a ← hexValue? a
    let b ← hexValue? b
    let c ← hexValue? c
    let d ← hexValue? d
    return (((a * 16 + b) * 16 + c) * 16 + d, rest)
  | _ => none

def isHighUnit (n : Nat) : Bool := 0xd800 ≤ n && n < 0xdc00

def isLowUnit (n : Nat) : Bool := 0xdc00 ≤ n && n < 0xe000

/-- The character of a pair of units; a unit by itself is a half. -/
def joinUnits (high low : Nat) : Code :=
  Code.ofNat (0x10000 + (high - 0xd800) * 0x400 + (low - 0xdc00))

/-- The character of an escape that is a single letter. -/
def shortEscape? (c : Code) : Option Code :=
  if c = '"' || c = '\\' || c = '/' then some c
  else if c = 'b' then some '\x08'
  else if c = 'f' then some '\x0c'
  else if c = 'n' then some '\n'
  else if c = 'r' then some '\r'
  else if c = 't' then some '\t'
  else none

/-- A unit that is written with a `u`, together with the other half of its pair if that follows.
    A unit never ends a text, since the closing quote is still to come. -/
def takeWritten (cs : List Code) : Except Fault (Code × List Code) :=
  match takeUnit cs with
  | none => .error ⟨.badUnit, 'u' :: cs⟩
  | some (_, []) => .error ⟨.badUnit, 'u' :: cs⟩
  | some (n, rest) =>
    match rest with
    | .scalar '\\' :: .scalar 'u' :: more =>
      if isHighUnit n && !(more.drop 4).isEmpty then
        match takeUnit more with
        | none => .error ⟨.badUnit, 'u' :: more⟩
        | some (m, tail) =>
          if isLowUnit m then .ok (joinUnits n m, tail) else .ok (Code.ofNat n, rest)
      else .ok (Code.ofNat n, rest)
    | _ => .ok (Code.ofNat n, rest)

/-- The code point that an escape stands for; the text starts after the backslash. A text that ends
    there has no closing quote. -/
def takeEscape : List Code → Except (Option Fault) (Code × List Code)
  | [] => .error none
  | c :: cs =>
    if c = 'u' then (takeWritten cs).mapError some
    else match shortEscape? c with
      | some d => .ok (d, cs)
      | none => .error (some ⟨.badEscape, '\\' :: c :: cs⟩)

theorem length_of_takeUnit {cs rest : List Code} {n : Nat} (h : takeUnit cs = some (n, rest)) :
    rest.length < cs.length := by
  unfold takeUnit at h
  split at h
  · simp only [Option.bind_eq_bind, Option.bind_eq_some_iff, Option.pure_def,
      Option.some.injEq, Prod.mk.injEq] at h
    obtain ⟨_, _, _, _, _, _, _, _, _, rfl⟩ := h
    simp only [List.length_cons]
    omega
  · simp at h

theorem length_of_takeEscape {cs rest : List Code} {c : Code}
    (h : takeEscape cs = .ok (c, rest)) : rest.length < cs.length := by
  unfold takeEscape at h
  split at h
  · simp at h
  · rename_i d ds
    split at h
    · cases hw : takeWritten ds with
      | error e =>
        rw [hw] at h
        cases h
      | ok p =>
        rw [hw] at h
        obtain rfl : p = (c, rest) := Except.ok.inj h
        unfold takeWritten at hw
        split at hw
        · simp at hw
        · simp at hw
        · rename_i n after hn hu
          have h1 := length_of_takeUnit hu
          split at hw
          · rename_i more
            split at hw
            · split at hw
              · simp at hw
              · rename_i m tail hm
                have h2 := length_of_takeUnit hm
                simp only [List.length_cons] at h1
                split at hw <;> simp only [Except.ok.injEq, Prod.mk.injEq] at hw <;>
                  obtain ⟨_, rfl⟩ := hw <;> simp only [List.length_cons] <;> omega
            · simp only [Except.ok.injEq, Prod.mk.injEq] at hw
              obtain ⟨_, rfl⟩ := hw
              simp only [List.length_cons] at h1 ⊢
              omega
          · simp only [Except.ok.injEq, Prod.mk.injEq] at hw
            obtain ⟨_, rfl⟩ := hw
            simp only [List.length_cons]
            omega
    · split at h
      · simp only [Except.ok.injEq, Prod.mk.injEq] at h
        obtain ⟨_, rfl⟩ := h
        simp
      · simp at h

/-- The code points of a text up to its closing quote, and what follows that. No fault means that
    the quote is missing. -/
def takeText (cs : List Code) : Except (Option Fault) (List Code × List Code) :=
  match cs with
  | [] => .error none
  | c :: rest =>
    if c = '"' then .ok ([], rest)
    else if c = '\\' then
      match _h : takeEscape rest with
      | .error e => .error e
      | .ok (d, after) => (takeText after).map fun (body, tail) => (d :: body, tail)
    else if c < ' ' then .error (some ⟨.controlChar, c :: rest⟩)
    else (takeText rest).map fun (body, tail) => (c :: body, tail)
  termination_by cs.length
  decreasing_by
    · have := length_of_takeEscape _h
      simp only [List.length_cons]
      omega
    · simp

/-! ## Numbers -/

/-- The digits at the start of a text, and what follows them. -/
def takeDigits (cs : List Code) : List Code × List Code :=
  (cs.takeWhile isAsciiDigit, cs.dropWhile isAsciiDigit)

/-- A point and the digits after it, if there are any. -/
def takePlaces (cs : List Code) : List Code × List Code :=
  match cs with
  | .scalar '.' :: rest => if (takeDigits rest).1.isEmpty then ([], cs) else takeDigits rest
  | _ => ([], cs)

/-- A minus sign means a negative number; a plus sign or none does not. -/
def takeSign : List Code → Bool × List Code
  | .scalar '-' :: cs => (true, cs)
  | .scalar '+' :: cs => (false, cs)
  | cs => (false, cs)

/-- An exponent with its sign, if there is one. -/
def takeExponent (cs : List Code) : Option Int × List Code :=
  match cs with
  | [] => (none, cs)
  | c :: rest =>
    let signed := takeSign rest
    let digits := takeDigits signed.2
    if (c = 'e' || c = 'E') && !digits.1.isEmpty then
      let n : Int := decimalValue digits.1
      (some (if signed.1 then -n else n), digits.2)
    else (none, cs)

/-- The whole part of a number: a lone zero, or digits that start with another one. -/
def takeWhole : List Code → Option (List Code × List Code)
  | [] => none
  | c :: cs =>
    if c = '0' then some (['0'], cs)
    else if isAsciiNonzero c then
      let (digits, rest) := takeDigits cs
      some (c :: digits, rest)
    else none

/-- The number at the start of a text, and what follows it. -/
def takeNumber (cs : List Code) : Option (Token × List Code) := do
  let (negative, body) := match cs with
    | .scalar '-' :: rest => (true, rest)
    | cs => (false, cs)
  let (whole, rest) ← takeWhole body
  let (places, rest) := takePlaces rest
  let (exponent, rest) := takeExponent rest
  if places.isEmpty && exponent.isNone then
    match readNumeral whole with
    | .ok n => some (.value (.int (if negative then -(n : Int) else n)), rest)
    | .error e => some (.tooLong e, rest)
  else
    let digits := whole ++ places
    let power := exponent.getD 0 - places.length
    let value := decimalValue digits
    let x := Binary64.ofDecimal negative value (Binary64.digitCount value) power
    some (.value (.float x), rest)

/-- The words that are values. -/
def words : List (List Code × Json) :=
  [(['n', 'u', 'l', 'l'], .null), (['t', 'r', 'u', 'e'], .bool true),
    (['f', 'a', 'l', 's', 'e'], .bool false), (['N', 'a', 'N'], .float .nan),
    (['I', 'n', 'f', 'i', 'n', 'i', 't', 'y'], .float (.infinite false)),
    (['-', 'I', 'n', 'f', 'i', 'n', 'i', 't', 'y'], .float (.infinite true))]

/-- The word at the start of a text, and what follows it. -/
def takeWord (cs : List Code) : List (List Code × Json) → Option (Json × List Code)
  | [] => none
  | (word, v) :: rest =>
    if word.isPrefixOf cs then some (v, cs.drop word.length) else takeWord cs rest

/-! ## All tokens -/

/-- The token at the start of a text that does not start with space, and what follows it. After a
    token that is at fault nothing follows. -/
def takeToken (cs : List Code) : Option (Token × List Code) :=
  match cs with
  | [] => none
  | c :: rest =>
    if c = '"' then
      match takeText rest with
      | .ok (body, rest) => some (.text (Text.ofList body), rest)
      | .error fault => some (.broken (fault.getD ⟨.openText, cs⟩), [])
    else if [Code.scalar '[', ']', '\x7b', '\x7d', ',', ':'].contains c then some (.mark c, rest)
    else match takeWord cs words with
      | some (v, after) => some (.value v, after)
      | none => match takeNumber cs with
        | some (t, after) => some (t, after)
        | none => some (.other, [])

theorem length_of_takeText {cs body rest : List Code} (h : takeText cs = .ok (body, rest)) :
    rest.length < cs.length := by
  fun_induction takeText cs generalizing body with
  | case1 => simp at h
  | case2 =>
    simp only [Except.ok.injEq, Prod.mk.injEq] at h
    simp [h.2]
  | case3 => simp at h
  | case4 tail d after he _ ih =>
    have hlt := length_of_takeEscape he
    cases ht : takeText after with
    | error e => simp [ht, Except.map] at h
    | ok p =>
      simp only [ht, Except.map, Except.ok.injEq, Prod.mk.injEq] at h
      have := @ih p.1 (by rw [ht, ← h.2])
      simp only [List.length_cons]
      omega
  | case5 => simp at h
  | case6 c tail _ _ _ ih =>
    cases ht : takeText tail with
    | error e => simp [ht, Except.map] at h
    | ok p =>
      simp only [ht, Except.map, Except.ok.injEq, Prod.mk.injEq] at h
      have := @ih p.1 (by rw [ht, ← h.2])
      simp only [List.length_cons]
      omega

theorem length_of_takeWord {cs rest : List Code} {v : Json} {ws : List (List Code × Json)}
    (hw : ∀ e ∈ ws, e.1 ≠ []) (h : takeWord cs ws = some (v, rest)) : rest.length < cs.length := by
  induction ws with
  | nil => simp [takeWord] at h
  | cons e ws ih =>
    obtain ⟨word, value⟩ := e
    unfold takeWord at h
    split at h
    · rename_i hp
      simp only [Option.some.injEq, Prod.mk.injEq] at h
      have hle := (List.isPrefixOf_iff_prefix.1 hp).length_le
      have hne : 0 < word.length := List.length_pos_iff.2 (hw (word, value) (by simp))
      rw [← h.2, List.length_drop]
      omega
    · exact ih (fun e he => hw e (by simp [he])) h

theorem length_dropWhile_le (p : Code → Bool) (cs : List Code) :
    (cs.dropWhile p).length ≤ cs.length :=
  (List.dropWhile_suffix p).length_le

theorem length_takeDigits_le (cs : List Code) : (takeDigits cs).2.length ≤ cs.length :=
  length_dropWhile_le _ _

theorem length_takePlaces_le (cs : List Code) : (takePlaces cs).2.length ≤ cs.length := by
  unfold takePlaces
  split
  · rename_i rest
    split
    · simp
    · have := length_takeDigits_le rest
      simp only [List.length_cons]
      omega
  · simp

theorem length_takeSign_le (cs : List Code) : (takeSign cs).2.length ≤ cs.length := by
  unfold takeSign
  split <;> simp

theorem length_takeExponent_le (cs : List Code) : (takeExponent cs).2.length ≤ cs.length := by
  unfold takeExponent
  split
  · simp
  · rename_i c rest
    dsimp only
    split
    · have h1 := length_takeSign_le rest
      have h2 := length_takeDigits_le (takeSign rest).2
      simp only [List.length_cons]
      omega
    · simp

theorem length_of_takeWhole {cs digits rest : List Code} (h : takeWhole cs = some (digits, rest)) :
    rest.length < cs.length := by
  unfold takeWhole at h
  split at h
  · simp at h
  · rename_i c tail
    split at h
    · simp only [Option.some.injEq, Prod.mk.injEq] at h
      simp [h.2]
    · split at h
      · simp only [Option.some.injEq, Prod.mk.injEq] at h
        rw [← h.2]
        exact Nat.lt_succ_of_le (length_takeDigits_le tail)
      · simp at h

theorem length_of_takeNumber {cs rest : List Code} {t : Token}
    (h : takeNumber cs = some (t, rest)) : rest.length < cs.length := by
  unfold takeNumber at h
  simp only [Option.bind_eq_bind, Option.bind_eq_some_iff] at h
  obtain ⟨⟨digits, after⟩, hw, h⟩ := h
  have hbody : after.length < cs.length := by
    have := length_of_takeWhole hw
    split at this <;> simp_all
    omega
  have h1 := length_takePlaces_le after
  have h2 := length_takeExponent_le (takePlaces after).2
  have hrest : rest = (takeExponent (takePlaces after).2).2 := by
    dsimp only at h
    split at h
    · split at h <;> simp_all
    · simp_all
  rw [hrest]
  omega

theorem length_of_takeToken {cs rest : List Code} {t : Token}
    (h : takeToken cs = some (t, rest)) : rest.length < cs.length := by
  unfold takeToken at h
  split at h
  · simp at h
  · rename_i c tail
    split at h
    · split at h
      · rename_i body after ht
        simp only [Option.some.injEq, Prod.mk.injEq] at h
        have := length_of_takeText ht
        rw [← h.2, List.length_cons]
        omega
      · simp only [Option.some.injEq, Prod.mk.injEq] at h
        simp [← h.2]
    · split at h
      · simp only [Option.some.injEq, Prod.mk.injEq] at h
        simp [← h.2]
      · split at h
        · rename_i v after hw
          simp only [Option.some.injEq, Prod.mk.injEq] at h
          exact h.2 ▸ length_of_takeWord (by simp [words]) hw
        · split at h
          · rename_i t' after hn
            simp only [Option.some.injEq, Prod.mk.injEq] at h
            exact h.2 ▸ length_of_takeNumber hn
          · simp only [Option.some.injEq, Prod.mk.injEq] at h
            simp [← h.2]

/-- The tokens of a text, each with what is left of the text where it starts. -/
def tokens (cs : List Code) : List (Token × List Code) :=
  match _h : takeToken (skipSpace cs) with
  | none => []
  | some (t, rest) => (t, skipSpace cs) :: tokens rest
  termination_by cs.length
  decreasing_by exact Nat.lt_of_lt_of_le (length_of_takeToken _h) (length_dropWhile_le _ _)

end LockFit.Json
