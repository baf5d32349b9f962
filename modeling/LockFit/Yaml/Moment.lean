import LockFit.Text.Digit

/-
  Dates and times of day.
  A moment is written as a date, or as a date with a time of day and perhaps the zone that the time
  is told in. Times with a zone are ordered by the moment that they mean, whatever their zones.
-/

namespace LockFit.Yaml

open Text

/-- A date, or a date with a time of day and perhaps an offset from universal time in minutes. -/
inductive Moment where
  | date (year month day : Nat)
  | time (year month day hour minute second micro : Nat) (offset : Option Int)
  deriving DecidableEq

namespace Moment

/-! ## Calendar -/

def isLeapYear (year : Nat) : Bool := year % 4 = 0 && (year % 100 ≠ 0 || year % 400 = 0)

def daysInMonth (year month : Nat) : Nat :=
  if month = 2 then (if isLeapYear year then 29 else 28)
  else if month = 4 || month = 6 || month = 9 || month = 11 then 30 else 31

/-- The number of days before a date since the start of the year one. -/
def dayNumber (year month day : Nat) : Nat :=
  let before := year - 1
  365 * before + before / 4 - before / 100 + before / 400 +
    ((List.range (month - 1)).map fun m => daysInMonth year (m + 1)).foldr (· + ·) day

/-- Moments are compared with moments of their own kind. -/
inductive Kind where
  | date
  | unzoned
  | zoned
  deriving DecidableEq

def kind : Moment → Kind
  | .date .. => .date
  | .time _ _ _ _ _ _ _ none => .unzoned
  | .time .. => .zoned

/-- The number of a date, or of a microsecond in universal time. -/
def instant : Moment → Int
  | .date y m d => dayNumber y m d
  | .time y m d h mi s us offset =>
    let minutes : Int := (dayNumber y m d * 24 + h : Nat) * 60 + mi - offset.getD 0
    (minutes * 60 + s) * 1000000 + us

/-! ## How messages show a moment -/

/-- Numbers with commas between them. -/
def shownNumbers (ns : List Nat) : Text := Text.intercalate ", " (ns.map fun n => toString n)

/-- A span of minutes, as days and seconds of which the latter are not negative. -/
def shownSpan (minutes : Int) : Text :=
  let days := minutes / 1440
  let seconds := minutes % 1440 * 60
  let part (name : Text) (n : Int) : List Text := if n = 0 then [] else [name ++ toString n]
  let parts := part "days=" days ++ part "seconds=" seconds
  let inner : Text := if parts.isEmpty then "0" else Text.intercalate ", " parts
  "datetime.timedelta(" ++ inner ++ ")"

def shownOffset : Option Int → Text
  | none => ""
  | some minutes =>
    if minutes = 0 then ", tzinfo=datetime.timezone.utc"
    else ", tzinfo=datetime.timezone(" ++ shownSpan minutes ++ ")"

def shown : Moment → Text
  | .date y m d => "datetime.date(" ++ shownNumbers [y, m, d] ++ ")"
  | .time y m d h mi s us offset =>
    let seconds := if us ≠ 0 then [s, us] else if s ≠ 0 then [s] else []
    "datetime.datetime(" ++ shownNumbers ([y, m, d, h, mi] ++ seconds) ++ shownOffset offset ++ ")"

/-! ## What can be wrong -/

/-- Why the parts of a moment make none. -/
inductive Fault where
  | year (given : Nat)
  | month
  | day
  | hour
  | minute
  | second
  | offset (shown : Text)
  deriving DecidableEq

def Fault.message : Fault → Text
  | year given => "year " ++ toString given ++ " is out of range"
  | month => "month must be in 1..12"
  | day => "day is out of range for month"
  | hour => "hour must be in 0..23"
  | minute => "minute must be in 0..59"
  | second => "second must be in 0..59"
  | offset shown =>
    "offset must be a timedelta strictly between -timedelta(hours=24) and " ++
      "timedelta(hours=24), not " ++ shown ++ "."

def checkDate (year month day : Nat) : Except Fault Unit :=
  if year = 0 then .error (.year year)
  else if month = 0 || 12 < month then .error .month
  else if day = 0 || daysInMonth year month < day then .error .day
  else .ok ()

def checkTime (hour minute second : Nat) : Except Fault Unit :=
  if 23 < hour then .error .hour
  else if 59 < minute then .error .minute
  else if 59 < second then .error .second
  else .ok ()

/-! ## The written form -/

/-- An offset is written as a sign, which may be a minus, with hours and minutes. -/
structure WrittenOffset where
  west : Bool
  hours : List Code
  minutes : List Code

/-- What may stand behind a time of day. -/
inductive WrittenZone where
  | none
  | universal
  | offset (o : WrittenOffset)

structure WrittenTime where
  hour : List Code
  minute : List Code
  second : List Code
  fraction : List Code
  zone : WrittenZone

/-- The parts of a moment as they are written. -/
structure Written where
  year : List Code
  month : List Code
  day : List Code
  time : Option WrittenTime

/-- Between so many and so many digits, as many as there are, and what follows them. -/
def takeSomeDigits (least most : Nat) (cs : List Code) : Option (List Code × List Code) :=
  let digits := (cs.takeWhile isAsciiDigit).take most
  if digits.length < least then none else some (digits, cs.drop digits.length)

def afterChar (c : Code) : List Code → Option (List Code)
  | d :: cs => if c = d then some cs else none
  | [] => none

def isGap (c : Code) : Bool := c = ' ' || c = '\t'

/-- The zone at the end of a text: nothing at all, `Z`, or an offset; blanks may stand before the
    two. -/
def takeZone (cs : List Code) : Option WrittenZone :=
  match cs.dropWhile isGap with
  | [] => if cs.isEmpty then some .none else none
  | [.scalar 'Z'] => some .universal
  | s :: rest => do
    if s ≠ '-' && s ≠ '+' then none
    let (hours, rest) ← takeSomeDigits 1 2 rest
    let minutes ← match rest with
      | [] => some []
      | .scalar ':' :: rest => (takeSomeDigits 2 2 rest).bind fun (minutes, rest) =>
        if rest.isEmpty then some minutes else none
      | _ => none
    return .offset ⟨s = '-', hours, minutes⟩

def takeTime (cs : List Code) : Option WrittenTime := do
  let (hour, cs) ← takeSomeDigits 1 2 cs
  let (minute, cs) ← takeSomeDigits 2 2 (← afterChar ':' cs)
  let (second, cs) ← takeSomeDigits 2 2 (← afterChar ':' cs)
  let (fraction, cs) := match cs with
    | .scalar '.' :: cs => (cs.takeWhile isAsciiDigit, cs.dropWhile isAsciiDigit)
    | cs => ([], cs)
  return ⟨hour, minute, second, fraction, ← takeZone cs⟩

/-- A date, with or without a time of day behind a `T` or blanks. -/
def takeWritten (cs : List Code) : Option Written := do
  let (year, cs) ← takeSomeDigits 4 4 cs
  let (month, cs) ← takeSomeDigits 1 2 (← afterChar '-' cs)
  let (day, cs) ← takeSomeDigits 1 2 (← afterChar '-' cs)
  match cs with
  | [] => return ⟨year, month, day, none⟩
  | c :: rest =>
    let rest ← if c = 'T' || c = 't' then some rest
      else if isGap c then some (rest.dropWhile isGap)
      else none
    return ⟨year, month, day, some (← takeTime rest)⟩

/-- The form of a moment; a date without a time has two digits for the month and for the day. -/
def isWritten (cs : List Code) : Bool :=
  (takeWritten cs).any fun m => m.time.isSome || (m.month.length = 2 && m.day.length = 2)

/-! ## Reading -/

/-- The first six places of a fraction of a second. -/
def microseconds (places : List Code) : Nat :=
  decimalValue ((places ++ List.replicate 6 (Code.scalar '0')).take 6)

/-- The offset from universal time in minutes, which is less than a day. -/
def readOffset : WrittenZone → Except Fault (Option Int)
  | .none => .ok none
  | .universal => .ok (some 0)
  | .offset o =>
    let size : Int := 60 * decimalValue o.hours + decimalValue o.minutes
    let offset := if o.west then -size else size
    if size < 1440 then .ok (some offset) else .error (.offset (shownSpan offset))

def ofWritten (m : Written) : Except Fault Moment := do
  let year := decimalValue m.year
  let month := decimalValue m.month
  let day := decimalValue m.day
  match m.time with
  | none =>
    checkDate year month day
    return .date year month day
  | some t =>
    let offset ← readOffset t.zone
    let hour := decimalValue t.hour
    let minute := decimalValue t.minute
    let second := decimalValue t.second
    checkDate year month day
    checkTime hour minute second
    return .time year month day hour minute second (microseconds t.fraction) offset

example : dayNumber 1 1 1 = 1 ∧ dayNumber 2020 3 1 = 737485 := by decide

end Moment

end LockFit.Yaml
