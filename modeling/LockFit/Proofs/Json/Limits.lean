import LockFit.Proofs.Json.RoundTrip
import LockFit.Proofs.Outcome
import Mathlib.Data.List.TakeWhile

/-
  The limits of the reader of JSON.
  A numeral with too many digits and one more open list or object than there may be stop the
  reader without a complaint about the text. They do so only at a token where a value has to
  start (`step_failsWith_limit`), so a text goes beyond a limit if its tokens lead the reader to
  such a token (`Overruns`, `read_failsWith_limit`). A look at the characters can rule that out:
  the numeral stands in the text digit by digit, and each open list or object has a bracket of its
  own in it (`Overruns.bound`).
-/

namespace LockFit.Json

open Text

/-! ## What a token leaves of the text -/

section Rest

variable {cs rest : List Code}

theorem suffix_of_takeUnit {n : Nat} (h : takeUnit cs = some (n, rest)) : rest <:+ cs := by
  unfold takeUnit at h
  split at h
  · rename_i a b c d tail
    simp only [Option.bind_eq_bind, Option.bind_eq_some_iff, Option.pure_def,
      Option.some.injEq, Prod.mk.injEq] at h
    obtain ⟨_, _, _, _, _, _, _, _, _, rfl⟩ := h
    exact List.suffix_append [a, b, c, d] tail
  · cases h

theorem suffix_of_takeWritten {c : Code} (h : takeWritten cs = .ok (c, rest)) : rest <:+ cs := by
  unfold takeWritten at h
  split at h
  · cases h
  · cases h
  · rename_i n after _ hunit
    have hafter : after <:+ cs := suffix_of_takeUnit hunit
    -- the first half of a pair takes the other half with it, if that follows
    split at h
    · rename_i more _
      have hmore : more <:+ cs := (List.suffix_append [Code.scalar '\\', 'u'] more).trans hafter
      split at h
      · split at h
        · cases h
        · rename_i m tail hlow
          have htail : tail <:+ cs := (suffix_of_takeUnit hlow).trans hmore
          split at h
          · obtain ⟨-, rfl⟩ := Prod.mk.inj (Except.ok.inj h)
            exact htail
          · obtain ⟨-, rfl⟩ := Prod.mk.inj (Except.ok.inj h)
            exact hafter
      · obtain ⟨-, rfl⟩ := Prod.mk.inj (Except.ok.inj h)
        exact hafter
    · obtain ⟨-, rfl⟩ := Prod.mk.inj (Except.ok.inj h)
      exact hafter

theorem suffix_of_takeEscape {c : Code} (h : takeEscape cs = .ok (c, rest)) : rest <:+ cs := by
  cases cs with
  | nil => cases h
  | cons d cs =>
    rw [takeEscape] at h
    split at h
    · exact (suffix_of_takeWritten (mapError_eq_ok.1 h)).trans (List.suffix_cons d cs)
    · split at h
      · obtain ⟨-, rfl⟩ := Prod.mk.inj (Except.ok.inj h)
        exact List.suffix_cons d cs
      · cases h

theorem suffix_of_takeText {body : List Code} (h : takeText cs = .ok (body, rest)) :
    rest <:+ cs := by
  fun_induction takeText cs generalizing body with
  | case1 => cases h
  | case2 tail =>
    obtain ⟨-, rfl⟩ := Prod.mk.inj (Except.ok.inj h)
    exact List.suffix_cons _ tail
  | case3 => cases h
  | case4 tail d after he _ ih =>
    obtain ⟨⟨body', rest'⟩, htext, hpair⟩ := map_eq_ok.1 h
    obtain ⟨-, rfl⟩ := Prod.mk.inj hpair
    exact (ih htext).trans ((suffix_of_takeEscape he).trans (List.suffix_cons _ tail))
  | case5 => cases h
  | case6 c tail _ _ _ ih =>
    obtain ⟨⟨body', rest'⟩, htext, hpair⟩ := map_eq_ok.1 h
    obtain ⟨-, rfl⟩ := Prod.mk.inj hpair
    exact (ih htext).trans (List.suffix_cons c tail)

theorem suffix_takeDigits (cs : List Code) : (takeDigits cs).2 <:+ cs :=
  List.dropWhile_suffix _

theorem suffix_takePlaces (cs : List Code) : (takePlaces cs).2 <:+ cs := by
  unfold takePlaces
  split
  · rename_i rest
    split
    · exact List.suffix_refl _
    · exact (suffix_takeDigits rest).trans (List.suffix_cons (.scalar '.') rest)
  · exact List.suffix_refl cs

theorem suffix_takeSign (cs : List Code) : (takeSign cs).2 <:+ cs := by
  unfold takeSign
  split
  · exact List.suffix_cons _ _
  · exact List.suffix_cons _ _
  · exact List.suffix_refl cs

theorem suffix_takeExponent (cs : List Code) : (takeExponent cs).2 <:+ cs := by
  unfold takeExponent
  split
  · exact List.suffix_refl _
  · rename_i c rest
    dsimp only
    split
    · exact (suffix_takeDigits _).trans ((suffix_takeSign rest).trans (List.suffix_cons c rest))
    · exact List.suffix_refl _

/-- The whole part of a number is a run of digits. -/
theorem takeWhole_eq_some {digits : List Code} (h : takeWhole cs = some (digits, rest)) :
    cs = digits ++ rest ∧ ∀ d ∈ digits, isAsciiDigit d = true := by
  cases cs with
  | nil => cases h
  | cons c cs =>
    rw [takeWhole] at h
    split at h
    · rename_i hzero
      obtain ⟨rfl, rfl⟩ := Prod.mk.inj (Option.some.inj h)
      subst c
      exact ⟨rfl, by simp [isAsciiDigit]⟩
    · split at h
      · rename_i hnonzero
        obtain ⟨rfl, rfl⟩ := Prod.mk.inj (Option.some.inj h)
        have hc : isAsciiDigit c = true := by
          simp only [isAsciiNonzero, isAsciiDigit, Bool.and_eq_true,
            decide_eq_true_eq] at hnonzero ⊢
          have hone : Code.scalar '0' ≤ Code.scalar '1' := by decide
          exact ⟨Code.le_trans hone hnonzero.1, hnonzero.2⟩
        refine ⟨?_, List.forall_mem_cons.2 ⟨hc, fun d hd => List.mem_takeWhile_imp hd⟩⟩
        exact congrArg (c :: ·) List.takeWhile_append_dropWhile.symm
      · cases h

/-- A run of digits in the text that is longer than a numeral may be. -/
def HasOverlong (cs : List Code) : Prop :=
  ∃ digits, digits <:+: cs ∧ digitLimit < digits.length ∧ ∀ d ∈ digits, isAsciiDigit d = true

theorem HasOverlong.of_suffix (h : HasOverlong rest) (hrest : rest <:+ cs) : HasOverlong cs := by
  obtain ⟨digits, hdigits, hlong⟩ := h
  exact ⟨digits, hdigits.trans hrest.isInfix, hlong⟩

/-- A number is a value, or it is a whole number with too many digits. -/
theorem takeNumber_cases {t : Token} (h : takeNumber cs = some (t, rest)) :
    rest <:+ cs ∧ ((∃ v, t = .value v) ∨ (∃ cause, t = .tooLong cause) ∧ HasOverlong cs) := by
  unfold takeNumber at h
  simp only [Option.bind_eq_bind, Option.bind_eq_some_iff] at h
  obtain ⟨⟨whole, after⟩, hwhole, h⟩ := h
  obtain ⟨hbody, hdigits⟩ := takeWhole_eq_some hwhole
  -- a minus sign may stand before the whole part
  have hcs : whole ++ after <:+ cs := by
    rw [← hbody]
    split
    · exact List.suffix_cons _ _
    · exact List.suffix_refl cs
  have hrest : (takeExponent (takePlaces after).2).2 <:+ cs :=
    (suffix_takeExponent _).trans ((suffix_takePlaces after).trans
      ((List.suffix_append whole after).trans hcs))
  dsimp only at h
  split at h
  · split at h
    · obtain ⟨rfl, rfl⟩ := Prod.mk.inj (Option.some.inj h)
      exact ⟨hrest, .inl ⟨_, rfl⟩⟩
    · rename_i cause hcause
      obtain ⟨rfl, rfl⟩ := Prod.mk.inj (Option.some.inj h)
      have hlong : digitLimit < whole.length := by
        by_contra hshort
        rw [readNumeral_eq_ok (Nat.le_of_not_lt hshort)] at hcause
        cases hcause
      have hinfix : whole <:+: cs := (List.prefix_append whole after).isInfix.trans hcs.isInfix
      exact ⟨hrest, .inr ⟨⟨cause, rfl⟩, whole, hinfix, hlong, hdigits⟩⟩
  · obtain ⟨rfl, rfl⟩ := Prod.mk.inj (Option.some.inj h)
    exact ⟨hrest, .inl ⟨_, rfl⟩⟩

theorem suffix_of_takeWord {v : Json} {ws : List (List Code × Json)}
    (h : takeWord cs ws = some (v, rest)) : rest <:+ cs := by
  induction ws with
  | nil => cases h
  | cons e ws ih =>
    rw [takeWord] at h
    split at h
    · obtain ⟨-, rfl⟩ := Prod.mk.inj (Option.some.inj h)
      exact List.drop_suffix _ cs
    · exact ih h

/-- A mark is the character at the start of the text; a numeral that is too long has its digits
    in it. -/
theorem takeToken_cases {t : Token} (h : takeToken cs = some (t, rest)) :
    rest <:+ cs ∧ (∀ c, t = .mark c → cs = c :: rest) ∧
      ∀ cause, t = .tooLong cause → HasOverlong cs := by
  cases cs with
  | nil => cases h
  | cons c cs =>
    rw [takeToken] at h
    -- a text, a mark, a word, a number or none of these
    split at h
    · split at h
      · rename_i body after htext
        obtain ⟨rfl, rfl⟩ := Prod.mk.inj (Option.some.inj h)
        exact ⟨(suffix_of_takeText htext).trans (List.suffix_cons c cs), by simp, by simp⟩
      · obtain ⟨rfl, rfl⟩ := Prod.mk.inj (Option.some.inj h)
        exact ⟨List.nil_suffix, by simp, by simp⟩
    · split at h
      · obtain ⟨rfl, rfl⟩ := Prod.mk.inj (Option.some.inj h)
        exact ⟨List.suffix_cons c cs, by simp, by simp⟩
      · split at h
        · rename_i v after hword
          obtain ⟨rfl, rfl⟩ := Prod.mk.inj (Option.some.inj h)
          exact ⟨suffix_of_takeWord hword, by simp, by simp⟩
        · split at h
          · rename_i number after hnumber
            obtain ⟨rfl, rfl⟩ := Prod.mk.inj (Option.some.inj h)
            obtain ⟨hrest, ⟨v, rfl⟩ | ⟨⟨cause, rfl⟩, hlong⟩⟩ := takeNumber_cases hnumber
            · exact ⟨hrest, by simp, by simp⟩
            · exact ⟨hrest, by simp, fun _ _ => hlong⟩
          · obtain ⟨rfl, rfl⟩ := Prod.mk.inj (Option.some.inj h)
            exact ⟨List.nil_suffix, by simp, by simp⟩

end Rest

/-! ## The tokens of a text -/

/-- The character opens a list or an object. -/
def isOpening (c : Code) : Bool := c = '[' || c = '\x7b'

def Token.opens : Token → Bool
  | .mark c => isOpening c
  | _ => false

/-- Tokens that open a list or an object, among tokens with their places. -/
def openings (ts : List (Token × List Code)) : Nat := ts.countP fun t => t.1.opens

theorem openings_append (ts us : List (Token × List Code)) :
    openings (ts ++ us) = openings ts + openings us := List.countP_append ..

theorem suffix_skipSpace (cs : List Code) : skipSpace cs <:+ cs := List.dropWhile_suffix _

/-- Each of these tokens is a character of the text. -/
theorem openings_tokens_le (cs : List Code) : openings (tokens cs) ≤ cs.countP isOpening := by
  fun_induction tokens cs with
  | case1 => exact Nat.zero_le _
  | case2 cs t rest h ih =>
    obtain ⟨hrest, hmark, -⟩ := takeToken_cases h
    refine le_trans ?_ (suffix_skipSpace cs).sublist.countP_le
    rw [openings, List.countP_cons, ← openings]
    cases hopens : t.opens with
    | false => simpa using ih.trans hrest.sublist.countP_le
    | true =>
      cases t with
      | mark c =>
        rw [hmark c rfl, List.countP_cons, show isOpening c = true from hopens]
        exact Nat.succ_le_succ ih
      | _ => cases hopens

/-- A numeral that is too long has its digits in the text. -/
theorem hasOverlong_of_mem_tokens {cs at_ : List Code} {cause : NumeralTooLong}
    (h : (.tooLong cause, at_) ∈ tokens cs) : HasOverlong cs := by
  fun_induction tokens cs with
  | case1 => cases h
  | case2 cs t rest htoken ih =>
    obtain ⟨hrest, -, hlong⟩ := takeToken_cases htoken
    rcases List.mem_cons.1 h with h | h
    · obtain ⟨rfl, -⟩ := Prod.mk.inj h
      exact (hlong cause rfl).of_suffix (suffix_skipSpace cs)
    · exact (ih h).of_suffix (hrest.trans (suffix_skipSpace cs))

/-! ## One step -/

def Stop.IsLimit : Stop → Prop
  | .fault _ => False
  | .numeral _ | .tooDeep => True

def ReadError.IsLimit : ReadError → Prop
  | .malformed _ => False
  | .numeral _ | .tooDeep => True

/-- The token goes beyond a limit of the reader: a value has to start there, and it is a numeral
    with too many digits or opens one list or object more than may be open. -/
def State.Overruns (s : State) (t : Token) : Prop :=
  (s.demand = .value ∨ s.demand = .valueOrClose) ∧
    ((∃ cause, t = .tooLong cause) ∨ t.opens = true ∧ depthLimit ≤ s.stack.length)

variable {s s' : State} {t : Token} {at_ : List Code} {ts : List (Token × List Code)}

theorem openFrame_failsWith_limit {frame : Frame} {demand : Demand} {stack : List Frame} :
    FailsWith Stop.IsLimit (openFrame frame demand stack) ↔ depthLimit ≤ stack.length := by
  rw [openFrame]
  split
  · rename_i h
    exact iff_of_false not_failsWith_ok (Nat.not_le_of_lt h)
  · rename_i h
    exact iff_of_true ⟨.tooDeep, rfl, trivial⟩ (Nat.le_of_not_lt h)

theorem stepValue_failsWith_limit {stack : List Frame} :
    FailsWith Stop.IsLimit (stepValue stack t at_) ↔
      (∃ cause, t = .tooLong cause) ∨ t.opens = true ∧ depthLimit ≤ stack.length := by
  unfold stepValue
  split
  · simp [Token.opens]
  · simp [Token.opens]
  · simp [Token.opens, isOpening, openFrame_failsWith_limit]
  · simp [Token.opens, isOpening, openFrame_failsWith_limit]
  · simp [Token.opens, Stop.IsLimit]
  · simp [Stop.IsLimit]
  · rename_i hlist hobject _ hlong
    have hopens : t.opens = false := by
      cases t with
      | mark c =>
        refine Bool.eq_false_iff.2 fun h => ?_
        rcases by simpa [Token.opens, isOpening] using h with rfl | rfl
        · exact hlist rfl
        · exact hobject rfl
      | _ => rfl
    simp only [failsWith_error, Stop.IsLimit, hopens, Bool.false_eq_true, false_and, or_false,
      false_iff, not_exists]
    exact hlong

theorem not_stepName_failsWith_limit {stack : List Frame} :
    ¬ FailsWith Stop.IsLimit (stepName stack t at_) := by
  unfold stepName
  split
  · exact not_failsWith_ok
  · simp [Stop.IsLimit]
  · simp [Stop.IsLimit]

theorem step_failsWith_limit : FailsWith Stop.IsLimit (step s t at_) ↔ s.Overruns t := by
  obtain ⟨stack, demand⟩ := s
  by_cases hvalue : demand = .value ∨ demand = .valueOrClose
  · rw [State.Overruns, and_iff_right hvalue]
    by_cases hclose : t = .mark ']' ∧ demand = .valueOrClose
    · obtain ⟨rfl, rfl⟩ := hclose
      exact iff_of_false not_failsWith_ok (by simp [Token.opens, isOpening])
    · have hstep : step ⟨stack, demand⟩ t at_ = stepValue stack t at_ := by
        rcases hvalue with rfl | rfl
        · rfl
        · exact step_value (Or.inr rfl) (fun ht => hclose ⟨ht, rfl⟩) at_
      rw [hstep, stepValue_failsWith_limit]
  · -- elsewhere a step only fails with a complaint about the text
    refine iff_of_false ?_ fun h => hvalue h.1
    unfold step
    dsimp only
    split
    · exact absurd (Or.inl rfl) hvalue
    · exact absurd (Or.inr rfl) hvalue
    · split
      · exact not_failsWith_ok
      · exact not_stepName_failsWith_limit
    · exact not_stepName_failsWith_limit
    · split
      · exact not_failsWith_ok
      · simp [Stop.IsLimit]
    · split
      · exact not_failsWith_ok
      · exact not_failsWith_ok
      · exact not_failsWith_ok
      · exact not_failsWith_ok
      · simp [Stop.IsLimit]
    · simp [Stop.IsLimit]

/-! ## A run -/

theorem run_cons_eq (s : State) (t : Token) (at_ : List Code) (ts : List (Token × List Code)) :
    run s ((t, at_) :: ts) = step s t at_ >>= fun s' => run s' ts := by
  rw [run]
  cases step s t at_ with
  | error e => rfl
  | ok s' => rfl

/-- A run fails with the failure of its first step that does. -/
theorem run_failsWith {bad : Stop → Prop} : FailsWith bad (run s ts) ↔
    ∃ before t at_ after s', ts = before ++ (t, at_) :: after ∧ run s before = .ok s' ∧
      FailsWith bad (step s' t at_) := by
  induction ts generalizing s with
  | nil => simp [run]
  | cons u ts ih =>
    obtain ⟨t, at_⟩ := u
    rw [run_cons_eq, failsWith_bind]
    constructor
    · rintro (h | ⟨s₁, hstep, h⟩)
      · exact ⟨[], t, at_, ts, s, rfl, rfl, h⟩
      · obtain ⟨before, t', at', after, s', rfl, hrun, hfails⟩ := ih.1 h
        exact ⟨(t, at_) :: before, t', at', after, s', rfl, (run_cons hstep before).trans hrun,
          hfails⟩
    · rintro ⟨before, t', at', after, s', hsplit, hrun, hfails⟩
      cases before with
      | nil =>
        obtain ⟨hfirst, rfl⟩ := List.cons_eq_cons.1 hsplit
        obtain ⟨rfl, rfl⟩ := Prod.mk.inj hfirst
        cases hrun
        exact Or.inl hfails
      | cons v before =>
        obtain ⟨rfl, rfl⟩ := List.cons_eq_cons.1 hsplit
        rw [run_cons_eq] at hrun
        obtain ⟨s₁, hstep, hrun⟩ := bind_eq_ok.1 hrun
        exact Or.inr ⟨s₁, hstep, ih.2 ⟨before, t', at', after, s', rfl, hrun, hfails⟩⟩

/-- Some token of the text goes beyond a limit of the reader, and the tokens before it are read. -/
def Overruns (cs : List Code) : Prop :=
  ∃ before t at_ after s, tokens cs = before ++ (t, at_) :: after ∧
    run State.start before = .ok s ∧ s.Overruns t

theorem run_tokens_failsWith_limit (cs : List Code) :
    FailsWith Stop.IsLimit (run State.start (tokens cs)) ↔ Overruns cs := by
  simp only [run_failsWith, step_failsWith_limit, Overruns]

theorem not_finish_failsWith_limit : ¬ FailsWith Stop.IsLimit (finish s) := by
  unfold finish
  split
  · exact not_failsWith_ok
  · simp [Stop.IsLimit]
  · simp [Stop.IsLimit]
  · simp [Stop.IsLimit]
  · simp [Stop.IsLimit]
  · simp [Stop.IsLimit]
  · simp [Stop.IsLimit]

/-- Where no text, mark or word can start, a number is looked for. -/
theorem takeToken_number {c : Code} {cs : List Code} (hspace : isSpace c = false)
    (hquote : c ≠ Code.scalar '"')
    (hmark : [Code.scalar '[', ']', '\x7b', '\x7d', ',', ':'].contains c = false)
    (hword : takeWord (c :: cs) words = none) :
    takeToken (skipSpace (c :: cs)) = some ((takeNumber (c :: cs)).getD (.other, [])) := by
  rw [skipSpace, List.dropWhile_cons_of_neg (by simp [hspace]), takeToken, if_neg hquote,
    if_neg (Bool.eq_false_iff.1 hmark), hword]
  dsimp only
  cases takeNumber (c :: cs) with
  | none => rfl
  | some p => rfl

/-- A text that starts with a byte order mark has one token, which is no value. -/
theorem not_overruns_of_mark (cs : List Code) : ¬ Overruns ('\ufeff' :: cs) := by
  have hwords : takeWord ('\ufeff' :: cs) words = none := by
    simp [takeWord, words]
  have hwhole : takeWhole ('\ufeff' :: cs) = none := by
    rw [takeWhole, if_neg (by decide), if_neg (by decide)]
  have hnumber : takeNumber ('\ufeff' :: cs) = none := by
    unfold takeNumber
    split
    rename_i negative body hbody
    obtain ⟨-, rfl⟩ : negative = false ∧ Code.scalar '\ufeff' :: cs = body := by simpa using hbody
    rw [hwhole]
    rfl
  have htoken : takeToken (skipSpace (Code.scalar '\ufeff' :: cs)) = some (.other, []) := by
    rw [takeToken_number (by decide) (by decide) (by decide) hwords, hnumber]
    rfl
  have hstep (at_ : List Code) :
      step State.start .other at_ = .error (.fault ⟨.noValue, at_⟩) := rfl
  rw [← run_tokens_failsWith_limit, tokens_of_takeToken htoken, run, hstep]
  simp [Stop.IsLimit]

/-- The reader stops at a limit exactly if the text goes beyond one. -/
theorem read_failsWith_limit (text : Text) :
    FailsWith ReadError.IsLimit (read text) ↔ Overruns text.toList := by
  have hlocate (cs : List Code) (e : Stop) : (e.locate cs).IsLimit ↔ e.IsLimit := by
    cases e with
    | fault | numeral | tooDeep => rfl
  rw [read, failsWith_mapError]
  simp only [hlocate]
  unfold readChars
  split
  · rename_i cs hcs
    rw [hcs]
    exact iff_of_false (by simp [Stop.IsLimit]) (not_overruns_of_mark cs)
  · rw [failsWith_bind, run_tokens_failsWith_limit, or_iff_left]
    rintro ⟨s, -, h⟩
    exact not_finish_failsWith_limit h

/-! ## What the characters say -/

theorem length_stack_deliver (v : Json) (stack : List Frame) :
    (deliver v stack).stack.length = stack.length := by
  unfold deliver
  split
  · rfl
  · rfl
  · rfl
  · rfl

theorem length_stack_close_le (stack : List Frame) :
    (close stack).stack.length ≤ stack.length := by
  unfold close
  split
  · rw [length_stack_deliver]
    exact Nat.le_succ _
  · rw [length_stack_deliver]
    exact Nat.le_succ _
  · exact le_rfl

theorem length_stack_openFrame {frame : Frame} {demand : Demand} {stack : List Frame}
    (h : openFrame frame demand stack = .ok s') : s'.stack.length = stack.length + 1 := by
  rw [openFrame] at h
  split at h
  · cases h
    rfl
  · cases h

theorem length_stack_stepValue_le {stack : List Frame} (h : stepValue stack t at_ = .ok s') :
    s'.stack.length ≤ stack.length + openings [(t, at_)] := by
  unfold stepValue at h
  split at h
  · cases h
    rw [length_stack_deliver]
    exact Nat.le_add_right _ _
  · cases h
    rw [length_stack_deliver]
    exact Nat.le_add_right _ _
  · exact (length_stack_openFrame h).le
  · exact (length_stack_openFrame h).le
  · cases h
  · cases h
  · cases h

theorem length_stack_stepName {stack : List Frame} (h : stepName stack t at_ = .ok s') :
    s'.stack.length = stack.length := by
  unfold stepName at h
  split at h
  · cases h
    rfl
  · cases h
  · cases h

/-- A step leaves no more lists and objects open than before, but for one that its token opens. -/
theorem length_stack_step_le (h : step s t at_ = .ok s') :
    s'.stack.length ≤ s.stack.length + openings [(t, at_)] := by
  have hkeep {n : Nat} (hn : n ≤ s.stack.length) : n ≤ s.stack.length + openings [(t, at_)] :=
    Nat.le_add_right_of_le hn
  unfold step at h
  split at h
  · exact length_stack_stepValue_le h
  · split at h
    · cases h
      exact hkeep (length_stack_close_le _)
    · exact length_stack_stepValue_le h
  · split at h
    · cases h
      exact hkeep (length_stack_close_le _)
    · exact hkeep (length_stack_stepName h).le
  · exact hkeep (length_stack_stepName h).le
  · split at h
    · cases h
      exact hkeep le_rfl
    · cases h
  · split at h
    · cases h
      exact hkeep le_rfl
    · cases h
      exact hkeep le_rfl
    · cases h
      exact hkeep (length_stack_close_le _)
    · cases h
      exact hkeep (length_stack_close_le _)
    · cases h
  · cases h

theorem length_stack_run_le (h : run s ts = .ok s') :
    s'.stack.length ≤ s.stack.length + openings ts := by
  induction ts generalizing s with
  | nil =>
    cases h
    exact le_rfl
  | cons u ts ih =>
    obtain ⟨t, at_⟩ := u
    rw [run_cons_eq] at h
    obtain ⟨s₁, hstep, hrun⟩ := bind_eq_ok.1 h
    calc s'.stack.length
      _ ≤ s₁.stack.length + openings ts := ih hrun
      _ ≤ s.stack.length + openings [(t, at_)] + openings ts :=
        Nat.add_le_add_right (length_stack_step_le hstep) _
      _ = s.stack.length + openings ((t, at_) :: ts) := by
        rw [Nat.add_assoc, ← openings_append, List.singleton_append]

/-- A text that goes beyond a limit has a run of too many digits or too many brackets that open a
    list or an object. -/
theorem Overruns.bound {cs : List Code} (h : Overruns cs) :
    HasOverlong cs ∨ depthLimit < cs.countP isOpening := by
  obtain ⟨before, t, at_, after, s, htokens, hrun, -, ⟨cause, rfl⟩ | ⟨hopens, hfull⟩⟩ := h
  · exact .inl (hasOverlong_of_mem_tokens (htokens ▸ List.mem_append_right before
      List.mem_cons_self))
  · right
    have hopening : openings [(t, at_)] = 1 := by simp [openings, hopens]
    have hstack : s.stack.length ≤ openings before := by
      simpa [State.start] using length_stack_run_le hrun
    calc depthLimit
      _ ≤ openings before := hfull.trans hstack
      _ < openings before + (1 + openings after) := by omega
      _ = openings (tokens cs) := by
        rw [htokens, openings_append, ← List.singleton_append, openings_append, hopening]
      _ ≤ cs.countP isOpening := openings_tokens_le cs

/-! ## Digits alone -/

/-- A text of ones that is longer than a numeral may be goes beyond that limit. -/
theorem overruns_ones {n : Nat} (h : digitLimit < n) :
    Overruns (List.replicate n (.scalar '1')) := by
  obtain ⟨n, rfl⟩ : ∃ m, n = m + 1 := ⟨n - 1, by omega⟩
  have hnumeral : readNumeral (List.replicate (n + 1) (.scalar '1')) = .error ⟨n + 1⟩ := by
    rw [readNumeral, List.length_replicate, if_neg (Nat.not_le_of_lt h)]
  rw [List.replicate_succ] at hnumeral ⊢
  have hdigits : takeDigits (List.replicate n (.scalar '1')) =
      (List.replicate n (.scalar '1'), []) := by
    simp [takeDigits, isAsciiDigit]
  have hwhole : takeWhole (Code.scalar '1' :: List.replicate n (.scalar '1')) =
      some (Code.scalar '1' :: List.replicate n (.scalar '1'), []) := by
    rw [takeWhole, if_neg (by decide), if_pos (by decide), hdigits]
  have hnumber : takeNumber (Code.scalar '1' :: List.replicate n (.scalar '1')) =
      some (.tooLong ⟨n + 1⟩, []) := by
    unfold takeNumber
    split
    rename_i negative body hbody
    obtain ⟨-, rfl⟩ : negative = false ∧
        Code.scalar '1' :: List.replicate n (.scalar '1') = body := by simpa using hbody
    rw [hwhole]
    simp only [Option.bind_eq_bind, Option.bind_some, takePlaces, takeExponent, hnumeral,
      List.isEmpty_nil, Option.isNone_none, Bool.and_self, if_true]
  have hword : takeWord (Code.scalar '1' :: List.replicate n (.scalar '1')) words = none := by
    simp [takeWord, words]
  have htoken : takeToken (skipSpace (Code.scalar '1' :: List.replicate n (.scalar '1'))) =
      some (.tooLong ⟨n + 1⟩, []) := by
    rw [takeToken_number (by decide) (by decide) (by decide) hword, hnumber]
    rfl
  exact ⟨[], _, _, _, State.start, tokens_of_takeToken htoken, rfl, Or.inl rfl, Or.inl ⟨_, rfl⟩⟩

end LockFit.Json
