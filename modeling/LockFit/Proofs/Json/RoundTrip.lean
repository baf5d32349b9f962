import LockFit.Json.Printer
import LockFit.Json.Reader
import LockFit.Proofs.Text.Halves

/-
  What is written as JSON is read back.
  Each code point is read from its escape (`takeText_escapeChar`), so the tokens of a written text
  are that one text, and layout adds no token. Reading is then followed value by value: behind the
  text of a value the reader stands as if the value had been put in its place, whatever is open
  around it (`Document.readsBack`). Only halves that stand side by side do not stay what they are:
  their escapes are read as the character that they encode, so what comes back is `reread`. For
  values built from texts and truth values by lists and objects this gives `read_print`, in every
  layout.
-/

namespace LockFit.Json

open Text

/-! ## Escapes -/

theorem hexValue?_hexDigit {d : Nat} (h : d < 16) : hexValue? (hexDigit d) = some d := by
  have hall : ∀ d, d < 16 → hexValue? (hexDigit d) = some d := by decide
  exact hall d h

/-- Four digits are read as the number that they were written for. -/
theorem takeUnit_hexText {n : Nat} (h : n < 0x10000) (cs : List Code) :
    takeUnit (hexText 4 n ++ cs) = some (n, cs) := by
  have hdigits : hexText 4 n = [hexDigit (n / 16 / 16 / 16 % 16), hexDigit (n / 16 / 16 % 16),
      hexDigit (n / 16 % 16), hexDigit (n % 16)] := rfl
  have hvalue : ((n / 16 / 16 / 16 % 16 * 16 + n / 16 / 16 % 16) * 16 + n / 16 % 16) * 16 +
      n % 16 = n := by omega
  rw [hdigits]
  simp only [List.cons_append, List.nil_append, takeUnit,
    hexValue?_hexDigit (Nat.mod_lt _ (by decide : 0 < 16)), Option.bind_eq_bind, Option.bind_some,
    Option.pure_def, hvalue]

theorem isHighUnit_toNat {c : Code} : isHighUnit c.toNat = true ↔ ∃ h, c = .high h := by
  simp only [isHighUnit, Bool.and_eq_true, decide_eq_true_eq]
  constructor
  · intro hrange
    cases c with
    | scalar c =>
      have hvalid : c.toNat < 0xd800 ∨ 0xdfff < c.toNat ∧ c.toNat < 0x110000 := c.valid
      rw [Code.toNat_scalar] at hrange
      omega
    | high h => exact ⟨h, rfl⟩
    | low l =>
      simp only [Code.toNat] at hrange
      omega
  · rintro ⟨h, rfl⟩
    simp only [Code.toNat]
    omega

theorem isLowUnit_toNat {c : Code} : isLowUnit c.toNat = true ↔ ∃ l, c = .low l := by
  simp only [isLowUnit, Bool.and_eq_true, decide_eq_true_eq]
  constructor
  · intro hrange
    cases c with
    | scalar c =>
      have hvalid : c.toNat < 0xd800 ∨ 0xdfff < c.toNat ∧ c.toNat < 0x110000 := c.valid
      rw [Code.toNat_scalar] at hrange
      omega
    | high h =>
      simp only [Code.toNat] at hrange
      omega
    | low l => exact ⟨l, rfl⟩
  · rintro ⟨l, rfl⟩
    simp only [Code.toNat]
    omega

/-- No low half is written at the start of the text: a unit that stands there is another one. -/
def NoLowAhead (cs : List Code) : Prop :=
  ∀ more, cs = Code.scalar '\\' :: 'u' :: more →
    ∃ m tail, takeUnit more = some (m, tail) ∧ isLowUnit m = false

/-- A code point that fits into one unit is read by itself, unless it is a high half and a low one
    follows. -/
theorem takeWritten_unit {c : Code} (hc : c.toNat < 0x10000) {cs : List Code} (hcs : cs ≠ [])
    (hahead : isHighUnit c.toNat = true → NoLowAhead cs) :
    takeWritten (hexText 4 c.toNat ++ cs) = .ok (c, cs) := by
  obtain ⟨d, ds, rfl⟩ := List.exists_cons_of_ne_nil hcs
  rw [takeWritten, takeUnit_hexText hc]
  dsimp only
  split
  · rename_i more heq
    split
    · rename_i hhigh
      obtain ⟨m, tail, hunit, hlow⟩ := hahead (Bool.and_eq_true_iff.1 hhigh).1 more heq
      rw [hunit]
      simp only [hlow, Bool.false_eq_true, if_false, Code.ofNat_toNat, heq]
    · rw [Code.ofNat_toNat, heq]
  · rw [Code.ofNat_toNat]

/-- The halves of a pair are read together. -/
theorem takeWritten_pair {high low : Nat} (hhigh : isHighUnit high = true)
    (hlow : isLowUnit low = true) {cs : List Code} (hcs : cs ≠ []) :
    takeWritten (hexText 4 high ++ Code.scalar '\\' :: 'u' :: (hexText 4 low ++ cs)) =
      .ok (joinUnits high low, cs) := by
  have hhighlt : high < 0xdc00 := by simp [isHighUnit] at hhigh; exact hhigh.2
  have hlowlt : low < 0xe000 := by simp [isLowUnit] at hlow; exact hlow.2
  have hmore : ((hexText 4 low ++ cs).drop 4).isEmpty = false := by
    change cs.isEmpty = false
    simpa using hcs
  have hfirst := takeUnit_hexText (Nat.lt_trans hhighlt (by decide))
    ('\\' :: 'u' :: (hexText 4 low ++ cs))
  have hsecond := takeUnit_hexText (Nat.lt_trans hlowlt (by decide)) cs
  simp only [takeWritten, hfirst, hsecond, hhigh, hmore, hlow, Bool.not_false, Bool.and_self,
    if_true]

/-- A character beyond the first 65536 is what its two halves stand for. -/
theorem joinUnits_split {c : Code} (hc : 0x10000 ≤ c.toNat) :
    isHighUnit (0xd800 + (c.toNat - 0x10000) / 0x400) = true ∧
    isLowUnit (0xdc00 + (c.toNat - 0x10000) % 0x400) = true ∧
    joinUnits (0xd800 + (c.toNat - 0x10000) / 0x400)
      (0xdc00 + (c.toNat - 0x10000) % 0x400) = c := by
  have hlast : c.toNat < 0x110000 := c.toNat_lt
  simp only [isHighUnit, isLowUnit, Bool.and_eq_true, decide_eq_true_eq]
  refine ⟨by omega, by omega, ?_⟩
  have hcode : 0x10000 + (0xd800 + (c.toNat - 0x10000) / 0x400 - 0xd800) * 0x400 +
      (0xdc00 + (c.toNat - 0x10000) % 0x400 - 0xdc00) = c.toNat := by omega
  rw [joinUnits, hcode, Code.ofNat_toNat]

theorem joinUnits_halves (h l : Fin 0x400) :
    joinUnits (Code.high h).toNat (Code.low l).toNat = pairCode h l := by
  rw [joinUnits, pairCode, Code.toNat, Code.toNat, Nat.add_sub_cancel_left,
    Nat.add_sub_cancel_left]

/-! ## Texts -/

/-- The ways in which a code point is written. -/
inductive Escaped (c : Code) : List Code → Prop
  | plain (hquote : c ≠ '"') (hback : c ≠ '\\') (hctrl : ¬ c < Code.scalar ' ') : Escaped c [c]
  | short (l : Code) (hu : l ≠ 'u') (hl : shortEscape? l = some c) : Escaped c ['\\', l]
  | unit (hc : c.toNat < 0x10000) : Escaped c ('\\' :: 'u' :: hexText 4 c.toNat)
  | pair (hc : 0x10000 ≤ c.toNat) :
      Escaped c ('\\' :: 'u' :: (hexText 4 (0xd800 + (c.toNat - 0x10000) / 0x400) ++
        Code.scalar '\\' :: 'u' :: hexText 4 (0xdc00 + (c.toNat - 0x10000) % 0x400)))

theorem escaped_escapeChar (c : Code) : Escaped c (escapeChar c) := by
  rw [escapeChar]
  split
  · rename_i h
    simp only [Bool.or_eq_true, decide_eq_true_eq] at h
    rcases h with rfl | rfl
    · exact .short '"' (by decide) rfl
    · exact .short '\\' (by decide) rfl
  rename_i hmark
  simp only [Bool.or_eq_true, decide_eq_true_eq, not_or] at hmark
  split
  · subst c
    exact .short 'n' (by decide) rfl
  split
  · subst c
    exact .short 'r' (by decide) rfl
  split
  · subst c
    exact .short 't' (by decide) rfl
  split
  · subst c
    exact .short 'b' (by decide) rfl
  split
  · subst c
    exact .short 'f' (by decide) rfl
  split
  · rename_i h
    simp only [Bool.and_eq_true, decide_eq_true_eq] at h
    exact .plain hmark.1 hmark.2 (Nat.not_lt.2 h.1)
  split
  · rename_i h
    exact .unit h
  · rename_i h
    exact .pair (Nat.le_of_not_lt h)

theorem takeText_escape {cs after : List Code} {d : Code} (h : takeEscape cs = .ok (d, after)) :
    takeText (.scalar '\\' :: cs) = (takeText after).map fun p => (d :: p.1, p.2) := by
  rw [takeText, if_neg (by decide), if_pos rfl]
  split
  · rename_i e he
    rw [h] at he
    cases he
  · rename_i d' after' he
    obtain ⟨rfl, rfl⟩ := Prod.mk.inj (Except.ok.inj (h.symm.trans he))
    rfl

theorem takeText_plain {c : Code} (hquote : c ≠ '"') (hback : c ≠ '\\')
    (hctrl : ¬ c < Code.scalar ' ') (cs : List Code) :
    takeText (c :: cs) = (takeText cs).map fun p => (c :: p.1, p.2) := by
  rw [takeText, if_neg hquote, if_neg hback, if_neg hctrl]

/-- Beyond the printed characters of ASCII one unit is written for what fits into one. -/
theorem escapeChar_unit {c : Code} (hc : 0x7e < c.toNat) (hc' : c.toNat < 0x10000) :
    escapeChar c = Code.scalar '\\' :: 'u' :: hexText 4 c.toNat := by
  have hne {d : Char} (hd : d.toNat ≤ 0x7e) : c ≠ .scalar d := by
    rintro rfl
    exact absurd hc (Nat.not_lt.2 hd)
  have hplain : ¬ (c ≤ Code.scalar '~') := Nat.not_le.2 hc
  simp [escapeChar, hne, hplain, hc']

/-- Each code point is read from the way in which it is written; behind a high half no low one may
    be written. -/
theorem takeText_escapeChar (c : Code) {cs : List Code} (hcs : cs ≠ [])
    (hahead : isHighUnit c.toNat = true → NoLowAhead cs) :
    takeText (escapeChar c ++ cs) = (takeText cs).map fun p => (c :: p.1, p.2) := by
  have hwritten := escaped_escapeChar c
  generalize escapeChar c = written at hwritten
  cases hwritten with
  | plain hquote hback hctrl => exact takeText_plain hquote hback hctrl cs
  | short l hu hl =>
    refine takeText_escape ?_
    change (if l = Code.scalar 'u' then _ else _) = _
    rw [if_neg hu, hl]
    rfl
  | unit hc =>
    refine takeText_escape ?_
    change (takeWritten (hexText 4 c.toNat ++ cs)).mapError some = _
    rw [takeWritten_unit hc hcs hahead]
    rfl
  | pair hc =>
    obtain ⟨hhigh, hlow, hjoin⟩ := joinUnits_split hc
    refine takeText_escape ?_
    change (takeWritten (_ ++ _ ++ cs)).mapError some = _
    rw [List.append_assoc, List.cons_append, List.cons_append, takeWritten_pair hhigh hlow hcs,
      hjoin]
    rfl

/-- Two halves side by side are read as the character that they encode. -/
theorem takeText_halves (h l : Fin 0x400) {cs : List Code} (hcs : cs ≠ []) :
    takeText (escapeChar (.high h) ++ (escapeChar (.low l) ++ cs)) =
      (takeText cs).map fun p => (pairCode h l :: p.1, p.2) := by
  have hhigh := isHighUnit_toNat.2 ⟨h, rfl⟩
  have hlow := isLowUnit_toNat.2 ⟨l, rfl⟩
  rw [escapeChar_unit (by simp only [Code.toNat]; omega) (by simp only [Code.toNat]; omega),
    escapeChar_unit (by simp only [Code.toNat]; omega) (by simp only [Code.toNat]; omega)]
  refine takeText_escape ?_
  change (takeWritten (hexText 4 _ ++ Code.scalar '\\' :: 'u' :: (hexText 4 _ ++ cs))).mapError
    some = _
  rw [takeWritten_pair hhigh hlow hcs, joinUnits_halves]
  rfl

/-- What is written for a code point that is no low half is none. -/
theorem noLowAhead_escapeChar {c : Code} (hc : isLowUnit c.toNat = false) (rest : List Code) :
    NoLowAhead (escapeChar c ++ rest) := by
  intro more hmore
  have hwritten := escaped_escapeChar c
  generalize escapeChar c = written at hwritten hmore
  cases hwritten with
  | plain _ hback _ => exact absurd (List.cons.inj hmore).1 hback
  | short l hu _ => exact absurd (List.cons.inj (List.cons.inj hmore).2).1 hu
  | unit hunit =>
    obtain rfl : hexText 4 c.toNat ++ rest = more := (List.cons.inj (List.cons.inj hmore).2).2
    exact ⟨_, _, takeUnit_hexText hunit rest, hc⟩
  | pair hpair =>
    obtain ⟨hhigh, -, -⟩ := joinUnits_split hpair
    obtain rfl := (List.cons.inj (List.cons.inj hmore).2).2
    simp only [isHighUnit, Bool.and_eq_true, decide_eq_true_eq] at hhigh
    rw [List.append_eq, List.append_assoc]
    refine ⟨_, _, takeUnit_hexText (by omega) _, ?_⟩
    simp only [isLowUnit, Bool.and_eq_false_iff, decide_eq_false_iff_not]
    omega

/-- A written text is read with its pairs of halves joined. -/
theorem takeText_flatMap (body rest : List Code) :
    takeText (body.flatMap escapeChar ++ Code.scalar '"' :: rest) =
      .ok (joinHalves body, rest) := by
  fun_induction joinHalves body with
  | case1 => rw [List.flatMap_nil, List.nil_append, takeText, if_pos rfl]
  | case2 h l cs ih =>
    rw [List.flatMap_cons, List.flatMap_cons, List.append_assoc, List.append_assoc,
      takeText_halves h l (by simp), ih]
    rfl
  | case3 c cs hpair ih =>
    have hahead : isHighUnit c.toNat = true →
        NoLowAhead (cs.flatMap escapeChar ++ Code.scalar '"' :: rest) := by
      intro hhigh
      obtain ⟨h, rfl⟩ := isHighUnit_toNat.1 hhigh
      cases cs with
      | nil =>
        intro more hmore
        cases hmore
      | cons d ds =>
        have hlow : isLowUnit d.toNat = false := by
          rw [← Bool.not_eq_true, isLowUnit_toNat]
          rintro ⟨l, rfl⟩
          exact hpair h l ds rfl rfl
        rw [List.flatMap_cons, List.append_assoc]
        exact noLowAhead_escapeChar hlow _
    rw [List.flatMap_cons, List.append_assoc, takeText_escapeChar c (by simp) hahead, ih]
    rfl

/-! ## Tokens -/

theorem tokens_of_takeToken {cs rest : List Code} {t : Token}
    (h : takeToken (skipSpace cs) = some (t, rest)) :
    tokens cs = (t, skipSpace cs) :: tokens rest := by
  rw [tokens]
  split
  · rename_i he
    rw [h] at he
    cases he
  · rename_i t' rest' he
    obtain ⟨rfl, rfl⟩ := Prod.mk.inj (Option.some.inj (h.symm.trans he))
    rfl

/-- Space in front of a token does not count. -/
theorem tokens_append_space {space : List Code} (h : ∀ c ∈ space, isSpace c = true)
    (cs : List Code) : tokens (space ++ cs) = tokens cs := by
  have hskip : skipSpace (space ++ cs) = skipSpace cs := List.dropWhile_append_of_pos h
  rw [tokens, tokens, hskip]

theorem tokens_blank (cs : List Code) : tokens (Code.scalar ' ' :: cs) = tokens cs :=
  have hblank : ∀ c ∈ [Code.scalar ' '], isSpace c = true := List.forall_mem_singleton.2 rfl
  tokens_append_space hblank cs

theorem tokens_mark {c : Code} (hc : c ∈ [Code.scalar '[', ']', '\x7b', '\x7d', ',', ':'])
    (cs : List Code) : tokens (c :: cs) = (.mark c, c :: cs) :: tokens cs := by
  have hspace : isSpace c = false := by
    have hnone : ([Code.scalar '[', ']', '\x7b', '\x7d', ',', ':'].all
        fun c => !isSpace c) = true := by decide
    simpa using List.all_eq_true.1 hnone c hc
  have hquote : c ≠ '"' := by
    rintro rfl
    revert hc
    decide
  have hskip : skipSpace (c :: cs) = c :: cs := List.dropWhile_cons_of_neg (by simp [hspace])
  have htake : takeToken (skipSpace (c :: cs)) = some (.mark c, cs) := by
    rw [hskip, takeToken, if_neg hquote, if_pos (List.contains_iff_mem.2 hc)]
  rw [tokens_of_takeToken htake, hskip]

theorem tokens_writeText (s : Text) (cs : List Code) :
    tokens (writeText s ++ cs) = (.text s.joined, writeText s ++ cs) :: tokens cs := by
  have hcs : writeText s ++ cs =
      Code.scalar '"' :: (s.toList.flatMap escapeChar ++ Code.scalar '"' :: cs) := by
    simp [writeText]
  have hskip : skipSpace (writeText s ++ cs) = writeText s ++ cs := by
    rw [hcs]
    rfl
  have htake : takeToken (skipSpace (writeText s ++ cs)) = some (.text s.joined, cs) := by
    rw [hskip, hcs, takeToken, if_pos rfl, takeText_flatMap]
    rfl
  rw [tokens_of_takeToken htake, hskip]

/-! ## Layout -/

theorem isSpace_newline {layout : Layout} {depth : Nat} :
    ∀ c ∈ layout.newline depth, isSpace c = true := by
  intro c hc
  cases layout with
  | line => cases hc
  | lines indent =>
    rcases List.mem_cons.1 hc with rfl | hc
    · rfl
    · rw [List.eq_of_mem_replicate hc]
      rfl

theorem tokens_newline (layout : Layout) (depth : Nat) (cs : List Code) :
    tokens (layout.newline depth ++ cs) = tokens cs :=
  tokens_append_space isSpace_newline cs

theorem tokens_comma (layout : Layout) (depth : Nat) (cs : List Code) :
    tokens (layout.comma depth ++ cs) = (.mark ',', layout.comma depth ++ cs) :: tokens cs := by
  cases layout with
  | line =>
    change tokens (Code.scalar ',' :: ' ' :: cs) = _
    rw [tokens_mark (by decide), tokens_blank]
    rfl
  | lines indent =>
    change tokens (Code.scalar ',' :: (Layout.newline (.lines indent) depth ++ cs)) = _
    rw [tokens_mark (by decide), tokens_newline]
    rfl

/-! ## One step -/

theorem run_cons {s s' : State} {t : Token} {at_ : List Code} (h : step s t at_ = .ok s')
    (ts : List (Token × List Code)) : run s ((t, at_) :: ts) = run s' ts := by
  rw [run, h]

variable {layout : Layout} {n : Nat} {stack : List Frame} {demand : Demand}

/-- Where a value may start, a token that closes nothing starts one. -/
theorem step_value {t : Token} (hdemand : demand = .value ∨ demand = .valueOrClose)
    (ht : t ≠ .mark ']') (at_ : List Code) :
    step ⟨stack, demand⟩ t at_ = stepValue stack t at_ := by
  rcases hdemand with rfl | rfl
  · rfl
  · unfold step
    dsimp only
    split
    · exact absurd rfl ht
    · rfl

/-- A bracket opens a list while not too many lists and objects are open. -/
theorem step_openList (hdemand : demand = .value ∨ demand = .valueOrClose)
    (hdepth : stack.length < depthLimit) (at_ : List Code) :
    step ⟨stack, demand⟩ (.mark '[') at_ = .ok ⟨.items [] :: stack, .valueOrClose⟩ := by
  rw [step_value hdemand (by simp)]
  exact if_pos hdepth

/-- A brace opens an object while not too many lists and objects are open. -/
theorem step_openObject (hdemand : demand = .value ∨ demand = .valueOrClose)
    (hdepth : stack.length < depthLimit) (at_ : List Code) :
    step ⟨stack, demand⟩ (.mark '\x7b') at_ = .ok ⟨.members [] :: stack, .nameOrClose⟩ := by
  rw [step_value hdemand (by simp)]
  exact if_pos hdepth

/-! ## Values -/

mutual

/-- The value that the text of a value is read as: halves that stand side by side are joined, and
    of members whose names have become the same the last one counts. -/
def reread : Json → Json
  | null => null
  | bool b => bool b
  | int n => int n
  | float x => float x
  | text s => text s.joined
  | list vs => list (rereadItems vs)
  | object ms => object (rereadMembers [] ms)

def rereadItems : List Json → List Json
  | [] => []
  | v :: vs => reread v :: rereadItems vs

/-- The members behind those that are there already. -/
def rereadMembers (done : List (Text × Json)) : List (Text × Json) → List (Text × Json)
  | [] => done
  | (name, v) :: ms => rereadMembers (put name.joined (reread v) done) ms

end

theorem rereadItems_eq_map (vs : List Json) : rereadItems vs = vs.map reread := by
  induction vs with
  | nil => rfl
  | cons v vs ih => rw [rereadItems, ih, List.map_cons]

theorem reread_text (s : Text) : (text s).reread = text s.joined := by
  rw [reread]

theorem reread_list (vs : List Json) : (list vs).reread = list (vs.map reread) := by
  rw [reread, rereadItems_eq_map]

theorem put_of_not_mem {name : Text} {v : Json} {ms : List (Text × Json)}
    (h : name ∉ ms.map Prod.fst) : put name v ms = ms ++ [(name, v)] := by
  induction ms with
  | nil => rfl
  | cons m ms ih =>
    rw [List.map_cons, List.mem_cons, not_or] at h
    rw [put, if_neg (Ne.symm h.1), ih h.2, List.cons_append]

theorem rereadMembers_eq_map {done ms : List (Text × Json)} (hnames : ∀ m ∈ ms, m.1.Unpaired)
    (hdistinct : (ms.map Prod.fst).Nodup) (hdone : ∀ m ∈ ms, m.1 ∉ done.map Prod.fst) :
    rereadMembers done ms = done ++ ms.map fun m => (m.1, m.2.reread) := by
  induction ms generalizing done with
  | nil => simp [rereadMembers]
  | cons m ms ih =>
    obtain ⟨name, v⟩ := m
    obtain ⟨hname, hnames⟩ := List.forall_mem_cons.1 hnames
    obtain ⟨hnew, hdone⟩ := List.forall_mem_cons.1 hdone
    obtain ⟨hfresh, hdistinct⟩ := List.nodup_cons.1 hdistinct
    have hdone' : ∀ m ∈ ms, m.1 ∉ (done ++ [(name, v.reread)]).map Prod.fst := by
      intro m hm hmem
      rw [List.map_append, List.mem_append] at hmem
      rcases hmem with hmem | hmem
      · exact hdone m hm hmem
      · rw [List.map_singleton, List.mem_singleton] at hmem
        exact hfresh (hmem ▸ List.mem_map_of_mem hm)
    rw [rereadMembers, joined_eq_self hname, put_of_not_mem hnew, ih hnames hdistinct hdone',
      List.append_assoc]
    rfl

/-- An object keeps its members if their names differ and no halves stand side by side in them. -/
theorem reread_object {ms : List (Text × Json)} (hnames : ∀ m ∈ ms, m.1.Unpaired)
    (hdistinct : (ms.map Prod.fst).Nodup) :
    (object ms).reread = object (ms.map fun m => (m.1, m.2.reread)) := by
  rw [reread, rereadMembers_eq_map hnames hdistinct (by simp), List.nil_append]

theorem put_ne_nil (name : Text) (v : Json) (ms : List (Text × Json)) : put name v ms ≠ [] := by
  cases ms with
  | nil => exact List.cons_ne_nil _ _
  | cons m ms =>
    rw [put]
    split
    · exact List.cons_ne_nil _ _
    · exact List.cons_ne_nil _ _

theorem rereadMembers_eq_nil {done ms : List (Text × Json)} :
    rereadMembers done ms = [] ↔ done = [] ∧ ms = [] := by
  induction ms generalizing done with
  | nil => simp [rereadMembers]
  | cons m ms ih => simp [rereadMembers, ih, put_ne_nil]

/-- Reading goes on behind the written value as if what it is read as had been put in its place. -/
def ReadsBack (layout : Layout) (n : Nat) (v : Json) : Prop :=
  ∀ (depth : Nat) (stack : List Frame) (demand : Demand) (rest : List Code),
    demand = .value ∨ demand = .valueOrClose → stack.length + n ≤ depthLimit →
    run ⟨stack, demand⟩ (tokens (write layout depth v ++ rest)) =
      run (deliver v.reread stack) (tokens rest)

theorem readsBack_text (n : Nat) (s : Text) : ReadsBack layout n (.text s) := by
  intro depth stack demand rest hdemand _
  have hstep (at_ : List Code) :
      step ⟨stack, demand⟩ (.text s.joined) at_ = .ok (deliver (.text s.joined) stack) := by
    rw [step_value hdemand (fun h => by cases h)]
    rfl
  rw [write, tokens_writeText, run_cons (hstep _), reread]

theorem readsBack_bool (n : Nat) (b : Bool) : ReadsBack layout n (.bool b) := by
  intro depth stack demand rest hdemand _
  have hstep (at_ : List Code) :
      step ⟨stack, demand⟩ (.value (.bool b)) at_ = .ok (deliver (.bool b) stack) := by
    rw [step_value hdemand (fun h => by cases h)]
    rfl
  rw [write, reread]
  cases b with
  | true =>
    have htake : takeToken (skipSpace (Text.toList "true" ++ rest)) =
        some (.value (.bool true), rest) := rfl
    rw [if_pos rfl, tokens_of_takeToken htake, run_cons (hstep _)]
  | false =>
    have htake : takeToken (skipSpace (Text.toList "false" ++ rest)) =
        some (.value (.bool false), rest) := rfl
    rw [if_neg Bool.false_ne_true, tokens_of_takeToken htake, run_cons (hstep _)]

/-- The items behind the first join the open list, one after the other. -/
theorem run_writeItems {vs : List Json} (h : ∀ v ∈ vs, ReadsBack layout n v) (depth : Nat)
    (hstack : stack.length + 1 + n ≤ depthLimit) (done : List Json) (rest : List Code) :
    run ⟨.items done :: stack, .commaOrClose⟩ (tokens (writeItems layout depth vs ++ rest)) =
      run ⟨.items ((rereadItems vs).reverse ++ done) :: stack, .commaOrClose⟩ (tokens rest) := by
  induction vs generalizing done with
  | nil => rfl
  | cons v vs ih =>
    have hv := h v List.mem_cons_self depth (.items done :: stack) .value
      (writeItems layout depth vs ++ rest) (Or.inl rfl) hstack
    rw [writeItems, List.append_assoc, List.append_assoc, tokens_comma, run_cons rfl, hv, deliver,
      ih fun w hw => h w (List.mem_cons_of_mem v hw)]
    simp [rereadItems]

theorem readsBack_list {vs : List Json} (h : ∀ v ∈ vs, ReadsBack layout n v) :
    ReadsBack layout (n + 1) (.list vs) := by
  intro depth stack demand rest hdemand hstack
  have hopen := step_openList hdemand (by omega : stack.length < depthLimit)
  -- the first item stands right behind the bracket, any other one behind a comma
  cases vs with
  | nil =>
    rw [write, List.cons_append, tokens_mark (by decide), run_cons (hopen _), List.cons_append,
      tokens_mark (by decide), run_cons rfl]
    rfl
  | cons v vs =>
    have hv (rest : List Code) := h v List.mem_cons_self (depth + 1) (.items [] :: stack)
      .valueOrClose rest (Or.inr rfl) (by rw [List.length_cons]; omega)
    rw [write]
    simp only [List.append_assoc, List.cons_append, List.nil_append]
    rw [tokens_mark (by decide), run_cons (hopen _), tokens_newline, hv, deliver,
      run_writeItems (fun w hw => h w (List.mem_cons_of_mem v hw)) _ (by omega), tokens_newline,
      tokens_mark (by decide), run_cons rfl]
    simp [close, reread, rereadItems]

/-- A member joins the open object. -/
theorem run_member {name : Text} {v : Json} (hv : ReadsBack layout n v) (depth : Nat)
    (hstack : stack.length + 1 + n ≤ depthLimit) (done : List (Text × Json))
    (hdemand : demand = .name ∨ demand = .nameOrClose) (rest : List Code) :
    run ⟨.members done :: stack, demand⟩
        (tokens (writeText name ++ Code.scalar ':' :: ' ' :: (write layout depth v ++ rest))) =
      run ⟨.members (put name.joined v.reread done) :: stack, .commaOrClose⟩ (tokens rest) := by
  have hstep (at_ : List Code) : step ⟨.members done :: stack, demand⟩ (.text name.joined) at_ =
      .ok ⟨.field done name.joined :: stack, .colon⟩ := by
    rcases hdemand with rfl | rfl
    · rfl
    · rfl
  have hvalue := hv depth (.field done name.joined :: stack) .value rest (Or.inl rfl) hstack
  rw [tokens_writeText, run_cons (hstep _), tokens_mark (by decide), run_cons rfl, tokens_blank,
    hvalue, deliver]

/-- The members behind the first join the open object, one after the other. -/
theorem run_writeMembers {ms : List (Text × Json)} (h : ∀ m ∈ ms, ReadsBack layout n m.2)
    (depth : Nat) (hstack : stack.length + 1 + n ≤ depthLimit) (done : List (Text × Json))
    (rest : List Code) :
    run ⟨.members done :: stack, .commaOrClose⟩ (tokens (writeMembers layout depth ms ++ rest)) =
      run ⟨.members (rereadMembers done ms) :: stack, .commaOrClose⟩ (tokens rest) := by
  induction ms generalizing done with
  | nil => rfl
  | cons m ms ih =>
    obtain ⟨name, v⟩ := m
    have hv : ReadsBack layout n v := h (name, v) List.mem_cons_self
    rw [writeMembers]
    simp only [List.append_assoc, List.cons_append]
    rw [tokens_comma, run_cons rfl, run_member hv depth hstack done (Or.inl rfl),
      ih fun w hw => h w (List.mem_cons_of_mem _ hw), rereadMembers]

theorem readsBack_object {ms : List (Text × Json)} (h : ∀ m ∈ ms, ReadsBack layout n m.2) :
    ReadsBack layout (n + 1) (.object ms) := by
  intro depth stack demand rest hdemand hstack
  have hopen := step_openObject hdemand (by omega : stack.length < depthLimit)
  cases ms with
  | nil =>
    rw [write, List.cons_append, tokens_mark (by decide), run_cons (hopen _), List.cons_append,
      tokens_mark (by decide), run_cons rfl]
    rfl
  | cons m ms =>
    obtain ⟨name, v⟩ := m
    have hv : ReadsBack layout n v := h (name, v) List.mem_cons_self
    rw [write]
    simp only [List.append_assoc, List.cons_append, List.nil_append]
    rw [tokens_mark (by decide), run_cons (hopen _), tokens_newline,
      run_member hv (depth + 1) (by omega) [] (Or.inr rfl),
      run_writeMembers (fun w hw => h w (List.mem_cons_of_mem _ hw)) _ (by omega),
      tokens_newline, tokens_mark (by decide), run_cons rfl, reread, rereadMembers]
    rfl

/-! ## Documents -/

/-- A value that is built from texts and truth values by lists and objects, with at most so many of
    these open at once. -/
inductive Document : Nat → Json → Prop
  | text (n : Nat) (s : Text) : Document n (.text s)
  | bool (n : Nat) (b : Bool) : Document n (.bool b)
  | list {n : Nat} {vs : List Json} (h : ∀ v ∈ vs, Document n v) : Document (n + 1) (.list vs)
  | object {n : Nat} {ms : List (Text × Json)} (h : ∀ m ∈ ms, Document n m.2) :
      Document (n + 1) (.object ms)

theorem Document.readsBack {v : Json} (hv : Document n v) : ReadsBack layout n v := by
  induction hv with
  | text n s => exact readsBack_text n s
  | bool n b => exact readsBack_bool n b
  | list _ ih => exact readsBack_list ih
  | object _ ih => exact readsBack_object ih

/-- The text of a document starts with none of the marks that are no JSON. -/
theorem Document.head_write {v : Json} (hv : Document n v) (layout : Layout) (depth : Nat) :
    ∃ c cs, write layout depth v = c :: cs ∧ c ≠ '\ufeff' := by
  cases hv with
  | text n s => exact ⟨'"', _, by rw [write]; rfl, by decide⟩
  | bool n b =>
    cases b with
    | true => exact ⟨'t', _, by rw [write]; rfl, by decide⟩
    | false => exact ⟨'f', _, by rw [write]; rfl, by decide⟩
  | @list n vs _ =>
    cases vs with
    | nil => exact ⟨'[', _, by rw [write], by decide⟩
    | cons v vs => exact ⟨'[', _, by rw [write]; rfl, by decide⟩
  | @object n ms _ =>
    cases ms with
    | nil => exact ⟨'\x7b', _, by rw [write], by decide⟩
    | cons m ms => exact ⟨'\x7b', _, by rw [write]; rfl, by decide⟩

theorem readChars_of_ne {c : Code} {cs : List Code} (h : c ≠ '\ufeff') :
    readChars (c :: cs) = run State.start (tokens (c :: cs)) >>= finish := by
  unfold readChars
  split
  · rename_i heq
    exact absurd (List.cons.inj heq).1 h
  · rfl

theorem tokens_of_space {space : List Code} (h : ∀ c ∈ space, isSpace c = true) :
    tokens space = [] := by
  have hskip := tokens_append_space h []
  rw [List.append_nil] at hskip
  rw [hskip, tokens]
  rfl

/-- **What is written is read back**, in every layout and with space behind it, with halves joined
    that stand side by side. -/
theorem Document.read_print_append {v : Json} (hv : Document n v) (hn : n ≤ depthLimit)
    (layout : Layout) {space : Text} (hspace : ∀ c ∈ space.toList, isSpace c = true) :
    read (print layout v ++ space) = .ok v.reread := by
  obtain ⟨c, cs, hhead, hmark⟩ := hv.head_write layout 0
  have hrun := (hv.readsBack : ReadsBack layout n v) 0 [] .value space.toList (Or.inl rfl)
    (by simpa using hn)
  rw [tokens_of_space hspace] at hrun
  rw [read, Text.toList_append, print, Text.toList_ofList, hhead, List.cons_append,
    readChars_of_ne hmark, ← List.cons_append, ← hhead, State.start, hrun]
  rfl

theorem Document.read_print {v : Json} (hv : Document n v) (hn : n ≤ depthLimit)
    (layout : Layout) : read (print layout v) = .ok v.reread := by
  have hspace : ∀ c ∈ ("" : Text).toList, isSpace c = true := by simp
  have hread := hv.read_print_append hn layout hspace
  rwa [Text.append_empty] at hread

/-- Documents that are written alike are read alike. -/
theorem Document.reread_eq_of_print_eq {v w : Json} (hv : Document n v) (hw : Document n w)
    (hn : n ≤ depthLimit) {layout : Layout} (h : print layout v = print layout w) :
    v.reread = w.reread := by
  have hread : read (print layout v) = read (print layout w) := congrArg read h
  rw [hv.read_print hn, hw.read_print hn] at hread
  exact Except.ok.inj hread

end LockFit.Json
