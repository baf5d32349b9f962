import LockFit.Loading
import LockFit.Proofs.Json.Limits

/-
  How loading a lock or a package tree can end.
  What is wrong with a document, with the form of its text or with the bytes of its file is told
  by a failure of the lock's or the tree's own kind. The limits of the reader of JSON are not: a
  text that goes beyond one is neither loaded nor rejected in this way, and there is no other such
  text (`loading_answers`). A text without a long run of digits and with few brackets goes beyond
  none (`Json.Overruns.bound`).
-/

namespace LockFit

/-- The text is JSON up to a value that is nested too deep or a whole number with too many
    digits. -/
def Json.Exceeds (text : Text) : Prop :=
  read text = .error .tooDeep ∨ ∃ cause, read text = .error (.numeral cause)

theorem Json.exceeds_iff (text : Text) : Exceeds text ↔ Overruns text.toList := by
  rw [← read_failsWith_limit, Exceeds]
  constructor
  · rintro (h | ⟨cause, h⟩)
    · exact ⟨.tooDeep, h, trivial⟩
    · exact ⟨.numeral cause, h, trivial⟩
  · rintro ⟨e, h, hlimit⟩
    cases e with
    | malformed => exact hlimit.elim
    | numeral cause => exact Or.inr ⟨cause, h⟩
    | tooDeep => exact Or.inl h

variable {bad : Failure → Prop} {complain : Json.Misplaced → Failure} {wrap : ε → Failure}

/-! ## Texts -/

/-- Of the failures to load a document, where `complain` tells what is wrong with the form of the
    text and `wrap` what is wrong with the document, the bad ones are the limits of the reader. -/
structure AreLimits (bad : Failure → Prop) (complain : Json.Misplaced → Failure)
    (wrap : ε → Failure) : Prop where
  text : ∀ c, ¬ bad (complain c)
  document : ∀ e, ¬ bad (wrap e)
  numeral : ∀ cause, bad (.numeral cause)
  tooDeep : bad .tooDeep

theorem AreLimits.readJson_failsWith (h : AreLimits bad complain wrap) (text : Text) :
    FailsWith bad (readJson complain text).outcome ↔ Json.Exceeds text := by
  unfold readJson Json.Exceeds
  cases Json.read text with
  | ok v => simp
  | error e =>
    cases e with
    | malformed complaint => simp [h.text]
    | numeral cause => simp [h.numeral]
    | tooDeep => simp [h.tooDeep]

/-- What is wrong with the document that a text writes is no bad failure, so only reading it can
    end in one. -/
theorem AreLimits.build_failsWith (h : AreLimits bad complain wrap) {build : Json → Noted ε α}
    (text : Text) :
    FailsWith bad (readJson complain text >>= fun v => (build v).mapError wrap).outcome ↔
      Json.Exceeds text := by
  rw [Noted.outcome_bind, failsWith_bind, h.readJson_failsWith, or_iff_left]
  rintro ⟨v, -, hv⟩
  obtain ⟨e, -, he⟩ := failsWith_mapError.1 hv
  exact h.document e he

/-! ## Files -/

theorem readFile_failsWith {undecodable : Text.EncodingError → Failure}
    {load : Text → Noted Failure α} (hundecodable : ∀ e, ¬ bad (undecodable e)) (path : Text)
    (bytes : List UInt8) :
    FailsWith bad (readFile undecodable path (.file bytes) >>= load).outcome ↔
      ∃ text, Text.ofStored bytes = .ok text ∧ FailsWith bad (load text).outcome := by
  rw [Noted.outcome_bind, failsWith_bind, readFile]
  cases Text.ofStored bytes with
  | ok text => simp
  | error e => simp [hundecodable]

/-! ## Locks and trees -/

namespace Failure

/-- The lock's own kind of failure. -/
def isOfLock : Failure → Bool
  | lock _ | lockText _ | lockBytes .. => true
  | _ => false

/-- The tree's own kind of failure. -/
def isOfTree : Failure → Bool
  | tree _ | treeText .. | treeBytes .. => true
  | _ => false

end Failure

/-- There is a result, or a failure of the kind. -/
def Answers (kind : Failure → Bool) (x : Except Failure α) : Prop :=
  (∃ a, x = .ok a) ∨ ∃ f, x = .error f ∧ kind f = true

theorem not_failsWith_iff_answers {kind : Failure → Bool} {x : Except Failure α} :
    ¬ FailsWith (fun f => kind f = false) x ↔ Answers kind x := by
  simp only [not_failsWith_iff, Bool.not_eq_false, Answers]

theorem Lock.ofText_failsWith (text : Text) :
    FailsWith (fun f => f.isOfLock = false) (ofText text).outcome ↔ Json.Overruns text.toList := by
  have hlimits : AreLimits (fun f => f.isOfLock = false) .lockText .lock :=
    ⟨fun _ => by simp [Failure.isOfLock], fun _ => by simp [Failure.isOfLock], fun _ => rfl, rfl⟩
  rw [← Json.exceeds_iff]
  exact hlimits.build_failsWith text

theorem PackageTree.ofFile_failsWith (path : Text) (bytes : List UInt8) :
    FailsWith (fun f => f.isOfTree = false) (ofFile path (.file bytes)).outcome ↔
      ∃ text, Text.ofStored bytes = .ok text ∧ Json.Overruns text.toList := by
  have hlimits : AreLimits (fun f => f.isOfTree = false) (.treeText path) .tree :=
    ⟨fun _ => by simp [Failure.isOfTree], fun _ => by simp [Failure.isOfTree], fun _ => rfl, rfl⟩
  rw [ofFile, readFile_failsWith fun _ => by simp [Failure.isOfTree]]
  simp only [← Json.exceeds_iff]
  exact exists_congr fun text => and_congr_right fun _ => hlimits.build_failsWith text

/-- **How loading a lock or a tree ends.** A text makes a lock or fails in the lock's own way, and
    a file makes a tree or fails in the tree's own way, unless the text goes beyond a limit of the
    reader of JSON. Such a text has a run of more digits than a numeral may have or more brackets
    that open a list or an object than may be open at once. -/
theorem loading_answers (text path : Text) (bytes : List UInt8) :
    (Answers Failure.isOfLock (Lock.ofText text).outcome ↔ ¬ Json.Overruns text.toList) ∧
    (Answers Failure.isOfTree (PackageTree.ofFile path (.file bytes)).outcome ↔
      ∀ stored, Text.ofStored bytes = .ok stored → ¬ Json.Overruns stored.toList) ∧
    (Json.Overruns text.toList → Json.HasOverlong text.toList ∨
      Json.depthLimit < text.toList.countP Json.isOpening) := by
  refine ⟨?_, ?_, Json.Overruns.bound⟩
  · rw [← not_failsWith_iff_answers, Lock.ofText_failsWith]
  · rw [← not_failsWith_iff_answers, PackageTree.ofFile_failsWith]
    simp only [not_exists, not_and]

/-! ## Digits alone -/

/-- A text whose only token is a number with one digit more than are read. -/
def onesText : Text := Text.ofList (List.replicate (Text.digitLimit + 1) '1')

theorem ofStored_onesText :
    Text.ofStored (List.replicate (Text.digitLimit + 1) 0x31) = .ok onesText := by
  have hdecode (n : Nat) : Text.decode (List.replicate n 0x31) = .ok (List.replicate n '1') := by
    induction n with
    | zero => rfl
    | succ n ih =>
      have hone (bs : List UInt8) : Text.decode (0x31 :: bs) =
          (Text.decode bs).map fun cs => Code.scalar '1' :: cs := by
        rw [Text.decode.eq_def]
        exact if_pos (by decide)
      rw [List.replicate_succ, hone, ih]
      rfl
  have hlines (n : Nat) :
      Text.unifyLines (List.replicate n '1') = List.replicate n (Code.scalar '1') := by
    induction n with
    | zero => rfl
    | succ n ih =>
      rw [List.replicate_succ, Text.unifyLines, ih]
      · rfl
      · simp
  rw [Text.ofStored, hdecode, onesText]
  dsimp only
  rw [hlines]

/-- A number with too many digits is no lock and no tree, and is not rejected as none. -/
theorem loading_escapes :
    ¬ Answers Failure.isOfLock (Lock.ofText onesText).outcome ∧
    ¬ Answers Failure.isOfTree (PackageTree.ofFile "t.json"
      (.file (List.replicate (Text.digitLimit + 1) 0x31))).outcome := by
  have hoverruns : Json.Overruns onesText.toList := by
    rw [onesText, Text.toList_ofList]
    exact Json.overruns_ones (Nat.lt_succ_self _)
  rw [← not_failsWith_iff_answers, not_not, Lock.ofText_failsWith, ← not_failsWith_iff_answers,
    not_not, PackageTree.ofFile_failsWith]
  exact ⟨hoverruns, onesText, ofStored_onesText, hoverruns⟩

end LockFit
