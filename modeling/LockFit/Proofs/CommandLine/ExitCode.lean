import LockFit.Proofs.CommandLine.Printing
import LockFit.Proofs.Loading
import LockFit.Proofs.Manifest.Answers

/-
  What the exit code of a check says.
  A run loads the lock, the manifest and the tree in this order and stops at the first file that
  cannot be loaded. The exit code depends on how that failure is handled: one that is reported, and
  can be printed, ends the run with 2, any other one with 1, which is also the code of a lock that
  does not fit (`exitCode_check`). Not every failure is reported: the readers of the texts have
  failures of their own, for values nested too deep, for numbers with too many digits and for
  scalars that spell no value (`Request.stumbles_iff`). And not every one that is reported can be
  printed, since a message may hold a half of a pair. So a file that cannot be loaded shows in the
  code only if no such failure comes first (`exitCode_badDate`).
-/

namespace LockFit

/-! ## Failures that are not reported -/

def FailsUnreported (x : Except Failure α) : Prop :=
  ∃ f, x = .error f ∧ f.isReported = false

theorem failsUnreported_bind {x : Except Failure α} {f : α → Except Failure β} :
    FailsUnreported (x >>= f) ↔ FailsUnreported x ∨ ∃ a, x = .ok a ∧ FailsUnreported (f a) :=
  failsWith_bind

theorem failsUnreported_mapError {x : Except ε α} {wrap : ε → Failure} :
    FailsUnreported (x.mapError wrap) ↔ ∃ e, x = .error e ∧ (wrap e).isReported = false :=
  failsWith_mapError

/-- The reader of YAML fails on the text, or it reads a value that is confounding: a rule or a root
    in it has too many digits, or the keys without a meaning have no order. -/
def Manifest.Confounds (readYaml : Text → Except Yaml.Refusal Yaml) (text : Text) : Prop :=
  (∃ cause, readYaml text = .error (.failed cause)) ∨ ∃ v, readYaml text = .ok v ∧ Confounding v

/-- What is wrong with a JSON document is reported, and so is what is wrong with the form of its
    text; left are the limits of the reader. -/
theorem build_failsUnreported {complain : Json.Misplaced → Failure} {build : Json → Noted ε α}
    {wrap : ε → Failure} (hcomplain : ∀ c, (complain c).isReported = true)
    (hwrap : ∀ e, (wrap e).isReported = true) (text : Text) :
    FailsUnreported (readJson complain text >>= fun v => (build v).mapError wrap).outcome ↔
      Json.Exceeds text := by
  have hlimits : AreLimits (fun f => f.isReported = false) complain wrap :=
    ⟨fun c => by simp [hcomplain], fun e => by simp [hwrap], fun _ => rfl, rfl⟩
  exact hlimits.build_failsWith text

theorem ManifestFailure.isReported_failure (cause : ManifestFailure) :
    cause.failure.isReported = false ↔ cause.Escapes := by
  cases cause with
  | rejected e => simp [failure, Failure.isReported, Escapes]
  | numeral | unordered | unshown => simp [failure, Failure.isReported, Escapes]

theorem Manifest.load_failsUnreported (v : Yaml) :
    FailsUnreported (load v).outcome ↔ Confounding v := by
  rw [← ofYaml_failsWith_escapes, load, Noted.mapError, failsUnreported_mapError]
  simp only [ManifestFailure.isReported_failure]
  rfl

theorem Manifest.ofText_failsUnreported (readYaml : Text → Except Yaml.Refusal Yaml)
    (text : Text) : FailsUnreported (ofText readYaml text).outcome ↔ Confounds readYaml text := by
  unfold ofText Confounds
  cases readYaml text with
  | ok v => simp [load_failsUnreported]
  | error e =>
    cases e with
    | malformed | failed => simp [FailsUnreported, Failure.isReported]

/-! ## Files -/

/-- The file has a text with the property, or the path is none. -/
def FileState.Stumbles (bad : Text → Prop) (state : FileState) : Prop :=
  state = .unnameable ∨
  ∃ bytes text, state = .file bytes ∧ Text.ofStored bytes = .ok text ∧ bad text

/-- An unreported failure to load a file comes from the text in the file. -/
theorem readFile_failsUnreported {undecodable : Text.EncodingError → Failure}
    {load : Text → Noted Failure α} {bad : Text → Prop}
    (hundecodable : ∀ e, (undecodable e).isReported = true)
    (hload : ∀ text, FailsUnreported (load text).outcome ↔ bad text) (path : Text)
    (state : FileState) :
    FailsUnreported (readFile undecodable path state >>= load).outcome ↔ state.Stumbles bad := by
  rw [Noted.outcome_bind, failsUnreported_bind, FileState.Stumbles]
  simp only [hload]
  cases state with
  | unnameable => simp [readFile, FailsUnreported, Failure.isReported]
  | file bytes =>
    cases htext : Text.ofStored bytes with
    | ok text => simp [readFile, FailsUnreported, htext]
    | error e => simp [readFile, FailsUnreported, htext, hundecodable]
  | absent | notDirectory | directory | nameTooLong =>
    simp [readFile, FailsUnreported, Failure.isReported]

theorem Lock.ofFile_failsUnreported (path : Text) (state : FileState) :
    FailsUnreported (ofFile path state).outcome ↔ state.Stumbles Json.Exceeds :=
  readFile_failsUnreported (fun _ => rfl) (build_failsUnreported (fun _ => rfl) fun _ => rfl) ..

theorem PackageTree.ofFile_failsUnreported (path : Text) (state : FileState) :
    FailsUnreported (ofFile path state).outcome ↔ state.Stumbles Json.Exceeds :=
  readFile_failsUnreported (fun _ => rfl) (build_failsUnreported (fun _ => rfl) fun _ => rfl) ..

theorem Manifest.ofFile_failsUnreported (readYaml : Text → Except Yaml.Refusal Yaml) (path : Text)
    (state : FileState) : FailsUnreported (ofFile readYaml path state).outcome ↔
      state.Stumbles (Confounds readYaml) :=
  readFile_failsUnreported (fun _ => rfl) (ofText_failsUnreported readYaml) ..

namespace CommandLine

/-- An absent file is no failure, and no path where an unreported one could arise. -/
theorem loadIfPresent_failsUnreported {load : Text → FileState → Noted Failure α}
    {bad : Text → Prop}
    (hload : ∀ path state, FailsUnreported (load path state).outcome ↔ state.Stumbles bad)
    (look : Text → FileState) (path : Text) :
    FailsUnreported (loadIfPresent load look path).outcome ↔
      (look (cleanPath path)).Stumbles bad := by
  -- a file that is there is loaded, and what is made of its value cannot fail
  have hpresent (state : FileState) : FailsUnreported
      (load (cleanPath path) state >>= fun a => (pure (some a) : Noted Failure _)).outcome ↔
        state.Stumbles bad := by
    rw [Noted.outcome_bind, failsUnreported_bind, hload]
    exact or_iff_left fun ⟨a, _, f, hf, _⟩ => by cases hf
  unfold loadIfPresent
  dsimp only
  cases look (cleanPath path) with
  | absent | notDirectory => simp [FailsUnreported, FileState.Stumbles]
  | directory | nameTooLong | unnameable | file => exact hpresent _

/-! ## Loading the three files -/

namespace Request

variable {lib : Libraries} {look : Text → FileState} {r : Request} {f : Failure}
  {lock : Option Lock} {manifest : Option Manifest} {tree : PackageTree}

def loadLock (look : Text → FileState) (r : Request) : Except Failure (Option Lock) :=
  (loadIfPresent Lock.ofFile look r.lock).outcome

def loadManifest (lib : Libraries) (look : Text → FileState) (r : Request) :
    Except Failure (Option Manifest) :=
  (loadIfPresent (Manifest.ofFile lib.readYaml) look r.manifest).outcome

def loadTree (look : Text → FileState) (r : Request) : Except Failure PackageTree :=
  (PackageTree.ofFile (cleanPath r.tree) (look (cleanPath r.tree))).outcome

/-- All files load, with these values. -/
structure Loads (lib : Libraries) (look : Text → FileState) (r : Request) (lock : Option Lock)
    (manifest : Option Manifest) (tree : PackageTree) : Prop where
  lock : r.loadLock look = .ok lock
  manifest : r.loadManifest lib look = .ok manifest
  tree : r.loadTree look = .ok tree

/-- One of the files cannot be loaded, with the failure. -/
inductive CannotLoad (lib : Libraries) (look : Text → FileState) (r : Request) (f : Failure) : Prop
  | lock (h : r.loadLock look = .error f)
  | manifest (h : r.loadManifest lib look = .error f)
  | tree (h : r.loadTree look = .error f)

/-- A file cannot be loaded, with the failure, and the files that are loaded before it can. -/
inductive FirstFailure (lib : Libraries) (look : Text → FileState) (r : Request) (f : Failure) :
    Prop
  | lock (h : r.loadLock look = .error f)
  | manifest (lock : Option Lock) (hlock : r.loadLock look = .ok lock)
      (h : r.loadManifest lib look = .error f)
  | tree (lock : Option Lock) (manifest : Option Manifest) (hlock : r.loadLock look = .ok lock)
      (hmanifest : r.loadManifest lib look = .ok manifest) (h : r.loadTree look = .error f)

theorem FirstFailure.cannotLoad (h : r.FirstFailure lib look f) : r.CannotLoad lib look f := by
  cases h with
  | lock h => exact .lock h
  | manifest _ _ h => exact .manifest h
  | tree _ _ _ _ h => exact .tree h

theorem loads_or_fails (lib : Libraries) (look : Text → FileState) (r : Request) :
    (∃ lock manifest tree, r.Loads lib look lock manifest tree) ∨
      ∃ f, r.FirstFailure lib look f := by
  cases hlock : r.loadLock look with
  | error f => exact .inr ⟨f, .lock hlock⟩
  | ok lock =>
    cases hmanifest : r.loadManifest lib look with
    | error f => exact .inr ⟨f, .manifest lock hlock hmanifest⟩
    | ok manifest =>
      cases htree : r.loadTree look with
      | error f => exact .inr ⟨f, .tree lock manifest hlock hmanifest htree⟩
      | ok tree => exact .inl ⟨lock, manifest, tree, hlock, hmanifest, htree⟩

theorem Loads.not_cannotLoad (h : r.Loads lib look lock manifest tree) :
    ¬ r.CannotLoad lib look f := by
  rintro (hf | hf | hf)
  · exact absurd (h.lock.symm.trans hf) nofun
  · exact absurd (h.manifest.symm.trans hf) nofun
  · exact absurd (h.tree.symm.trans hf) nofun

/-- Some file cannot be loaded exactly if there is a first one. -/
theorem exists_cannotLoad_iff :
    (∃ f, r.CannotLoad lib look f) ↔ ∃ f, r.FirstFailure lib look f := by
  constructor
  · rintro ⟨f, hf⟩
    rcases loads_or_fails lib look r with ⟨lock, manifest, tree, h⟩ | h
    · exact absurd hf h.not_cannotLoad
    · exact h
  · rintro ⟨f, hf⟩
    exact ⟨f, hf.cannotLoad⟩

/-- One of the files is such that a failure to load it is not reported. -/
def Stumbles (lib : Libraries) (look : Text → FileState) (r : Request) : Prop :=
  (look (cleanPath r.lock)).Stumbles Json.Exceeds ∨
  (look (cleanPath r.manifest)).Stumbles (Manifest.Confounds lib.readYaml) ∨
  (look (cleanPath r.tree)).Stumbles Json.Exceeds

theorem stumbles_iff :
    r.Stumbles lib look ↔ ∃ f, r.CannotLoad lib look f ∧ f.isReported = false := by
  rw [Stumbles, ← loadIfPresent_failsUnreported Lock.ofFile_failsUnreported,
    ← loadIfPresent_failsUnreported (Manifest.ofFile_failsUnreported lib.readYaml),
    ← PackageTree.ofFile_failsUnreported (cleanPath r.tree)]
  constructor
  · rintro (⟨f, h, hf⟩ | ⟨f, h, hf⟩ | ⟨f, h, hf⟩)
    · exact ⟨f, .lock h, hf⟩
    · exact ⟨f, .manifest h, hf⟩
    · exact ⟨f, .tree h, hf⟩
  · rintro ⟨f, h | h | h, hf⟩
    · exact .inl ⟨f, h, hf⟩
    · exact .inr (.inl ⟨f, h, hf⟩)
    · exact .inr (.inr ⟨f, h, hf⟩)

/-! ## The check of the values -/

theorem outcome_checkFiles (lib : Libraries) (look : Text → FileState) (r : Request) :
    (lib.checkFiles look r.lock r.manifest r.tree).outcome =
      r.loadLock look >>= fun lock => r.loadManifest lib look >>= fun manifest =>
        r.loadTree look >>= fun tree =>
          (Lock.satisfiesTree lock manifest tree).outcome.mapError .numeral := by
  simp only [Libraries.checkFiles, Noted.outcome_bind]
  rfl

theorem Loads.outcome_checkFiles (h : r.Loads lib look lock manifest tree) :
    (lib.checkFiles look r.lock r.manifest r.tree).outcome =
      (Lock.satisfiesTree lock manifest tree).outcome.mapError .numeral := by
  rw [Request.outcome_checkFiles, h.lock, h.manifest, h.tree]
  rfl

theorem FirstFailure.outcome_checkFiles (h : r.FirstFailure lib look f) :
    (lib.checkFiles look r.lock r.manifest r.tree).outcome = .error f := by
  rw [Request.outcome_checkFiles]
  cases h with
  | lock h =>
    rw [h]
    rfl
  | manifest lock hlock h =>
    rw [hlock, h]
    rfl
  | tree lock manifest hlock hmanifest h =>
    rw [hlock, hmanifest, h]
    rfl

/-! ## The exit code -/

theorem FirstFailure.exitCode (h : r.FirstFailure lib look f) (hlib : lib.Prints)
    (verbose : Bool) :
    (lib.runRequest look verbose r).exitCode = if f.IsTold r.format then 2 else 1 := by
  rw [Libraries.runRequest, h.outcome_checkFiles]
  dsimp only
  have hprinted : (∃ output, lib.showFailure r.format f = .ok output) ↔
      r.format = .json ∨ f.message.IsScalar := hlib.showFailure_isOk f
  cases hreported : f.isReported with
  | false => simp [Failure.IsTold, hreported, Outcome.exitCode]
  | true =>
    cases hshown : lib.showFailure r.format f with
    | ok output =>
      have htold : f.IsTold r.format := ⟨hreported, hprinted.1 ⟨output, hshown⟩⟩
      rw [if_pos rfl, if_pos htold]
      rfl
    | error cause =>
      have htold : ¬ f.IsTold r.format := by
        rintro ⟨-, htold⟩
        obtain ⟨output, houtput⟩ := hprinted.2 htold
        cases hshown.symm.trans houtput
      rw [if_pos rfl, if_neg htold]
      rfl

theorem Loads.exitCode_ok (h : r.Loads lib look lock manifest tree) (hlib : lib.Prints)
    {s : Satisfaction} (hs : (Lock.satisfiesTree lock manifest tree).outcome = .ok s)
    (verbose : Bool) :
    (lib.runRequest look verbose r).exitCode = if s.passed then 0 else 1 := by
  rw [Libraries.runRequest, h.outcome_checkFiles, hs]
  change (conclude _ _ (lib.showResult r.format s)).exitCode = _
  cases hpassed : s.passed with
  | true =>
    obtain ⟨output, houtput⟩ := hlib.showResult_isOk r.format hpassed
    rw [houtput]
    rfl
  | false =>
    -- the code is the same whether the result can be printed or not
    cases lib.showResult r.format s with
    | ok output => rfl
    | error cause => rfl

theorem Loads.exitCode_error (h : r.Loads lib look lock manifest tree) {e : Text.NumeralTooLong}
    (he : (Lock.satisfiesTree lock manifest tree).outcome = .error e) (verbose : Bool) :
    (lib.runRequest look verbose r).exitCode = 1 := by
  rw [Libraries.runRequest, h.outcome_checkFiles, he]
  rfl

/-- Every run ends in one of three ways. -/
theorem exitCode_cases (hlib : lib.Prints) (look : Text → FileState) (verbose : Bool)
    (r : Request) :
    (∃ f, r.FirstFailure lib look f ∧
      (lib.runRequest look verbose r).exitCode = if f.IsTold r.format then 2 else 1) ∨
    (∃ lock manifest tree s, r.Loads lib look lock manifest tree ∧
      (Lock.satisfiesTree lock manifest tree).outcome = .ok s ∧
      (lib.runRequest look verbose r).exitCode = if s.passed then 0 else 1) ∨
    ∃ lock manifest tree e, r.Loads lib look lock manifest tree ∧
      (Lock.satisfiesTree lock manifest tree).outcome = .error e ∧
      (lib.runRequest look verbose r).exitCode = 1 := by
  rcases loads_or_fails lib look r with ⟨lock, manifest, tree, h⟩ | ⟨f, h⟩
  · cases hs : (Lock.satisfiesTree lock manifest tree).outcome with
    | ok s => exact .inr (.inl ⟨lock, manifest, tree, s, h, hs, h.exitCode_ok hlib hs verbose⟩)
    | error e => exact .inr (.inr ⟨lock, manifest, tree, e, h, hs, h.exitCode_error hs verbose⟩)
  · exact .inl ⟨f, h, h.exitCode hlib verbose⟩

theorem exitCode_eq_two_iff (hlib : lib.Prints) {verbose : Bool} :
    (lib.runRequest look verbose r).exitCode = 2 ↔
      ∃ f, r.FirstFailure lib look f ∧ f.IsTold r.format := by
  constructor
  · intro hcode
    rcases exitCode_cases hlib look verbose r with ⟨f, h, hexit⟩ | ⟨_, _, _, s, _, _, hexit⟩ |
      ⟨_, _, _, _, _, _, hexit⟩
    · exact ⟨f, h, by simpa [hexit] using hcode⟩
    · cases hs : s.passed <;> simp [hexit, hs] at hcode
    · simp [hexit] at hcode
  · rintro ⟨f, h, hf⟩
    rw [h.exitCode hlib, if_pos hf]

/-- Without a lock there is a result, which does not pass. -/
theorem outcome_satisfiesTree_none (manifest : Option Manifest) (tree : PackageTree) :
    (Lock.satisfiesTree none manifest tree).outcome = .ok .withoutLock := rfl

theorem exitCode_eq_zero_iff (hlib : lib.Prints) {verbose : Bool} :
    (lib.runRequest look verbose r).exitCode = 0 ↔
      ∃ lock manifest tree s, r.Loads lib look (some lock) manifest tree ∧
        (Lock.satisfiesTree (some lock) manifest tree).outcome = .ok s ∧ s.passed = true := by
  constructor
  · intro hcode
    rcases exitCode_cases hlib look verbose r with ⟨f, _, hexit⟩ |
      ⟨lock, manifest, tree, s, h, hs, hexit⟩ | ⟨_, _, _, _, _, _, hexit⟩
    · by_cases hf : f.IsTold r.format <;> simp [hexit, hf] at hcode
    · have hpassed : s.passed = true := by simpa [hexit] using hcode
      cases lock with
      | none =>
        rw [outcome_satisfiesTree_none] at hs
        cases hs
        cases hpassed
      | some lock => exact ⟨lock, manifest, tree, s, h, hs, hpassed⟩
    · simp [hexit] at hcode
  · rintro ⟨lock, manifest, tree, s, h, hs, hpassed⟩
    rw [h.exitCode_ok hlib hs, if_pos hpassed]

theorem exitCode_eq_one_iff (hlib : lib.Prints) {verbose : Bool} :
    (lib.runRequest look verbose r).exitCode = 1 ↔
      (∃ f, r.FirstFailure lib look f ∧ ¬ f.IsTold r.format) ∨
      ∃ lock manifest tree, r.Loads lib look lock manifest tree ∧ (lock = none ∨
        ∀ s, (Lock.satisfiesTree lock manifest tree).outcome = .ok s → s.passed = false) := by
  constructor
  · intro hcode
    rcases exitCode_cases hlib look verbose r with ⟨f, h, hexit⟩ |
      ⟨lock, manifest, tree, s, h, hs, hexit⟩ | ⟨lock, manifest, tree, e, h, he, _⟩
    · exact .inl ⟨f, h, by simpa [hexit] using hcode⟩
    · have hpassed : s.passed = false := by simpa [hexit] using hcode
      refine .inr ⟨lock, manifest, tree, h, .inr ?_⟩
      rintro t ht
      obtain rfl : s = t := Except.ok.inj (hs.symm.trans ht)
      exact hpassed
    · refine .inr ⟨lock, manifest, tree, h, .inr ?_⟩
      rintro t ht
      exact absurd (he.symm.trans ht) nofun
  · rintro (⟨f, h, hf⟩ | ⟨lock, manifest, tree, h, hlock⟩)
    · rw [h.exitCode hlib, if_neg hf]
    · cases hs : (Lock.satisfiesTree lock manifest tree).outcome with
      | error e => exact h.exitCode_error hs verbose
      | ok s =>
        have hpassed : s.passed = false := by
          rcases hlock with rfl | hlock
          · rw [outcome_satisfiesTree_none] at hs
            cases hs
            rfl
          · exact hlock s hs
        rw [h.exitCode_ok hlib hs, hpassed]
        rfl

/-- What is said of the first failure can be printed in the format that is asked for. -/
def Speakable (lib : Libraries) (look : Text → FileState) (r : Request) : Prop :=
  ∀ f, r.FirstFailure lib look f → r.format = .json ∨ f.message.IsScalar

/-- Where all failures are reported and printed, the code 2 tells that a file cannot be loaded. -/
theorem exitCode_eq_two_of_not_stumbles (hlib : lib.Prints) {verbose : Bool}
    (h : ¬ r.Stumbles lib look) (hspeakable : r.Speakable lib look) :
    (lib.runRequest look verbose r).exitCode = 2 ↔ ∃ f, r.CannotLoad lib look f := by
  have hreported : ∀ f, r.CannotLoad lib look f → f.isReported = true := by
    intro f hf
    by_contra hreported
    exact h (stumbles_iff.2 ⟨f, hf, Bool.eq_false_iff.2 hreported⟩)
  rw [exitCode_eq_two_iff hlib, exists_cannotLoad_iff]
  exact exists_congr fun f => and_iff_left_of_imp fun hf =>
    ⟨hreported f hf.cannotLoad, hspeakable f hf⟩

end Request

/-! ## From the arguments on -/

theorem run_check {lib : Libraries} {look : Text → FileState} {args : List Text} {verbose : Bool}
    {r : Request} (hargs : lib.demand look args = .check verbose r) :
    lib.run look args = lib.runRequest look verbose r := by
  rw [Libraries.run, hargs]

/-- **What the exit code of a check says.** It is 2 exactly if the first failure to load a file is
    one that is reported and can be printed, 0 exactly if all files load, the lock is there and it
    fits, and 1 where there is no lock, the lock does not fit, a rule has no answer or the first
    failure is not told of. So 2 says that a file cannot be loaded unless one of the files stumbles
    or the message of the first failure has a half that is to be printed in words; and a file that
    stumbles cannot be loaded either. -/
theorem exitCode_check {lib : Libraries} (hlib : lib.Prints) {look : Text → FileState}
    {args : List Text} {verbose : Bool} {r : Request}
    (hargs : lib.demand look args = .check verbose r) :
    ((lib.run look args).exitCode = 2 ↔
      ∃ f, r.FirstFailure lib look f ∧ f.IsTold r.format) ∧
    ((lib.run look args).exitCode = 0 ↔
      ∃ lock manifest tree s, r.Loads lib look (some lock) manifest tree ∧
        (Lock.satisfiesTree (some lock) manifest tree).outcome = .ok s ∧ s.passed = true) ∧
    ((lib.run look args).exitCode = 1 ↔
      (∃ f, r.FirstFailure lib look f ∧ ¬ f.IsTold r.format) ∨
      ∃ lock manifest tree, r.Loads lib look lock manifest tree ∧ (lock = none ∨
        ∀ s, (Lock.satisfiesTree lock manifest tree).outcome = .ok s → s.passed = false)) ∧
    (¬ r.Stumbles lib look → r.Speakable lib look →
      ((lib.run look args).exitCode = 2 ↔ ∃ f, r.CannotLoad lib look f)) ∧
    (r.Stumbles lib look ↔ ∃ f, r.CannotLoad lib look f ∧ f.isReported = false) := by
  rw [run_check hargs]
  exact ⟨Request.exitCode_eq_two_iff hlib, Request.exitCode_eq_zero_iff hlib,
    Request.exitCode_eq_one_iff hlib, Request.exitCode_eq_two_of_not_stumbles hlib,
    Request.stumbles_iff⟩

/-- The bytes of a text of ASCII alone. -/
def asciiBytes (s : String) : List UInt8 := s.toList.map fun c => c.toNat.toUInt8

/-- The files of a project whose manifest has the text, with a tree and without a lock. -/
def filesWith (manifest : String) (path : Text) : FileState :=
  if path = "locksat.yaml" then .file (asciiBytes manifest)
  else if path = "t.json" then .file (asciiBytes "\x7b\"import_root\": \"a\"\x7d")
  else .absent

/-- A manifest with a list for a section is a failure that is reported. -/
theorem exitCode_check_badSection :
    Libraries.standard.Prints ∧
    Libraries.standard.demand (filesWith "constraints: [x]") ["check", "--tree", "t.json"] =
      .check false ⟨"locksat-lock.json", "locksat.yaml", "t.json", .text⟩ ∧
    (Libraries.standard.run (filesWith "constraints: [x]")
      ["check", "--tree", "t.json"]).exitCode = 2 := by
  have hargs : Libraries.standard.demand (filesWith "constraints: [x]")
      ["check", "--tree", "t.json"] =
        .check false ⟨"locksat-lock.json", "locksat.yaml", "t.json", .text⟩ := by decide +kernel
  have hlock : (loadIfPresent Lock.ofFile (filesWith "constraints: [x]")
      "locksat-lock.json").outcome = .ok none := by decide +kernel
  have hmanifest : (loadIfPresent (Manifest.ofFile Libraries.standard.readYaml)
      (filesWith "constraints: [x]") "locksat.yaml").outcome =
        .error (.manifest (.rulesNotMapping .constraints)) := by decide +kernel
  have htold : (Failure.manifest (.rulesNotMapping .constraints)).message.IsScalar := by
    decide +kernel
  refine ⟨Libraries.standard_prints, hargs, ?_⟩
  exact (exitCode_check Libraries.standard_prints hargs).1.2
    ⟨_, .manifest none hlock hmanifest, rfl, Or.inr htold⟩

/-- A manifest with a date that is no day cannot be loaded, and the code is that of a lock that
    does not fit. -/
theorem exitCode_badDate :
    Request.CannotLoad Libraries.standard (filesWith "when: 2024-02-30")
      ⟨"locksat-lock.json", "locksat.yaml", "t.json", .text⟩ (.yaml (.badMoment .day)) ∧
    (Libraries.standard.run (filesWith "when: 2024-02-30")
      ["check", "--tree", "t.json"]).exitCode = 1 := by
  have hmanifest : (loadIfPresent (Manifest.ofFile Libraries.standard.readYaml)
      (filesWith "when: 2024-02-30") "locksat.yaml").outcome =
        .error (.yaml (.badMoment .day)) := by decide +kernel
  exact ⟨.manifest hmanifest, by decide +kernel⟩

end CommandLine

end LockFit
