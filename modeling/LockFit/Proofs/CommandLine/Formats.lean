import LockFit.Proofs.CommandLine.Arguments
import LockFit.Proofs.CommandLine.ExitCode

/-
  What matters for the exit code of a check beside its files.
  The code depends on the three files and on the format alone (`Request.exitCode_inFormat`), and on
  the format only where the first failure is reported with a message that has a half: it is told of
  in JSON, and in words nothing can be printed. Where the format is JSON and a result is printed,
  the object that is read from it says what the code says (`Request.result_of_ended`).
-/

namespace LockFit.CommandLine

variable {lib : Libraries} {look : Text → FileState}

/-- A run that succeeds ends with an output. -/
theorem Outcome.ended_of_exitCode {x : Outcome} (h : x.exitCode = 0) :
    ∃ output notices, x = .ended 0 output notices := by
  cases x with
  | usage => cases h
  | ended exit output notices =>
    obtain rfl : exit = 0 := h
    exact ⟨output, notices, rfl⟩
  | crashed cause notices => cases h
  | unprinted cause notices => cases h

namespace Request

variable {r : Request} {f g : Failure} {format format' : Format}

/-! ## The same files in another format -/

/-- Only one failure comes first. -/
theorem FirstFailure.unique (h : r.FirstFailure lib look f) (h' : r.FirstFailure lib look g) :
    f = g := by
  have houtcome := h.outcome_checkFiles.symm.trans h'.outcome_checkFiles
  exact Except.error.inj houtcome

/-- What is loaded does not depend on the format. -/
theorem FirstFailure.inFormat (h : r.FirstFailure lib look f) (format : Format) :
    (r.inFormat format).FirstFailure lib look f := by
  cases h with
  | lock h => exact .lock h
  | manifest lock hlock h => exact .manifest lock hlock h
  | tree lock manifest hlock hmanifest h => exact .tree lock manifest hlock hmanifest h

theorem Loads.inFormat {lock : Option Lock} {manifest : Option Manifest} {tree : PackageTree}
    (h : r.Loads lib look lock manifest tree) (format : Format) :
    (r.inFormat format).Loads lib look lock manifest tree :=
  ⟨h.lock, h.manifest, h.tree⟩

/-- A failure that is told of in the one format is told of in the other, unless the formats differ
    and its message has a half. -/
theorem isTold_iff_isTold : (f.IsTold format ↔ f.IsTold format') ↔
    format = format' ∨ (f.isReported = true → f.message.IsScalar) := by
  rw [Failure.IsTold, Failure.IsTold]
  cases f.isReported with
  | false => simp
  | true => cases format <;> cases format' <;> simp

/-- The code of a check changes with the format exactly if a failure comes first that is reported
    and has a half in its message. -/
theorem exitCode_inFormat (hlib : lib.Prints) (r : Request) (format : Format)
    (verbose verbose' : Bool) :
    (lib.runRequest look verbose' (r.inFormat format)).exitCode =
        (lib.runRequest look verbose r).exitCode ↔
      format = r.format ∨
        ∀ f, r.FirstFailure lib look f → f.isReported = true → f.message.IsScalar := by
  rcases loads_or_fails lib look r with ⟨lock, manifest, tree, h⟩ | ⟨f, h⟩
  · have hnone : ∀ f, ¬ r.FirstFailure lib look f := fun f hf => h.not_cannotLoad hf.cannotLoad
    refine iff_of_true ?_ (Or.inr fun f hf => absurd hf (hnone f))
    cases hs : (Lock.satisfiesTree lock manifest tree).outcome with
    | ok s => rw [h.exitCode_ok hlib hs, (h.inFormat format).exitCode_ok hlib hs]
    | error e => rw [h.exitCode_error hs, (h.inFormat format).exitCode_error hs]
  · have honly : (∀ g, r.FirstFailure lib look g → g.isReported = true → g.message.IsScalar) ↔
        (f.isReported = true → f.message.IsScalar) :=
      ⟨fun hall => hall f h, fun hf g hg => h.unique hg ▸ hf⟩
    rw [honly, h.exitCode hlib, (h.inFormat format).exitCode hlib, ← isTold_iff_isTold]
    change (if f.IsTold format then 2 else 1) = (if f.IsTold r.format then 2 else 1) ↔ _
    by_cases hnew : f.IsTold format <;> by_cases hold : f.IsTold r.format <;> simp [hnew, hold]

/-! ## Results -/

/-- What a run prints that ends with a verdict is the result of the check. -/
theorem result_of_ended {verbose : Bool} {exit : Nat} {output : Text} {notices : List Text}
    (hrun : lib.runRequest look verbose r = .ended exit output notices)
    (hexit : exit = 0 ∨ exit = 1) : ∃ s : Satisfaction,
      lib.showResult r.format s = .ok output ∧ (s.passed = true ↔ exit = 0) := by
  have hconclude {exit' : Nat} {notices' : List Text} {printed : Except PrintError Text}
      (h : conclude exit' notices' printed = .ended exit output notices) :
      exit' = exit ∧ printed = .ok output := by
    cases printed with
    | ok output' =>
      obtain ⟨rfl, rfl, -⟩ := Outcome.ended.inj h
      exact ⟨rfl, rfl⟩
    | error cause => cases h
  rw [Libraries.runRequest] at hrun
  cases hcheck : (lib.checkFiles look r.lock r.manifest r.tree).outcome with
  | ok s =>
    rw [hcheck] at hrun
    obtain ⟨rfl, hshown⟩ := hconclude hrun
    exact ⟨s, hshown, by cases s.passed <;> simp⟩
  | error f =>
    rw [hcheck] at hrun
    dsimp only at hrun
    split at hrun
    · obtain ⟨rfl, -⟩ := hconclude hrun
      rcases hexit with h | h <;> cases h
    · cases hrun

end Request

/-- **How the exit code of a check depends on how it reports.** Runs for the same files end with the
    same code, however many notices they show, unless their formats differ and the first failure is
    reported with a message that has a half. If a run in JSON prints a result, that is an object
    which says that the check passes exactly if the code is 0, and exactly if there is a lock and
    all four sorts of disagreement are empty. -/
theorem exitCode_formats (hlib : lib.Prints) {args args' : List Text} {verbose verbose' : Bool}
    {r r' : Request} (hargs : lib.demand look args = .check verbose r)
    (hargs' : lib.demand look args' = .check verbose' r') (hlock : r'.lock = r.lock)
    (hmanifest : r'.manifest = r.manifest) (htree : r'.tree = r.tree) :
    ((lib.run look args').exitCode = (lib.run look args).exitCode ↔
      r'.format = r.format ∨
        ∀ f, r.FirstFailure lib look f → f.isReported = true → f.message.IsScalar) ∧
    (r.format = .json → ∀ exit output notices, lib.run look args = .ended exit output notices →
      exit = 0 ∨ exit = 1 → ∃ members passed, Json.read output = .ok (.object members) ∧
        Json.find? "passed" members = some (.bool passed) ∧ (passed = true ↔ exit = 0) ∧
        (passed = true ↔ Json.FindsNothing members)) := by
  rw [run_check hargs, run_check hargs']
  constructor
  · have hsame : r.inFormat r'.format = r' := by
      rw [Request.inFormat, ← hlock, ← hmanifest, ← htree]
    have hcode := @Request.exitCode_inFormat lib look hlib r r'.format verbose verbose'
    rwa [hsame] at hcode
  · intro hformat exit output notices hrun hexit
    obtain ⟨s, hshown, hcode⟩ := Request.result_of_ended hrun hexit
    obtain ⟨members, hmembers, hpassed, hfinds⟩ := s.exists_members
    refine ⟨members, s.passed, ?_, hpassed, hcode, hfinds⟩
    rw [hformat, hlib.showResult_json] at hshown
    rw [← Except.ok.inj hshown, s.read_print_toJson, hmembers]

/-- The files of a project without imports, with a lock that was made for it. -/
def filesThatFit (path : Text) : FileState :=
  if path = "lock.json" then .file (asciiBytes "\x7b\x7d")
  else if path = "t.json" then .file (asciiBytes "\x7b\"import_root\": \"a\"\x7d")
  else .absent

/-- A lock that fits is reported as such in JSON, and with the same code in words. -/
theorem exitCode_formats_fitting : Libraries.standard.Prints ∧ ∃ output notices,
    Libraries.standard.run filesThatFit
        ["check", "--lock=lock.json", "--tree=t.json", "--format=json"] =
      .ended 0 output notices ∧
    (∃ members, Json.read output = .ok (.object members) ∧
      Json.find? "passed" members = some (.bool true) ∧ Json.FindsNothing members) ∧
    (Libraries.standard.run filesThatFit
      ["-v", "check", "--tree=t.json", "--lock=lock.json"]).exitCode = 0 := by
  let r : Request := ⟨"lock.json", "locksat.yaml", "t.json", .json⟩
  have hargs : Libraries.standard.demand filesThatFit
      ["check", "--lock=lock.json", "--tree=t.json", "--format=json"] = .check false r := by
    decide +kernel
  have hargs' : Libraries.standard.demand filesThatFit
      ["-v", "check", "--tree=t.json", "--lock=lock.json"] =
        .check true ⟨"lock.json", "locksat.yaml", "t.json", .text⟩ := by decide +kernel
  have hcode : (Libraries.standard.run filesThatFit
      ["check", "--lock=lock.json", "--tree=t.json", "--format=json"]).exitCode = 0 := by
    decide +kernel
  have hnone : ∀ f, ¬ r.FirstFailure Libraries.standard filesThatFit f := by
    rw [run_check hargs] at hcode
    obtain ⟨lock, manifest, tree, s, hloads, -⟩ :=
      (Request.exitCode_eq_zero_iff Libraries.standard_prints).1 hcode
    exact fun f hf => hloads.not_cannotLoad hf.cannotLoad
  obtain ⟨hsame, hresult⟩ := exitCode_formats Libraries.standard_prints hargs hargs' rfl rfl rfl
  obtain ⟨output, notices, hended⟩ := Outcome.ended_of_exitCode hcode
  obtain ⟨members, passed, hread, hpassed, hexit, hfinds⟩ :=
    hresult rfl 0 output notices hended (Or.inl rfl)
  have htrue : passed = true := hexit.2 rfl
  rw [htrue] at hpassed
  exact ⟨Libraries.standard_prints, output, notices, hended,
    ⟨members, hread, hpassed, hfinds.1 htrue⟩,
    (hsame.2 (Or.inr fun f hf => absurd hf (hnone f))).trans hcode⟩

/-- The tree of a project with a half in the path of a package whose imports are no list. -/
def filesWithHalf (path : Text) : FileState :=
  if path = "t.json" then .file (asciiBytes ("\x7b\"import_root\": \"a\", \"packages\": " ++
    "\x7b\"a/\\ud800\": \x7b\"imports\": 5\x7d\x7d\x7d"))
  else .absent

/-- In words the half cannot be printed, and the code is that of a lock that does not fit; in JSON
    the failure is told of. -/
theorem exitCode_formats_half :
    (Libraries.standard.run filesWithHalf ["check", "--tree", "t.json"]).exitCode = 1 ∧
    (Libraries.standard.run filesWithHalf
      ["check", "--tree", "t.json", "--format", "json"]).exitCode = 2 := by
  decide +kernel

end LockFit.CommandLine
