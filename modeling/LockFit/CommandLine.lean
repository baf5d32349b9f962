import LockFit.Json.Printer
import LockFit.Loading
import LockFit.Report.Text

/-
  The command line.
  `check` loads a lock, a manifest and a package tree from files and reports whether the lock
  still fits. A lock that is not there never fits, and a manifest that is not there declares
  nothing; the tree has to be there. The exit code is 0 if the lock fits, 1 if it does not and 2 if
  a file cannot be loaded or the arguments make no sense. What stands under a path is an argument
  of every function here, so that a run is a function of the arguments and the files. Options,
  YAML and the terminal are left to libraries, which are an argument too.
-/

namespace LockFit.CommandLine

inductive Format where
  | text
  | json
  deriving DecidableEq

/-- What `check` is asked to do, once its options make sense. -/
structure Request where
  lock : Text
  manifest : Text
  tree : Text
  format : Format
  deriving DecidableEq

/-- What arguments come to: nothing that makes sense, a path that is none, a text that is asked
    for, or a check. -/
inductive Demand where
  | senseless
  | unnameable
  | text (text : Text)
  | check (verbose : Bool) (request : Request)
  deriving DecidableEq

/-- Why nothing is printed: the text has no encoding, or it cannot be drawn. -/
inductive PrintError where
  | halves (cause : Text.HalvesError)
  | undrawable (complaint : Text)
  deriving DecidableEq

def PrintError.message : PrintError → Text
  | halves cause => cause.message
  | undrawable complaint => complaint

/-- What the program leaves to libraries: the reading of arguments and of YAML, printing a text, and
    drawing a block of a report. What is printed or drawn is given back as it appears. -/
structure Libraries where
  demand : (Text → FileState) → List Text → Demand
  readYaml : Text → Except Yaml.Refusal Yaml
  echo : Text → Except PrintError Text
  draw : Report.Block → Except PrintError Text

/-! ## Running -/

/-- How a run ends: arguments without sense, an output with an exit code, a failure that is not
    reported, or an output that cannot be printed. The notices of a run go to the standard
    error. -/
inductive Outcome where
  | usage
  | ended (exit : Nat) (output : Text) (notices : List Text)
  | crashed (cause : Failure) (notices : List Text)
  | unprinted (cause : PrintError) (notices : List Text)
  deriving DecidableEq

def Outcome.exitCode : Outcome → Nat
  | usage => 2
  | ended exit _ _ => exit
  | crashed _ _ | unprinted _ _ => 1

/-- The lock or the manifest in a file, or nothing if no file is there. -/
def loadIfPresent (load : Text → FileState → Noted Failure α) (look : Text → FileState)
    (path : Text) : Noted Failure (Option α) :=
  let path := cleanPath path
  match look path with
  | .absent | .notDirectory => return none
  | state => return some (← load path state)

/-- The notices that are shown: all of them with their levels, or the warnings alone. -/
def shownNotices (verbose : Bool) (notices : List Notice) : List Text :=
  let shown := if verbose then notices.map Notice.line
    else (notices.filter fun n => n.level = .warning).map Notice.message
  shown.filterMap Except.toOption

/-- The end of a run that has printed something, or was about to. -/
def conclude (exit : Nat) (notices : List Text) (printed : Except PrintError Text) : Outcome :=
  match printed with
  | .ok output => .ended exit output notices
  | .error cause => .unprinted cause notices

namespace Libraries

/-- The check of the three files. -/
def checkFiles (lib : Libraries) (look : Text → FileState) (lock manifest tree : Text) :
    Noted Failure Satisfaction := do
  let lock ← loadIfPresent Lock.ofFile look lock
  let manifest ← loadIfPresent (Manifest.ofFile lib.readYaml) look manifest
  let tree ← PackageTree.ofFile (cleanPath tree) (look (cleanPath tree))
  (Lock.satisfiesTree lock manifest tree).mapError .numeral

def showResult (lib : Libraries) (format : Format) (s : Satisfaction) : Except PrintError Text :=
  match format with
  | .json => lib.echo (Json.print (.lines 2) s.toJson)
  | .text => (Text.intercalate "") <$> (Report.blocks s).mapM lib.draw

def showFailure (lib : Libraries) (format : Format) (f : Failure) : Except PrintError Text :=
  match format with
  | .json => lib.echo (Json.print .line (.object [("error", .text f.message)]))
  | .text => lib.echo ("Error: " ++ f.message)

def runRequest (lib : Libraries) (look : Text → FileState) (verbose : Bool) (r : Request) :
    Outcome :=
  let run := lib.checkFiles look r.lock r.manifest r.tree
  let notices := shownNotices verbose run.notices
  match run.outcome with
  | .ok s => conclude (if s.passed then 0 else 1) notices (lib.showResult r.format s)
  | .error f =>
    if f.isReported then conclude 2 notices (lib.showFailure r.format f)
    else .crashed f notices

/-- The run of the program with the arguments. -/
def run (lib : Libraries) (look : Text → FileState) (args : List Text) : Outcome :=
  match lib.demand look args with
  | .senseless => .usage
  | .unnameable => .crashed .unnameable []
  | .text text => .ended 0 text []
  | .check verbose request => lib.runRequest look verbose request

end Libraries

end LockFit.CommandLine
