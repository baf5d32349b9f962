import LockFit.CommandLine

/-
  The arguments of the program.
  Arguments are first read as options; then the values of the options are looked at in the order in
  which they were given, so that of two faults the one given first decides.
-/

namespace LockFit.CommandLine

def Format.ofText? (text : Text) : Option Format :=
  if text = "text" then some .text else if text = "json" then some .json else none

/-- An option of `check` that has a value. -/
inductive Setting where
  | lock
  | manifest
  | tree
  | format
  deriving DecidableEq

def Setting.all : List Setting := [.lock, .manifest, .tree, .format]

/-- The name of the option as it is written. -/
def Setting.text : Setting → Text
  | lock => "--lock"
  | manifest => "--manifest"
  | tree => "--tree"
  | format => "--format"

def Setting.ofText? (text : Text) : Option Setting :=
  Setting.all.find? fun s => s.text = text

/-- The options of `check` as they are written; a tree has no default. `named` holds the options
    that were given, in order; `extra` says that something else stands among them. -/
structure Options where
  lock : Text
  manifest : Text
  tree : Option Text
  format : Text
  named : List Setting
  help : Bool
  extra : Bool
  deriving DecidableEq

def Options.default : Options :=
  ⟨"locksat-lock.json", "locksat.yaml", none, "text", [], false, false⟩

/-- What the arguments ask for. -/
inductive Invocation where
  | version
  | help
  | check (verbose : Bool) (options : Options)
  deriving DecidableEq

/-! ## Arguments -/

/-- The argument is written as an option: a dash with something behind it. -/
def isOption (arg : Text) : Bool :=
  match arg.toList with
  | .scalar '-' :: _ :: _ => true
  | _ => false

/-- The name of a long option, and its value if that is written behind an equals sign. -/
def splitOption (arg : Text) : Text × Option Text :=
  let cs := arg.toList
  match cs.dropWhile (· ≠ Code.scalar '=') with
  | [] => (arg, none)
  | _ :: value => (Text.ofList (cs.takeWhile (· ≠ Code.scalar '=')), some (Text.ofList value))

/-- The options with the value of one of them; an option counts as it was given last. -/
def Options.set (o : Options) (setting : Setting) (value : Text) : Options :=
  let o := { o with named := o.named ++ [setting] }
  match setting with
  | .lock => { o with lock := value }
  | .manifest => { o with manifest := value }
  | .tree => { o with tree := some value }
  | .format => { o with format := value }

def Options.put (o : Options) (name value : Text) : Option Options :=
  (Setting.ofText? name).map fun setting => o.set setting value

/-- The options of `check`. Two dashes end them. -/
def parseOptions (o : Options) : List Text → Option Options
  | [] => some o
  | arg :: rest =>
    if arg = "--" then some { o with extra := o.extra || !rest.isEmpty }
    else if !isOption arg then parseOptions { o with extra := true } rest
    else if arg = "--help" then parseOptions { o with help := true } rest
    else match splitOption arg, rest with
      | (name, some value), rest => (o.put name value).bind fun o => parseOptions o rest
      | (name, none), value :: rest => (o.put name value).bind fun o => parseOptions o rest
      | (_, none), [] => none

def Options.invocation (verbose : Bool) (o : Options) : Invocation :=
  if o.help then .help else .check verbose o

/-- What stands in front of a command: options that concern every command. `early` is the first of
    them that asks for nothing but a text, for which the rest does not matter. -/
structure Leading where
  verbose : Bool
  early : Option Invocation
  rest : List Text

/-- The options in front of a command. Two dashes end them. -/
def takeLeading (verbose : Bool) (early : Option Invocation) : List Text → Option Leading
  | [] => some ⟨verbose, early, []⟩
  | arg :: rest =>
    if arg = "--" then some ⟨verbose, early, rest⟩
    else if !isOption arg then some ⟨verbose, early, arg :: rest⟩
    else if arg = "--verbose" then takeLeading true early rest
    else if arg = "--version" then takeLeading verbose (early.or (some .version)) rest
    else if arg = "--help" then takeLeading verbose (early.or (some .help)) rest
    else if (arg.toList.drop 1).all (· = Code.scalar 'v') then takeLeading true early rest
    else none

/-- A command with its arguments. Where no command stands, options that ask for a text still
    count. -/
def parseCommand (verbose : Bool) (args : List Text) : Option Invocation :=
  if args.head? = some "check" then
    (parseOptions .default args.tail).map (Options.invocation verbose)
  else (takeLeading verbose none args).bind Leading.early

def parse (args : List Text) : Option Invocation :=
  (takeLeading false none args).bind fun l => l.early.or (parseCommand l.verbose l.rest)

/-! ## Values -/

/-- Why options cannot be followed: they make no sense, or a path is no path. -/
inductive Objection where
  | senseless
  | unnameable
  deriving DecidableEq

/-- The state of a path as it is written; an empty path leads nowhere. -/
def stateOf (look : Text → FileState) (path : Text) : FileState :=
  if path = "" then .absent else look path

/-- A directory is never taken for a file, and a file that is needed has to be there. -/
def pathObjection? (look : Text → FileState) (needed : Bool) (path : Text) :
    Option Objection :=
  match stateOf look path with
  | .unnameable => some .unnameable
  | .directory => some .senseless
  | .file _ => none
  | .absent | .notDirectory | .nameTooLong => if needed then some .senseless else none

/-- What is wrong with the value of an option. -/
def Options.objection? (look : Text → FileState) (o : Options) : Setting → Option Objection
  | .lock => pathObjection? look false o.lock
  | .manifest => pathObjection? look false o.manifest
  | .tree => match o.tree with
    | some tree => pathObjection? look true tree
    | none => some .senseless
  | .format => if (Format.ofText? o.format).isSome then none else some .senseless

/-- The objection that counts: options are looked at in the order in which they were given first,
    those that were not given come after them, and what else stands there comes last. -/
def Options.firstObjection? (look : Text → FileState) (o : Options) : Option Objection :=
  ((o.named ++ Setting.all).findSome? (o.objection? look)).or
    (if o.extra then some .senseless else none)

/-- What the options ask for, if there is no objection to them. -/
def Options.request (look : Text → FileState) (o : Options) : Except Objection Request :=
  match o.firstObjection? look, o.tree, Format.ofText? o.format with
  | none, some tree, some format => .ok ⟨o.lock, o.manifest, tree, format⟩
  | none, _, _ => .error .senseless
  | some objection, _, _ => .error objection

/-! ## What is asked for -/

def versionText : Text := "locksat, version 0.1.0\n"

def helpText : Text :=
  "Usage: locksat [--verbose] check --tree FILE [--lock FILE] [--manifest FILE] " ++
    "[--format text|json]\n"

/-- What the arguments come to. -/
def demand (look : Text → FileState) (args : List Text) : Demand :=
  match parse args with
  | none => .senseless
  | some .version => .text versionText
  | some .help => .text helpText
  | some (.check verbose options) => match options.request look with
    | .ok request => .check verbose request
    | .error .senseless => .senseless
    | .error .unnameable => .unnameable

/-- The paths that a run asks about. -/
def pathsOf (args : List Text) : List Text :=
  match parse args with
  | some (.check _ o) =>
    (o.lock :: o.manifest :: o.tree.toList).flatMap fun path => [path, cleanPath path]
  | _ => []

end LockFit.CommandLine
