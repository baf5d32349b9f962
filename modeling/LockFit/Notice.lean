import LockFit.Text.Digit
import LockFit.Text.Quoted
import LockFit.Text.Sort

/-
  Notices: what loading and checking remark on without failing.
  A notice is data until it is printed; then it has a level, the name of the part that speaks and
  a message. A message that cannot be written is passed over where notices are printed; it is no
  failure of what the notice is about. `Noted` is a computation with its notices, which are kept
  when it fails.
-/

namespace LockFit

inductive Level where
  | debug
  | warning
  deriving DecidableEq

def Level.text : Level → Text
  | .debug => "DEBUG"
  | .warning => "WARNING"

inductive Notice where
  | unknownProjectKeys (root : Text) (keys : List Text)
  | unknownPackageKeys (path : Text) (keys : List Text)
  | unknownManifestKeys (shown : Except Text.NumberTooLong (List Text))
  | unknownImport (package imported : Text)
  | noLock
  | checked (projects required missing excess effectual : Nat)

namespace Notice

open Text

def level : Notice → Level
  | unknownProjectKeys .. | unknownPackageKeys .. | unknownManifestKeys .. => .warning
  | unknownImport .. | noLock | checked .. => .debug

/-- The part of the program that speaks. -/
def speaker : Notice → Text
  | unknownProjectKeys .. => "locksat.core.lock.operations"
  | unknownPackageKeys .. => "locksat.core.pkgtree.operations"
  | unknownManifestKeys .. => "locksat.core.manifest.operations"
  | unknownImport .. => "locksat.core.pkgtree.tree"
  | noLock | checked .. => "locksat.core.verify.satisfaction"

/-- The message, which cannot be written if it would hold a number with too many digits. -/
def message : Notice → Except NumberTooLong Text
  | unknownProjectKeys root keys => .ok <|
    "Ignoring unknown keys for locked project " ++ root ++ ": " ++
      bracketed ((sort keys).map quoted)
  | unknownPackageKeys path keys => .ok <|
    "Ignoring unknown keys for package " ++ path ++ ": " ++ bracketed ((sort keys).map quoted)
  | unknownManifestKeys shown =>
    shown.map fun keys => "Ignoring unknown manifest keys: " ++ bracketed keys
  | unknownImport package imported => .ok <|
    "Package " ++ package ++ " imports unknown internal " ++ imported
  | noLock => .ok "No lock present; nothing to check"
  | checked projects required missing excess effectual => .ok <|
    "Checked lock with " ++ toString projects ++ " projects: " ++ toString required ++
      " required imports, " ++ toString missing ++ " missing, " ++ toString excess ++
      " excess, " ++ toString effectual ++ " effectual constraints"

/-- The notice with its level and speaker in front. -/
def line (n : Notice) : Except NumberTooLong Text :=
  n.message.map fun message => n.level.text ++ " " ++ n.speaker ++ ": " ++ message

end Notice

/-- A computation that may fail, with the notices that it gave until it ended. -/
structure Noted (ε α : Type) where
  notices : List Notice
  outcome : Except ε α

namespace Noted

instance : Monad (Noted ε) where
  pure a := ⟨[], .ok a⟩
  bind x f := match x.outcome with
    | .error e => ⟨x.notices, .error e⟩
    | .ok a => ⟨x.notices ++ (f a).notices, (f a).outcome⟩

/-- A computation without notices. -/
def lift (x : Except ε α) : Noted ε α := ⟨[], x⟩

/-- The computation that fails with the cause. -/
def fail (e : ε) : Noted ε α := ⟨[], .error e⟩

/-- The computation that only gives a notice. -/
def note (n : Notice) : Noted ε Unit := ⟨[n], .ok ()⟩

/-- The computation with its cause of failure changed. -/
def mapError (f : ε → δ) (x : Noted ε α) : Noted δ α := ⟨x.notices, x.outcome.mapError f⟩

@[simp] theorem outcome_pure (a : α) : (pure a : Noted ε α).outcome = .ok a := rfl

@[simp] theorem outcome_bind (x : Noted ε α) (f : α → Noted ε β) :
    (x >>= f).outcome = x.outcome >>= fun a => (f a).outcome := by
  cases h : x.outcome <;> simp [bind, Except.bind, h]

@[simp] theorem outcome_lift (x : Except ε α) : (lift x).outcome = x := rfl

@[simp] theorem outcome_fail (e : ε) : (fail e : Noted ε α).outcome = .error e := rfl

@[simp] theorem outcome_note (n : Notice) : (note n : Noted ε Unit).outcome = .ok () := rfl

/-- Whether there is something to remark on does not matter to what comes out. -/
theorem outcome_remarked (c : Prop) [Decidable c] (n : Notice) (x : Noted ε α) :
    (if c then note n >>= fun _ => x else x).outcome = x.outcome := by
  split <;> rfl

end Noted

end LockFit
