import LockFit.Text.Quoted
import LockFit.Version.Semver

/-
  Pinned versions.
  A lock pins a project to a semantic version tag, to a branch or to some other revision. A pin
  keeps its text as written, and a pin on a tag carries the proof that its text is a semantic
  version. Two pins are equal when both the text and the kind are.
-/

namespace LockFit

/-- What sort of thing a project is pinned to. -/
inductive VersionKind where
  | semver
  | branch
  | revision
  deriving DecidableEq

def VersionKind.text : VersionKind → Text
  | .semver => "semver"
  | .branch => "branch"
  | .revision => "revision"

def VersionKind.ofText? (name : Text) : Option VersionKind :=
  if name = "semver" then some .semver
  else if name = "branch" then some .branch
  else if name = "revision" then some .revision
  else none

theorem VersionKind.ofText?_text (kind : VersionKind) : ofText? kind.text = some kind := by
  cases kind <;> decide

theorem VersionKind.text_inj {k l : VersionKind} : k.text = l.text ↔ k = l := by
  constructor
  · intro h
    have hkind : ofText? k.text = ofText? l.text := congrArg ofText? h
    rw [ofText?_text, ofText?_text] at hkind
    exact Option.some.inj hkind
  · rintro rfl
    rfl

/-- Why a text and a kind make no version. -/
inductive VersionError where
  | notSemver (text : Text)
  | unknownKind (shown : Text)
  deriving DecidableEq

def VersionError.message : VersionError → Text
  | .notSemver text => "Invalid semantic version: " ++ Text.quoted text
  | .unknownKind shown => shown ++ " is not a valid VersionKind"

/-- A pinned revision of a project. -/
structure Version where
  text : Text
  kind : VersionKind
  reads : kind = .semver → Semver.accepts text = true
  deriving DecidableEq

namespace Version

/-- A version is its text and its kind. -/
theorem eq_of_text_kind {v w : Version} (htext : v.text = w.text) (hkind : v.kind = w.kind) :
    v = w := by
  cases v
  cases w
  dsimp only at htext hkind
  subst htext hkind
  rfl

def branch (name : Text) : Version := ⟨name, .branch, nofun⟩

def revision (id : Text) : Version := ⟨id, .revision, nofun⟩

/-- The version of the given kind; a tag has to be a semantic version. -/
def ofKind (text : Text) (kind : VersionKind) : Except VersionError Version :=
  if h : kind = .semver → Semver.accepts text = true then .ok ⟨text, kind, h⟩
  else .error (.notSemver text)

/-- The version that a bare text stands for: a tag if it is a semantic version, else a revision. -/
def ofText (text : Text) : Version :=
  if h : Semver.accepts text = true then ⟨text, .semver, fun _ => h⟩ else revision text

/-- The parts of a tag; nothing for the other kinds. -/
def reading? (v : Version) : Option Semver.Reading :=
  match v.kind with
  | .semver => Semver.read? v.text
  | _ => none

/-- The release numbers of a tag. -/
def number? (v : Version) : Option (Except Text.NumeralTooLong ReleaseNumber) :=
  v.reading?.map Semver.Reading.number

/-- The release that a tag names: a leading `v`, blanks and build metadata do not count. -/
def identity? (v : Version) : Option (Except Text.NumeralTooLong ReleaseIdentity) :=
  v.reading?.map Semver.Reading.identity

/-- Exactly the tags have parts. -/
theorem reading?_isSome (v : Version) : v.reading?.isSome = true ↔ v.kind = .semver := by
  obtain ⟨text, kind, reads⟩ := v
  cases kind
  · simpa [reading?, Semver.accepts] using reads rfl
  · simp [reading?]
  · simp [reading?]

end Version

/-- The release numbers of a text that is a semantic version. -/
def Semver.number (text : Text) : Except (VersionError ⊕ Text.NumeralTooLong) ReleaseNumber :=
  match Semver.read? text with
  | none => .error (.inl (.notSemver text))
  | some r => match r.number with
    | .ok n => .ok n
    | .error e => .error (.inr e)

end LockFit
