import LockFit.CommandLine.Arguments

/-
  When the arguments ask for a check.
  Options are followed if there is nothing to object to in any of them (`Options.IsSound.request`),
  whatever the files hold. A check that is accepted may be asked for in the other format too, with
  more or with fewer notices (`demand_inFormat`).
-/

namespace LockFit.CommandLine

variable {look : Text → FileState}

/-! ## Objections -/

/-- What is asked for stands in the options, and there is no objection to it. -/
theorem Options.request_eq_ok {o : Options} {r : Request} :
    o.request look = .ok r ↔ o.firstObjection? look = none ∧ o.lock = r.lock ∧
      o.manifest = r.manifest ∧ o.tree = some r.tree ∧
      Format.ofText? o.format = some r.format := by
  rw [request]
  constructor
  · intro h
    split at h
    · rename_i tree format hfirst htree hformat
      obtain rfl := Except.ok.inj h
      exact ⟨hfirst, rfl, rfl, htree, hformat⟩
    · cases h
    · cases h
  · rintro ⟨hfirst, hlock, hmanifest, htree, hformat⟩
    rw [hfirst, htree, hformat, hlock, hmanifest]

/-- There is nothing to object to exactly if no option has a value that is objected to and nothing
    else stands among the options. -/
theorem Options.firstObjection?_eq_none {o : Options} :
    o.firstObjection? look = none ↔
      (∀ setting, o.objection? look setting = none) ∧ o.extra = false := by
  have hall (setting : Setting) : setting ∈ o.named ++ Setting.all := by
    refine List.mem_append_right _ ?_
    cases setting <;> decide
  rw [firstObjection?, Option.or_eq_none_iff, List.findSome?_eq_none_iff]
  refine and_congr ⟨fun h setting => h setting (hall setting), fun h setting _ => h setting⟩ ?_
  cases o.extra with
  | true => simp
  | false => simp

/-- The options can be followed: nothing else stands among them, the format is one, the tree is a
    file, and no directory stands where a lock or a manifest may. -/
structure Options.IsSound (look : Text → FileState) (o : Options) : Prop where
  extra : o.extra = false
  format : (Format.ofText? o.format).isSome = true
  tree : ∃ tree bytes, o.tree = some tree ∧ stateOf look tree = .file bytes
  lock : stateOf look o.lock ≠ .directory ∧ stateOf look o.lock ≠ .unnameable
  manifest : stateOf look o.manifest ≠ .directory ∧ stateOf look o.manifest ≠ .unnameable

theorem pathObjection?_eq_none {path : Text}
    (h : stateOf look path ≠ .directory ∧ stateOf look path ≠ .unnameable) :
    pathObjection? look false path = none := by
  rw [pathObjection?]
  cases hstate : stateOf look path with
  | directory => exact absurd hstate h.1
  | unnameable => exact absurd hstate h.2
  | absent | notDirectory | nameTooLong | file => rfl

/-- Sound options ask for what they say. -/
theorem Options.IsSound.request {o : Options} (h : o.IsSound look) :
    ∃ r, o.request look = .ok r ∧ r.lock = o.lock ∧ r.manifest = o.manifest ∧
      o.tree = some r.tree := by
  obtain ⟨tree, bytes, htree, hstate⟩ := h.tree
  obtain ⟨format, hformat⟩ := Option.isSome_iff_exists.1 h.format
  have hobjection : ∀ setting, o.objection? look setting = none := by
    intro setting
    cases setting with
    | lock => exact pathObjection?_eq_none h.lock
    | manifest => exact pathObjection?_eq_none h.manifest
    | tree => simp only [objection?, htree, pathObjection?, hstate]
    | format => simp only [objection?, h.format, if_true]
  have hfirst : o.firstObjection? look = none := firstObjection?_eq_none.2 ⟨hobjection, h.extra⟩
  exact ⟨⟨o.lock, o.manifest, tree, format⟩,
    request_eq_ok.2 ⟨hfirst, rfl, rfl, htree, hformat⟩, rfl, rfl, htree⟩

/-! ## Asking the same in another format -/

/-- The name of a format as it is written. -/
def Format.name : Format → Text
  | text => "text"
  | json => "json"

theorem Format.ofText?_name (format : Format) : ofText? format.name = some format := by
  cases format with
  | text => rfl
  | json => rfl

/-- The same request in a format. -/
def Request.inFormat (r : Request) (format : Format) : Request :=
  ⟨r.lock, r.manifest, r.tree, format⟩

/-- Arguments for a request in which every option is given. -/
def Request.arguments (r : Request) (verbose : Bool) : List Text :=
  let args : List Text := ["check", "--lock", r.lock, "--manifest", r.manifest, "--tree", r.tree,
    "--format", r.format.name]
  if verbose then "--verbose" :: args else args

/-- The options in those arguments. -/
def Request.options (r : Request) : Options :=
  ⟨r.lock, r.manifest, some r.tree, r.format.name, Setting.all, false, false⟩

theorem Request.parse_arguments (r : Request) (verbose : Bool) :
    parse (r.arguments verbose) = some (.check verbose r.options) := by
  cases verbose with
  | true => rfl
  | false => rfl

/-- There is no objection to a request in one format that was accepted in another. -/
theorem Options.request_inFormat {o : Options} {r : Request} (h : o.request look = .ok r)
    (format : Format) :
    (r.inFormat format).options.request look = .ok (r.inFormat format) := by
  obtain ⟨hfirst, hlock, hmanifest, htree, -⟩ := request_eq_ok.1 h
  obtain ⟨hsettings, -⟩ := firstObjection?_eq_none.1 hfirst
  refine request_eq_ok.2 ⟨firstObjection?_eq_none.2 ⟨fun setting => ?_, rfl⟩, rfl, rfl, rfl,
    Format.ofText?_name format⟩
  have hsetting := hsettings setting
  cases setting with
  | lock => rwa [objection?, hlock] at hsetting
  | manifest => rwa [objection?, hmanifest] at hsetting
  | tree =>
    rw [objection?, htree] at hsetting
    exact hsetting
  | format => simp [objection?, Request.options, Request.inFormat, Format.ofText?_name]

/-- A check that some arguments ask for may be asked for in any format, with and without more
    notices. -/
theorem demand_inFormat {args : List Text} {verbose : Bool} {r : Request}
    (h : demand look args = .check verbose r) (format : Format) (verbose' : Bool) :
    demand look ((r.inFormat format).arguments verbose') =
      .check verbose' (r.inFormat format) := by
  obtain ⟨o, hrequest⟩ : ∃ o : Options, o.request look = .ok r := by
    unfold demand at h
    split at h
    · cases h
    · cases h
    · cases h
    · rename_i o _
      split at h
      · rename_i hrequest
        obtain ⟨-, rfl⟩ := Demand.check.inj h
        exact ⟨o, hrequest⟩
      · cases h
      · cases h
  rw [demand, Request.parse_arguments]
  dsimp only
  rw [Options.request_inFormat hrequest]

end LockFit.CommandLine
