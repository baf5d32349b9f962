import LockFit.ImportPath
import LockFit.Proofs.Text.Split
import LockFit.Proofs.Text.Trim

/-
  The segments of an import path.
  A path is cut at its slashes and the empty pieces are left out, so a path has no segments exactly
  if it is made of slashes alone (`segments_eq_nil`), a run of slashes counts for one
  (`segments_append_slashes_append`), and slashes at the ends may be dropped
  (`segments_dropSlashes`, `segments_stripSlashes`). Pieces are empty only at a slash that stands at
  an end or beside another slash. Hence a path without such slashes is spelled by its segments
  (`intercalate_segments`), and two such paths with the same segments are the same path. What lies
  under a root, by its text, starts with the segments of the root (`Under.segments_prefix`).
-/

namespace LockFit

/-! ## Segments -/

namespace ImportPath

open Text

theorem segments_eq_map (path : Text) :
    segments path = ((path.toList.splitOn (.scalar '/')).filter (· ≠ [])).map Text.ofList := by
  rw [segments, split, splitChars_eq_splitOn, List.filter_map]
  congr 2
  funext piece
  simp

theorem segments_eq_nil {path : Text} : segments path = [] ↔ ∀ c ∈ path.toList, c = '/' := by
  rw [segments_eq_map, List.map_eq_nil_iff, List.filter_eq_nil_iff, ← forall_mem_splitOn_eq_nil]
  simp

theorem segments_empty : segments "" = [] := segments_eq_nil.2 (by simp)

/-- A slash ends a segment, whatever stands on its two sides. -/
theorem segments_append_slash (left right : Text) :
    segments (left ++ "/" ++ right) = segments left ++ segments right := by
  have hpieces : split '/' (left ++ "/" ++ right) = split '/' left ++ split '/' right :=
    split_append '/' left right
  rw [segments, hpieces, List.filter_append, segments, segments]

/-- What is appended behind a slash leaves the segments as a start. -/
theorem segments_prefix_append_slash (path rest : Text) :
    segments path <+: segments (path ++ "/" ++ rest) := by
  rw [segments_append_slash]
  exact List.prefix_append _ _

/-! ## Runs of slashes -/

/-- So many slashes. -/
def slashes (n : Nat) : Text := Text.ofList (List.replicate n '/')

theorem slashes_zero : slashes 0 = "" := rfl

theorem slashes_succ (n : Nat) : slashes (n + 1) = slashes n ++ "/" := by
  apply Text.toList_inj.1
  simp [slashes, List.replicate_succ']

theorem segments_append_slashes (path : Text) (n : Nat) :
    segments (path ++ slashes n) = segments path := by
  induction n with
  | zero => rw [slashes_zero, Text.append_empty]
  | succ n ih =>
    have hlast : path ++ slashes (n + 1) = path ++ slashes n ++ "/" ++ "" := by
      rw [slashes_succ, Text.append_empty, Text.append_assoc]
    rw [hlast, segments_append_slash, ih, segments_empty, List.append_nil]

/-- One slash or more between two texts ends a segment. -/
theorem segments_append_slashes_append {n : Nat} (h : 0 < n) (left right : Text) :
    segments (left ++ slashes n ++ right) = segments left ++ segments right := by
  cases n with
  | zero => exact absurd h (Nat.lt_irrefl 0)
  | succ n =>
    have hlast : left ++ slashes (n + 1) ++ right = left ++ slashes n ++ "/" ++ right := by
      simp only [slashes_succ, Text.append_assoc]
    rw [hlast, segments_append_slash, segments_append_slashes]

theorem segments_slashes_append (n : Nat) (path : Text) :
    segments (slashes n ++ path) = segments path := by
  cases n with
  | zero => rw [slashes_zero, Text.empty_append]
  | succ n =>
    have hfirst := segments_append_slashes_append (Nat.succ_pos n) "" path
    rwa [Text.empty_append, segments_empty, List.nil_append] at hfirst

theorem dropSlashes_append_slashes (path : Text) (n : Nat) :
    dropSlashes (path ++ slashes n) = dropSlashes path := by
  have hslashes : ∀ c ∈ (slashes n).toList, (c == Code.scalar '/') = true := by simp [slashes]
  apply Text.toList_inj.1
  rw [dropSlashes, toList_dropEnd, Text.toList_append, dropEndWhile_append hslashes, dropSlashes,
    toList_dropEnd]

theorem ofList_eq_slashes {cs : List Code} (h : ∀ c ∈ cs, c = '/') :
    Text.ofList cs = slashes cs.length :=
  congrArg Text.ofList (List.eq_replicate_length.2 h)

/-- Only slashes are dropped. -/
theorem exists_slashes (path : Text) : ∃ n, path = dropSlashes path ++ slashes n := by
  let tail := path.toList.rtakeWhile (· == Code.scalar '/')
  have htail : Text.ofList tail = slashes tail.length :=
    ofList_eq_slashes fun c hc => by simpa using List.mem_rtakeWhile_imp hc
  refine ⟨tail.length, Text.toList_inj.1 ?_⟩
  rw [← htail, Text.toList_append, dropSlashes, toList_dropEnd, Text.toList_ofList]
  exact (dropEndWhile_append_rtakeWhile _ _).symm

theorem segments_dropSlashes (path : Text) : segments (dropSlashes path) = segments path := by
  obtain ⟨n, hpath⟩ := exists_slashes path
  have hsegments := segments_append_slashes (dropSlashes path) n
  rw [← hpath] at hsegments
  exact hsegments.symm

/-- The path without the slashes at its two ends. -/
def stripSlashes (path : Text) : Text :=
  dropSlashes (Text.ofList (path.toList.dropWhile (· == Code.scalar '/')))

/-- It makes no difference whether the slashes at the two ends are taken away before the cut. -/
theorem segments_stripSlashes (path : Text) : segments (stripSlashes path) = segments path := by
  let start := path.toList.takeWhile (· == Code.scalar '/')
  let rest := Text.ofList (path.toList.dropWhile (· == Code.scalar '/'))
  have hstart : Text.ofList start = slashes start.length :=
    ofList_eq_slashes fun c hc => by simpa using List.mem_takeWhile_imp hc
  have hpath : slashes start.length ++ rest = path := by
    rw [← hstart, ← Text.ofList_append, List.takeWhile_append_dropWhile, Text.ofList_toList]
  calc segments (stripSlashes path)
    _ = segments rest := segments_dropSlashes rest
    _ = segments (slashes start.length ++ rest) := (segments_slashes_append _ rest).symm
    _ = segments path := congrArg segments hpath

/-- Nothing is left exactly of a path that is made of slashes alone. -/
theorem dropSlashes_eq_empty {path : Text} :
    dropSlashes path = "" ↔ ∀ c ∈ path.toList, c = '/' := by
  constructor
  · intro h
    rw [← segments_eq_nil, ← segments_dropSlashes, h, segments_empty]
  · intro h
    have hslashes : ∀ c ∈ path.toList.reverse, (c == Code.scalar '/') = true := by simpa using h
    apply Text.toList_inj.1
    rw [dropSlashes, toList_dropEnd, dropEndWhile, List.dropWhile_eq_nil_iff.2 hslashes]
    rfl

/-! ## Plain spelling -/

/-- There is no slash at the start of the path and none beside another one. -/
def IsPlain (path : Text) : Prop :=
  ¬ [Code.scalar '/'] <+: path.toList ∧ ¬ [Code.scalar '/', '/'] <:+: path.toList

/-- The slashes at the end are gone once they are dropped. -/
theorem not_suffix_dropSlashes (path : Text) :
    ¬ [Code.scalar '/'] <:+ (dropSlashes path).toList := by
  rw [dropSlashes, toList_dropEnd, dropEndWhile, ← List.reverse_prefix, List.reverse_reverse]
  rintro ⟨rest, h⟩
  have hhead := List.head?_dropWhile_not (· == Code.scalar '/') path.toList.reverse
  rw [← h] at hhead
  simp at hhead

theorem intercalate_segments {path : Text} (hplain : IsPlain path) (hne : path ≠ "")
    (hend : dropSlashes path = path) : Text.intercalate "/" (segments path) = path := by
  have hpieces : ∀ piece ∈ split '/' path, piece ≠ "" := by
    rintro piece hpiece rfl
    rw [split_eq_map] at hpiece
    obtain ⟨chars, hchars, hempty⟩ := List.mem_map.1 hpiece
    obtain rfl : chars = [] := by simpa using congrArg Text.toList hempty
    rcases empty_mem_splitOn hchars with h | h | h | h
    · exact hne (Text.toList_inj.1 h)
    · exact hplain.1 h
    · exact not_suffix_dropSlashes path (hend.symm ▸ h)
    · exact hplain.2 h
  have hsegments : segments path = split '/' path :=
    List.filter_eq_self.2 fun piece hpiece => decide_eq_true (hpieces piece hpiece)
  rw [hsegments]
  exact intercalate_split '/' path

/-! ## Paths under a root -/

/-- The path is the root without slashes at its end, or goes on from that with a slash. -/
def Under (root path : Text) : Prop :=
  path = dropSlashes root ∨ ∃ rest, path = dropSlashes root ++ "/" ++ rest

theorem covers_iff {root path : Text} : covers root path = true ↔ Under root path := by
  rw [covers, Bool.or_eq_true, decide_eq_true_eq, startsWith_iff_append, Under]

instance (root path : Text) : Decidable (Under root path) := decidable_of_iff _ covers_iff

/-- Whatever lies under a root, by its text, starts with the segments of the root. -/
theorem Under.segments_prefix {root path : Text} (h : Under root path) :
    segments root <+: segments path := by
  rw [← segments_dropSlashes root]
  rcases h with rfl | ⟨rest, rfl⟩
  · exact List.prefix_refl _
  · exact segments_prefix_append_slash _ rest

end ImportPath

end LockFit
