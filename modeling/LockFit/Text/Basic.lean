/-
  Texts as sequences of code points.
  A code point is a character, or one of the 2048 numbers that are set aside for the halves of
  pairs. A half by itself is no character and has no encoding in UTF-8, but an escape can write
  one, so that a text that was read may hold it. Texts are compared code point by code point.
-/

namespace LockFit

/-- A code point: a character, or the high or the low half of a pair. -/
inductive Code where
  | scalar (c : Char)
  | high (n : Fin 0x400)
  | low (n : Fin 0x400)
  deriving DecidableEq

namespace Code

instance : Coe Char Code := ⟨scalar⟩

instance : Inhabited Code := ⟨scalar default⟩

/-- The number of a code point. -/
protected def toNat : Code → Nat
  | scalar c => c.toNat
  | high n => 0xd800 + n.val
  | low n => 0xdc00 + n.val

/-- The code point with a number below `0x110000`. -/
protected def ofNat (n : Nat) : Code :=
  if h : 0xd800 ≤ n ∧ n < 0xdc00 then high ⟨n - 0xd800, by omega⟩
  else if h : 0xdc00 ≤ n ∧ n < 0xe000 then low ⟨n - 0xdc00, by omega⟩
  else scalar (Char.ofNat n)

instance : LT Code := ⟨fun c d => c.toNat < d.toNat⟩

instance : LE Code := ⟨fun c d => c.toNat ≤ d.toNat⟩

instance (c d : Code) : Decidable (c < d) := inferInstanceAs (Decidable (c.toNat < d.toNat))

instance (c d : Code) : Decidable (c ≤ d) := inferInstanceAs (Decidable (c.toNat ≤ d.toNat))

@[simp] theorem toNat_scalar (c : Char) : (scalar c).toNat = c.toNat := rfl

@[simp] theorem scalar_le_scalar {c d : Char} : scalar c ≤ scalar d ↔ c ≤ d := Iff.rfl

@[simp] theorem scalar_lt_scalar {c d : Char} : scalar c < scalar d ↔ c < d := Iff.rfl

protected theorem le_trans {c d e : Code} (h : c ≤ d) (h' : d ≤ e) : c ≤ e := Nat.le_trans h h'

/-- What is no half is a character. -/
def isScalar : Code → Bool
  | scalar _ => true
  | high _ | low _ => false

@[simp] theorem ofNat_toNat (c : Code) : Code.ofNat c.toNat = c := by
  cases c with
  | scalar c =>
    have hvalid : c.toNat < 0xd800 ∨ 0xdfff < c.toNat ∧ c.toNat < 0x110000 := c.valid
    rw [toNat_scalar, Code.ofNat, dif_neg (by omega), dif_neg (by omega), Char.ofNat_toNat]
  | high n =>
    have hrange : 0xd800 ≤ (high n).toNat ∧ (high n).toNat < 0xdc00 := by
      simp only [Code.toNat]
      omega
    rw [Code.ofNat, dif_pos hrange]
    simp [Code.toNat]
  | low n =>
    have hrange : 0xdc00 ≤ (low n).toNat ∧ (low n).toNat < 0xe000 := by
      simp only [Code.toNat]
      omega
    rw [Code.ofNat, dif_neg (by omega), dif_pos hrange]
    simp [Code.toNat]

theorem toNat_lt (c : Code) : c.toNat < 0x110000 := by
  cases c with
  | scalar c =>
    have hvalid : c.toNat < 0xd800 ∨ 0xdfff < c.toNat ∧ c.toNat < 0x110000 := c.valid
    rw [toNat_scalar]
    omega
  | high n =>
    simp only [Code.toNat]
    omega
  | low n =>
    simp only [Code.toNat]
    omega

/-- Different code points have different numbers. -/
protected theorem toNat_inj {c d : Code} : c.toNat = d.toNat ↔ c = d :=
  ⟨fun h => by rw [← ofNat_toNat c, h, ofNat_toNat], fun h => by rw [h]⟩

end Code

/-- A text: any sequence of code points. -/
structure Text where
  protected ofList ::
  protected toList : List Code
  deriving DecidableEq

namespace Text

/-- The text of a string, which holds characters alone. -/
protected def ofString (s : String) : Text := .ofList (s.toList.map .scalar)

instance : Coe String Text := ⟨Text.ofString⟩

instance : Inhabited Text := ⟨.ofList []⟩

instance : Append Text := ⟨fun s t => .ofList (s.toList ++ t.toList)⟩

protected def length (s : Text) : Nat := s.toList.length

/-- The texts one after the other with another text between them. -/
protected def intercalate (sep : Text) (ts : List Text) : Text :=
  .ofList (sep.toList.intercalate (ts.map Text.toList))

/-- The numbers of the code points. -/
def points (s : Text) : List Nat := s.toList.map Code.toNat

instance : LT Text := ⟨fun s t => List.lt s.points t.points⟩

instance : LE Text := ⟨fun s t => List.le s.points t.points⟩

instance (s t : Text) : Decidable (s < t) := List.decidableLT s.points t.points

instance (s t : Text) : Decidable (s ≤ t) := List.decidableLE s.points t.points

/-! ## Code points of a text -/

variable {s t u : Text}

@[simp] protected theorem toList_ofList {cs : List Code} : (Text.ofList cs).toList = cs := rfl

@[simp] protected theorem ofList_toList : Text.ofList s.toList = s := rfl

@[simp] protected theorem toList_ofString (s : String) :
    (Text.ofString s).toList = s.toList.map .scalar := rfl

protected theorem toList_inj : s.toList = t.toList ↔ s = t :=
  ⟨fun h => by rw [← @Text.ofList_toList s, h, Text.ofList_toList], fun h => by rw [h]⟩

protected theorem ofList_inj {cs ds : List Code} : Text.ofList cs = Text.ofList ds ↔ cs = ds :=
  Text.toList_inj.symm

@[simp] protected theorem ofString_inj {a b : String} :
    Text.ofString a = Text.ofString b ↔ a = b := by
  rw [Text.ofString, Text.ofString, Text.ofList_inj,
    List.map_inj_right fun _ _ => Code.scalar.inj, String.toList_inj]

@[simp] protected theorem ofList_eq_ofString {cs : List Code} {a : String} :
    Text.ofList cs = a ↔ cs = a.toList.map .scalar := Text.ofList_inj

@[simp] protected theorem toList_eq_nil : s.toList = [] ↔ s = "" := by
  rw [← Text.toList_inj]
  rfl

@[simp] protected theorem toList_append (s t : Text) : (s ++ t).toList = s.toList ++ t.toList :=
  rfl

protected theorem ofList_append (cs ds : List Code) :
    Text.ofList (cs ++ ds) = Text.ofList cs ++ Text.ofList ds := rfl

@[simp] protected theorem length_toList : s.toList.length = s.length := rfl

protected theorem length_append (s t : Text) : (s ++ t).length = s.length + t.length :=
  List.length_append

protected theorem append_assoc (s t u : Text) : s ++ t ++ u = s ++ (t ++ u) :=
  Text.toList_inj.1 (List.append_assoc s.toList t.toList u.toList)

@[simp] protected theorem append_empty (s : Text) : s ++ "" = s :=
  Text.toList_inj.1 (List.append_nil s.toList)

@[simp] protected theorem empty_append (s : Text) : "" ++ s = s :=
  Text.toList_inj.1 (List.nil_append s.toList)

@[simp] protected theorem append_eq_empty : s ++ t = "" ↔ s = "" ∧ t = "" := by
  rw [← Text.toList_eq_nil, Text.toList_append, List.append_eq_nil_iff, Text.toList_eq_nil,
    Text.toList_eq_nil]

protected theorem append_left_inj (u : Text) : s ++ u = t ++ u ↔ s = t := by
  rw [← Text.toList_inj, Text.toList_append, Text.toList_append, List.append_left_inj,
    Text.toList_inj]

/-! ## Joining -/

@[simp] protected theorem toList_intercalate (sep : Text) (ts : List Text) :
    (Text.intercalate sep ts).toList = sep.toList.intercalate (ts.map Text.toList) := rfl

@[simp] protected theorem intercalate_nil (sep : Text) : Text.intercalate sep [] = "" := rfl

@[simp] protected theorem intercalate_singleton (sep t : Text) : Text.intercalate sep [t] = t :=
  Text.toList_inj.1 (@List.intercalate_singleton _ sep.toList t.toList)

protected theorem intercalate_cons_cons (sep s t : Text) (ts : List Text) :
    Text.intercalate sep (s :: t :: ts) = s ++ sep ++ Text.intercalate sep (t :: ts) :=
  Text.toList_inj.1 List.intercalate_cons_cons

protected theorem intercalate_append_of_ne_nil {ss ts : List Text} {sep : Text} (hs : ss ≠ [])
    (ht : ts ≠ []) : Text.intercalate sep (ss ++ ts) =
      Text.intercalate sep ss ++ sep ++ Text.intercalate sep ts := by
  induction ss with
  | nil => exact absurd rfl hs
  | cons s ss ih =>
    cases ss with
    | nil =>
      cases ts with
      | nil => exact absurd rfl ht
      | cons t ts => simp [Text.intercalate_cons_cons]
    | cons s' ss =>
      have hrest := ih (List.cons_ne_nil s' ss)
      simp only [List.cons_append] at hrest ⊢
      rw [Text.intercalate_cons_cons, Text.intercalate_cons_cons, hrest]
      simp only [Text.append_assoc]

/-! ## Order -/

protected theorem points_inj : s.points = t.points ↔ s = t := by
  rw [points, points, List.map_inj_right fun _ _ => Code.toNat_inj.1, Text.toList_inj]

protected theorem lt_irrefl (s : Text) : ¬s < s := List.lt_irrefl s.points

protected theorem lt_trans (h : s < t) (h' : t < u) : s < u :=
  List.lt_trans (show List.lt s.points t.points from h) h'

protected theorem lt_asymm (h : s < t) : ¬t < s :=
  List.lt_asymm (show List.lt s.points t.points from h)

protected theorem not_lt : ¬s < t ↔ t ≤ s := List.not_lt

protected theorem not_le : ¬s ≤ t ↔ t < s := List.not_le

protected theorem le_total (s t : Text) : s ≤ t ∨ t ≤ s := List.le_total s.points t.points

protected theorem le_trans (h : s ≤ t) (h' : t ≤ u) : s ≤ u :=
  List.le_trans (show List.le s.points t.points from h) h'

protected theorem le_antisymm (h : s ≤ t) (h' : t ≤ s) : s = t :=
  Text.points_inj.1 (List.le_antisymm (show List.le s.points t.points from h) h')

end Text

end LockFit
