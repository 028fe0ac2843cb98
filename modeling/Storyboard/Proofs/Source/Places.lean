import Storyboard.Source.Position

namespace Storyboard

variable {text before after : List Char} {k offset : Nat}

/-- The offset lies between two characters of the text, or at one of its ends. -/
def IsBoundary (text : List Char) (offset : Nat) : Prop :=
  ∃ before, before <+: text ∧ byteCount before = offset

theorem byteCount_pos {cs : List Char} (nonempty : cs ≠ []) : 0 < byteCount cs := by
  cases cs with
  | nil => exact absurd rfl nonempty
  | cons c cs => exact Nat.add_pos_left c.utf8Size_pos _

theorem byteCount_mono {a b : List Char} (shorter : a <+: b) : byteCount a ≤ byteCount b := by
  obtain ⟨more, rfl⟩ := shorter
  rw [byteCount_append]
  exact Nat.le_add_right _ _

/-- Of two beginnings of one text the longer one has more bytes. -/
theorem eq_of_byteCount {text a b : List Char} (first : a <+: text) (second : b <+: text)
    (same : byteCount a = byteCount b) : a = b := by
  have equal {a b : List Char} (shorter : a <+: b) (same : byteCount a = byteCount b) : a = b := by
    obtain ⟨more, rfl⟩ := shorter
    rw [byteCount_append] at same
    by_cases none : more = []
    · rw [none, List.append_nil]
    · have := byteCount_pos none
      omega
  rcases List.prefix_or_prefix_of_prefix first second with shorter | shorter
  · exact equal shorter same
  · exact (equal shorter same.symm).symm

theorem dropBytes_cons (c : Char) (cs : List Char) (n : Nat) :
    dropBytes (c.utf8Size + n) (c :: cs) = dropBytes n cs := by
  rw [dropBytes, Nat.add_sub_cancel_left]
  have := c.utf8Size_pos
  omega

theorem takeBytes_cons (c : Char) (cs : List Char) (n : Nat) :
    takeBytes (c.utf8Size + n) (c :: cs) = c :: takeBytes n cs := by
  rw [takeBytes, Nat.add_sub_cancel_left]
  have := c.utf8Size_pos
  omega

/-- Cutting at the end of a front part gives the part back, and what follows it. -/
theorem dropBytes_append (before after : List Char) :
    dropBytes (byteCount before) (before ++ after) = after := by
  induction before with
  | nil => cases after <;> rfl
  | cons c cs ih => rw [byteCount, List.cons_append, dropBytes_cons, ih]

theorem takeBytes_append (before after : List Char) :
    takeBytes (byteCount before) (before ++ after) = before := by
  induction before with
  | nil => cases after <;> rfl
  | cons c cs ih => rw [byteCount, List.cons_append, takeBytes_cons, ih]

/-- The bytes between two places are the characters between them. -/
theorem slice_append (before piece after : List Char) :
    slice (before ++ (piece ++ after)) (byteCount before) (byteCount (before ++ piece)) = piece := by
  rw [slice, dropBytes_append, byteCount_append, Nat.add_sub_cancel_left, takeBytes_append]

theorem isBoundary_zero (text : List Char) : IsBoundary text 0 :=
  ⟨[], List.nil_prefix, rfl⟩

theorem isBoundary_nil : IsBoundary [] offset ↔ offset = 0 := by
  constructor
  · rintro ⟨before, begins, rfl⟩
    rw [List.prefix_nil.1 begins, byteCount]
  · rintro rfl
    exact isBoundary_zero []

/-- A boundary that is not at the start is one of what follows the first character. -/
theorem isBoundary_cons {c : Char} {cs : List Char} (apart : offset ≠ 0) :
    IsBoundary (c :: cs) offset ↔ c.utf8Size ≤ offset ∧ IsBoundary cs (offset - c.utf8Size) := by
  constructor
  · rintro ⟨before, begins, rfl⟩
    rcases List.prefix_cons_iff.1 begins with rfl | ⟨others, rfl, begins'⟩
    · exact absurd rfl apart
    · refine ⟨Nat.le_add_right _ _, others, begins', ?_⟩
      rw [byteCount, Nat.add_sub_cancel_left]
  · rintro ⟨le, before, begins, same⟩
    refine ⟨c :: before, List.cons_prefix_cons.2 ⟨rfl, begins⟩, ?_⟩
    rw [byteCount]
    omega

theorem isCharBoundary_iff : isCharBoundary text offset ↔ IsBoundary text offset := by
  fun_induction isCharBoundary text offset with
  | case1 => simp [isBoundary_zero]
  | case2 offset apart => simpa [isBoundary_nil] using apart
  | case3 c cs offset apart ih =>
    rw [isBoundary_cons apart, Bool.and_eq_true, decide_eq_true_iff, ih]

/-- Going back ends between two characters. -/
theorem isBoundary_backToBoundary (text : List Char) (offset : Nat) :
    IsBoundary text (backToBoundary text offset) := by
  induction offset with
  | zero => exact isBoundary_zero text
  | succ n ih =>
    rw [backToBoundary]
    split
    · rename_i boundary
      exact isCharBoundary_iff.1 boundary
    · exact ih

theorem backToBoundary_le (text : List Char) (offset : Nat) :
    backToBoundary text offset ≤ offset := by
  induction offset with
  | zero => exact Nat.le_refl _
  | succ n ih =>
    rw [backToBoundary]
    split
    · exact Nat.le_refl _
    · exact Nat.le_succ_of_le ih

theorem le_backToBoundary (boundary : IsBoundary text k) (le : k ≤ offset) :
    k ≤ backToBoundary text offset := by
  induction offset with
  | zero => exact le
  | succ n ih =>
    rw [backToBoundary]
    split
    · exact le
    · rename_i inside
      rcases Nat.le_or_eq_of_le_succ le with le | rfl
      · exact ih le
      · exact absurd (isCharBoundary_iff.2 boundary) inside

theorem IsBoundary.le_size (boundary : IsBoundary text k) : k ≤ byteCount text := by
  obtain ⟨before, begins, rfl⟩ := boundary
  exact byteCount_mono begins

theorem isBoundary_clampToBoundary (text : List Char) (offset : Nat) :
    IsBoundary text (clampToBoundary text offset) :=
  isBoundary_backToBoundary text _

theorem clampToBoundary_le (text : List Char) (offset : Nat) :
    clampToBoundary text offset ≤ offset :=
  Nat.le_trans (backToBoundary_le text _) (Nat.min_le_left _ _)

/-- An offset is moved back to the last place between characters that is not beyond it. -/
theorem le_clampToBoundary (boundary : IsBoundary text k) (le : k ≤ offset) :
    k ≤ clampToBoundary text offset :=
  le_backToBoundary boundary (Nat.le_min.2 ⟨le, boundary.le_size⟩)

theorem clampToBoundary_append (before after : List Char) :
    clampToBoundary (before ++ after) (byteCount before) = byteCount before := by
  have boundary : IsBoundary (before ++ after) (byteCount before) :=
    ⟨before, List.prefix_append before after, rfl⟩
  exact Nat.le_antisymm (clampToBoundary_le _ _) (le_clampToBoundary boundary (Nat.le_refl _))

theorem Position.offset_locate (before after : List Char) :
    (locate (before ++ after) (byteCount before)).offset = byteCount before :=
  clampToBoundary_append before after

/-- The span of some characters does not end before it starts. -/
theorem Location.ofSpan_parts (text before piece : List Char) :
    Location.ofSpan text ⟨byteCount before, byteCount (before ++ piece)⟩ =
      ⟨.locate text (byteCount before), .locate text (byteCount (before ++ piece))⟩ := by
  rw [Location.ofSpan, Nat.max_eq_right (byteCount_mono (List.prefix_append before piece))]

/-- A span of whole characters keeps both its offsets. -/
theorem Location.ofSpan_offsets (before piece after : List Char) :
    let range := Location.ofSpan (before ++ (piece ++ after))
      ⟨byteCount before, byteCount (before ++ piece)⟩
    range.start.offset = byteCount before ∧ range.stop.offset = byteCount (before ++ piece) := by
  rw [Location.ofSpan_parts, ← List.append_assoc]
  refine ⟨?_, Position.offset_locate (before ++ piece) after⟩
  rw [List.append_assoc]
  exact Position.offset_locate before (piece ++ after)

end Storyboard
