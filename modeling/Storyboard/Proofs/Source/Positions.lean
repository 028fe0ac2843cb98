import Mathlib.Data.List.DropRight
import Storyboard.Proofs.Rows
import Storyboard.Proofs.Source.Places

/-!
# What positions say

Main statements: the position found for a byte offset is the last place between two characters that
is not beyond it, with the line and the column counted up to there (`resolves_locate`), and its line
and column tell where it is (`offset_of_line_column`).
-/

namespace Storyboard

variable {text earlier front more : List Char} {offset : Nat}

/-- A line starts after this much of a text. -/
inductive StartsLine : List Char → Prop
  | text : StartsLine []
  | newline {before : List Char} : StartsLine (before ++ ['\n'])

theorem exists_start (before : List Char) :
    ∃ earlier front, before = earlier ++ front ∧ StartsLine earlier ∧ '\n' ∉ front := by
  induction before using List.reverseRecOn with
  | nil => exact ⟨[], [], rfl, .text, List.not_mem_nil⟩
  | append_singleton before c ih =>
    by_cases newline : c = '\n'
    · exact ⟨before ++ [c], [], (List.append_nil _).symm, newline ▸ .newline, List.not_mem_nil⟩
    · obtain ⟨earlier, front, rfl, starts, single⟩ := ih
      refine ⟨earlier, front ++ [c], List.append_assoc .., starts, ?_⟩
      simpa [single] using Ne.symm newline

theorem count_line (earlier : List Char) (single : '\n' ∉ front) :
    (earlier ++ front).count '\n' = earlier.count '\n' := by
  rw [List.count_append, List.count_eq_zero.2 single, Nat.add_zero]

/-- Characters on the same line count on from the column. -/
theorem rtakeWhile_append (a : List Char) {more : List Char} (single : '\n' ∉ more) :
    (a ++ more).rtakeWhile (· ≠ '\n') = a.rtakeWhile (· ≠ '\n') ++ more := by
  induction more using List.reverseRecOn with
  | nil => rw [List.append_nil, List.append_nil]
  | append_singleton more c ih =>
    rw [List.mem_append, not_or] at single
    have other : c ≠ '\n' := fun newline => single.2 (newline ▸ List.mem_singleton_self c)
    rw [← List.append_assoc, List.rtakeWhile_concat_pos _ _ _ (by simp [other]),
      ih single.1, List.append_assoc]

theorem rtakeWhile_line (starts : StartsLine earlier) (single : '\n' ∉ front) :
    (earlier ++ front).rtakeWhile (· ≠ '\n') = front := by
  have none : earlier.rtakeWhile (· ≠ '\n') = [] := by
    cases starts with
    | text => rfl
    | newline => exact List.rtakeWhile_concat_neg _ _ _ (by simp)
  rw [rtakeWhile_append earlier single, none, List.nil_append]

theorem newlineEnds_append (start : Nat) (a b : List Char) :
    newlineEnds start (a ++ b) = newlineEnds start a ++ newlineEnds (start + byteCount a) b := by
  induction a generalizing start with
  | nil => rfl
  | cons c a ih =>
    rw [List.cons_append, newlineEnds, newlineEnds, byteCount, ← Nat.add_assoc, ih]
    split <;> rfl

theorem newlineEnds_bounds {start k : Nat} {cs : List Char} (listed : k ∈ newlineEnds start cs) :
    start < k ∧ k ≤ start + byteCount cs := by
  induction cs generalizing start with
  | nil => cases listed
  | cons c cs ih =>
    have size := c.utf8Size_pos
    have later (listed : k ∈ newlineEnds (start + c.utf8Size) cs) :
        start < k ∧ k ≤ start + byteCount (c :: cs) := by
      have bounds := ih listed
      rw [byteCount]
      omega
    rw [newlineEnds] at listed
    split at listed
    · rcases List.mem_cons.1 listed with rfl | listed
      · rw [byteCount]
        omega
      · exact later listed
    · exact later listed

theorem length_newlineEnds (start : Nat) (cs : List Char) :
    (newlineEnds start cs).length = cs.count '\n' := by
  induction cs generalizing start with
  | nil => rfl
  | cons c cs ih =>
    rw [newlineEnds, List.count_cons]
    split
    · rename_i newline
      rw [List.length_cons, ih, if_pos (beq_iff_eq.2 newline)]
    · rename_i other
      rw [ih, if_neg (by simpa using other), Nat.add_zero]

/-- There is one line more than there are newlines. -/
theorem length_lineStarts (cs : List Char) : (lineStarts cs).length = cs.count '\n' + 1 := by
  rw [lineStarts, List.length_cons, length_newlineEnds]

/-- The lines that start at a place or before are those of the text up to it. -/
theorem takeWhile_lineStarts (before after : List Char) :
    (lineStarts (before ++ after)).takeWhile (· ≤ byteCount before) = lineStarts before := by
  rw [lineStarts, newlineEnds_append, ← List.cons_append, Nat.zero_add]
  refine takeWhile_row ?_ ?_
  · intro k listed
    rcases List.mem_cons.1 listed with rfl | listed
    · simp
    · have bounds := newlineEnds_bounds listed
      simp only [decide_eq_true_iff]
      omega
  · intro k next
    have bounds := newlineEnds_bounds (List.mem_of_head? next)
    simp only [decide_eq_false_iff_not]
    omega

/-- The last of them is where the line with the place starts. -/
theorem getElem?_lineStarts (starts : StartsLine earlier) (more : List Char) :
    (lineStarts (earlier ++ more))[earlier.count '\n']? = some (byteCount earlier) := by
  cases starts with
  | text => rfl
  | @newline before =>
    have next : lineStarts (before ++ ['\n'] ++ more) =
        lineStarts before ++ byteCount (before ++ ['\n']) ::
          newlineEnds (byteCount (before ++ ['\n'])) more := by
      rw [lineStarts, List.append_assoc, newlineEnds_append, Nat.zero_add, List.singleton_append,
        newlineEnds, if_pos rfl, byteCount_append]
      rfl
    have passed : (before ++ ['\n']).count '\n' = (lineStarts before).length := by
      rw [List.count_append, length_lineStarts]
      rfl
    rw [next, passed, List.getElem?_append_right (Nat.le_refl _), Nat.sub_self]
    rfl

namespace Position

variable {p q : Position}

/-- The line and the column of the place after these characters. -/
structure Counts (before : List Char) (p : Position) : Prop where
  line : p.line = 1 + before.count '\n'
  column : p.column = 1 + (before.rtakeWhile (· ≠ '\n')).length

/-- The position is the last one in the text that is not beyond the offset. -/
structure Resolves (text : List Char) (offset : Nat) (p : Position) : Prop where
  boundary : IsBoundary text p.offset
  le_offset : p.offset ≤ offset
  le_size : p.offset ≤ byteCount text
  largest : ∀ k, IsBoundary text k → k ≤ offset → k ≤ p.offset
  counts : ∀ before, before <+: text → byteCount before = p.offset → Counts before p

/-- The search among the starts of lines finds the line that counting newlines gives. -/
theorem counts_locate (before after : List Char) :
    Counts before (locate (before ++ after) (byteCount before)) := by
  obtain ⟨earlier, front, rfl, starts, single⟩ := exists_start before
  have line : (lineStarts (earlier ++ front)).length - 1 = earlier.count '\n' := by
    rw [length_lineStarts, count_line earlier single, Nat.add_sub_cancel]
  have start : (lineStarts (earlier ++ front ++ after)).getD (earlier.count '\n') 0 =
      byteCount earlier := by
    rw [List.append_assoc, List.getD_eq_getElem?_getD, getElem?_lineStarts starts]
    rfl
  constructor
  · rw [locate, clampToBoundary_append, takeWhile_lineStarts, line, count_line earlier single]
    exact Nat.add_comm _ _
  · simp only [locate]
    rw [clampToBoundary_append, takeWhile_lineStarts, line, start, List.append_assoc, slice_append,
      rtakeWhile_line starts single]
    exact Nat.add_comm _ _

theorem resolves_locate (text : List Char) (offset : Nat) :
    Resolves text offset (locate text offset) := by
  refine ⟨isBoundary_clampToBoundary text offset, clampToBoundary_le text offset,
    (isBoundary_clampToBoundary text offset).le_size, fun k => le_clampToBoundary, ?_⟩
  rintro before ⟨after, rfl⟩ here
  have same : locate (before ++ after) (byteCount before) = locate (before ++ after) offset := by
    have here' : byteCount before = clampToBoundary (before ++ after) offset := here
    unfold locate
    rw [clampToBoundary_append, here']
  rw [← same]
  exact counts_locate before after

theorem count_prefix_lt {a more : List Char} (newline : '\n' ∈ more) :
    a.count '\n' < (a ++ more).count '\n' := by
  rw [List.count_append]
  have := List.count_pos_iff.2 newline
  omega

/-- Line and column together say which part of a text stands before them. -/
theorem eq_of_counts {a b : List Char} (shorter : a <+: b) (first : Counts a p)
    (second : Counts b q) (line : p.line = q.line) (column : p.column = q.column) : a = b := by
  obtain ⟨more, rfl⟩ := shorter
  rw [first.line, second.line] at line
  rw [first.column, second.column] at column
  have inside : '\n' ∉ more := fun newline => by
    have := count_prefix_lt (a := a) newline
    omega
  rw [rtakeWhile_append a inside, List.length_append] at column
  have none : more = [] := List.eq_nil_of_length_eq_zero (by omega)
  rw [none, List.append_nil]

/-- So two offsets with one line and one column resolve to one place. -/
theorem offset_of_line_column {i j : Nat} (first : Resolves text i p) (second : Resolves text j q)
    (line : p.line = q.line) (column : p.column = q.column) : p.offset = q.offset := by
  obtain ⟨a, begins, here⟩ := first.boundary
  obtain ⟨b, begins', there⟩ := second.boundary
  have countsA := first.counts a begins here
  have countsB := second.counts b begins' there
  rw [← here, ← there]
  rcases List.prefix_or_prefix_of_prefix begins begins' with shorter | shorter
  · rw [eq_of_counts shorter countsA countsB line column]
  · rw [eq_of_counts shorter countsB countsA line.symm column.symm]

end Position
end Storyboard
