import Storyboard.Proofs.Source.Positions
import Storyboard.Source.Line

namespace Storyboard

variable {text before after front tail earlier line more rest : List Char}

/-- The line ends before `rest`; a carriage return before the newline is not part of it. -/
inductive EndsLine (line : List Char) : List Char → Prop
  | text : EndsLine line []
  | newline {more : List Char} (bare : line.getLast? ≠ some '\r') : EndsLine line ('\n' :: more)
  | returned {more : List Char} : EndsLine line ('\r' :: '\n' :: more)

/-- The place after `before` is between `front` and `tail` on a line of the text. -/
structure LineAt (text before front tail : List Char) : Prop where
  start : ∃ earlier, before = earlier ++ front ∧ StartsLine earlier
  stop : ∃ rest, text = before ++ (tail ++ rest) ∧ EndsLine (front ++ tail) rest
  single : '\n' ∉ front ++ tail

/-- What a line end has before its newline. -/
theorem EndsLine.nil_or_return (ends : EndsLine line rest) (begins : more <+: rest)
    (single : '\n' ∉ more) : more = [] ∨ more = ['\r'] := by
  cases ends with
  | text => exact .inl (List.prefix_nil.1 begins)
  | newline =>
    rcases List.prefix_cons_iff.1 begins with rfl | ⟨others, rfl, -⟩
    · exact .inl rfl
    · exact absurd List.mem_cons_self single
  | returned =>
    rcases List.prefix_cons_iff.1 begins with rfl | ⟨others, rfl, begins'⟩
    · exact .inl rfl
    · rcases List.prefix_cons_iff.1 begins' with rfl | ⟨others, rfl, -⟩
      · exact .inr rfl
      · exact absurd (by simp) single

/-- What stands before the place on its line gives the column. -/
theorem LineAt.column {p : Position} (place : LineAt text before front tail)
    (counts : p.Counts before) : p.column = 1 + front.length := by
  obtain ⟨earlier, rfl, starts⟩ := place.start
  have single : '\n' ∉ front := fun listed => place.single (List.mem_append_left _ listed)
  rw [counts.column, rtakeWhile_line starts single]

/-- The lines of two texts joined by a newline. -/
theorem lines_append (a b : List Char) :
    lines (a ++ '\n' :: b) = (stretches '\n' a).map dropReturn ++ lines b := by
  have last := stretches_ne_nil '\n' b
  simp only [lines]
  rw [stretches_append, List.dropLast_append_of_ne_nil last, List.map_append, List.append_assoc,
    List.getLast?_append_of_ne_nil _ last]

theorem lines_of_not_mem (single : '\n' ∉ line) :
    lines line = if line = [] then [] else [line] := by
  rw [lines, stretches_of_not_mem single]
  cases line <;> rfl

/-- As many lines end before a line as there are newlines. -/
theorem getElem?_lines (starts : StartsLine earlier) (more : List Char) :
    (lines (earlier ++ more))[earlier.count '\n']? = (lines more)[0]? := by
  cases starts with
  | text => rfl
  | @newline before =>
    have ended : ((stretches '\n' before).map dropReturn).length = before.count '\n' + 1 := by
      rw [List.length_map, length_stretches]
    rw [List.append_assoc, List.singleton_append, lines_append, List.count_append,
      List.getElem?_append_right (by rw [ended]; rfl), ended]
    simp

theorem dropReturn_concat (cs : List Char) (c : Char) :
    dropReturn (cs ++ [c]) = if c = '\r' then cs else cs ++ [c] := by
  simp [dropReturn]

/-- The first line of a text. -/
theorem lines_newline (single : '\n' ∉ line) (more : List Char) :
    (lines (line ++ '\n' :: more))[0]? = some (dropReturn line) := by
  rw [lines_append, stretches_of_not_mem single]
  rfl

/-- What stands before the line end is shown, if the line does not end before `after`. -/
theorem exists_tail (single : '\n' ∉ front) (go : after.head? ≠ some '\n') :
    ∃ tail rest, after = tail ++ rest ∧ EndsLine (front ++ tail) rest ∧ '\n' ∉ front ++ tail ∧
      ((lines (front ++ after))[0]?).getD [] = front ++ tail := by
  by_cases newline : '\n' ∈ after
  · obtain ⟨flat, rest, rfl, without⟩ := List.eq_append_cons_of_mem newline
    have whole : '\n' ∉ front ++ flat := by simp [single, without]
    rw [← List.append_assoc, lines_newline whole, Option.getD_some]
    rcases List.eq_nil_or_concat' flat with rfl | ⟨tail, c, rfl⟩
    · exact absurd rfl go
    · rw [← List.append_assoc] at whole ⊢
      rw [dropReturn_concat]
      -- a carriage return before the newline is of the line end, any other character of the line
      split
      · rename_i returned
        refine ⟨tail, '\r' :: '\n' :: rest, ?_, .returned, ?_, rfl⟩
        · rw [returned, List.append_assoc, List.singleton_append]
        · exact fun listed => whole (List.mem_append_left _ listed)
      · rename_i bare
        rw [List.append_assoc] at whole
        refine ⟨tail ++ [c], '\n' :: rest, rfl, .newline ?_, whole, List.append_assoc ..⟩
        rw [← List.append_assoc, List.getLast?_concat, Option.some_inj.ne]
        exact bare
  · have whole : '\n' ∉ front ++ after := by simp [single, newline]
    refine ⟨after, [], (List.append_nil _).symm, .text, whole, ?_⟩
    rw [lines_of_not_mem whole]
    split
    · rename_i none
      exact none.symm
    · rfl

/-- The line with as many line ends before it as there are newlines before the place. -/
theorem exists_lineAt (before : List Char) (go : after.head? ≠ some '\n') :
    ∃ front tail, LineAt (before ++ after) before front tail ∧
      ((lines (before ++ after))[before.count '\n']?).getD [] = front ++ tail := by
  obtain ⟨earlier, front, rfl, starts, single⟩ := exists_start before
  obtain ⟨tail, rest, rfl, ends, whole, shown⟩ := exists_tail single go
  refine ⟨front, tail, ⟨⟨earlier, rfl, starts⟩, ⟨rest, rfl, ends⟩, whole⟩, ?_⟩
  rw [List.append_assoc, count_line earlier single, getElem?_lines starts]
  exact shown

end Storyboard
