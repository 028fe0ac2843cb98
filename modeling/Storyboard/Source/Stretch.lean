namespace Storyboard

/-- The stretches between separators: one more than there are separators. -/
def stretches (separator : Char) : List Char → List (List Char)
  | [] => [[]]
  | c :: cs =>
    if c = separator then [] :: stretches separator cs
    else match stretches separator cs with
      | [] => [[c]]
      | stretch :: rest => (c :: stretch) :: rest

theorem stretches_ne_nil (separator : Char) (cs : List Char) : stretches separator cs ≠ [] := by
  cases cs with
  | nil => simp [stretches]
  | cons c cs =>
    rw [stretches]
    split
    · simp
    · split <;> simp

theorem exists_stretches (separator : Char) (cs : List Char) :
    ∃ first others, stretches separator cs = first :: others :=
  List.exists_cons_of_ne_nil (stretches_ne_nil separator cs)

/-- A character that is not a separator joins the first stretch. -/
theorem stretches_cons {separator c : Char} {cs first : List Char} {others : List (List Char)}
    (apart : c ≠ separator) (cut : stretches separator cs = first :: others) :
    stretches separator (c :: cs) = (c :: first) :: others := by
  rw [stretches, if_neg apart, cut]

theorem stretches_append (separator : Char) (a b : List Char) :
    stretches separator (a ++ separator :: b) = stretches separator a ++ stretches separator b := by
  induction a with
  | nil =>
    rw [List.nil_append, stretches, stretches, if_pos rfl]
    rfl
  | cons c a ih =>
    by_cases same : c = separator
    · rw [List.cons_append, stretches, stretches, if_pos same, if_pos same, ih]
      rfl
    · obtain ⟨first, others, cut⟩ := exists_stretches separator a
      rw [cut] at ih
      rw [List.cons_append, stretches_cons same cut, stretches_cons same ih]
      rfl

theorem stretches_of_not_mem {separator : Char} {row : List Char} (without : separator ∉ row) :
    stretches separator row = [row] := by
  induction row with
  | nil => rfl
  | cons c row ih =>
    rw [List.mem_cons, not_or] at without
    exact stretches_cons (Ne.symm without.1) (ih without.2)

theorem length_stretches (separator : Char) (cs : List Char) :
    (stretches separator cs).length = cs.count separator + 1 := by
  induction cs with
  | nil => rfl
  | cons c cs ih =>
    by_cases same : c = separator
    · rw [stretches, if_pos same, List.length_cons, ih, same, List.count_cons_self]
    · obtain ⟨first, others, cut⟩ := exists_stretches separator cs
      rw [stretches_cons same cut, List.count_cons_of_ne same, ← ih, cut]
      rfl

theorem intercalate_stretches (separator : Char) (cs : List Char) :
    [separator].intercalate (stretches separator cs) = cs := by
  induction cs with
  | nil => rfl
  | cons c cs ih =>
    by_cases same : c = separator
    · rw [stretches, if_pos same,
        List.intercalate_cons_of_ne_nil (stretches_ne_nil separator cs), ih, same]
      rfl
    · obtain ⟨first, others, cut⟩ := exists_stretches separator cs
      rw [stretches_cons same cut]
      rw [cut] at ih
      cases others with
      | nil => simpa using ih
      | cons next others => simpa using ih

end Storyboard
