import Storyboard.Proofs.Json.Numerals
import Storyboard.Proofs.Json.Strings

/-!
# The tokens of JSON texts

A text spells a row of tokens if it is their texts with blanks between them, and no number is
followed by what could be more of it (`Spells`). Such a text is cut into these tokens
(`tokenize?_of_spells`). The compact text and the pretty text of a value both spell its tokens
(`spells_compactText`, `spells_prettyText`).
-/

namespace Storyboard.Json

variable {t : Token} {ts : List Token} {c : Char} {cs after : List Char}

/-- The numbers among the tokens can be read back. -/
def Token.Plain : Token → Prop
  | .number n => n.Plain
  | _ => True

/-- The numbers of the value can be read back. -/
def Plain (v : Json) : Prop :=
  ∀ t ∈ v.tokens, t.Plain

/-- What a number may be followed by. -/
def EndsNumber (after : List Char) : Prop :=
  ∀ c, after.head? = some c → isNumeralChar c = false

/-- A row of tokens as it may stand in a text. -/
inductive Spells : List Token → List Char → Prop where
  | nil : Spells [] []
  | blank {c : Char} {ts : List Token} {cs : List Char} (blank : isSpace c) (rest : Spells ts cs) :
    Spells ts (c :: cs)
  | token {t : Token} {ts : List Token} {cs : List Char} (plain : t.Plain)
    (ends : ∀ n, t = .number n → EndsNumber cs) (rest : Spells ts cs) :
    Spells (t :: ts) (t.text ++ cs)

theorem token?_numeral (numeral : isNumeralChar c) (cs : List Char) :
    token? c cs = (number? (c :: cs.takeWhile isNumeralChar)).map fun n =>
      (.number n, cs.dropWhile isNumeralChar) := by
  unfold token?
  split
  case h_11 => rfl
  all_goals exact absurd numeral (by decide)

/-- A number is taken whole if no numeral character stands after it. -/
theorem token?_number {n : Number} (plain : n.Plain) (ends : EndsNumber after) :
    ∃ c cs, n.text = c :: cs ∧ isSpace c = false ∧
      token? c (cs ++ after) = some (.number n, after) := by
  obtain ⟨c, cs, text⟩ := List.exists_cons_of_ne_nil (text_ne_nil plain)
  have numeral := isNumeralChar_text plain
  rw [text, List.forall_mem_cons] at numeral
  refine ⟨c, cs, text, ?_, ?_⟩
  · rw [Bool.eq_false_iff]
    intro space
    have blank : c = ' ' ∨ c = '\n' ∨ c = '\t' ∨ c = '\r' := by simpa [isSpace, or_assoc] using space
    rcases blank with rfl | rfl | rfl | rfl <;> exact absurd numeral.1 (by decide)
  · rw [token?_numeral numeral.1, takeWhile_row numeral.2 ends, dropWhile_row numeral.2 ends,
      ← text, number?_text plain]
    rfl

/-- A token is read back from its text. -/
theorem token?_text (plain : t.Plain) (ends : ∀ n, t = .number n → EndsNumber after) :
    ∃ c cs, t.text = c :: cs ∧ isSpace c = false ∧ token? c (cs ++ after) = some (t, after) := by
  cases t with
  | number n => exact token?_number plain (ends n rfl)
  | string s =>
    refine ⟨'"', s.toList.flatMap escape ++ ['"'], rfl, by decide, ?_⟩
    have body := stringBody?_quoted s.toList after
    simp only [token?, List.append_assoc, List.singleton_append, body, Option.map_some,
      String.ofList_toList]
  | bool b => cases b <;> exact ⟨_, _, rfl, by decide, rfl⟩
  | _ => exact ⟨_, _, rfl, by decide, rfl⟩

theorem tokenize?_blank (blank : isSpace c) : tokenize? (c :: cs) = tokenize? cs := by
  rw [tokenize?, if_pos blank]

theorem tokenize?_token (space : isSpace c = false) (taken : token? c cs = some (t, after)) :
    tokenize? (c :: cs) = (tokenize? after).map (t :: ·) := by
  rw [tokenize?, if_neg (by rw [space]; exact Bool.false_ne_true)]
  split
  · rename_i none
    rw [taken] at none
    cases none
  · rename_i read
    rw [taken] at read
    cases read
    rfl

/-- A text in which blanks stand between tokens only is cut into those tokens. -/
theorem tokenize?_of_spells (spells : Spells ts cs) : tokenize? cs = some ts := by
  induction spells with
  | nil => rw [tokenize?]
  | blank blank _ ih => rw [tokenize?_blank blank, ih]
  | token plain ends _ ih =>
    obtain ⟨c, rest, text, space, taken⟩ := token?_text plain ends
    rw [text, List.cons_append, tokenize?_token space taken, ih]
    rfl

/-- What follows the first item of an array. -/
def laterItems : List Json → List Token
  | [] => [.arrayClose]
  | item :: rest => .comma :: itemTokens (item :: rest)

/-- What follows the first field of an object. -/
def laterFields : List (String × Json) → List Token
  | [] => [.objectClose]
  | field :: rest => .comma :: fieldTokens (field :: rest)

theorem itemTokens_cons (item : Json) (rest : List Json) :
    itemTokens (item :: rest) = item.tokens ++ laterItems rest := by
  cases rest with
  | nil => rw [itemTokens, laterItems]
  | cons next rest => rw [itemTokens, laterItems]

theorem fieldTokens_cons (key : String) (value : Json) (rest : List (String × Json)) :
    fieldTokens ((key, value) :: rest) =
      .string key :: .colon :: (value.tokens ++ laterFields rest) := by
  cases rest with
  | nil => rw [fieldTokens, laterFields]; rfl
  | cons next rest => rw [fieldTokens, laterFields]; rfl

theorem tokens_array (item : Json) (rest : List Json) :
    (Json.array (item :: rest)).tokens = .arrayOpen :: (item.tokens ++ laterItems rest) := by
  rw [tokens, itemTokens_cons]

theorem tokens_object (key : String) (value : Json) (rest : List (String × Json)) :
    (Json.object ((key, value) :: rest)).tokens =
      .objectOpen :: .string key :: .colon :: (value.tokens ++ laterFields rest) := by
  rw [tokens, fieldTokens_cons]

theorem laterItems_cons (item : Json) (rest : List Json) :
    laterItems (item :: rest) = .comma :: (item.tokens ++ laterItems rest) := by
  rw [laterItems, itemTokens_cons]

theorem laterFields_cons (key : String) (value : Json) (rest : List (String × Json)) :
    laterFields ((key, value) :: rest) =
      .comma :: .string key :: .colon :: (value.tokens ++ laterFields rest) := by
  rw [laterFields, fieldTokens_cons]

theorem plain_array_cons {item : Json} {items : List Json} :
    Plain (.array (item :: items)) ↔ Plain item ∧ ∀ t ∈ laterItems items, t.Plain := by
  rw [Plain, tokens_array, List.forall_mem_cons, List.forall_mem_append]
  exact and_iff_right trivial

theorem plain_laterItems_cons {item : Json} {items : List Json} :
    (∀ t ∈ laterItems (item :: items), t.Plain) ↔
      Plain item ∧ ∀ t ∈ laterItems items, t.Plain := by
  rw [laterItems_cons, List.forall_mem_cons, List.forall_mem_append]
  exact and_iff_right trivial

theorem plain_object_cons {key : String} {value : Json} {fields : List (String × Json)} :
    Plain (.object ((key, value) :: fields)) ↔
      Plain value ∧ ∀ t ∈ laterFields fields, t.Plain := by
  simp only [Plain, tokens_object, List.forall_mem_cons, List.forall_mem_append]
  simp only [Token.Plain, true_and]

theorem plain_laterFields_cons {key : String} {value : Json} {fields : List (String × Json)} :
    (∀ t ∈ laterFields ((key, value) :: fields), t.Plain) ↔
      Plain value ∧ ∀ t ∈ laterFields fields, t.Plain := by
  simp only [Plain, laterFields_cons, List.forall_mem_cons, List.forall_mem_append]
  simp only [Token.Plain, true_and]

theorem endsNumber_cons (other : isNumeralChar c = false) : EndsNumber (c :: cs) := by
  rintro _ ⟨⟩
  exact other

theorem Spells.other (plain : t.Plain) (other : ∀ n, t ≠ .number n) (rest : Spells ts cs) :
    Spells (t :: ts) (t.text ++ cs) :=
  .token plain (fun n same => absurd same (other n)) rest

theorem endsNumber_laterItems (items : List Json) :
    EndsNumber ((laterItems items).flatMap Token.text ++ after) := by
  cases items <;> exact endsNumber_cons (by decide)

theorem endsNumber_laterFields (fields : List (String × Json)) :
    EndsNumber ((laterFields fields).flatMap Token.text ++ after) := by
  cases fields <;> exact endsNumber_cons (by decide)

mutual

/-- The texts of the tokens of a value, one after the other, may stand in a text. -/
theorem spells_tokens (v : Json) (plain : Plain v) {ts : List Token} {after : List Char}
    (rest : Spells ts after) (ends : EndsNumber after) :
    Spells (v.tokens ++ ts) (v.tokens.flatMap Token.text ++ after) := by
  match v with
  | .null => exact .other trivial nofun rest
  | .bool b =>
    rw [tokens, List.flatMap_singleton]
    exact .other trivial nofun rest
  | .number n =>
    rw [Plain, tokens, List.forall_mem_singleton] at plain
    rw [tokens, List.flatMap_singleton]
    exact .token plain (fun _ _ => ends) rest
  | .string s =>
    rw [tokens, List.flatMap_singleton]
    exact .other trivial nofun rest
  | .array [] => exact .other trivial nofun (.other trivial nofun rest)
  | .array (item :: items) =>
    obtain ⟨item_plain, later_plain⟩ := plain_array_cons.1 plain
    rw [tokens_array]
    simp only [List.flatMap_cons, List.flatMap_append, List.append_assoc, List.cons_append]
    have later := spells_laterItems items later_plain rest
    exact .other trivial nofun (spells_tokens item item_plain later (endsNumber_laterItems items))
  | .object [] => exact .other trivial nofun (.other trivial nofun rest)
  | .object ((key, value) :: fields) =>
    obtain ⟨value_plain, later_plain⟩ := plain_object_cons.1 plain
    rw [tokens_object]
    simp only [List.flatMap_cons, List.flatMap_append, List.append_assoc, List.cons_append]
    have later := spells_laterFields fields later_plain rest
    have first := spells_tokens value value_plain later (endsNumber_laterFields fields)
    exact .other trivial nofun (.other trivial nofun (.other trivial nofun first))

theorem spells_laterItems (items : List Json) (plain : ∀ t ∈ laterItems items, t.Plain)
    {ts : List Token} {after : List Char} (rest : Spells ts after) :
    Spells (laterItems items ++ ts) ((laterItems items).flatMap Token.text ++ after) := by
  match items with
  | [] => exact .other trivial nofun rest
  | item :: items =>
    obtain ⟨item_plain, later_plain⟩ := plain_laterItems_cons.1 plain
    rw [laterItems_cons]
    simp only [List.flatMap_cons, List.flatMap_append, List.append_assoc, List.cons_append]
    have later := spells_laterItems items later_plain rest
    exact .other trivial nofun (spells_tokens item item_plain later (endsNumber_laterItems items))

theorem spells_laterFields (fields : List (String × Json))
    (plain : ∀ t ∈ laterFields fields, t.Plain) {ts : List Token} {after : List Char}
    (rest : Spells ts after) :
    Spells (laterFields fields ++ ts) ((laterFields fields).flatMap Token.text ++ after) := by
  match fields with
  | [] => exact .other trivial nofun rest
  | (key, value) :: fields =>
    obtain ⟨value_plain, later_plain⟩ := plain_laterFields_cons.1 plain
    rw [laterFields_cons]
    simp only [List.flatMap_cons, List.flatMap_append, List.append_assoc, List.cons_append]
    have later := spells_laterFields fields later_plain rest
    have first := spells_tokens value value_plain later (endsNumber_laterFields fields)
    exact .other trivial nofun (.other trivial nofun (.other trivial nofun first))

end

/-- The compact text puts nothing between the tokens. -/
theorem spells_compactText {v : Json} (plain : Plain v) : Spells v.tokens v.compactText := by
  have spells := spells_tokens v plain .nil (by rintro _ ⟨⟩)
  rwa [List.append_nil, List.append_nil] at spells

variable {depth : Nat}

/-- A new line and its blanks stand between two tokens. -/
theorem spells_newLine (depth : Nat) (rest : Spells ts cs) : Spells ts (newLine depth ++ cs) := by
  have blanks (k : Nat) : Spells ts (List.replicate k ' ' ++ cs) := by
    induction k with
    | zero => exact rest
    | succ k ih => exact .blank rfl ih
  exact .blank rfl (blanks (2 * depth))

theorem endsNumber_prettyItems (items : List Json) :
    EndsNumber (prettyItems depth items ++ after) := by
  cases items <;> rw [prettyItems] <;> exact endsNumber_cons (by decide)

theorem endsNumber_prettyFields (fields : List (String × Json)) :
    EndsNumber (prettyFields depth fields ++ after) := by
  match fields with
  | [] => rw [prettyFields]; exact endsNumber_cons (by decide)
  | (key, value) :: fields => rw [prettyFields]; exact endsNumber_cons (by decide)

mutual

/-- The pretty text of a value may stand in a text. -/
theorem spells_pretty (v : Json) (plain : Plain v) (depth : Nat) {ts : List Token}
    {after : List Char} (rest : Spells ts after) (ends : EndsNumber after) :
    Spells (v.tokens ++ ts) (v.prettyText depth ++ after) := by
  match v with
  | .null => exact .other trivial nofun rest
  | .bool b =>
    rw [tokens, prettyText]
    exact .other trivial nofun rest
  | .number n =>
    rw [Plain, tokens, List.forall_mem_singleton] at plain
    rw [tokens, prettyText]
    exact .token plain (fun _ _ => ends) rest
  | .string s =>
    rw [tokens, prettyText]
    exact .other trivial nofun rest
  | .array [] =>
    rw [prettyText]
    exact .other (t := .arrayOpen) trivial nofun (.other (t := .arrayClose) trivial nofun rest)
  | .array (item :: items) =>
    obtain ⟨item_plain, later_plain⟩ := plain_array_cons.1 plain
    rw [tokens_array, prettyText]
    simp only [List.append_assoc, List.cons_append]
    have later := spells_prettyItems items later_plain depth rest
    have first := spells_pretty item item_plain (depth + 1) later (endsNumber_prettyItems items)
    exact .other (t := .arrayOpen) trivial nofun (spells_newLine (depth + 1) first)
  | .object [] =>
    rw [prettyText]
    exact .other (t := .objectOpen) trivial nofun (.other (t := .objectClose) trivial nofun rest)
  | .object ((key, value) :: fields) =>
    obtain ⟨value_plain, later_plain⟩ := plain_object_cons.1 plain
    rw [tokens_object, prettyText]
    simp only [List.append_assoc, List.cons_append]
    have later := spells_prettyFields fields later_plain depth rest
    have first := spells_pretty value value_plain (depth + 1) later (endsNumber_prettyFields fields)
    have colon := Spells.other (t := .colon) trivial nofun (.blank (c := ' ') rfl first)
    have name := Spells.other (t := .string key) trivial nofun colon
    exact .other (t := .objectOpen) trivial nofun (spells_newLine (depth + 1) name)

theorem spells_prettyItems (items : List Json) (plain : ∀ t ∈ laterItems items, t.Plain)
    (depth : Nat) {ts : List Token} {after : List Char} (rest : Spells ts after) :
    Spells (laterItems items ++ ts) (prettyItems depth items ++ after) := by
  match items with
  | [] =>
    rw [prettyItems, List.append_assoc]
    exact spells_newLine depth (.other (t := .arrayClose) trivial nofun rest)
  | item :: items =>
    obtain ⟨item_plain, later_plain⟩ := plain_laterItems_cons.1 plain
    rw [laterItems_cons, prettyItems]
    simp only [List.append_assoc, List.cons_append]
    have later := spells_prettyItems items later_plain depth rest
    have first := spells_pretty item item_plain (depth + 1) later (endsNumber_prettyItems items)
    exact .other (t := .comma) trivial nofun (spells_newLine (depth + 1) first)

theorem spells_prettyFields (fields : List (String × Json))
    (plain : ∀ t ∈ laterFields fields, t.Plain) (depth : Nat) {ts : List Token}
    {after : List Char} (rest : Spells ts after) :
    Spells (laterFields fields ++ ts) (prettyFields depth fields ++ after) := by
  match fields with
  | [] =>
    rw [prettyFields, List.append_assoc]
    exact spells_newLine depth (.other (t := .objectClose) trivial nofun rest)
  | (key, value) :: fields =>
    obtain ⟨value_plain, later_plain⟩ := plain_laterFields_cons.1 plain
    rw [laterFields_cons, prettyFields]
    simp only [List.append_assoc, List.cons_append]
    have later := spells_prettyFields fields later_plain depth rest
    have first := spells_pretty value value_plain (depth + 1) later (endsNumber_prettyFields fields)
    have colon := Spells.other (t := .colon) trivial nofun (.blank (c := ' ') rfl first)
    have name := Spells.other (t := .string key) trivial nofun colon
    exact .other (t := .comma) trivial nofun (spells_newLine (depth + 1) name)

end

/-- The pretty text puts line ends and blanks between the tokens. -/
theorem spells_prettyText {v : Json} (plain : Plain v) : Spells v.tokens (v.prettyText 0) := by
  have spells := spells_pretty v plain 0 .nil (by rintro _ ⟨⟩)
  rwa [List.append_nil, List.append_nil] at spells

end Storyboard.Json
