import Storyboard.Proofs.Json.Tokens

namespace Storyboard.Json

variable {v : Json}

/-- The machine on a row of tokens. -/
abbrev run (state : Await) (ts : List Token) : Option Await :=
  ts.foldlM Await.step state

/-- No value starts with the end of an array. -/
theorem exists_first_token (v : Json) : ∃ t ts, v.tokens = t :: ts ∧ t ≠ .arrayClose := by
  cases v <;> exact ⟨_, _, rfl, nofun⟩

/-- The first item of an array is a value like any other. -/
theorem run_firstItem (v : Json) (outer : List Pending) (ts : List Token) :
    run (.firstItem outer) (v.tokens ++ ts) =
      run (.value (.items [] :: outer)) (v.tokens ++ ts) := by
  obtain ⟨t, rest, tokens, other⟩ := exists_first_token v
  have same : (Await.firstItem outer).step t = (Await.value (.items [] :: outer)).step t := by
    cases t <;> first | rfl | exact absurd rfl other
  rw [tokens, List.cons_append, run, run, List.foldlM_cons, List.foldlM_cons, same]

mutual

/-- The tokens of a value complete the value that was waited for. -/
theorem run_tokens (v : Json) (outer : List Pending) (ts : List Token) :
    run (.value outer) (v.tokens ++ ts) = run (.after outer v) ts := by
  match v with
  | .null => rfl
  | .bool b => rw [tokens]; rfl
  | .number n => rw [tokens]; rfl
  | .string s => rw [tokens]; rfl
  | .array [] => rfl
  | .array (item :: items) =>
    rw [tokens_array, List.cons_append, List.append_assoc]
    calc run (.value outer) (.arrayOpen :: (item.tokens ++ (laterItems items ++ ts)))
        = run (.firstItem outer) (item.tokens ++ (laterItems items ++ ts)) := rfl
      _ = run (.value (.items [] :: outer)) (item.tokens ++ (laterItems items ++ ts)) :=
        run_firstItem item outer _
      _ = run (.after (.items [] :: outer) item) (laterItems items ++ ts) :=
        run_tokens item _ _
      _ = run (.after outer (.array (item :: items))) ts := run_laterItems items [] item outer ts
  | .object [] => rfl
  | .object ((key, value) :: fields) =>
    rw [tokens_object, List.cons_append, List.cons_append, List.cons_append, List.append_assoc]
    calc run (.value outer)
          (.objectOpen :: .string key :: .colon :: (value.tokens ++ (laterFields fields ++ ts)))
        = run (.value (.fields [] key :: outer)) (value.tokens ++ (laterFields fields ++ ts)) := rfl
      _ = run (.after (.fields [] key :: outer) value) (laterFields fields ++ ts) :=
        run_tokens value _ _
      _ = run (.after outer (.object ((key, value) :: fields))) ts :=
        run_laterFields fields [] key value outer ts

/-- Items are added to those before, and the end of the array completes it. -/
theorem run_laterItems (items before : List Json) (v : Json) (outer : List Pending)
    (ts : List Token) :
    run (.after (.items before :: outer) v) (laterItems items ++ ts) =
      run (.after outer (.array (before.reverse ++ v :: items))) ts := by
  match items with
  | [] =>
    have all : before.reverse ++ [v] = (v :: before).reverse := List.reverse_cons.symm
    rw [all]
    rfl
  | item :: items =>
    have all : before.reverse ++ v :: item :: items = (v :: before).reverse ++ item :: items := by
      rw [List.reverse_cons, List.append_assoc, List.singleton_append]
    rw [laterItems_cons, List.cons_append, List.append_assoc, all]
    calc run (.after (.items before :: outer) v)
          (.comma :: (item.tokens ++ (laterItems items ++ ts)))
        = run (.value (.items (v :: before) :: outer)) (item.tokens ++ (laterItems items ++ ts)) :=
          rfl
      _ = run (.after (.items (v :: before) :: outer) item) (laterItems items ++ ts) :=
        run_tokens item _ _
      _ = _ := run_laterItems items (v :: before) item outer ts

/-- Fields are added to those before, and the end of the object completes it. -/
theorem run_laterFields (fields before : List (String × Json)) (key : String) (v : Json)
    (outer : List Pending) (ts : List Token) :
    run (.after (.fields before key :: outer) v) (laterFields fields ++ ts) =
      run (.after outer (.object (before.reverse ++ (key, v) :: fields))) ts := by
  match fields with
  | [] =>
    have all : before.reverse ++ [(key, v)] = ((key, v) :: before).reverse :=
      List.reverse_cons.symm
    rw [all]
    rfl
  | (next, value) :: fields =>
    have all : before.reverse ++ (key, v) :: (next, value) :: fields =
        ((key, v) :: before).reverse ++ (next, value) :: fields := by
      rw [List.reverse_cons, List.append_assoc, List.singleton_append]
    rw [laterFields_cons, List.cons_append, List.cons_append, List.cons_append, List.append_assoc,
      all]
    calc run (.after (.fields before key :: outer) v)
          (.comma :: .string next :: .colon :: (value.tokens ++ (laterFields fields ++ ts)))
        = run (.value (.fields ((key, v) :: before) next :: outer))
          (value.tokens ++ (laterFields fields ++ ts)) := rfl
      _ = run (.after (.fields ((key, v) :: before) next :: outer) value)
          (laterFields fields ++ ts) := run_tokens value _ _
      _ = _ := run_laterFields fields ((key, v) :: before) next value outer ts

end

/-- The machine that takes tokens ends with the value whose tokens they are. -/
theorem ofTokens?_tokens (v : Json) : ofTokens? v.tokens = some v := by
  have complete : run (.value []) v.tokens = some (.after [] v) := by
    have all := run_tokens v [] []
    rwa [List.append_nil] at all
  unfold run at complete
  rw [ofTokens?, complete]

/-- A text that spells the tokens of a value denotes it. -/
theorem parse?_of_spells {cs : List Char} (spells : Spells v.tokens cs) : parse? cs = some v := by
  rw [parse?, tokenize?_of_spells spells]
  exact ofTokens?_tokens v

/-- The compact text denotes the value. -/
theorem parse?_compactText (plain : Plain v) : parse? v.compactText = some v :=
  parse?_of_spells (spells_compactText plain)

/-- The pretty text denotes the value. -/
theorem parse?_prettyText (plain : Plain v) : parse? (v.prettyText 0) = some v :=
  parse?_of_spells (spells_prettyText plain)

theorem printable_of_isNumeralChar {c : Char} (numeral : isNumeralChar c) : Printable c := by
  unfold Printable
  by_cases digit : c.isDigit
  · have zero : '0'.toNat = 48 := rfl
    have := (Char.isDigit_iff_toNat.1 digit).1
    omega
  · have other : c = '-' ∨ c = '+' ∨ c = '.' ∨ c = 'e' ∨ c = 'E' := by
      simpa [isNumeralChar, digit, or_assoc] using numeral
    rcases other with rfl | rfl | rfl | rfl | rfl <;> decide

/-- No token holds a line end. -/
theorem printable_token {t : Token} (plain : t.Plain) : ∀ c ∈ t.text, Printable c := by
  cases t with
  | number n => exact fun c listed => printable_of_isNumeralChar (isNumeralChar_text plain c listed)
  | string s => exact printable_quote s
  | bool b => cases b <;> simp [Token.text, Printable]
  | _ => simp [Token.text, Printable]

/-- The compact text has no control character, and so no newline. -/
theorem printable_compactText (plain : Plain v) : ∀ c ∈ v.compactText, Printable c := by
  intro c listed
  obtain ⟨t, token, written⟩ := List.mem_flatMap.1 listed
  exact printable_token (plain t token) c written

end Storyboard.Json
