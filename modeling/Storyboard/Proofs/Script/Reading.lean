import Storyboard.Proofs.Script.Grammar
import Storyboard.Proofs.Script.Scanned

/-!
# What readers take

Readers of one token take exactly the tokens they are named for. `Reads` ties any other reader to a
rule of the grammar: what it takes is what a tree of the rule spells.
-/

namespace Storyboard.Script.Reader

open Grammar (comma?)

variable {α τ : Type} {ts rest : List Token}

theorem pure_eq_ok {a b : α} : (pure a : Reader α) ts = .ok (b, rest) ↔ b = a ∧ ts = rest := by
  constructor
  · intro h
    cases h
    exact ⟨rfl, rfl⟩
  · rintro ⟨rfl, rfl⟩
    rfl

theorem take_eq_ok {construct : String} {judge : Token → Verdict α} {a : α} :
    take construct judge ts = .ok (a, rest) ↔ ∃ t, judge t = .accept a ∧ ts = t :: rest := by
  cases ts with
  | nil =>
    constructor
    · intro h; cases h
    · rintro ⟨_, _, h⟩; cases h
  | cons t ts =>
    simp only [take]
    constructor
    · intro h
      cases verdict : judge t <;> rw [verdict] at h <;> cases h
      exact ⟨t, verdict, rfl⟩
    · rintro ⟨_, verdict, h⟩
      cases h
      rw [verdict]

theorem takeOnly_eq_ok {construct : String} {t : Token} {u : Unit} :
    take construct (fun t' => if t' = t then .accept () else .unexpected) ts = .ok (u, rest) ↔
      ts = t :: rest := by
  rw [take_eq_ok]
  constructor
  · rintro ⟨t', verdict, rfl⟩
    split at verdict
    · rename_i same
      rw [same]
    · cases verdict
  · rintro rfl
    exact ⟨t, if_pos rfl, rfl⟩

theorem mark_eq_ok {m : Mark} {construct : String} {u : Unit} :
    mark m construct ts = .ok (u, rest) ↔ ts = .mark m :: rest :=
  takeOnly_eq_ok

theorem keyword_eq_ok {name construct : String} {u : Unit} :
    keyword name construct ts = .ok (u, rest) ↔ ts = .word name :: rest :=
  takeOnly_eq_ok

theorem colonAfter_eq_ok {name : String} {u : Unit} :
    colonAfter name ts = .ok (u, rest) ↔ ts = .mark .colon :: rest :=
  mark_eq_ok

theorem text_eq_ok {construct body : String} :
    text construct ts = .ok (body, rest) ↔ ts = .text body :: rest := by
  simp only [text, take_eq_ok]
  constructor
  · rintro ⟨t, verdict, rfl⟩
    split at verdict <;> cases verdict
    rfl
  · rintro rfl
    exact ⟨_, rfl, rfl⟩

theorem number_eq_ok {construct : String} {value : Float} :
    number construct ts = .ok (value, rest) ↔ ∃ i, ts = .number value i :: rest := by
  simp only [number, take_eq_ok]
  constructor
  · rintro ⟨t, verdict, rfl⟩
    split at verdict <;> cases verdict
    exact ⟨_, rfl⟩
  · rintro ⟨i, rfl⟩
    exact ⟨_, rfl, rfl⟩

theorem duration_eq_ok {construct what : String} {secs : Float} :
    duration construct what ts = .ok (secs, rest) ↔
      ts = .duration secs :: rest ∧ ¬ secs < 0.0 := by
  simp only [duration, take_eq_ok]
  constructor
  · rintro ⟨t, verdict, rfl⟩
    split at verdict
    · split at verdict <;> cases verdict
      exact ⟨rfl, ‹_›⟩
    · cases verdict
  · rintro ⟨rfl, nonneg⟩
    exact ⟨.duration secs, if_neg nonneg, rfl⟩

theorem radius_eq_ok {r : Float} :
    radius ts = .ok (r, rest) ↔ ∃ i, ts = .number r i :: rest ∧ ¬ r ≤ 0.0 := by
  simp only [radius, take_eq_ok]
  constructor
  · rintro ⟨t, verdict, rfl⟩
    split at verdict
    · split at verdict <;> cases verdict
      exact ⟨_, rfl, ‹_›⟩
    · cases verdict
  · rintro ⟨i, rfl, positive⟩
    exact ⟨.number r i, if_neg positive, rfl⟩

theorem close_eq_ok {m : Mark} {construct : String} {result : Except Cause α} {a : α} :
    close m construct result ts = .ok (a, rest) ↔ result = .ok a ∧ ts = .mark m :: rest := by
  simp only [close, take_eq_ok]
  constructor
  · rintro ⟨t, verdict, rfl⟩
    split at verdict
    · rename_i same
      split at verdict <;> cases verdict
      exact ⟨rfl, by rw [same]⟩
    · cases verdict
  · rintro ⟨rfl, rfl⟩
    exact ⟨_, if_pos rfl, rfl⟩

/-- What may come after an optional comma: another comma only if one was taken. -/
def AfterComma (taken : Bool) (next : Option Token) : Prop :=
  taken = false → next ≠ some (.mark .comma)

theorem skipComma_eq_ok {u : Unit} :
    skipComma ts = .ok (u, rest) ↔ ∃ c, ts = comma? c ++ rest ∧ AfterComma c rest.head? := by
  constructor
  · intro h
    unfold skipComma at h
    split at h <;> cases h
    · exact ⟨true, rfl, fun none => by cases none⟩
    · rename_i other
      refine ⟨false, rfl, fun _ comma => ?_⟩
      obtain ⟨later, rfl⟩ := List.head?_eq_some_iff.1 comma
      exact other later rfl
  · rintro ⟨c, rfl, after⟩
    cases c with
    | true => rfl
    | false =>
      change skipComma rest = _
      unfold skipComma
      split
      · exact absurd rfl (after rfl)
      · rfl

/-- On scanned tokens the reader gives a value exactly if it takes what a tree spells that denotes
the value. `follow` says what may come after the tree. -/
def Reads (r : Reader α) (spell : τ → List Token) (denotes : τ → α → Prop)
    (follow : τ → Option Token → Prop) : Prop :=
  ∀ ⦃ts a rest⦄, (∀ t ∈ ts, t.Scanned) →
    (r ts = .ok (a, rest) ↔ ∃ t, denotes t a ∧ ts = spell t ++ rest ∧ follow t rest.head?)

/-- The rule puts no condition on what comes after its trees. -/
abbrev anything (_ : τ) (_ : Option Token) : Prop :=
  True

theorem scanned_right {front : List Token} (h : ∀ t ∈ front ++ rest, t.Scanned) :
    ∀ t ∈ rest, t.Scanned :=
  fun t mem => h t (List.mem_append_right _ mem)

theorem scanned_tail {t : Token} (h : ∀ u ∈ t :: rest, u.Scanned) : ∀ u ∈ rest, u.Scanned :=
  fun u mem => h u (List.mem_cons_of_mem _ mem)

end Storyboard.Script.Reader
