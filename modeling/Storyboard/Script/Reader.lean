import Storyboard.Script.Mismatch

/-!
# Readers of token lists

A reader takes tokens off the front of a list and gives a value, or says what is wrong with the
first token it cannot take. Every reader is built from `take`, which looks at one token and takes it
or blames it, so a mismatch always stands at the first token not taken.

`Shrinks` and `Progresses` say how much a reader leaves. The loops ask for progress of the reader
they repeat; that is why they end.
-/

namespace Storyboard.Script

abbrev Reader := StateT (List Token) (Except Mismatch)

/-- What a reader makes of one token. -/
inductive Verdict (α : Type) where
  | accept (a : α)
  | refuse (cause : Cause)
  | unexpected

namespace Reader

variable {α β : Type}

/-- Takes one token that `judge` accepts; `construct` names what is expected here. -/
def take (construct : String) (judge : Token → Verdict α) : Reader α
  | [] => .error ⟨.expected construct none, 0⟩
  | t :: ts =>
    match judge t with
    | .accept a => .ok (a, ts)
    | .refuse cause => .error ⟨cause, ts.length + 1⟩
    | .unexpected => .error ⟨.expected construct (some t), ts.length + 1⟩

/-- Takes a comma if one is next. -/
def skipComma : Reader Unit
  | .mark .comma :: ts => .ok ((), ts)
  | ts => .ok ((), ts)

/-- The reader leaves no more than it was given. -/
def Shrinks (r : Reader α) : Prop :=
  ∀ ts a rest, r ts = .ok (a, rest) → rest.length ≤ ts.length

/-- The reader leaves less than it was given. -/
def Progresses (r : Reader α) : Prop :=
  ∀ ts a rest, r ts = .ok (a, rest) → rest.length < ts.length

theorem Progresses.shrinks {r : Reader α} (h : Progresses r) : Shrinks r :=
  fun _ _ _ ok => Nat.le_of_lt (h _ _ _ ok)

theorem bind_eq_ok {r : Reader α} {f : α → Reader β} {ts : List Token} {b : β} {rest : List Token} :
    (r >>= f) ts = .ok (b, rest) ↔ ∃ a mid, r ts = .ok (a, mid) ∧ f a mid = .ok (b, rest) := by
  show (r ts >>= fun p => f p.1 p.2) = _ ↔ _
  cases r ts with
  | error m => simp [bind, Except.bind]
  | ok p =>
    obtain ⟨a, mid⟩ := p
    constructor
    · exact fun h => ⟨a, mid, rfl, h⟩
    · rintro ⟨_, _, h₁, h₂⟩
      cases h₁
      exact h₂

theorem pure_shrinks (a : α) : Shrinks (pure a : Reader α) := by
  intro ts b rest h
  cases h
  exact Nat.le_refl _

theorem take_progresses (construct : String) (judge : Token → Verdict α) :
    Progresses (take construct judge) := by
  intro ts a rest h
  cases ts with
  | nil => cases h
  | cons t ts =>
    simp only [take] at h
    split at h <;> cases h
    simp

theorem skipComma_shrinks : Shrinks skipComma := by
  intro ts a rest h
  unfold skipComma at h
  split at h <;> cases h <;> simp

theorem Shrinks.bind {r : Reader α} {f : α → Reader β} (hr : Shrinks r) (hf : ∀ a, Shrinks (f a)) :
    Shrinks (r >>= f) := by
  intro ts b rest h
  obtain ⟨a, mid, h₁, h₂⟩ := bind_eq_ok.1 h
  exact Nat.le_trans (hf a _ _ _ h₂) (hr _ _ _ h₁)

theorem Progresses.bind {r : Reader α} {f : α → Reader β} (hr : Progresses r)
    (hf : ∀ a, Shrinks (f a)) : Progresses (r >>= f) := by
  intro ts b rest h
  obtain ⟨a, mid, h₁, h₂⟩ := bind_eq_ok.1 h
  exact Nat.lt_of_le_of_lt (hf a _ _ _ h₂) (hr _ _ _ h₁)

theorem Progresses.andThen {r : Reader α} {f : α → Reader β} (hr : Progresses r)
    (hf : ∀ a, Progresses (f a)) : Progresses (r >>= f) :=
  hr.bind fun a => (hf a).shrinks

/-- Reads items for as long as `stop` does not hold of what is next. -/
def repeatUntil (stop : Option Token → Bool) (item : Reader α) (progress : Progresses item) :
    Reader (List α) := fun ts =>
  if stop ts.head? then .ok ([], ts)
  else match _read : item ts with
    | .error m => .error m
    | .ok (a, rest) =>
      (repeatUntil stop item progress rest).map fun (as, rest) => (a :: as, rest)
termination_by ts => ts.length
decreasing_by exact progress _ _ _ _read

/-- Reads items up to `close`, with a comma between them and perhaps one after the last. What comes
instead of a comma is left for the next reader. -/
def separated (close : Mark) (item : Reader α) (progress : Progresses item) :
    Reader (List α) := fun ts =>
  if ts.head? = some (.mark close) then .ok ([], ts)
  else match _read : item ts with
    | .error m => .error m
    | .ok (a, .mark .comma :: rest) =>
      (separated close item progress rest).map fun (as, rest) => (a :: as, rest)
    | .ok (a, rest) => .ok ([a], rest)
termination_by ts => ts.length
decreasing_by exact Nat.lt_of_le_of_lt (Nat.le_succ _) (progress _ _ _ _read)

theorem repeatUntil_shrinks (stop : Option Token → Bool) (item : Reader α)
    (progress : Progresses item) : Shrinks (repeatUntil stop item progress) := by
  intro ts
  fun_induction repeatUntil stop item progress ts with
  | case1 => intro as rest h; cases h; exact Nat.le_refl _
  | case2 => intro as rest h; cases h
  | case3 ts _ a mid read ih =>
    intro as rest h
    cases step : repeatUntil stop item progress mid with
    | error m => simp [step, Except.map] at h
    | ok p =>
      simp only [step, Except.map] at h
      cases h
      exact Nat.le_trans (ih _ _ step) (Nat.le_of_lt (progress _ _ _ read))

theorem separated_shrinks (close : Mark) (item : Reader α) (progress : Progresses item) :
    Shrinks (separated close item progress) := by
  intro ts
  fun_induction separated close item progress ts with
  | case1 => intro as rest h; cases h; exact Nat.le_refl _
  | case2 => intro as rest h; cases h
  | case3 ts _ a mid read ih =>
    intro as rest h
    have before := progress _ _ _ read
    cases step : separated close item progress mid with
    | error m => simp [step, Except.map] at h
    | ok p =>
      simp only [step, Except.map] at h
      cases h
      have after := ih _ _ step
      simp only [List.length_cons] at before
      omega
  | case4 ts _ a mid _ read =>
    intro as rest h
    cases h
    exact Nat.le_of_lt (progress _ _ _ read)

end Reader
end Storyboard.Script
