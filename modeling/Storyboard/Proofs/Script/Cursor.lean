import Storyboard.Proofs.Script.Lookahead

/-!
# Reading with a cursor

A reader takes tokens off the front of a list. The same can be done on a row of tokens that stays as
it is, with a cursor at the next one. The end of the script is the last token of the row, and there
the cursor does not move on any more. Loops go on until they see what stops them, whether they get
anywhere or not; a limit on their rounds cuts off the ones that would not end in time.

A `Recipe` tells how a reader is put together, and `Recipe.run` follows it on a row, with a record of
what is done with the cursor. Main statement: with as many rounds as the row has tokens no loop is
cut off, the cursor stays in the row, and the run ends as the reader does (`Recipe.run_follows`).
-/

namespace Storyboard.Script

open Reader

variable {α β : Type}

/-- The constructs of a script that a loop repeats, and the video block. -/
inductive Production where
  | video
  | videoProperty
  | scene
  | sceneProperty
  | element
  | argument
  | event
  | command
  deriving DecidableEq, Repr

/-- What is done with the cursor. -/
inductive Act where
  /-- Looks at the token under the cursor. -/
  | look (pos : Nat)
  /-- Takes the token at `pos`, which brings the cursor to `after`. -/
  | take (pos after : Nat)
  /-- Has read a construct, with the cursor at `start` before it and at `stop` now. -/
  | passed (p : Production) (start stop : Nat)
  deriving DecidableEq, Repr

/-- How a run ends. -/
inductive Ending (α : Type) where
  /-- With a value, and the cursor at `pos`. -/
  | value (a : α) (pos : Nat)
  /-- With the token at `pos` blamed. -/
  | mismatch (cause : Cause) (pos : Nat)
  /-- With the cursor outside of the row. -/
  | astray
  /-- With a loop that is not over after all the rounds it may go. -/
  | cutOff

structure Run (α : Type) where
  acts : List Act
  ending : Ending α

namespace Run

def andThen (r : Run α) (next : α → Nat → Run β) : Run β :=
  match r.ending with
  | .value a pos => ⟨r.acts ++ (next a pos).acts, (next a pos).ending⟩
  | .mismatch cause pos => ⟨r.acts, .mismatch cause pos⟩
  | .astray => ⟨r.acts, .astray⟩
  | .cutOff => ⟨r.acts, .cutOff⟩

def map (f : α → β) (r : Run α) : Run β :=
  r.andThen fun a pos => ⟨[], .value (f a) pos⟩

end Run

section Row

variable (row : List (Option Token))

/-- Where the cursor is after the token at `pos`. It stays at the last token. -/
def onward (pos : Nat) : Nat :=
  if pos + 1 < row.length then pos + 1 else pos

/-- Looks at the token under the cursor; `none` is the end of the script. -/
def lookAt (pos : Nat) (next : Option Token → Run α) : Run α :=
  match row[pos]? with
  | some t => ⟨.look pos :: (next t).acts, (next t).ending⟩
  | none => ⟨[], .astray⟩

/-- Takes the token under the cursor if `judge` accepts it. A token that is refused has been taken
too when it is blamed. -/
def takeAt (construct : String) (judge : Token → Verdict α) (pos : Nat) : Run α :=
  lookAt row pos fun
    | none => ⟨[], .mismatch (.expected construct none) pos⟩
    | some t =>
      match judge t with
      | .accept a => ⟨[.take pos (onward row pos)], .value a (onward row pos)⟩
      | .refuse cause => ⟨[.take pos (onward row pos)], .mismatch cause pos⟩
      | .unexpected => ⟨[], .mismatch (.expected construct (some t)) pos⟩

/-- Takes a comma if one is under the cursor, and tells whether it did. -/
def commaAt (pos : Nat) : Run Bool :=
  lookAt row pos fun t =>
    if t = some (.mark .comma) then ⟨[.take pos (onward row pos)], .value true (onward row pos)⟩
    else ⟨[], .value false pos⟩

/-- Repeats `body` until `stop` holds of the token under the cursor. -/
def loopAt (stop : Option Token → Bool) (body : Nat → Run α) (rounds pos : Nat) : Run (List α) :=
  lookAt row pos fun t =>
    if stop t then ⟨[], .value [] pos⟩
    else match rounds with
      | 0 => ⟨[], .cutOff⟩
      | rounds + 1 => (body pos).andThen fun a pos => (loopAt stop body rounds pos).map (a :: ·)

/-- Repeats `body` until the bracket `close` is under the cursor or no comma follows. -/
def listAt (close : Mark) (body : Nat → Run α) (rounds pos : Nat) : Run (List α) :=
  lookAt row pos fun t =>
    if t = some (.mark close) then ⟨[], .value [] pos⟩
    else match rounds with
      | 0 => ⟨[], .cutOff⟩
      | rounds + 1 => (body pos).andThen fun a pos => (commaAt row pos).andThen fun comma pos =>
          if comma then (listAt close body rounds pos).map (a :: ·) else ⟨[], .value [a] pos⟩

end Row

/-- How a reader is put together from single tokens and loops over other readers. The reader is in
the type, so none of its loops can be left out. -/
inductive Recipe : {α : Type} → Reader α → Type 1 where
  | done {α : Type} (a : α) : Recipe (pure a : Reader α)
  | take {α : Type} (construct : String) (judge : Token → Verdict α) :
    Recipe (Reader.take construct judge)
  | comma : Recipe skipComma
  | andThen {α β : Type} {r : Reader α} {f : α → Reader β} (first : Recipe r)
    (next : ∀ a, Recipe (f a)) : Recipe (r >>= f)
  | loop {α : Type} {item : Reader α} (stop : Option Token → Bool) (progress : Progresses item)
    (body : Recipe item) : Recipe (repeatUntil stop item progress)
  | list {α : Type} {item : Reader α} (close : Mark) (progress : Progresses item)
    (body : Recipe item) : Recipe (separated close item progress)
  /-- A construct that goes on record when it has been read. -/
  | production {α : Type} {r : Reader α} (p : Production) (progress : Progresses r)
    (body : Recipe r) : Recipe r
  /-- The same reader, written in another way. -/
  | same {α : Type} {r s : Reader α} (eq : r = s) (body : Recipe s) : Recipe r

/-- Follows the recipe on the row from `pos` on. Each loop may go `limit` rounds whenever it is
entered. -/
def Recipe.run (row : List (Option Token)) (limit : Nat) :
    {α : Type} → {r : Reader α} → Recipe r → Nat → Run α
  | _, _, .done a, pos => ⟨[], .value a pos⟩
  | _, _, .take construct judge, pos => takeAt row construct judge pos
  | _, _, .comma, pos => (commaAt row pos).map fun _ => ()
  | _, _, .andThen first next, pos =>
    (first.run row limit pos).andThen fun a pos => (next a).run row limit pos
  | _, _, .loop stop _ body, pos => loopAt row stop (fun pos => body.run row limit pos) limit pos
  | _, _, .list close _ body, pos => listAt row close (fun pos => body.run row limit pos) limit pos
  | _, _, .production p _ body, start =>
    (body.run row limit start).andThen fun a stop => ⟨[.passed p start stop], .value a stop⟩
  | _, _, .same _ body, pos => body.run row limit pos

/-- A row of tokens as it is scanned: the end of the script is its last token and no other. -/
def ended (tokens : List Token) : List (Option Token) :=
  tokens.map some ++ [none]

/-- The cursor is in the row, only tokens before the end are taken, and what has been read brings it
forward. -/
def Act.Within (row : List (Option Token)) : Act → Prop
  | .look pos => pos < row.length
  | .take pos after => (∃ t, row[pos]? = some (some t)) ∧ pos < after ∧ after < row.length
  | .passed _ start stop => start < stop ∧ stop < row.length

/-- A run ends as a reader does that leaves the tokens from the cursor on, or from the blamed one
on. -/
inductive Ends (tokens : List Token) : Except Mismatch (α × List Token) → Ending α → Prop where
  | value {a : α} {pos : Nat} (inside : pos ≤ tokens.length) :
    Ends tokens (.ok (a, tokens.drop pos)) (.value a pos)
  | mismatch {cause : Cause} {pos : Nat} (inside : pos ≤ tokens.length) :
    Ends tokens (.error ⟨cause, tokens.length - pos⟩) (.mismatch cause pos)

/-- A run keeps to the row and ends with the result. -/
structure Follows (tokens : List Token) (result : Except Mismatch (α × List Token))
    (r : Run α) : Prop where
  within : ∀ act ∈ r.acts, act.Within (ended tokens)
  ends : Ends tokens result r.ending

variable {tokens : List Token} {pos : Nat}

theorem length_ended (tokens : List Token) : (ended tokens).length = tokens.length + 1 := by
  simp [ended]

theorem getElem?_ended (inside : pos ≤ tokens.length) :
    (ended tokens)[pos]? = some (tokens.drop pos).head? := by
  rw [ended, List.head?_drop]
  rcases Nat.lt_or_eq_of_le inside with before | rfl
  · rw [List.getElem?_append_left (by simpa using before), List.getElem?_map,
      List.getElem?_eq_getElem before]
    rfl
  · simp

theorem drop_succ {t : Token} {rest : List Token} (here : tokens.drop pos = t :: rest) :
    pos < tokens.length ∧ rest = tokens.drop (pos + 1) := by
  have inside : pos < tokens.length := by
    refine Nat.lt_of_not_le fun outside => ?_
    rw [List.drop_eq_nil_of_le outside] at here
    cases here
  rw [List.drop_eq_getElem_cons inside] at here
  exact ⟨inside, (List.cons.inj here).2.symm⟩

theorem onward_ended (before : pos < tokens.length) : onward (ended tokens) pos = pos + 1 := by
  rw [onward, length_ended, if_pos (Nat.succ_lt_succ before)]

/-- What progress means for the cursor. -/
theorem forward {r : Reader α} (progress : Progresses r) {a : α} {stop : Nat}
    (inside : stop ≤ tokens.length)
    (read : r (tokens.drop pos) = .ok (a, tokens.drop stop)) : pos < stop := by
  have shorter := progress _ _ _ read
  rw [List.length_drop, List.length_drop] at shorter
  omega

namespace Follows

variable {result : Except Mismatch (α × List Token)} {a : α}

theorem done (inside : pos ≤ tokens.length) :
    Follows tokens (.ok (a, tokens.drop pos)) ⟨[], .value a pos⟩ :=
  ⟨List.forall_mem_nil _, .value inside⟩

theorem blame {cause : Cause} (inside : pos ≤ tokens.length) :
    Follows (α := α) tokens (.error ⟨cause, (tokens.drop pos).length⟩)
      ⟨[], .mismatch cause pos⟩ := by
  rw [List.length_drop]
  exact ⟨List.forall_mem_nil _, .mismatch inside⟩

/-- A run that goes on after an act does. -/
theorem cons {act : Act} {acts : List Act} {ending : Ending α}
    (within : act.Within (ended tokens)) (later : Follows tokens result ⟨acts, ending⟩) :
    Follows tokens result ⟨act :: acts, ending⟩ :=
  ⟨List.forall_mem_cons.2 ⟨within, later.within⟩, later.ends⟩

/-- A look at the token under the cursor is a look at the front of what is left. -/
theorem look {next : Option Token → Run α} (inside : pos ≤ tokens.length)
    (later : Follows tokens result (next (tokens.drop pos).head?)) :
    Follows tokens result (lookAt (ended tokens) pos next) := by
  rw [lookAt, getElem?_ended inside]
  refine cons ?_ later
  rw [Act.Within, length_ended]
  omega

/-- A token that is taken is not the end, so the cursor moves on. -/
theorem take {t : Token} {rest : List Token} {ending : Ending α}
    (here : tokens.drop pos = t :: rest) (later : Follows tokens result ⟨[], ending⟩) :
    Follows tokens result ⟨[.take pos (onward (ended tokens) pos)], ending⟩ := by
  obtain ⟨before, -⟩ := drop_succ here
  rw [onward_ended before]
  refine cons ⟨⟨t, ?_⟩, Nat.lt_succ_self _, ?_⟩ later
  · rw [getElem?_ended before.le, here, List.head?_cons]
  · rw [length_ended]
    omega

theorem accept {t : Token} {rest : List Token} (here : tokens.drop pos = t :: rest) :
    Follows tokens (.ok (a, rest))
      ⟨[.take pos (onward (ended tokens) pos)], .value a (onward (ended tokens) pos)⟩ := by
  obtain ⟨before, rfl⟩ := drop_succ here
  refine take here ?_
  rw [onward_ended before]
  exact done before

/-- A run that follows a reader goes on from where the reader left off. -/
theorem andThen {r : Run α} {g : α × List Token → Except Mismatch (β × List Token)}
    {next : α → Nat → Run β} (first : Follows tokens result r)
    (later : ∀ a pos, pos ≤ tokens.length → result = .ok (a, tokens.drop pos) →
      Follows tokens (g (a, tokens.drop pos)) (next a pos)) :
    Follows tokens (result >>= g) (r.andThen next) := by
  obtain ⟨acts, ending⟩ := r
  obtain ⟨within, ends⟩ := first
  cases ends with
  | @value a pos inside =>
    obtain ⟨within', ends'⟩ := later a pos inside rfl
    exact ⟨List.forall_mem_append.2 ⟨within, within'⟩, ends'⟩
  | mismatch inside => exact ⟨within, .mismatch inside⟩

theorem map {r : Run α} {f : α → β} (follows : Follows tokens result r) :
    Follows tokens (result.map fun p => (f p.1, p.2)) (r.map f) := by
  have mapped : Follows tokens (result >>= fun p => .ok (f p.1, p.2)) (r.map f) :=
    follows.andThen fun a pos inside _ => done inside
  cases result <;> exact mapped

theorem passed {r : Reader α} {w : Run α} (p : Production) (progress : Progresses r)
    (follows : Follows tokens (r (tokens.drop pos)) w) :
    Follows tokens (r (tokens.drop pos))
      (w.andThen fun a stop => ⟨[.passed p pos stop], .value a stop⟩) := by
  have recorded : Follows tokens (r (tokens.drop pos) >>= .ok)
      (w.andThen fun a stop => ⟨[.passed p pos stop], .value a stop⟩) := by
    refine follows.andThen fun a stop here read => ?_
    refine cons ⟨forward progress here read, ?_⟩ (done here)
    rw [length_ended]
    omega
  rwa [show r (tokens.drop pos) >>= .ok = r (tokens.drop pos) from bind_pure _] at recorded

end Follows

theorem takeAt_follows (construct : String) (judge : Token → Verdict α)
    (inside : pos ≤ tokens.length) :
    Follows tokens (Reader.take construct judge (tokens.drop pos))
      (takeAt (ended tokens) construct judge pos) := by
  refine .look inside ?_
  have blamed (cause : Cause) : Follows (α := α) tokens
      (.error ⟨cause, (tokens.drop pos).length⟩) ⟨[], .mismatch cause pos⟩ := .blame inside
  cases here : tokens.drop pos with
  | nil =>
    rw [here] at blamed
    exact blamed _
  | cons t rest =>
    rw [here] at blamed
    simp only [List.head?_cons, Reader.take]
    cases judge t with
    | accept a => exact .accept here
    | refuse cause => exact .take here (blamed cause)
    | unexpected => exact blamed _

/-- Takes a comma off the front of a list if it begins with one. -/
def takeComma (ts : List Token) : Bool × List Token :=
  if ts.head? = some (.mark .comma) then (true, ts.tail) else (false, ts)

theorem takeComma_other {ts : List Token} (other : ts.head? ≠ some (.mark .comma)) :
    takeComma ts = (false, ts) :=
  if_neg other

theorem length_takeComma (ts : List Token) : (takeComma ts).2.length ≤ ts.length := by
  unfold takeComma
  split
  · simp
  · exact Nat.le_refl _

theorem skipComma_eq (ts : List Token) : skipComma ts = .ok ((), (takeComma ts).2) := by
  by_cases comma : ts.head? = some (.mark .comma)
  · obtain ⟨rest, rfl⟩ := List.head?_eq_some_iff.1 comma
    rfl
  · rw [takeComma_other comma]
    exact skipComma_eq_ok.2 ⟨false, rfl, fun _ => comma⟩

theorem commaAt_follows (inside : pos ≤ tokens.length) :
    Follows tokens (.ok (takeComma (tokens.drop pos))) (commaAt (ended tokens) pos) := by
  refine .look inside ?_
  by_cases comma : (tokens.drop pos).head? = some (.mark .comma)
  · obtain ⟨rest, here⟩ := List.head?_eq_some_iff.1 comma
    rw [if_pos comma, here]
    exact .accept here
  · rw [if_neg comma, takeComma_other comma]
    exact .done inside

section Loops

variable {item : Reader α} {progress : Progresses item} {ts : List Token}

theorem repeatUntil_of_goes {stop : Option Token → Bool} (goes : stop ts.head? = false) :
    repeatUntil stop item progress ts = item ts >>= fun p =>
      (repeatUntil stop item progress p.2).map fun q => (p.1 :: q.1, q.2) := by
  cases read : item ts with
  | error m => exact repeatUntil_of_error goes read
  | ok p => exact repeatUntil_of_ok goes read

theorem separated_of_goes {close : Mark} (goes : ts.head? ≠ some (.mark close)) :
    separated close item progress ts = item ts >>= fun p =>
      .ok (takeComma p.2) >>= fun q =>
        if q.1 then (separated close item progress q.2).map fun l => (p.1 :: l.1, l.2)
        else .ok ([p.1], q.2) := by
  cases read : item ts with
  | error m => exact separated_of_error goes read
  | ok p =>
    obtain ⟨a, rest⟩ := p
    by_cases comma : rest.head? = some (.mark .comma)
    · obtain ⟨later, rfl⟩ := List.head?_eq_some_iff.1 comma
      exact separated_of_comma goes read
    · rw [separated_of_last goes read comma]
      change _ = if (takeComma rest).1 then _ else _
      rw [takeComma_other comma]
      rfl

variable {body : Nat → Run α}

/-- Every round but the last brings the cursor forward, so there are no more rounds than tokens from
the cursor on, the end among them. -/
theorem loopAt_follows (stop : Option Token → Bool)
    (follows : ∀ pos, pos ≤ tokens.length → Follows tokens (item (tokens.drop pos)) (body pos))
    {rounds : Nat} (inside : pos ≤ tokens.length) (enough : tokens.length - pos < rounds) :
    Follows tokens (repeatUntil stop item progress (tokens.drop pos))
      (loopAt (ended tokens) stop body rounds pos) := by
  induction rounds generalizing pos with
  | zero => omega
  | succ rounds ih =>
    refine .look inside ?_
    cases stops : stop (tokens.drop pos).head? with
    | true =>
      rw [repeatUntil_of_stop stops]
      exact .done inside
    | false =>
      rw [repeatUntil_of_goes stops]
      refine (follows pos inside).andThen fun a after here read => ?_
      have onward := forward progress here read
      exact (ih here (by omega)).map

/-- More rounds than there are tokens left are enough, since every item takes at least one. -/
theorem listAt_follows (close : Mark)
    (follows : ∀ pos, pos ≤ tokens.length → Follows tokens (item (tokens.drop pos)) (body pos))
    {rounds : Nat} (inside : pos ≤ tokens.length) (enough : tokens.length - pos < rounds) :
    Follows tokens (separated close item progress (tokens.drop pos))
      (listAt (ended tokens) close body rounds pos) := by
  induction rounds generalizing pos with
  | zero => omega
  | succ rounds ih =>
    refine .look inside ?_
    by_cases closes : (tokens.drop pos).head? = some (.mark close)
    · rw [if_pos closes, separated_of_close closes]
      exact .done inside
    · rw [if_neg closes, separated_of_goes closes]
      refine (follows pos inside).andThen fun a after here read => ?_
      refine (commaAt_follows here).andThen fun comma next there taken => ?_
      have onward := forward progress here read
      have further := length_takeComma (tokens.drop after)
      rw [Except.ok.inj taken, List.length_drop, List.length_drop] at further
      cases comma with
      | false => exact .done there
      | true => exact (ih there (by omega)).map

end Loops

/-- With as many rounds as the row has tokens, a run keeps to the row and ends as the reader does. -/
theorem Recipe.run_follows {r : Reader α} (recipe : Recipe r) {limit : Nat}
    (enough : (ended tokens).length ≤ limit) (inside : pos ≤ tokens.length) :
    Follows tokens (r (tokens.drop pos)) (recipe.run (ended tokens) limit pos) := by
  rw [length_ended] at enough
  -- Over the parts of the recipe, each of them from wherever the cursor is then. Only a loop needs
  -- rounds, and it has enough for the whole row whenever it is entered.
  induction recipe generalizing pos with
  | done a => exact .done inside
  | take construct judge => exact takeAt_follows construct judge inside
  | comma =>
    have skipped := (commaAt_follows inside).map (f := fun _ => ())
    rwa [Except.map, ← skipComma_eq] at skipped
  | andThen first next ih ih' =>
    exact (ih inside).andThen fun a after here _ => ih' a here
  | loop stop progress body ih =>
    exact loopAt_follows stop (fun _ here => ih here) inside (by omega)
  | list close progress body ih =>
    exact listAt_follows close (fun _ here => ih here) inside (by omega)
  | production p progress body ih =>
    exact (ih inside).passed p progress
  | same eq body ih =>
    subst eq
    exact ih inside

end Storyboard.Script
