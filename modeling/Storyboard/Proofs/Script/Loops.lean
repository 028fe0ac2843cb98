import Storyboard.Proofs.Script.Reading
import Mathlib.Data.List.Forall2

namespace Storyboard.Script.Reader

open Grammar (comma? braced Item)

variable {α τ : Type} {ts rest : List Token}

/-- Every tree of the rule starts with a word. -/
def StartsWithWord (spell : τ → List Token) : Prop :=
  ∀ t, ∃ w later, spell t = .word w :: later

variable {item : Reader α} {progress : Progresses item} {spell : τ → List Token}
  {denotes : τ → α → Prop} {follow : τ → Option Token → Prop} {stop : Option Token → Bool}

/-- A loop over the trees of a rule ends where it should: no tree starts with what stops the loop,
and what comes after a tree may be the next one or what stops the loop. -/
structure Loops (stop : Option Token → Bool) (spell : τ → List Token)
    (follow : τ → Option Token → Prop) : Prop where
  starts : StartsWithWord spell
  goes : ∀ w, stop (some (.word w)) = false
  followed : ∀ t next, stop next ∨ (∃ w, next = some (.word w)) → follow t next

theorem Loops.first (loops : Loops stop spell follow) (reads : Reads item spell denotes follow)
    {t : τ} {trees : List τ} {a : α} (value : denotes t a) (stops : stop rest.head?)
    (scanned : ∀ u ∈ (t :: trees).flatMap spell ++ rest, u.Scanned) :
    item ((t :: trees).flatMap spell ++ rest) = .ok (a, trees.flatMap spell ++ rest) := by
  refine (reads scanned).2 ⟨t, value, by simp, loops.followed t _ ?_⟩
  cases trees with
  | nil => exact .inl stops
  | cons u trees =>
    obtain ⟨w, later, eq⟩ := loops.starts u
    exact .inr ⟨w, by simp [eq]⟩

theorem Loops.not_stop (loops : Loops stop spell follow) {t : τ} {trees : List τ} :
    stop ((t :: trees).flatMap spell ++ rest).head? = false := by
  obtain ⟨w, later, eq⟩ := loops.starts t
  simp [eq, loops.goes]

/-- A loop takes exactly what a row of trees spells, up to where it may stop. -/
theorem repeatUntil_reads (loops : Loops stop spell follow)
    (reads : Reads item spell denotes follow) :
    Reads (repeatUntil stop item progress) (·.flatMap spell) (List.Forall₂ denotes)
      (fun _ next => stop next) := by
  intro ts as rest scanned
  -- Along the loop. In the cases where it goes on, a row of trees that spells `ts` is not empty,
  -- and then `item` takes the first of them (`Loops.first`).
  fun_induction repeatUntil stop item progress ts generalizing as with
  | case1 ts stops =>
    constructor
    · intro h
      cases h
      exact ⟨[], .nil, rfl, stops⟩
    · rintro ⟨trees, values, rfl, -⟩
      cases values with
      | nil => rfl
      | cons _ _ => rw [loops.not_stop] at stops; cases stops
  | case2 ts goesOn m read =>
    constructor
    · intro h
      cases h
    · rintro ⟨trees, values, rfl, stops⟩
      cases values with
      | nil => exact absurd stops goesOn
      | cons value _ => rw [loops.first reads value stops scanned] at read; cases read
  | case3 ts goesOn a mid read ih =>
    obtain ⟨t, value, rfl, -⟩ := (reads scanned).1 read
    have later := scanned_right scanned
    constructor
    · intro h
      cases step : repeatUntil stop item progress mid with
      | error m => rw [step] at h; cases h
      | ok p =>
        rw [step] at h
        cases h
        obtain ⟨trees, values, rfl, stops⟩ := (ih later).1 step
        exact ⟨t :: trees, .cons value values, by simp, stops⟩
    · rintro ⟨trees, values, eq, stops⟩
      cases values with
      | nil => exact absurd (eq ▸ stops) goesOn
      | cons value values =>
        rw [eq] at scanned read
        rw [loops.first reads value stops scanned] at read
        cases read
        rw [(ih later).2 ⟨_, values, rfl, stops⟩]
        rfl

/-- The items of a list with commas between them, and perhaps one after the last. -/
def commaList (spell : τ → List Token) (first : τ) (others : List τ) (comma : Bool) : List Token :=
  spell first ++ others.flatMap (.mark .comma :: spell ·) ++ comma? comma

/-- A list ends where it should: after its last comma only the bracket `close` may come, and
without one anything but a comma. -/
def AfterList (close : Mark) (comma : Bool) (next : Option Token) : Prop :=
  if comma then next = some (.mark close) else next ≠ some (.mark .comma)

/-- The tokens are spelled by items with commas between them, up to the bracket or to an item
without a comma, and `rest` is left. -/
inductive SpellsList (close : Mark) (spell : τ → List Token) (denotes : τ → α → Prop)
    (rest : List Token) : List Token → List α → Prop where
  | none (closes : rest.head? = some (.mark close)) : SpellsList close spell denotes rest rest []
  | last {t : τ} {a : α} (value : denotes t a) (ends : rest.head? ≠ some (.mark .comma)) :
    SpellsList close spell denotes rest (spell t ++ rest) [a]
  | more {t : τ} {a : α} {ts : List Token} {as : List α} (value : denotes t a)
    (later : SpellsList close spell denotes rest ts as) :
    SpellsList close spell denotes rest (spell t ++ .mark .comma :: ts) (a :: as)

section Lists

variable {close : Mark} {a : α} {as : List α}

theorem not_close_of_starts (starts : StartsWithWord spell) (t : τ) :
    (spell t ++ rest).head? ≠ some (.mark close) := by
  obtain ⟨w, later, eq⟩ := starts t
  simp [eq]

theorem item_first (reads : Reads item spell denotes anything) {t : τ} (value : denotes t a)
    (scanned : ∀ u ∈ spell t ++ rest, u.Scanned) : item (spell t ++ rest) = .ok (a, rest) :=
  (reads scanned).2 ⟨t, value, rfl, trivial⟩

theorem spellsList_of_close (starts : StartsWithWord spell)
    (closes : ts.head? = some (.mark close)) :
    SpellsList close spell denotes rest ts as ↔ as = [] ∧ ts = rest := by
  constructor
  · intro list
    cases list with
    | none => exact ⟨rfl, rfl⟩
    | last | more => exact absurd closes (not_close_of_starts starts _)
  · rintro ⟨rfl, rfl⟩
    exact .none closes

theorem not_spellsList_of_error (reads : Reads item spell denotes anything)
    (scanned : ∀ t ∈ ts, t.Scanned) (opens : ts.head? ≠ some (.mark close)) {m : Mismatch}
    (refused : item ts = .error m) : ¬ SpellsList close spell denotes rest ts as := by
  intro list
  cases list with
  | none closes => exact opens closes
  | last value | more value =>
    rw [item_first reads value scanned] at refused
    cases refused

/-- After a comma the list goes on, or ends. -/
theorem spellsList_of_comma (reads : Reads item spell denotes anything)
    (scanned : ∀ t ∈ ts, t.Scanned) (opens : ts.head? ≠ some (.mark close)) {mid : List Token}
    (read : item ts = .ok (a, .mark .comma :: mid)) :
    SpellsList close spell denotes rest ts as ↔
      ∃ later, as = a :: later ∧ SpellsList close spell denotes rest mid later := by
  constructor
  · intro list
    cases list with
    | none closes => exact absurd closes opens
    | last value ends =>
      rw [item_first reads value scanned] at read
      cases read
      exact absurd rfl ends
    | more value later =>
      rw [item_first reads value scanned] at read
      cases read
      exact ⟨_, rfl, later⟩
  · rintro ⟨later, rfl, list⟩
    obtain ⟨t, value, rfl, -⟩ := (reads scanned).1 read
    exact .more value list

theorem spellsList_of_last (reads : Reads item spell denotes anything)
    (scanned : ∀ t ∈ ts, t.Scanned) (opens : ts.head? ≠ some (.mark close)) {mid : List Token}
    (read : item ts = .ok (a, mid)) (ends : mid.head? ≠ some (.mark .comma)) :
    SpellsList close spell denotes rest ts as ↔ as = [a] ∧ mid = rest := by
  constructor
  · intro list
    cases list with
    | none closes => exact absurd closes opens
    | last value =>
      rw [item_first reads value scanned] at read
      cases read
      exact ⟨rfl, rfl⟩
    | more value =>
      rw [item_first reads value scanned] at read
      cases read
      exact absurd rfl ends
  · rintro ⟨rfl, rfl⟩
    obtain ⟨t, value, rfl, -⟩ := (reads scanned).1 read
    exact .last value ends

/-- A list with commas is read exactly if it is spelled: the loop and the spelling take one item
at a time. -/
theorem separated_eq_ok_iff (starts : StartsWithWord spell)
    (reads : Reads item spell denotes anything) (scanned : ∀ t ∈ ts, t.Scanned) :
    separated close item progress ts = .ok (as, rest) ↔
      SpellsList close spell denotes rest ts as := by
  -- Along the loop, with the lemma on lists that fits the way it goes.
  fun_induction separated close item progress ts generalizing as with
  | case1 ts closes =>
    rw [spellsList_of_close starts closes]
    simp [eq_comm]
  | case2 ts opens m refused =>
    exact iff_of_false (by simp) (not_spellsList_of_error reads scanned opens refused)
  | case3 ts opens a mid read ih =>
    rw [spellsList_of_comma reads scanned opens read]
    obtain ⟨t, -, rfl, -⟩ := (reads scanned).1 read
    simp only [← ih (scanned_tail (scanned_right scanned))]
    cases separated close item progress mid with
    | error m => simp [Except.map]
    | ok p =>
      simp only [Except.map, Except.ok.injEq, Prod.mk.injEq]
      constructor
      · rintro ⟨rfl, rfl⟩
        exact ⟨_, rfl, rfl⟩
      · rintro ⟨_, rfl, rfl⟩
        exact ⟨rfl, rfl⟩
  | case4 ts opens a mid noComma read =>
    have ends : mid.head? ≠ some (.mark .comma) := by
      intro comma
      obtain ⟨later, eq⟩ := List.head?_eq_some_iff.1 comma
      exact noComma later eq
    rw [spellsList_of_last reads scanned opens read ends]
    simp [eq_comm]

theorem SpellsList.commas (list : SpellsList close spell denotes rest ts as) :
    as = [] ∧ ts = rest ∧ rest.head? = some (.mark close) ∨
      ∃ t others comma, List.Forall₂ denotes (t :: others) as ∧
        ts = commaList spell t others comma ++ rest ∧ AfterList close comma rest.head? := by
  induction list with
  | none closes => exact .inl ⟨rfl, rfl, closes⟩
  | @last t a value ends =>
    exact .inr ⟨t, [], false, .cons value .nil, by simp [commaList, comma?], ends⟩
  | @more t a ts as value later ih =>
    rcases ih with ⟨rfl, rfl, closes⟩ | ⟨u, others, comma, values, rfl, after⟩
    · exact .inr ⟨t, [], true, .cons value .nil, by simp [commaList, comma?], closes⟩
    · exact .inr ⟨t, u :: others, comma, .cons value values, by simp [commaList], after⟩

theorem spellsList_of_commas {t : τ} {others : List τ} {comma : Bool}
    (values : List.Forall₂ denotes (t :: others) as) (after : AfterList close comma rest.head?) :
    SpellsList close spell denotes rest (commaList spell t others comma ++ rest) as := by
  induction others generalizing t as with
  | nil =>
    obtain _ | ⟨value, _ | _⟩ := values
    cases comma with
    | false => simpa [commaList, comma?] using .last value after
    | true => simpa [commaList, comma?] using .more value (.none after)
  | cons u others ih =>
    obtain _ | ⟨value, values⟩ := values
    have list := SpellsList.more value (ih values)
    simpa [commaList] using list

/-- A list with commas is taken exactly if it is empty or a row of items with a comma between each
two, and maybe one after the last. -/
theorem separated_eq_ok (starts : StartsWithWord spell)
    (reads : Reads item spell denotes anything) (scanned : ∀ t ∈ ts, t.Scanned) :
    separated close item progress ts = .ok (as, rest) ↔
      as = [] ∧ ts = rest ∧ rest.head? = some (.mark close) ∨
      ∃ t others comma, List.Forall₂ denotes (t :: others) as ∧
        ts = commaList spell t others comma ++ rest ∧ AfterList close comma rest.head? := by
  rw [separated_eq_ok_iff starts reads scanned]
  constructor
  · exact fun list => list.commas
  · rintro (⟨rfl, rfl, closes⟩ | ⟨t, others, comma, values, rfl, after⟩)
    · exact .none closes
    · exact spellsList_of_commas values after

end Lists

/-- A reader of items of a block: what it takes is what a tree spells, and the comma after it. -/
def ReadsItem (r : Reader α) (spell : τ → List Token) (denotes : τ → α → Prop) : Prop :=
  Reads r (Item.tokens spell) (fun i => denotes i.node) (fun i => AfterComma i.comma)

theorem loops_items (starts : StartsWithWord spell) :
    Loops atCloseBrace (Item.tokens spell) (fun i => AfterComma i.comma) where
  starts i := by
    obtain ⟨w, later, eq⟩ := starts i.node
    exact ⟨w, later ++ comma? i.comma, by simp [Item.tokens, eq]⟩
  goes w := rfl
  followed i next h := by
    rintro - rfl
    rcases h with stops | ⟨w, eq⟩
    · simp [atCloseBrace] at stops
    · cases eq

theorem loops_of_starts (starts : StartsWithWord spell)
    (goes : ∀ w, stop (some (.word w)) = false) :
    Loops stop spell anything :=
  ⟨starts, goes, fun _ _ _ => trivial⟩

/-- The closing brace is what stops the loop before it. -/
theorem block_reads {what : String} (loops : Loops atCloseBrace spell follow)
    (reads : Reads item spell denotes follow) :
    Reads (block what item progress) (braced spell) (List.Forall₂ denotes) anything := by
  intro ts as rest scanned
  simp only [block, bind_eq_ok, mark_eq_ok, pure_eq_ok]
  constructor
  · rintro ⟨-, mid, rfl, as, late, read, -, _, rfl, rfl, rfl⟩
    have inner := scanned_tail scanned
    obtain ⟨trees, values, rfl, -⟩ := (repeatUntil_reads loops reads inner).1 read
    exact ⟨trees, values, by simp [braced], trivial⟩
  · rintro ⟨trees, values, rfl, -⟩
    have inner := scanned_tail scanned
    refine ⟨(), _, rfl, as, .mark .closeBrace :: rest, ?_, (), rest, rfl, rfl, rfl⟩
    exact (repeatUntil_reads loops reads inner).2 ⟨trees, values, by simp, rfl⟩

/-- A draft keeps the last value that was put into each of its fields. -/
theorem foldl_last {β δ : Type} {put : δ → α → δ} {get : δ → Option β} {pick : α → Option β}
    (h : ∀ d a, get (put d a) = (pick a).or (get d)) (as : List α) (d : δ) :
    get (as.foldl put d) = ((as.filterMap pick).getLast?).or (get d) := by
  induction as generalizing d with
  | nil => rfl
  | cons a as ih =>
    rw [List.foldl_cons, ih, h]
    cases picked : pick a with
    | none => simp [picked]
    | some b =>
      simp only [List.filterMap_cons, picked, List.getLast?_cons]
      cases (as.filterMap pick).getLast? <;> rfl

/-- A fold that keeps the last picked value has it from the last tree that gives one. -/
theorem last_of_fold {β δ : Type} {R : τ → α → Prop} {f : τ → Option β} {put : δ → α → δ} {init : δ}
    (get : δ → Option β) (pick : α → Option β) (empty : get init = none)
    (step : ∀ d a, get (put d a) = (pick a).or (get d)) (same : ∀ t a, R t a → f t = pick a)
    {trees : List τ} {as : List α} (h : List.Forall₂ R trees as) :
    get (as.foldl put init) = (trees.filterMap f).getLast? := by
  have rows : trees.filterMap f = as.filterMap pick := by
    induction h with
    | nil => rfl
    | cons head _ ih => rw [List.filterMap_cons, List.filterMap_cons, same _ _ head, ih]
  rw [foldl_last step, empty, Option.or_none, rows]

theorem rel_getLast? {β γ : Type} {S : β → γ → Prop} {bs : List β} {cs : List γ}
    (h : List.Forall₂ S bs cs) : Option.Rel S bs.getLast? cs.getLast? := by
  induction h with
  | nil => exact .none
  | cons head tail ih =>
    cases tail with
    | nil => exact .some head
    | cons => simpa only [List.getLast?_cons_cons] using ih

/-- As `last_of_fold`, where what a tree gives and what is picked are only related. -/
theorem rel_last_of_fold {β γ δ : Type} {R : τ → α → Prop} {S : β → γ → Prop} {f : τ → Option β}
    {put : δ → α → δ} {init : δ} (get : δ → Option γ) (pick : α → Option γ)
    (empty : get init = none) (step : ∀ d a, get (put d a) = (pick a).or (get d))
    (rel : ∀ t a, R t a → Option.Rel S (f t) (pick a)) {trees : List τ} {as : List α}
    (h : List.Forall₂ R trees as) :
    Option.Rel S (trees.filterMap f).getLast? (get (as.foldl put init)) := by
  rw [foldl_last step, empty, Option.or_none]
  exact rel_getLast? (List.rel_filterMap rel h)

theorem exists_forall₂ {R : τ → α → Prop} {trees : List τ}
    (h : ∀ t ∈ trees, ∃ a, R t a) : ∃ as, List.Forall₂ R trees as := by
  induction trees with
  | nil => exact ⟨[], .nil⟩
  | cons t trees ih =>
    obtain ⟨a, head⟩ := h t List.mem_cons_self
    obtain ⟨as, tail⟩ := ih fun u mem => h u (List.mem_cons_of_mem _ mem)
    exact ⟨a :: as, .cons head tail⟩

theorem forall_left {R : τ → α → Prop} {P : τ → Prop} (h : ∀ t a, R t a → P t)
    {trees : List τ} {as : List α} (related : List.Forall₂ R trees as) : ∀ t ∈ trees, P t := by
  induction related with
  | nil => simp
  | cons head _ ih => exact List.forall_mem_cons.2 ⟨h _ _ head, ih⟩

theorem forall₂_mapM_iff {P : τ → Prop} {f : τ → Option α} {trees : List τ} {as : List α} :
    List.Forall₂ (fun t a => P t ∧ f t = some a) trees as ↔
      (∀ t ∈ trees, P t) ∧ trees.mapM f = some as := by
  induction trees generalizing as with
  | nil =>
    constructor
    · intro h
      cases h
      exact ⟨by simp, rfl⟩
    · rintro ⟨-, h⟩
      cases h
      exact .nil
  | cons t trees ih =>
    simp only [List.mapM_cons, Option.bind_eq_bind, Option.bind_eq_some_iff, Option.pure_def,
      Option.some.injEq, List.forall_mem_cons]
    constructor
    · rintro (_ | ⟨⟨head, value⟩, tail⟩)
      obtain ⟨all, values⟩ := ih.1 tail
      exact ⟨⟨head, all⟩, _, value, _, values, rfl⟩
    · rintro ⟨⟨head, all⟩, a, value, as, values, rfl⟩
      exact .cons ⟨head, value⟩ (ih.2 ⟨all, values⟩)

theorem forall₂_map_iff {P : τ → Prop} {f : τ → α} {trees : List τ} {as : List α} :
    List.Forall₂ (fun t a => P t ∧ f t = a) trees as ↔ (∀ t ∈ trees, P t) ∧ trees.map f = as := by
  have total : trees.mapM (fun t => some (f t)) = some (trees.map f) := List.mapM_pure
  have iff : List.Forall₂ (fun t a => P t ∧ some (f t) = some a) trees as ↔ _ := forall₂_mapM_iff
  simpa only [Option.some.injEq, total] using iff

end Storyboard.Script.Reader
