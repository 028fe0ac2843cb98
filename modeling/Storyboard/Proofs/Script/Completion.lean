import Storyboard.Proofs.Script.Lookahead
import Storyboard.Proofs.Script.Spelling

/-!
# Readers that can be brought to an end

A reader that stops at a token it cannot take could have gone on with another one: what it has taken
so far is the beginning of something that it takes. `Completes` says so of a reader, and this file
how it carries over to readers that are built from others.
-/

namespace Storyboard.Script.Reader

variable {α β : Type} {ts mid rest used : List Token} {m : Mismatch}

def AllSpelled (ts : List Token) : Prop :=
  ∀ t ∈ ts, t.Spelled

theorem AllSpelled.nil : AllSpelled [] :=
  List.forall_mem_nil _

theorem AllSpelled.cons {t : Token} (ht : t.Spelled) (hts : AllSpelled ts) : AllSpelled (t :: ts) :=
  List.forall_mem_cons.2 ⟨ht, hts⟩

theorem mark_spelled (m : Mark) : (Token.mark m).Spelled :=
  ⟨_, .mark m⟩

theorem AllSpelled.mark (m : Mark) : AllSpelled [.mark m] :=
  .cons (mark_spelled m) .nil

theorem AllSpelled.append {us : List Token} (hts : AllSpelled ts) (hus : AllSpelled us) :
    AllSpelled (ts ++ us) :=
  List.forall_mem_append.2 ⟨hts, hus⟩

/-- The reader takes exactly `used` and gives `a`, whatever comes after it that may. -/
def Takes (r : Reader α) (follow : Option Token → Prop) (used : List Token) (a : α) : Prop :=
  ∀ rest, follow rest.head? → r (used ++ rest) = .ok (a, rest)

/-- Anything may come after what was read. -/
abbrev whatever (_ : Option Token) : Prop :=
  True

/-- Anything but a comma may come after what was read. -/
def noComma (next : Option Token) : Prop :=
  next ≠ some (.mark .comma)

/-- From wherever the reader may be, it can be brought to an end with tokens that can be spelled:
from its beginning, and from the place where it stops at a token that it cannot take. Where it has
come to an end, it has done so whatever may follow. -/
structure Completes (r : Reader α) (follow : Option Token → Prop) : Prop where
  start : ∃ added a, AllSpelled added ∧ Takes r follow added a
  resume : ∀ ts m, r ts = .error m → ∃ used rest added a, ts = used ++ rest ∧
    m.left = rest.length ∧ added ≠ [] ∧ AllSpelled added ∧ Takes r follow (used ++ added) a
  settle : ∀ ts a rest, r ts = .ok (a, rest) → ∃ used, ts = used ++ rest ∧ Takes r follow used a

/-- A sequence fails in its first part, or after it. -/
theorem bind_eq_error {r : Reader α} {f : α → Reader β} (failed : (r >>= f) ts = .error m) :
    r ts = .error m ∨ ∃ a mid, r ts = .ok (a, mid) ∧ f a mid = .error m := by
  cases read : r ts with
  | error m' =>
    rw [bind_of_error read] at failed
    cases failed
    exact .inl rfl
  | ok p =>
    obtain ⟨a, mid⟩ := p
    rw [bind_of_ok read] at failed
    exact .inr ⟨a, mid, rfl, failed⟩

theorem take_completes {construct : String} {judge : Token → Verdict α} {t : Token} {a : α}
    (spelled : t.Spelled) (accepts : judge t = .accept a) :
    Completes (take construct judge) whatever := by
  have taken (t : Token) (a : α) (accepts : judge t = .accept a) :
      Takes (take construct judge) whatever [t] a :=
    fun rest _ => take_eq_ok.2 ⟨t, accepts, rfl⟩
  have single : AllSpelled [t] := .cons spelled .nil
  constructor
  · exact ⟨[t], a, single, taken t a accepts⟩
  · intro ts m failed
    exact ⟨[], ts, [t], a, rfl, take_of_error failed, List.cons_ne_nil _ _, single,
      taken t a accepts⟩
  · intro ts b rest read
    obtain ⟨u, accepts, rfl⟩ := take_eq_ok.1 read
    exact ⟨[u], rfl, taken u b accepts⟩

theorem pure_completes (a : α) (follow : Option Token → Prop) :
    Completes (pure a : Reader α) follow := by
  constructor
  · exact ⟨[], a, .nil, fun _ _ => rfl⟩
  · intro ts m failed
    cases failed
  · intro ts b rest read
    obtain ⟨rfl, rfl⟩ := pure_eq_ok.1 read
    exact ⟨[], rfl, fun _ _ => rfl⟩

theorem skipComma_completes : Completes skipComma noComma := by
  have none : Takes skipComma noComma [] () :=
    fun rest other => skipComma_eq_ok.2 ⟨false, rfl, fun _ => other⟩
  constructor
  · exact ⟨[], (), .nil, none⟩
  · intro ts m failed
    unfold skipComma at failed
    split at failed <;> cases failed
  · intro ts u rest read
    obtain ⟨comma, rfl, -⟩ := skipComma_eq_ok.1 read
    cases comma with
    | true => exact ⟨[.mark .comma], rfl, fun _ _ => rfl⟩
    | false => exact ⟨[], rfl, none⟩

/-- One reader after the other, where what the second one takes may follow the first. -/
theorem Completes.bind {r : Reader α} {f : α → Reader β} {first last : Option Token → Prop}
    (hr : Completes r first) (hf : ∀ a, Completes (f a) last)
    (fits : ∀ a ts b rest, f a ts = .ok (b, rest) → last rest.head? → first ts.head?) :
    Completes (r >>= f) last := by
  have both {used more : List Token} {a : α} {b : β} (head : Takes r first used a)
      (tail : Takes (f a) last more b) : Takes (r >>= f) last (used ++ more) b := by
    intro rest follows
    have after := tail rest follows
    rw [List.append_assoc, bind_of_ok (head _ (fits a _ b rest after follows))]
    exact after
  constructor
  · obtain ⟨used, a, spelled, head⟩ := hr.start
    obtain ⟨more, b, spelled', tail⟩ := (hf a).start
    exact ⟨used ++ more, b, spelled.append spelled', both head tail⟩
  · intro ts m failed
    rcases bind_eq_error failed with failed | ⟨a, mid, read, blamed⟩
    · obtain ⟨used, rest, added, a, rfl, left, nonempty, spelled, head⟩ := hr.resume ts m failed
      obtain ⟨more, b, spelled', tail⟩ := (hf a).start
      refine ⟨used, rest, added ++ more, b, rfl, left, ?_, spelled.append spelled', ?_⟩
      · exact List.append_ne_nil_of_left_ne_nil nonempty _
      · rw [← List.append_assoc]
        exact both head tail
    · obtain ⟨used, rfl, head⟩ := hr.settle ts a mid read
      obtain ⟨more, rest, added, b, rfl, left, nonempty, spelled, tail⟩ :=
        (hf a).resume mid m blamed
      refine ⟨used ++ more, rest, added, b, ?_, left, nonempty, spelled, ?_⟩
      · rw [List.append_assoc]
      · rw [List.append_assoc]
        exact both head tail
  · intro ts b rest read
    obtain ⟨a, mid, first, last⟩ := bind_eq_ok.1 read
    obtain ⟨used, rfl, head⟩ := hr.settle ts a mid first
    obtain ⟨more, rfl, tail⟩ := (hf a).settle mid b rest last
    refine ⟨used ++ more, ?_, both head tail⟩
    rw [List.append_assoc]

/-- One reader after another that anything may follow. -/
theorem Completes.andThen {r : Reader α} {f : α → Reader β} {follow : Option Token → Prop}
    (hr : Completes r whatever) (hf : ∀ a, Completes (f a) follow) : Completes (r >>= f) follow :=
  hr.bind hf fun _ _ _ _ _ _ => trivial

/-- An optional comma at the end. -/
theorem Completes.andComma {r : Reader α} {g : α → β} (hr : Completes r whatever) :
    Completes (do let a ← r; skipComma; return g a) noComma := by
  refine hr.andThen fun a => skipComma_completes.bind (fun _ => pure_completes _ _) ?_
  intro _ ts b rest read follows
  obtain ⟨-, rfl⟩ := pure_eq_ok.1 read
  exact follows

/-- Items one after the other, with what was taken for each. -/
inductive Row (takes : List Token → α → Prop) : List Token → List α → Prop where
  | nil : Row takes [] []
  | cons {used more : List Token} {a : α} {as : List α} (head : takes used a)
    (tail : Row takes more as) : Row takes (used ++ more) (a :: as)

namespace Row

variable {takes : List Token → α → Prop} {us vs : List Token} {as bs : List α} {a : α}

theorem append (first : Row takes us as) (last : Row takes vs bs) :
    Row takes (us ++ vs) (as ++ bs) := by
  induction first with
  | nil => exact last
  | cons head tail ih =>
    rw [List.append_assoc]
    exact .cons head ih

theorem single (head : takes us a) : Row takes us [a] := by
  have row : Row takes (us ++ []) [a] := .cons head .nil
  rw [List.append_nil] at row
  exact row

end Row

/-- The reader takes nothing that does not start with a word. -/
def WordFirst (r : Reader α) : Prop :=
  ∀ ts a rest, r ts = .ok (a, rest) → ∃ w, ts.head? = some (.word w)

theorem WordFirst.bind {r : Reader α} {f : α → Reader β} (hr : WordFirst r) :
    WordFirst (r >>= f) := by
  intro ts b rest read
  obtain ⟨a, mid, first, -⟩ := bind_eq_ok.1 read
  exact hr ts a mid first

/-- A loop over the items, which goes on at a word and ends where an item may be followed by what is
next. -/
structure Repeats (stop : Option Token → Bool) (item : Reader α) (follow : Option Token → Prop) :
    Prop where
  words : WordFirst item
  goes : ∀ w, stop (some (.word w)) = false
  next : ∀ w, follow (some (.word w))
  ends : ∀ next, stop next → follow next
  completes : Completes item follow

section Loops

variable {stop : Option Token → Bool} {item : Reader α} {progress : Progresses item}
  {follow last : Option Token → Prop} {as : List α}

theorem Repeats.follows (repeats : Repeats stop item follow) (row : Row (Takes item follow) used as)
    (stops : stop rest.head?) : follow (used ++ rest).head? := by
  induction row with
  | nil => exact repeats.ends _ stops
  | @cons used more a as head tail ih =>
    have read := head (more ++ rest) ih
    obtain ⟨w, first⟩ := repeats.words _ _ _ read
    rw [List.append_assoc, first]
    exact repeats.next w

theorem Repeats.read (repeats : Repeats stop item follow) (row : Row (Takes item follow) used as)
    (stops : stop rest.head?) : repeatUntil stop item progress (used ++ rest) = .ok (as, rest) := by
  induction row with
  | nil => exact repeatUntil_of_stop stops
  | @cons used more a as head tail ih =>
    have read := head (more ++ rest) (repeats.follows tail stops)
    obtain ⟨w, first⟩ := repeats.words _ _ _ read
    have goes : stop (used ++ (more ++ rest)).head? = false := by
      rw [first]
      exact repeats.goes w
    rw [List.append_assoc, repeatUntil_of_ok goes read, ih]
    rfl

theorem Repeats.settle (repeats : Repeats stop item follow)
    (read : repeatUntil stop item progress ts = .ok (as, rest)) :
    ∃ used, ts = used ++ rest ∧ Row (Takes item follow) used as := by
  fun_induction repeatUntil stop item progress ts generalizing as with
  | case1 ts stops =>
    cases read
    exact ⟨[], rfl, .nil⟩
  | case2 => cases read
  | case3 ts goes a mid first ih =>
    cases later : repeatUntil stop item progress mid with
    | error m =>
      rw [later] at read
      cases read
    | ok p =>
      rw [later] at read
      cases read
      obtain ⟨used, rfl, head⟩ := repeats.completes.settle _ _ _ first
      obtain ⟨more, rfl, tail⟩ := ih later
      exact ⟨used ++ more, (List.append_assoc ..).symm, .cons head tail⟩

/-- Where a loop fails, tokens can be put that finish the item that it was reading. -/
theorem Repeats.resume (repeats : Repeats stop item follow)
    (failed : repeatUntil stop item progress ts = .error m) :
    ∃ used rest added as, ts = used ++ rest ∧ m.left = rest.length ∧ added ≠ [] ∧
      AllSpelled added ∧ Row (Takes item follow) (used ++ added) as := by
  fun_induction repeatUntil stop item progress ts with
  | case1 => cases failed
  | case2 ts goes m' first =>
    cases failed
    obtain ⟨used, rest, added, a, rfl, left, nonempty, spelled, head⟩ :=
      repeats.completes.resume _ _ first
    exact ⟨used, rest, added, [a], rfl, left, nonempty, spelled, .single head⟩
  | case3 ts goes a mid first ih =>
    cases later : repeatUntil stop item progress mid with
    | ok p =>
      rw [later] at failed
      cases failed
    | error m' =>
      rw [later] at failed
      cases failed
      obtain ⟨used, rfl, head⟩ := repeats.completes.settle _ _ _ first
      obtain ⟨more, rest, added, as, rfl, left, nonempty, spelled, tail⟩ := ih later
      refine ⟨used ++ more, rest, added, a :: as, ?_, left, nonempty, spelled, ?_⟩
      · rw [List.append_assoc]
      · rw [List.append_assoc]
        exact .cons head tail

theorem Repeats.loop_completes (repeats : Repeats stop item follow) :
    Completes (repeatUntil stop item progress) (fun next => stop next) := by
  constructor
  · exact ⟨[], [], .nil, fun rest stops => repeats.read .nil stops⟩
  · intro ts m failed
    obtain ⟨used, rest, added, as, rfl, left, nonempty, spelled, row⟩ := repeats.resume failed
    exact ⟨used, rest, added, as, rfl, left, nonempty, spelled, fun _ stops =>
      repeats.read row stops⟩
  · intro ts as rest read
    obtain ⟨used, rfl, row⟩ := repeats.settle read
    exact ⟨used, rfl, fun _ stops => repeats.read row stops⟩

/-- What comes after a loop and looks at what was read: it takes or blames one token, and with more
items before it there is one that it takes. -/
structure Concludes (stop : Option Token → Bool) (item : Reader α) (follow : Option Token → Prop)
    (k : List α → Reader β) (last : Option Token → Prop) : Prop where
  refuses : ∀ as ts m, k as ts = .error m → m.left = ts.length
  settle : ∀ as ts b rest, k as ts = .ok (b, rest) →
    ∃ used, ts = used ++ rest ∧ Takes (k as) last used b
  stops : ∀ as ts b rest, k as ts = .ok (b, rest) → last rest.head? → stop ts.head?
  finish : ∀ as, ∃ added bs closing b, Row (Takes item follow) added bs ∧
    Takes (k (as ++ bs)) last closing b ∧ added ++ closing ≠ [] ∧ AllSpelled (added ++ closing)

/-- What follows a loop may need more items than stand there, so they are added before it goes
on. -/
theorem Repeats.then_completes {k : List α → Reader β} (repeats : Repeats stop item follow)
    (concludes : Concludes stop item follow k last) :
    Completes (repeatUntil stop item progress >>= k) last := by
  have both {used closing : List Token} {as : List α} {b : β}
      (row : Row (Takes item follow) used as) (ends : Takes (k as) last closing b) :
      Takes (repeatUntil stop item progress >>= k) last (used ++ closing) b := by
    intro rest follows
    have after := ends rest follows
    have stops := concludes.stops as _ b rest after follows
    rw [List.append_assoc, bind_of_ok (repeats.read row stops)]
    exact after
  constructor
  · obtain ⟨added, bs, closing, b, row, ends, -, spelled⟩ := concludes.finish []
    exact ⟨added ++ closing, b, spelled, both row ends⟩
  · intro ts m failed
    rcases bind_eq_error failed with failed | ⟨as, rest, read, blamed⟩
    · obtain ⟨used, rest, added, as, rfl, left, nonempty, spelled, row⟩ := repeats.resume failed
      obtain ⟨more, bs, closing, b, row', ends, -, spelled'⟩ := concludes.finish as
      refine ⟨used, rest, added ++ (more ++ closing), b, rfl, left, ?_, spelled.append spelled', ?_⟩
      · exact List.append_ne_nil_of_left_ne_nil nonempty _
      · have whole := both (row.append row') ends
        simpa only [List.append_assoc] using whole
    · obtain ⟨used, rfl, row⟩ := repeats.settle read
      obtain ⟨more, bs, closing, b, row', ends, nonempty, spelled⟩ := concludes.finish as
      refine ⟨used, rest, more ++ closing, b, rfl, concludes.refuses as rest m blamed, nonempty,
        spelled, ?_⟩
      have whole := both (row.append row') ends
      rwa [List.append_assoc] at whole
  · intro ts b rest read
    obtain ⟨as, mid, first, ended⟩ := bind_eq_ok.1 read
    obtain ⟨used, rfl, row⟩ := repeats.settle first
    obtain ⟨closing, rfl, ends⟩ := concludes.settle as mid b rest ended
    exact ⟨used ++ closing, (List.append_assoc ..).symm, both row ends⟩

/-- The closing brace after a loop, where more items can always make up for what is missing. -/
theorem close_concludes {construct : String} {finish : List α → Except Cause β}
    (finishes : ∀ as, ∃ added bs b, Row (Takes item follow) added bs ∧ AllSpelled added ∧
      finish (as ++ bs) = .ok b) :
    Concludes atCloseBrace item follow (fun as => close .closeBrace construct (finish as))
      whatever := by
  constructor
  · intro as ts m failed
    exact take_of_error failed
  · intro as ts b rest read
    obtain ⟨result, rfl⟩ := close_eq_ok.1 read
    exact ⟨[.mark .closeBrace], rfl, fun _ _ => close_eq_ok.2 ⟨result, rfl⟩⟩
  · intro as ts b rest read _
    obtain ⟨-, rfl⟩ := close_eq_ok.1 read
    rfl
  · intro as
    obtain ⟨added, bs, b, row, spelled, result⟩ := finishes as
    exact ⟨added, bs, [.mark .closeBrace], b, row, fun _ _ => close_eq_ok.2 ⟨result, rfl⟩,
      List.append_ne_nil_of_right_ne_nil _ (List.cons_ne_nil _ _), spelled.append (.mark _)⟩

end Loops

theorem mark_completes (m : Mark) (construct : String) : Completes (mark m construct) whatever :=
  take_completes (mark_spelled m) (if_pos rfl)

theorem block_completes {what : String} {item : Reader α} {progress : Progresses item}
    {follow : Option Token → Prop} (repeats : Repeats atCloseBrace item follow) :
    Completes (block what item progress) whatever := by
  refine (mark_completes _ _).andThen fun _ => repeats.loop_completes.bind (fun items =>
    (mark_completes _ _).andThen fun _ => pure_completes _ _) ?_
  intro items ts b rest read _
  obtain ⟨_, mid, closed, -⟩ := bind_eq_ok.1 read
  rw [mark_eq_ok.1 closed]
  rfl

/-- An item and the comma after it. -/
def CommaTakes (item : Reader α) (used : List Token) (a : α) : Prop :=
  ∃ own, used = own ++ [.mark .comma] ∧ Takes item whatever own a

section Lists

variable {closing : Mark} {item : Reader α} {progress : Progresses item} {as : List α} {a : α}

theorem not_close_of_read (words : WordFirst item) (read : item ts = .ok (a, rest)) :
    ts.head? ≠ some (.mark closing) := by
  obtain ⟨w, first⟩ := words _ _ _ read
  rw [first]
  simp

/-- Items with a comma after each are read first, and the rest of the list after them. -/
theorem separated_row (words : WordFirst item) (row : Row (CommaTakes item) used as)
    (rest : List Token) :
    separated closing item progress (used ++ rest) =
      (separated closing item progress rest).map fun (bs, later) => (as ++ bs, later) := by
  induction row with
  | nil =>
    change separated closing item progress rest = _
    cases separated closing item progress rest <;> rfl
  | @cons used more a as head tail ih =>
    obtain ⟨own, rfl, takes⟩ := head
    have read := takes (.mark .comma :: (more ++ rest)) trivial
    have goes : (own ++ .mark .comma :: (more ++ rest)).head? ≠ some (.mark closing) :=
      not_close_of_read words read
    rw [List.append_assoc, List.append_assoc, List.singleton_append, separated_of_comma goes read,
      ih]
    cases separated closing item progress rest <;> rfl

theorem row_of_separated_ok (completes : Completes item whatever)
    (read : separated closing item progress ts = .ok (as, rest)) :
    ∃ used bs, Row (CommaTakes item) used bs ∧
      (ts = used ++ rest ∧ as = bs ∧ rest.head? = some (.mark closing) ∨
        ∃ own a, Takes item whatever own a ∧ ts = used ++ (own ++ rest) ∧ as = bs ++ [a] ∧
          noComma rest.head?) := by
  fun_induction separated closing item progress ts generalizing as with
  | case1 ts closes =>
    cases read
    exact ⟨[], [], .nil, .inl ⟨rfl, rfl, closes⟩⟩
  | case2 => cases read
  | case3 ts goes a mid first ih =>
    cases later : separated closing item progress mid with
    | error m =>
      rw [later] at read
      cases read
    | ok p =>
      rw [later] at read
      cases read
      obtain ⟨own, rfl, takes⟩ := completes.settle _ _ _ first
      obtain ⟨used, bs, row, ends⟩ := ih later
      refine ⟨own ++ [.mark .comma] ++ used, a :: bs, .cons ⟨own, rfl, takes⟩ row, ?_⟩
      rcases ends with ⟨rfl, same, closes⟩ | ⟨last, b, takes', rfl, same, other⟩
      · exact .inl ⟨by simp, by rw [same], closes⟩
      · exact .inr ⟨last, b, takes', by simp, by rw [same]; rfl, other⟩
  | case4 ts goes a mid other first =>
    cases read
    obtain ⟨own, rfl, takes⟩ := completes.settle _ _ _ first
    refine ⟨[], [], .nil, .inr ⟨own, a, takes, rfl, rfl, fun comma => ?_⟩⟩
    obtain ⟨later, eq⟩ := List.head?_eq_some_iff.1 comma
    exact other later eq

/-- Where a list fails, its last item was begun and can be finished. -/
theorem row_of_separated_error (completes : Completes item whatever)
    (failed : separated closing item progress ts = .error m) :
    ∃ used as own rest added a, Row (CommaTakes item) used as ∧ ts = used ++ (own ++ rest) ∧
      m.left = rest.length ∧ added ≠ [] ∧ AllSpelled added ∧
      Takes item whatever (own ++ added) a := by
  fun_induction separated closing item progress ts with
  | case1 => cases failed
  | case2 ts goes m' first =>
    cases failed
    obtain ⟨own, rest, added, a, rfl, left, nonempty, spelled, takes⟩ := completes.resume _ _ first
    exact ⟨[], [], own, rest, added, a, .nil, rfl, left, nonempty, spelled, takes⟩
  | case3 ts goes a mid first ih =>
    cases later : separated closing item progress mid with
    | ok p =>
      rw [later] at failed
      cases failed
    | error m' =>
      rw [later] at failed
      cases failed
      obtain ⟨own, rfl, takes⟩ := completes.settle _ _ _ first
      obtain ⟨used, as, last, rest, added, b, row, rfl, left, nonempty, spelled, takes'⟩ := ih later
      exact ⟨own ++ [.mark .comma] ++ used, a :: as, last, rest, added, b,
        .cons ⟨own, rfl, takes⟩ row, by simp, left, nonempty, spelled, takes'⟩
  | case4 => cases failed

variable {construct : String} {finish : List α → Except Cause β} {b : β}

/-- Items with a comma after each make up a list if the bracket comes next. -/
theorem takes_closed (words : WordFirst item) (row : Row (CommaTakes item) used as)
    (result : finish as = .ok b) :
    Takes (separated closing item progress >>= fun as => close closing construct (finish as))
      whatever (used ++ [.mark closing]) b := by
  intro rest _
  have read : separated closing item progress (used ++ (.mark closing :: rest)) =
      .ok (as, .mark closing :: rest) := by
    rw [separated_row words row, separated_of_close rfl]
    simp [Except.map]
  rw [List.append_assoc, List.singleton_append, bind_of_ok read]
  exact close_eq_ok.2 ⟨result, rfl⟩

/-- The last item may do without its comma. -/
theorem takes_closed_last (words : WordFirst item) (row : Row (CommaTakes item) used as)
    {own : List Token} (takes : Takes item whatever own a)
    (other : noComma (some (.mark closing))) (result : finish (as ++ [a]) = .ok b) :
    Takes (separated closing item progress >>= fun as => close closing construct (finish as))
      whatever (used ++ (own ++ [.mark closing])) b := by
  intro rest _
  have last := takes (.mark closing :: rest) trivial
  have goes : (own ++ .mark closing :: rest).head? ≠ some (.mark closing) :=
    not_close_of_read words last
  have read : separated closing item progress (used ++ (own ++ (.mark closing :: rest))) =
      .ok (as ++ [a], .mark closing :: rest) := by
    rw [separated_row words row, separated_of_last goes last other]
    rfl
  rw [List.append_assoc, List.append_assoc, List.singleton_append, bind_of_ok read]
  exact close_eq_ok.2 ⟨result, rfl⟩

/-- After items with a comma each, what else the list needs can be put, and its bracket. -/
theorem exists_closed (words : WordFirst item)
    (finishes : ∀ as, ∃ added bs b, Row (CommaTakes item) added bs ∧ AllSpelled added ∧
      finish (as ++ bs) = .ok b)
    (row : Row (CommaTakes item) used as) :
    ∃ added b, added ≠ [] ∧ AllSpelled added ∧
      Takes (separated closing item progress >>= fun as => close closing construct (finish as))
        whatever (used ++ added) b := by
  obtain ⟨more, bs, b, row', spelled, result⟩ := finishes as
  refine ⟨more ++ [.mark closing], b, by simp, spelled.append (.mark _), ?_⟩
  rw [← List.append_assoc]
  exact takes_closed words (row.append row') result

/-- A list up to its bracket, where more items can always make up for what is missing. -/
theorem separated_completes (words : WordFirst item) (completes : Completes item whatever)
    (finishes : ∀ as, ∃ added bs b, Row (CommaTakes item) added bs ∧ AllSpelled added ∧
      finish (as ++ bs) = .ok b) :
    Completes (separated closing item progress >>= fun as =>
      close closing construct (finish as)) whatever := by
  constructor
  · obtain ⟨added, b, -, spelled, takes⟩ := exists_closed words finishes .nil
    exact ⟨added, b, spelled, takes⟩
  · intro ts m failed
    rcases bind_eq_error failed with failed | ⟨as, rest, read, blamed⟩
    · -- The item is finished and gets a comma, and then comes what else is missing.
      obtain ⟨used, as, own, rest, added, a, row, rfl, left, nonempty, spelled, takes⟩ :=
        row_of_separated_error completes failed
      have row := row.append (.single ⟨own ++ added, rfl, takes⟩)
      obtain ⟨more, b, -, spelled', takes'⟩ := exists_closed words finishes row
      refine ⟨used ++ own, rest, added ++ ([.mark .comma] ++ more), b,
        (List.append_assoc _ _ _).symm, left, List.append_ne_nil_of_left_ne_nil nonempty _,
        spelled.append (AllSpelled.append (.mark _) spelled'), ?_⟩
      simpa only [List.append_assoc] using takes'
    · have left : m.left = rest.length := take_of_error blamed
      obtain ⟨used, bs, row, ⟨rfl, rfl, -⟩ | ⟨own, a, takes, rfl, rfl, -⟩⟩ :=
        row_of_separated_ok completes read
      · obtain ⟨more, b, nonempty, spelled, takes⟩ := exists_closed words finishes row
        exact ⟨used, rest, more, b, rfl, left, nonempty, spelled, takes⟩
      · have row := row.append (.single ⟨own, rfl, takes⟩)
        obtain ⟨more, b, -, spelled, takes'⟩ := exists_closed words finishes row
        refine ⟨used ++ own, rest, [.mark .comma] ++ more, b, (List.append_assoc _ _ _).symm, left,
          by simp, AllSpelled.append (.mark _) spelled, ?_⟩
        simpa only [List.append_assoc] using takes'
  · intro ts b rest read
    obtain ⟨as, mid, first, ended⟩ := bind_eq_ok.1 read
    obtain ⟨result, rfl⟩ := close_eq_ok.1 ended
    obtain ⟨used, bs, row, ⟨rfl, rfl, -⟩ | ⟨own, a, takes, rfl, rfl, other⟩⟩ :=
      row_of_separated_ok completes first
    · exact ⟨used ++ [.mark closing], by simp, takes_closed words row result⟩
    · exact ⟨used ++ (own ++ [.mark closing]), by simp,
        takes_closed_last words row takes other result⟩

end Lists

end Storyboard.Script.Reader
