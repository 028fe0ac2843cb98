import Storyboard.Proofs.Script.Loops

namespace Storyboard.Script.Reader

open Grammar

variable {ts rest : List Token}

theorem point_eq_ok {p : Point} :
    point ts = .ok (p, rest) ↔
      ∃ x y : Number, ts = (Value.point x y).tokens ++ rest ∧ p = ⟨x.value, y.value⟩ := by
  simp only [point, bind_eq_ok, mark_eq_ok, number_eq_ok, pure_eq_ok]
  constructor
  · rintro ⟨_, _, rfl, x, _, ⟨i, rfl⟩, _, _, rfl, y, _, ⟨j, rfl⟩, _, _, rfl, rfl, rfl⟩
    exact ⟨⟨x, i⟩, ⟨y, j⟩, rfl, rfl⟩
  · rintro ⟨⟨x, i⟩, ⟨y, j⟩, rfl, rfl⟩
    exact ⟨(), _, rfl, x, _, ⟨i, rfl⟩, (), _, rfl, y, _, ⟨j, rfl⟩, (), _, rfl, rfl, rfl⟩

theorem shape_eq_ok {s : Shape} :
    shape ts = .ok (s, rest) ↔ ts = .word s.keyword :: rest := by
  simp only [shape, take_eq_ok]
  constructor
  · rintro ⟨t, verdict, rfl⟩
    split at verdict
    · split at verdict
      · cases verdict; simp_all [Shape.keyword]
      split at verdict
      · cases verdict; simp_all [Shape.keyword]
      · cases verdict
    · cases verdict
  · rintro rfl
    cases s
    · exact ⟨_, rfl, rfl⟩
    · exact ⟨_, rfl, rfl⟩

theorem argument?_eq_some {s : Shape} {name : String} {a : ArgumentName} :
    s.argument? name = some a ↔ name = a.word ∧ a ∈ s.arguments := by
  constructor
  · intro h
    have word := List.find?_some h
    exact ⟨(beq_iff_eq.1 word).symm, List.mem_of_find?_eq_some h⟩
  · rintro ⟨rfl, listed⟩
    revert listed
    cases s <;> cases a <;> decide

theorem argumentName_eq_ok {s : Shape} {a : ArgumentName} :
    argumentName s ts = .ok (a, rest) ↔ ts = .word a.word :: rest ∧ a ∈ s.arguments := by
  simp only [argumentName, take_eq_ok]
  constructor
  · rintro ⟨t, verdict, rfl⟩
    split at verdict
    · split at verdict <;> cases verdict
      obtain ⟨rfl, listed⟩ := argument?_eq_some.1 ‹_›
      exact ⟨rfl, listed⟩
    · cases verdict
  · rintro ⟨rfl, listed⟩
    refine ⟨_, ?_, rfl⟩
    simp only [argument?_eq_some.2 ⟨rfl, listed⟩]

/-- What an allowed clause says. -/
inductive Says : Shape → Clause → Argument → Prop where
  | id {s : Shape} {body : String} : Says s ⟨"id", .text body⟩ (.id body)
  | anchor {s : Shape} {x y : Number} :
    Says s ⟨"at", .point x y⟩ (.anchor ⟨x.value, y.value⟩)
  | content {body : String} : Says .text ⟨"content", .text body⟩ (.content body)
  | radius {n : Number} (positive : 0.0 < n.value) :
    Says .circle ⟨"radius", .number n⟩ (.radius n.value)

/-- An argument is read from the name, the colon and the value of a clause that the shape allows. -/
theorem argument_reads (s : Shape) : Reads (argument s) Clause.tokens (Says s) anything := by
  intro ts a rest scanned
  simp only [argument, bind_eq_ok, argumentName_eq_ok, colonAfter_eq_ok]
  constructor
  · rintro ⟨name, _, ⟨rfl, listed⟩, _, _, rfl, value⟩
    cases name with
    | id =>
      simp only [argumentValue, bind_eq_ok, text_eq_ok, pure_eq_ok] at value
      obtain ⟨body, _, rfl, rfl, rfl⟩ := value
      exact ⟨_, .id, rfl, trivial⟩
    | anchor =>
      simp only [argumentValue, bind_eq_ok, point_eq_ok, pure_eq_ok] at value
      obtain ⟨_, _, ⟨x, y, rfl, rfl⟩, rfl, rfl⟩ := value
      exact ⟨_, .anchor, rfl, trivial⟩
    | content =>
      simp only [argumentValue, bind_eq_ok, text_eq_ok, pure_eq_ok] at value
      obtain ⟨body, _, rfl, rfl, rfl⟩ := value
      cases s with
      | text => exact ⟨_, .content, rfl, trivial⟩
      | circle => simp [Shape.arguments] at listed
    | radius =>
      simp only [argumentValue, bind_eq_ok, radius_eq_ok, pure_eq_ok] at value
      obtain ⟨r, _, ⟨i, rfl, positive⟩, rfl, rfl⟩ := value
      cases s with
      | text => simp [Shape.arguments] at listed
      | circle =>
        have finite : r.isFinite := (scanned (.number r i) (by simp)).1
        exact ⟨_, .radius (n := ⟨r, i⟩) ((Double.not_le_zero_iff finite).1 positive), rfl, trivial⟩
  · rintro ⟨c, said, rfl, -⟩
    cases said with
    | id =>
      refine ⟨.id, _, ⟨rfl, by cases s <;> decide⟩, (), _, rfl, ?_⟩
      simp only [argumentValue, bind_eq_ok, text_eq_ok, pure_eq_ok]
      exact ⟨_, _, rfl, rfl, rfl⟩
    | anchor =>
      refine ⟨.anchor, _, ⟨rfl, by cases s <;> decide⟩, (), _, rfl, ?_⟩
      simp only [argumentValue, bind_eq_ok, point_eq_ok, pure_eq_ok]
      exact ⟨_, _, ⟨_, _, rfl, rfl⟩, rfl, rfl⟩
    | content =>
      refine ⟨.content, _, ⟨rfl, by decide⟩, (), _, rfl, ?_⟩
      simp only [argumentValue, bind_eq_ok, text_eq_ok, pure_eq_ok]
      exact ⟨_, _, rfl, rfl, rfl⟩
    | @radius n positive =>
      have finite : n.value.isFinite := (scanned n.token (by simp [Clause.tokens, Value.tokens])).1
      refine ⟨.radius, _, ⟨rfl, by decide⟩, (), _, rfl, ?_⟩
      simp only [argumentValue, bind_eq_ok, radius_eq_ok, pure_eq_ok]
      exact ⟨_, _, ⟨n.integer, rfl, (Double.not_le_zero_iff finite).2 positive⟩, rfl, rfl⟩

def idOf? : Argument → Option String
  | .id name => some name
  | _ => none

def anchorOf? : Argument → Option Point
  | .anchor p => some p
  | _ => none

def contentOf? : Argument → Option String
  | .content body => some body
  | _ => none

def radiusOf? : Argument → Option Float
  | .radius r => some r
  | _ => none

section Drafts

variable {s : Shape} {given : Arguments} {args : List Argument}

theorem draft_id (said : List.Forall₂ (Says s) given.clauses args) :
    (ElementDraft.ofArguments args).id = given.last? "id" Value.text? :=
  last_of_fold ElementDraft.id idOf? rfl (fun _ a => by cases a <;> rfl)
    (fun _ _ h => by cases h <;> rfl) said

theorem draft_anchor (said : List.Forall₂ (Says s) given.clauses args) :
    (ElementDraft.ofArguments args).anchor = given.last? "at" Value.point? :=
  last_of_fold ElementDraft.anchor anchorOf? rfl (fun _ a => by cases a <;> rfl)
    (fun _ _ h => by cases h <;> rfl) said

theorem draft_content (said : List.Forall₂ (Says s) given.clauses args) :
    (ElementDraft.ofArguments args).content = given.last? "content" Value.text? :=
  last_of_fold ElementDraft.content contentOf? rfl (fun _ a => by cases a <;> rfl)
    (fun _ _ h => by cases h <;> rfl) said

theorem draft_radius (said : List.Forall₂ (Says s) given.clauses args) :
    (ElementDraft.ofArguments args).radius = given.last? "radius" Value.number? :=
  last_of_fold ElementDraft.radius radiusOf? rfl (fun _ a => by cases a <;> rfl)
    (fun _ _ h => by cases h <;> rfl) said

theorem finish_eq_ok {d : ElementDraft} {e : Element} :
    d.finish s = .ok e ↔
      d.id = some e.id ∧ d.anchor = some e.anchor ∧ d.figure s = .ok e.figure := by
  obtain ⟨id, anchor, figure⟩ := e
  unfold ElementDraft.finish
  cases d.id with
  | none => simp [ElementDraft.require, bind, Except.bind]
  | some _ =>
    cases d.anchor with
    | none => simp [ElementDraft.require, bind, Except.bind]
    | some _ =>
      cases d.figure s with
      | error _ => simp [ElementDraft.require, bind, Except.bind]
      | ok _ => simp [ElementDraft.require, bind, Except.bind, pure, Except.pure]

theorem figure_eq_ok (said : List.Forall₂ (Says s) given.clauses args) {f : Figure} :
    (ElementDraft.ofArguments args).figure s = .ok f ↔
      ElementTree.figure? ⟨s, given⟩ = some f := by
  cases s with
  | text =>
    rw [ElementDraft.figure, draft_content said]
    simp only [ElementTree.figure?]
    cases given.last? "content" Value.text? <;> simp [ElementDraft.require, Except.map]
  | circle =>
    rw [ElementDraft.figure, draft_radius said]
    simp only [ElementTree.figure?]
    cases given.last? "radius" Value.number? <;> simp [ElementDraft.require, Except.map]

theorem element?_eq_some {t : ElementTree} {e : Element} :
    t.element? = some e ↔ t.arguments.last? "id" Value.text? = some e.id ∧
      t.arguments.last? "at" Value.point? = some e.anchor ∧ t.figure? = some e.figure := by
  obtain ⟨id, anchor, figure⟩ := e
  simp only [ElementTree.element?, Option.bind_eq_bind, Option.bind_eq_some_iff, Option.pure_def,
    Option.some.injEq, Element.mk.injEq]
  constructor
  · rintro ⟨_, hid, _, hanchor, _, hfigure, rfl, rfl, rfl⟩
    exact ⟨hid, hanchor, hfigure⟩
  · rintro ⟨hid, hanchor, hfigure⟩
    exact ⟨_, hid, _, hanchor, _, hfigure, rfl, rfl, rfl⟩

/-- The draft of the arguments is finished as the element that the clauses denote. -/
theorem finish_iff (said : List.Forall₂ (Says s) given.clauses args) {e : Element} :
    (ElementDraft.ofArguments args).finish s = .ok e ↔
      ElementTree.element? ⟨s, given⟩ = some e := by
  rw [finish_eq_ok, element?_eq_some, draft_id said, draft_anchor said, figure_eq_ok said]

end Drafts

theorem says_of_allowed {s : Shape} {c : Clause} (h : c.Allowed s) : ∃ a, Says s c a := by
  cases h with
  | id => exact ⟨_, .id⟩
  | anchor => exact ⟨_, .anchor⟩
  | content => exact ⟨_, .content⟩
  | radius positive => exact ⟨_, .radius positive⟩

theorem Says.allowed {s : Shape} {c : Clause} {a : Argument} (h : Says s c a) : c.Allowed s := by
  cases h with
  | id => exact .id
  | anchor => exact .anchor
  | content => exact .content
  | radius positive => exact .radius positive

theorem exists_of_last? {α : Type} {given : Arguments} {name : String} {kind : Value → Option α}
    {a : α} (h : given.last? name kind = some a) : ∃ c ∈ given.clauses, c.name = name := by
  have mem := List.mem_of_getLast? h
  obtain ⟨c, listed, value⟩ := List.mem_filterMap.1 mem
  refine ⟨c, listed, ?_⟩
  unfold Clause.valueOf at value
  split at value
  · assumption
  · cases value

theorem admissible_of_element? {t : ElementTree} {e : Element}
    (allowed : ∀ c ∈ t.arguments.clauses, c.Allowed t.shape) (h : t.element? = some e) :
    t.Admissible := by
  obtain ⟨hid, hanchor, hfigure⟩ := element?_eq_some.1 h
  refine ⟨allowed, fun name mem => ?_⟩
  simp only [List.mem_cons, List.not_mem_nil, or_false] at mem
  rcases mem with rfl | rfl | rfl
  · exact exists_of_last? hid
  · exact exists_of_last? hanchor
  · obtain ⟨s, given⟩ := t
    cases s with
    | text =>
      obtain ⟨_, last, -⟩ := Option.map_eq_some_iff.1 hfigure
      exact exists_of_last? last
    | circle =>
      obtain ⟨_, last, -⟩ := Option.map_eq_some_iff.1 hfigure
      exact exists_of_last? last

theorem clause_starts : StartsWithWord Clause.tokens :=
  fun c => ⟨c.name, _, rfl⟩

/-- An element is read exactly from what an admissible tree spells. -/
theorem element_reads :
    Reads element ElementTree.tokens (fun t e => t.Admissible ∧ t.element? = some e) anything := by
  intro ts e rest scanned
  simp only [element, bind_eq_ok, shape_eq_ok, mark_eq_ok, close_eq_ok]
  constructor
  · rintro ⟨s, _, rfl, _, mid, rfl, args, _, read, finished, rfl⟩
    rcases (separated_eq_ok clause_starts (argument_reads s)
      (scanned_tail (scanned_tail scanned))).1 read with
      ⟨rfl, -, -⟩ | ⟨first, others, comma, said, rfl, -⟩
    · obtain ⟨none, -⟩ := finish_eq_ok.1 finished
      cases none
    · have said : List.Forall₂ (Says s) (Arguments.clauses ⟨first, others, comma⟩) args := said
      have denotes := (finish_iff said).1 finished
      have allowed := forall_left (fun _ _ h => Says.allowed h) said
      refine ⟨⟨s, ⟨first, others, comma⟩⟩, ⟨admissible_of_element? allowed denotes, denotes⟩, ?_,
        trivial⟩
      simp [ElementTree.tokens, Arguments.tokens, commaList]
  · rintro ⟨⟨s, given⟩, ⟨admissible, denotes⟩, rfl, -⟩
    obtain ⟨args, said⟩ := exists_forall₂ fun c mem => says_of_allowed (admissible.allowed c mem)
    refine ⟨s, _, rfl, (), _, rfl, args, .mark .closeParen :: rest, ?_,
      (finish_iff said).2 denotes, rfl⟩
    refine (separated_eq_ok clause_starts (argument_reads s)
      (scanned_tail (scanned_tail scanned))).2
      (.inr ⟨given.first, given.others, given.comma, said, ?_, ?_⟩)
    · simp [Arguments.tokens, commaList]
    · unfold AfterList
      split
      · rfl
      · simp

theorem exists_last? {α : Type} {given : Arguments} {name : String} {kind : Value → Option α}
    (fits : ∀ c ∈ given.clauses, c.name = name → ∃ a, kind c.value = some a)
    (present : ∃ c ∈ given.clauses, c.name = name) : ∃ a, given.last? name kind = some a := by
  obtain ⟨c, listed, named⟩ := present
  obtain ⟨a, value⟩ := fits c listed named
  have mem : a ∈ given.clauses.filterMap (Clause.valueOf name kind) :=
    List.mem_filterMap.2 ⟨c, listed, by rw [Clause.valueOf, if_pos named, value]⟩
  exact Option.isSome_iff_exists.1 (List.getLast?_isSome.2 (List.ne_nil_of_mem mem))

/-- An allowed clause has the kind of value that goes with its name. -/
theorem kind_of_allowed {s : Shape} {c : Clause} (h : c.Allowed s) :
    (c.name = "id" → ∃ a, Value.text? c.value = some a) ∧
    (c.name = "at" → ∃ a, Value.point? c.value = some a) ∧
    (c.name = "content" → ∃ a, Value.text? c.value = some a) ∧
    (c.name = "radius" → ∃ a, Value.number? c.value = some a) := by
  cases h <;> simp [Value.text?, Value.point?, Value.number?]

theorem exists_figure {t : ElementTree} (h : t.Admissible) : ∃ f, t.figure? = some f := by
  obtain ⟨s, given⟩ := t
  have kinds := fun c mem => kind_of_allowed (h.allowed c mem)
  have own := h.present (ElementTree.ownName s) (by simp)
  cases s with
  | text =>
    obtain ⟨body, last⟩ := exists_last? (fun c mem => (kinds c mem).2.2.1) own
    exact ⟨.text body, by simp only [ElementTree.figure?, last]; rfl⟩
  | circle =>
    obtain ⟨r, last⟩ := exists_last? (fun c mem => (kinds c mem).2.2.2) own
    exact ⟨.circle r, by simp only [ElementTree.figure?, last]; rfl⟩

/-- An admissible tree always denotes an element: nothing that it needs is missing, and each value
is of its kind. -/
theorem exists_element {t : ElementTree} (h : t.Admissible) : ∃ e, t.element? = some e := by
  have kinds := fun c mem => kind_of_allowed (h.allowed c mem)
  obtain ⟨id, hid⟩ := exists_last? (fun c mem => (kinds c mem).1) (h.present "id" (by simp))
  obtain ⟨anchor, hanchor⟩ :=
    exists_last? (fun c mem => (kinds c mem).2.1) (h.present "at" (by simp))
  obtain ⟨figure, hfigure⟩ := exists_figure h
  exact ⟨⟨id, anchor, figure⟩, element?_eq_some.2 ⟨hid, hanchor, hfigure⟩⟩

end Storyboard.Script.Reader
