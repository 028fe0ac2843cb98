import Storyboard.Timeline.Opacity

namespace Storyboard

/-- The fades of a timeline with the times of their events, in the order of declaration. -/
def fadesOf (timeline : List Event) : List (Float × Fade) :=
  timeline.flatMap fun event => event.commands.map fun
    | .fade f => (event.time, f)

/-- What the fades of one target say about time `t`, in the order of declaration. -/
def opacitiesOf (id : String) (t : Float) (fades : List (Float × Fade)) : List Float :=
  fades.filterMap fun (start, f) => if f.target = id then f.opacityAt? start t else none

/-- The opacity of the elements named `id`, as far as fades decide it. -/
def Scene.lastOpacity (s : Scene) (id : String) (t : Float) : Float :=
  (opacitiesOf id t (fadesOf s.timeline)).getLast?.getD 1.0

/-- Some element after the `i`-th has this id. -/
def Scene.declaresAfter (s : Scene) (i : Nat) (id : String) : Bool :=
  (s.elements.drop (i + 1)).any (·.id == id)

/-- The scene without the commands whose target it does not declare. -/
def Scene.withoutStrays (s : Scene) : Scene :=
  { s with timeline := s.timeline.map fun event =>
      { event with commands := event.commands.filter fun c => s.declares c.target } }

section
variable {start t x : Float}

/-- The fades of a timeline are those of its events, each with the time of its event. -/
theorem mem_fadesOf {timeline : List Event} {f : Fade} :
    (start, f) ∈ fadesOf timeline ↔ ∃ e ∈ timeline, .fade f ∈ e.commands ∧ e.time = start := by
  simp only [fadesOf, List.mem_flatMap, List.mem_map, Prod.mk.injEq]
  constructor
  · rintro ⟨e, listed, ⟨f⟩, given, rfl, rfl⟩
    exact ⟨e, listed, given, rfl⟩
  · rintro ⟨e, listed, given, rfl⟩
    exact ⟨e, listed, .fade f, given, rfl, rfl⟩

theorem forall_fadesOf {timeline : List Event} {P : Float → Fade → Prop} :
    (∀ fade ∈ fadesOf timeline, P fade.1 fade.2) ↔
      ∀ e ∈ timeline, ∀ f, .fade f ∈ e.commands → P e.time f := by
  constructor
  · intro all e listed f command
    exact all (e.time, f) (mem_fadesOf.2 ⟨e, listed, command, rfl⟩)
  · rintro all ⟨start, f⟩ mem
    obtain ⟨e, listed, command, rfl⟩ := mem_fadesOf.1 mem
    exact all e listed f command

theorem mem_opacitiesOf {id : String} {fades : List (Float × Fade)} :
    x ∈ opacitiesOf id t fades ↔
      ∃ start f, (start, f) ∈ fades ∧ f.target = id ∧ f.opacityAt? start t = some x := by
  simp only [opacitiesOf, List.mem_filterMap, Prod.exists, Option.ite_none_right_eq_some]

end

/-- The states of a row of elements, where the last element with an id gets its opacity from
`opacity`, and a shadowed one stays visible. -/
def statesFrom (opacity : String → Float) : List Element → List ElementState
  | [] => []
  | e :: rest =>
    ⟨e.id, e.figure, if rest.any (·.id == e.id) then 1.0 else opacity e.id, e.anchor⟩ ::
      statesFrom opacity rest

theorem statesFrom_any (opacity : String → Float) (id : String) (elements : List Element) :
    (statesFrom opacity elements).any (·.id == id) = elements.any (·.id == id) := by
  induction elements with
  | nil => rfl
  | cons e rest ih => rw [statesFrom, List.any_cons, List.any_cons, ih]

theorem initial_eq_statesFrom (elements : List Element) :
    elements.map Element.initialState = statesFrom (fun _ => 1.0) elements := by
  induction elements with
  | nil => rfl
  | cons e rest ih => rw [List.map_cons, statesFrom, ih, ite_self]; rfl

theorem statesFrom_congr {f g : String → Float} {elements : List Element}
    (same : ∀ e ∈ elements, f e.id = g e.id) : statesFrom f elements = statesFrom g elements := by
  induction elements with
  | nil => rfl
  | cons e rest ih =>
    rw [statesFrom, statesFrom, same e List.mem_cons_self,
      ih fun e' mem => same e' (List.mem_cons_of_mem _ mem)]

/-- Every element stands in its place, and of those with one id only the last has the opacity of the
id. -/
theorem getElem?_statesFrom (opacity : String → Float) (elements : List Element) (i : Nat) :
    (statesFrom opacity elements)[i]? = elements[i]?.map fun e => ⟨e.id, e.figure,
      if (elements.drop (i + 1)).any (·.id == e.id) then 1.0 else opacity e.id, e.anchor⟩ := by
  induction elements generalizing i with
  | nil => rfl
  | cons e rest ih =>
    cases i with
    | zero => rfl
    | succ i => exact ih i

theorem length_statesFrom (opacity : String → Float) (elements : List Element) :
    (statesFrom opacity elements).length = elements.length := by
  induction elements with
  | nil => rfl
  | cons e rest ih => rw [statesFrom, List.length_cons, List.length_cons, ih]

/-- The opacities after one id has been given a new one. -/
def withOpacity (opacity : String → Float) (id : String) (x : Float) : String → Float :=
  fun other => if id = other then x else opacity other

/-- Setting an opacity changes the state of the last element with the id and no other. -/
theorem setOpacity_statesFrom (opacity : String → Float) (id : String) (x : Float)
    (elements : List Element) :
    setOpacity id x (statesFrom opacity elements) =
      statesFrom (withOpacity opacity id x) elements := by
  induction elements with
  | nil => rfl
  | cons e rest ih =>
    rw [statesFrom, statesFrom, setOpacity, statesFrom_any]
    by_cases later : rest.any (·.id == id)
    · rw [if_pos later, ih]
      by_cases same : id = e.id
      · -- Shadowed, so visible before and after.
        subst same
        rw [if_pos later, if_pos later]
      · rw [withOpacity, if_neg same]
    · rw [if_neg later]
      -- Nothing after `e` has the id, so the new opacity is not asked for there.
      have rest_same : statesFrom (withOpacity opacity id x) rest = statesFrom opacity rest := by
        apply statesFrom_congr
        intro e' mem
        have other : id ≠ e'.id := by
          rintro rfl
          exact later (List.any_eq_true.2 ⟨e', mem, beq_self_eq_true _⟩)
        rw [withOpacity, if_neg other]
      rw [rest_same]
      by_cases same : id = e.id
      · subst same
        rw [if_pos rfl, withOpacity, if_pos rfl, if_neg later, if_neg later]
      · rw [if_neg (Ne.symm same), withOpacity, if_neg same]

/-- The opacities after a fade, if it says anything about time `t`. -/
def afterFade (t : Float) (opacity : String → Float) (fade : Float × Fade) : String → Float :=
  fun id => (if fade.2.target = id then fade.2.opacityAt? fade.1 t else none).getD (opacity id)

theorem apply_statesFrom (t : Float) (opacity : String → Float) (fade : Float × Fade)
    (elements : List Element) :
    Command.apply fade.1 t (statesFrom opacity elements) (.fade fade.2) =
      statesFrom (afterFade t opacity fade) elements := by
  obtain ⟨start, f⟩ := fade
  cases decided : f.opacityAt? start t with
  | none =>
    have same : afterFade t opacity (start, f) = opacity := by
      funext id
      simp [afterFade, decided]
    simp only [Command.apply, decided, same]
  | some x =>
    have same : afterFade t opacity (start, f) = withOpacity opacity f.target x := by
      funext id
      simp only [afterFade, withOpacity, decided]
      split <;> rfl
    simp only [Command.apply, decided, same, setOpacity_statesFrom]

/-- Applying fades in their order leaves the opacity of the last one that says anything. -/
theorem foldl_statesFrom (t : Float) (fades : List (Float × Fade)) (opacity : String → Float)
    (elements : List Element) :
    fades.foldl (fun states fade => Command.apply fade.1 t states (.fade fade.2))
        (statesFrom opacity elements) =
      statesFrom (fun id => (opacitiesOf id t fades).getLast?.getD (opacity id)) elements := by
  induction fades generalizing opacity with
  | nil => rfl
  | cons fade fades ih =>
    rw [List.foldl_cons, apply_statesFrom, ih]
    congr 1
    funext id
    simp only [opacitiesOf, afterFade, List.filterMap_cons]
    cases if fade.2.target = id then fade.2.opacityAt? fade.1 t else none with
    | none => rfl
    | some x =>
      rw [List.getLast?_cons]
      rfl

theorem statesAt_eq_foldl (s : Scene) (t : Float) :
    s.statesAt t = (fadesOf s.timeline).foldl
      (fun states fade => Command.apply fade.1 t states (.fade fade.2))
      (s.elements.map Element.initialState) := by
  rw [Scene.statesAt, fadesOf, List.foldl_flatMap]
  congr 1
  funext states event
  rw [Event.apply, List.foldl_map]

/-- The states of a scene are those of its elements with the opacities of the last fades. -/
theorem statesAt_eq_statesFrom (s : Scene) (t : Float) :
    s.statesAt t = statesFrom (fun id => s.lastOpacity id t) s.elements := by
  rw [statesAt_eq_foldl, initial_eq_statesFrom, foldl_statesFrom]
  rfl

/-- Without stray commands the fades of declared elements are left, in their order. -/
theorem fadesOf_withoutStrays (s : Scene) :
    fadesOf s.withoutStrays.timeline =
      (fadesOf s.timeline).filter fun fade => s.declares fade.2.target := by
  simp only [fadesOf, Scene.withoutStrays, List.flatMap_map, List.filter_flatMap, List.filter_map]
  rfl

/-- Stray commands say nothing about declared elements. -/
theorem lastOpacity_withoutStrays {s : Scene} {e : Element} (declared : e ∈ s.elements)
    (t : Float) : s.withoutStrays.lastOpacity e.id t = s.lastOpacity e.id t := by
  have found : s.declares e.id = true := List.any_eq_true.2 ⟨e, declared, beq_self_eq_true _⟩
  have same : opacitiesOf e.id t (fadesOf s.withoutStrays.timeline) =
      opacitiesOf e.id t (fadesOf s.timeline) := by
    rw [fadesOf_withoutStrays, opacitiesOf, List.filterMap_filter]
    congr 1
    funext fade
    by_cases target : fade.2.target = e.id
    · rw [target, if_pos found]
    · split <;> simp [target]
  rw [Scene.lastOpacity, Scene.lastOpacity, same]

/-- Every element has a state in its place. A shadowed one stays visible, of the others the last fade
that says anything decides, and commands with targets that are not declared change nothing. -/
theorem statesAt_meaning (s : Scene) (t : Float) :
    (s.statesAt t).length = s.elements.length ∧
    (∀ i : Nat, (s.statesAt t)[i]? = s.elements[i]?.map fun e => ⟨e.id, e.figure,
      if s.declaresAfter i e.id then 1.0 else s.lastOpacity e.id t, e.anchor⟩) ∧
    s.withoutStrays.statesAt t = s.statesAt t := by
  simp only [statesAt_eq_statesFrom]
  refine ⟨length_statesFrom _ _, getElem?_statesFrom _ _, ?_⟩
  exact statesFrom_congr fun e (declared : e ∈ s.elements) => lastOpacity_withoutStrays declared t

end Storyboard
