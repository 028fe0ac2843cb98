import Storyboard.Diagnostic
import Storyboard.Proofs.Double.Rank
import Storyboard.Proofs.Timeline.LastFade

/-!
# What warnings say about evaluation

Findings and fades are worked out apart from each other. Main statement: commands that are reported
as unresolved do nothing and no others have an unknown target; the ids that are reported as repeated
are those of the elements that no fade can reach; and a timeline without a report of disorder can be
sorted by time without a change (`warnings_agree`).
-/

namespace Storyboard

/-- The finding is reported about the scene at an index. -/
def Program.reports (p : Program) (index : Nat) (f : Finding) : Bool :=
  p.diagnostics.any fun d => d.scene == index && d.finding == f

/-- The greatest of `latest` and the times of events. -/
def latestOf (latest : Float) (events : List Event) : Float :=
  events.foldl (fun latest e => greater latest e.time) latest

namespace Scene

/-- The findings about a scene, without their messages. -/
def findings (s : Scene) : List Finding :=
  s.remarks.map (·.1)

def eventFindings (s : Scene) (latest : Float) (index : Nat) (e : Event) : List Finding :=
  (s.eventRemarks latest index e).map (·.1)

def timelineFindings (s : Scene) (latest : Float) (index : Nat) (events : List Event) :
    List Finding :=
  (s.timelineRemarks latest index events).map (·.1)

theorem findings_eq (s : Scene) :
    s.findings = s.repeatedIds.map .duplicateId ++
      s.timelineFindings (-1.0 / 0.0) 0 s.timeline := by
  simp only [findings, remarks, duplicateRemarks, timelineFindings, List.map_append, List.map_map]
  rfl

/-- An event is reported for its order, its end and its targets, in this order. -/
theorem eventFindings_eq (s : Scene) (latest : Float) (index : Nat) (e : Event) :
    s.eventFindings latest index e =
      (if e.time < latest then [.outOfOrder index] else []) ++
      (if s.duration < e.time then [.afterSceneEnd index] else []) ++
      (e.commands.filter fun c => !s.declares c.target).map fun c =>
        .unresolvedTarget c.target index := by
  simp only [eventFindings, eventRemarks, List.map_append, List.map_map, apply_ite (List.map _),
    List.map_cons, List.map_nil]
  rfl

/-- Every event is remarked on by itself, after the events before it. -/
theorem timelineRemarks_eq (s : Scene) (latest : Float) (index : Nat) (events : List Event) :
    s.timelineRemarks latest index events = (List.range events.length).flatMap fun j =>
      match events[j]? with
      | some e => s.eventRemarks (latestOf latest (events.take j)) (index + j) e
      | none => [] := by
  induction events generalizing latest index with
  | nil => rfl
  | cons e rest ih =>
    rw [timelineRemarks, ih, List.length_cons, List.range_succ_eq_map, List.flatMap_cons,
      List.flatMap_map]
    simp only [Nat.succ_eq_add_one, List.getElem?_cons_succ, List.take_succ_cons, Nat.add_assoc,
      Nat.add_comm 1]
    rfl

/-- An event is judged by the events before it. -/
theorem mem_timelineFindings {s : Scene} {latest : Float} {index : Nat} {events : List Event}
    {f : Finding} : f ∈ s.timelineFindings latest index events ↔
      ∃ (j : Nat) (e : Event), events[j]? = some e ∧
        f ∈ s.eventFindings (latestOf latest (events.take j)) (index + j) e := by
  rw [timelineFindings, timelineRemarks_eq, List.map_flatMap, List.mem_flatMap]
  constructor
  · rintro ⟨j, listed, mem⟩
    have inside : j < events.length := List.mem_range.1 listed
    rw [List.getElem?_eq_getElem inside] at mem
    exact ⟨j, _, List.getElem?_eq_getElem inside, mem⟩
  · rintro ⟨j, e, at_j, mem⟩
    obtain ⟨inside, -⟩ := List.getElem?_eq_some_iff.1 at_j
    refine ⟨j, List.mem_range.2 inside, ?_⟩
    rw [at_j]
    exact mem

theorem unresolved_mem_event {s : Scene} {latest : Float} {index j : Nat} {e : Event}
    {target : String} :
    .unresolvedTarget target j ∈ s.eventFindings latest index e ↔
      index = j ∧ s.declares target = false ∧ ∃ c ∈ e.commands, c.target = target := by
  simp only [eventFindings_eq, List.mem_append, List.mem_ite_nil_right, List.mem_singleton,
    List.mem_map, List.mem_filter, Bool.not_eq_true', reduceCtorEq, and_false, false_or,
    Finding.unresolvedTarget.injEq]
  constructor
  · rintro ⟨c, ⟨given, unknown⟩, rfl, rfl⟩
    exact ⟨rfl, unknown, c, given, rfl⟩
  · rintro ⟨rfl, unknown, c, given, rfl⟩
    exact ⟨c, ⟨given, unknown⟩, rfl, rfl⟩

theorem outOfOrder_mem_event {s : Scene} {latest : Float} {index j : Nat} {e : Event} :
    .outOfOrder j ∈ s.eventFindings latest index e ↔ index = j ∧ e.time < latest := by
  simp only [eventFindings_eq, List.mem_append, List.mem_ite_nil_right, List.mem_singleton,
    List.mem_map, reduceCtorEq, and_false, exists_false, or_false, Finding.outOfOrder.injEq]
  rw [and_comm, eq_comm]

theorem duplicateId_not_mem_event {s : Scene} {latest : Float} {index : Nat} {e : Event}
    {id : String} : .duplicateId id ∉ s.eventFindings latest index e := by
  simp only [eventFindings_eq, List.mem_append, List.mem_ite_nil_right, List.mem_singleton,
    List.mem_map, reduceCtorEq, and_false, exists_false, or_false, not_false_eq_true]

/-- A target is reported as unresolved just if an event names it and nothing declares it. -/
theorem unresolved_mem_findings {s : Scene} {target : String} {j : Nat} :
    .unresolvedTarget target j ∈ s.findings ↔ s.declares target = false ∧
      ∃ e, s.timeline[j]? = some e ∧ ∃ c ∈ e.commands, c.target = target := by
  simp only [findings_eq, List.mem_append, List.mem_map, reduceCtorEq, and_false, exists_false,
    false_or, mem_timelineFindings, unresolved_mem_event, Nat.zero_add]
  constructor
  · rintro ⟨_, e, at_j, rfl, unknown, given⟩
    exact ⟨unknown, e, at_j, given⟩
  · rintro ⟨unknown, e, at_j, given⟩
    exact ⟨j, e, at_j, rfl, unknown, given⟩

/-- An event is reported as out of order just if some event before it is later. -/
theorem outOfOrder_mem_findings {s : Scene} {j : Nat} :
    .outOfOrder j ∈ s.findings ↔ ∃ e, s.timeline[j]? = some e ∧
      e.time < latestOf (-1.0 / 0.0) (s.timeline.take j) := by
  simp only [findings_eq, List.mem_append, List.mem_map, reduceCtorEq, and_false, exists_false,
    false_or, mem_timelineFindings, outOfOrder_mem_event, Nat.zero_add]
  constructor
  · rintro ⟨_, e, at_j, rfl, before⟩
    exact ⟨e, at_j, before⟩
  · rintro ⟨e, at_j, before⟩
    exact ⟨j, e, at_j, rfl, before⟩

theorem mem_repeatedIds {s : Scene} {id : String} : id ∈ s.repeatedIds ↔ 1 < s.declarations id := by
  simp only [repeatedIds, List.mem_mergeSort, List.mem_filter, List.mem_eraseDups,
    decide_eq_true_eq, List.mem_map]
  rw [and_iff_right_iff_imp]
  intro repeated
  have some_one : 0 < s.elements.countP (·.id == id) := Nat.lt_of_succ_lt repeated
  obtain ⟨e, declared, same⟩ := List.countP_pos_iff.1 some_one
  exact ⟨e, declared, eq_of_beq same⟩

/-- An id is reported as repeated just if it is declared more than once. -/
theorem duplicateId_mem_findings {s : Scene} {id : String} :
    .duplicateId id ∈ s.findings ↔ 1 < s.declarations id := by
  simp only [findings_eq, List.mem_append, List.mem_map, Finding.duplicateId.injEq,
    exists_eq_right, mem_timelineFindings, duplicateId_not_mem_event, and_false, exists_false,
    or_false, mem_repeatedIds]

end Scene

theorem reports_iff {p : Program} {index : Nat} {s : Scene} (found : p.scenes[index]? = some s)
    {f : Finding} : p.reports index f = true ↔ f ∈ s.findings := by
  simp only [Program.reports, Program.diagnostics, List.any_eq_true, List.mem_flatMap, List.mem_map,
    Bool.and_eq_true, beq_iff_eq, Scene.findings]
  constructor
  · rintro ⟨_, ⟨⟨other, _⟩, listed, r, remarked, rfl⟩, rfl, rfl⟩
    rw [List.mem_zipIdx_iff_getElem?, found] at listed
    cases listed
    exact ⟨r, remarked, rfl⟩
  · rintro ⟨r, remarked, rfl⟩
    exact ⟨_, ⟨(s, index), List.mem_zipIdx_iff_getElem?.2 found, r, remarked, rfl⟩, rfl, rfl⟩

/-- Commands that are reported as unresolved may be left out without a change on screen. -/
theorem statesAt_withoutStrays (s : Scene) (t : Float) :
    s.withoutStrays.statesAt t = s.statesAt t := by
  rw [statesAt_eq_statesFrom, statesAt_eq_statesFrom]
  exact statesFrom_congr fun e (declared : e ∈ s.elements) => lastOpacity_withoutStrays declared t

/-- The scene without the commands that are reported as unresolved. -/
def Program.withoutUnresolved (p : Program) (index : Nat) (s : Scene) : Scene :=
  { s with timeline := s.timeline.mapIdx fun j e =>
      { e with commands := e.commands.filter fun c =>
          !p.reports index (.unresolvedTarget c.target j) } }

section
variable {p : Program} {index : Nat} {s : Scene}

/-- A command is reported if and only if its target is not declared. -/
theorem reports_unresolved (found : p.scenes[index]? = some s) {j : Nat} {e : Event}
    (at_j : s.timeline[j]? = some e) {c : Command} (given : c ∈ e.commands) :
    p.reports index (.unresolvedTarget c.target j) = !s.declares c.target := by
  apply Bool.eq_iff_iff.2
  rw [reports_iff found, Scene.unresolved_mem_findings, Bool.not_eq_true']
  exact and_iff_left ⟨e, at_j, c, given, rfl⟩

theorem withoutUnresolved_eq (found : p.scenes[index]? = some s) :
    p.withoutUnresolved index s = s.withoutStrays := by
  unfold Program.withoutUnresolved Scene.withoutStrays
  congr 1
  apply List.ext_getElem?
  intro j
  rw [List.getElem?_mapIdx, List.getElem?_map]
  cases at_j : s.timeline[j]? with
  | none => rfl
  | some e =>
    have same : (e.commands.filter fun c => !p.reports index (.unresolvedTarget c.target j)) =
        e.commands.filter fun c => s.declares c.target := by
      apply List.filter_congr
      intro c given
      rw [reports_unresolved found at_j given, Bool.not_not]
    simp only [Option.map_some, same]

end

theorem one_lt_countP_iff {α : Type} {p : α → Bool} {l : List α} :
    1 < l.countP p ↔ ∃ k a, l[k]? = some a ∧ p a = true ∧ (l.drop (k + 1)).any p = true := by
  induction l with
  | nil => simp
  | cons first rest ih =>
    have any_iff : 0 < rest.countP p ↔ rest.any p = true := by
      rw [List.countP_pos_iff, List.any_eq_true]
    constructor
    · intro two
      by_cases here : p first
      · rw [List.countP_cons_of_pos here] at two
        exact ⟨0, first, rfl, here, any_iff.1 (by omega)⟩
      · rw [List.countP_cons_of_neg here] at two
        obtain ⟨k, a, at_k, found, later⟩ := ih.1 two
        exact ⟨k + 1, a, at_k, found, later⟩
    · rintro ⟨k, a, at_k, found, later⟩
      cases k with
      | zero =>
        cases at_k
        have := any_iff.2 later
        rw [List.countP_cons_of_pos found]
        omega
      | succ k =>
        have := ih.2 ⟨k, a, at_k, found, later⟩
        rw [List.countP_cons]
        omega

/-- An id is declared more than once if and only if an element with it is shadowed. -/
theorem one_lt_declarations_iff {s : Scene} {id : String} :
    1 < s.declarations id ↔
      ∃ k v, s.elements[k]? = some v ∧ v.id = id ∧ s.declaresAfter k id = true := by
  simp only [Scene.declarations, one_lt_countP_iff, beq_iff_eq, Scene.declaresAfter]

/-- A shadowed element stays visible, whatever fades there are. -/
theorem opacity_of_shadowed {s : Scene} {k : Nat} {v : Element} (at_k : s.elements[k]? = some v)
    (shadowed : s.declaresAfter k v.id = true) (t : Float) :
    (s.statesAt t)[k]?.map (·.opacity) = some 1.0 := by
  have later : (s.elements.drop (k + 1)).any (·.id == v.id) = true := shadowed
  rw [statesAt_eq_statesFrom, getElem?_statesFrom, at_k, Option.map_some, Option.map_some,
    if_pos later]

theorem greater_eq (a b : Float) : greater a b = a ∨ greater a b = b := by
  unfold greater
  split
  · exact .inr rfl
  · split
    · exact .inr rfl
    · exact .inl rfl

theorem greater_bounds {a b : Float} (ha : a.isNaN = false) (hb : b.isNaN = false) :
    (greater a b).isNaN = false ∧ a ≤ greater a b ∧ b ≤ greater a b := by
  have eq : greater a b = if a ≤ b then b else a := by
    rw [greater, ha]
    rfl
  rw [eq]
  split
  · rename_i le
    exact ⟨hb, le, (Double.le_iff_place hb hb).2 le_rfl⟩
  · rename_i above
    refine ⟨ha, (Double.le_iff_place ha ha).2 le_rfl, ?_⟩
    rw [Double.le_iff_place ha hb, not_le] at above
    exact (Double.le_iff_place hb ha).2 (le_of_lt above)

/-- The latest time is at least the time of each event so far. -/
theorem latestOf_bounds {latest : Float} {events : List Event} (number : latest.isNaN = false)
    (numbers : ∀ e ∈ events, e.time.isNaN = false) :
    (latestOf latest events).isNaN = false ∧ latest ≤ latestOf latest events ∧
      ∀ e ∈ events, e.time ≤ latestOf latest events := by
  induction events generalizing latest with
  | nil =>
    refine ⟨number, (Double.le_iff_place number number).2 le_rfl, ?_⟩
    intro e none
    cases none
  | cons first rest ih =>
    have first_number := numbers first List.mem_cons_self
    obtain ⟨next, above, above_first⟩ := greater_bounds number first_number
    obtain ⟨last, below, all⟩ := ih next fun e mem => numbers e (List.mem_cons_of_mem _ mem)
    refine ⟨last, Double.le_trans above below, ?_⟩
    intro e mem
    rcases List.mem_cons.1 mem with rfl | mem
    · exact Double.le_trans above_first below
    · exact all e mem

/-- A timeline that is not reported is in order. -/
theorem in_order_of_not_reported {s : Scene} (numbers : ∀ e ∈ s.timeline, e.time.isNaN = false)
    (silent : ∀ j, .outOfOrder j ∉ s.findings) :
    s.timeline.Pairwise fun a b => decide (a.time ≤ b.time) = true := by
  rw [List.pairwise_iff_getElem]
  intro i j hi hj before
  rw [decide_eq_true_iff]
  have here := numbers _ (List.getElem_mem hj)
  have earlier_numbers : ∀ e ∈ s.timeline.take j, e.time.isNaN = false := fun e mem =>
    numbers e (List.mem_of_mem_take mem)
  have infinite : (-1.0 / 0.0 : Float).isNaN = false := rfl
  obtain ⟨number, -, all⟩ := latestOf_bounds infinite earlier_numbers
  have listed : s.timeline[i] ∈ s.timeline.take j :=
    List.mem_take_iff_getElem.2 ⟨i, by omega, rfl⟩
  have not_before : ¬ s.timeline[j].time < latestOf (-1.0 / 0.0) (s.timeline.take j) := by
    intro less
    exact silent j (Scene.outOfOrder_mem_findings.2 ⟨_, List.getElem?_eq_getElem hj, less⟩)
  exact Double.le_trans (all _ listed) (Double.le_of_not_lt here number not_before)

/-- The scene with its events sorted by time; those of one time stay as they are. -/
def Scene.inTimeOrder (s : Scene) : Scene :=
  { s with timeline := s.timeline.mergeSort fun a b => decide (a.time ≤ b.time) }

/-- Whatever is reported or not about a scene, evaluation does what the report says. -/
theorem warnings_agree {p : Program} {index : Nat} {s : Scene}
    (found : p.scenes[index]? = some s) :
    ((∀ t, (p.withoutUnresolved index s).statesAt t = s.statesAt t) ∧
      ∀ (j : Nat) (e : Event) (c : Command), s.timeline[j]? = some e → c ∈ e.commands →
        p.reports index (.unresolvedTarget c.target j) = false →
        ∃ v ∈ s.elements, v.id = c.target) ∧
    ((∀ (k : Nat) (v : Element), s.elements[k]? = some v → s.declaresAfter k v.id = true →
        p.reports index (.duplicateId v.id) = true ∧
        ∀ (timeline : List Event) (t : Float),
          ({ s with timeline }.statesAt t)[k]?.map (·.opacity) = some 1.0) ∧
      ∀ id, p.reports index (.duplicateId id) = true →
        ∃ k v, s.elements[k]? = some v ∧ v.id = id ∧ s.declaresAfter k id = true) ∧
    ((∀ e ∈ s.timeline, e.time.isNaN = false) →
      (∀ j, p.reports index (.outOfOrder j) = false) →
      ∀ t, s.inTimeOrder.statesAt t = s.statesAt t) := by
  refine ⟨⟨?_, ?_⟩, ⟨?_, ?_⟩, ?_⟩
  · intro t
    rw [withoutUnresolved_eq found, statesAt_withoutStrays]
  · intro j e c at_j given unreported
    rw [reports_unresolved found at_j given, Bool.not_eq_false'] at unreported
    obtain ⟨v, declared, same⟩ := List.any_eq_true.1 unreported
    exact ⟨v, declared, eq_of_beq same⟩
  · intro k v at_k shadowed
    refine ⟨?_, fun timeline t => opacity_of_shadowed (s := { s with timeline }) at_k shadowed t⟩
    rw [reports_iff found, Scene.duplicateId_mem_findings, one_lt_declarations_iff]
    exact ⟨k, v, at_k, rfl, shadowed⟩
  · intro id reported
    rw [reports_iff found, Scene.duplicateId_mem_findings] at reported
    exact one_lt_declarations_iff.1 reported
  · intro numbers silent t
    have sorted : s.timeline.mergeSort (fun a b => decide (a.time ≤ b.time)) = s.timeline := by
      apply List.mergeSort_of_pairwise
      apply in_order_of_not_reported numbers
      intro j reported
      rw [← reports_iff found, silent j] at reported
      cases reported
    rw [Scene.inTimeOrder, sorted]

/-- Two elements of one name, and a fade of an element that is not there. -/
def messyScene : Scene :=
  ⟨"s", 2.0, none, [⟨"c", ⟨0.0, 0.0⟩, .circle 1.0⟩, ⟨"c", ⟨1.0, 0.0⟩, .text "twin"⟩],
    [⟨0.0, [.fade ⟨"c", .fadeOut, 1.0⟩]⟩, ⟨3.0, [.fade ⟨"ghost", .fadeIn, 0.0⟩]⟩]⟩

def messy : Program := ⟨⟨2, 1⟩, [messyScene]⟩

theorem messy_findings : messyScene.findings =
    [.duplicateId "c", .afterSceneEnd 1, .unresolvedTarget "ghost" 1] := by
  decide +kernel

/-- All three agreements on one scene: the stray does nothing, the first twin stays visible, and
the timeline is in order. -/
theorem messy_agrees :
    messy.reports 0 (.unresolvedTarget "ghost" 1) = true ∧
    (∀ t, (messy.withoutUnresolved 0 messyScene).statesAt t = messyScene.statesAt t) ∧
    messy.reports 0 (.duplicateId "c") = true ∧
    (∀ t, (messyScene.statesAt t)[0]?.map (·.opacity) = some 1.0) ∧
    ∀ t, messyScene.inTimeOrder.statesAt t = messyScene.statesAt t := by
  have found : messy.scenes[0]? = some messyScene := rfl
  obtain ⟨⟨strays, -⟩, ⟨shadowed, -⟩, sorted⟩ := warnings_agree found
  have reported : messy.reports 0 (.unresolvedTarget "ghost" 1) = true := by
    rw [reports_iff found, messy_findings]
    decide
  have in_order : ∀ j, messy.reports 0 (.outOfOrder j) = false := by
    intro j
    apply Bool.eq_false_iff.2
    rw [Ne, reports_iff found, messy_findings]
    simp
  obtain ⟨twice, visible⟩ := shadowed 0 _ rfl (by decide)
  exact ⟨reported, strays, twice, visible messyScene.timeline, sorted (by decide) in_order⟩

end Storyboard
