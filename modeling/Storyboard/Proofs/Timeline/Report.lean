import Storyboard.Proofs.ByteOrder
import Storyboard.Proofs.Decimal.Placed
import Storyboard.Proofs.Double.Arithmetic
import Storyboard.Proofs.Script.Spelling
import Storyboard.Proofs.Timeline.Warnings

namespace Storyboard

/-- The text gives the time as a script writes it, with a numeral and `s`. Scripts have no numeral
for an infinite time: it is given by a word. -/
inductive GivesTime : String → Float → Prop where
  | finite {text : String} {t : Float} (spells : Script.Spells (.duration t) text.toList) :
    GivesTime text t
  | infinite : GivesTime "infs" (1.0 / 0.0)
  | negative : GivesTime "-infs" (-1.0 / 0.0)

/-- The text gives the time and no other one. -/
def Names (text : String) (t : Float) : Prop :=
  ∀ u, GivesTime text u ↔ u = t

/-- On the order of an event, after the `earlier` ones: the greatest of their times is named. -/
inductive OrderRemarks (earlier : List Event) (index : Nat) (e : Event) : List Remark → Prop where
  | inOrder (none_later : ∀ a ∈ earlier, ¬ e.time < a.time) : OrderRemarks earlier index e []
  | outOfOrder {latest : Event} {own other : String} (mem : latest ∈ earlier)
      (greatest : ∀ a ∈ earlier, a.time ≤ latest.time) (less : e.time < latest.time)
      (names : Names own e.time) (names_latest : Names other latest.time) :
      OrderRemarks earlier index e [(.outOfOrder index,
        "event at " ++ own ++ " is declared after an event at " ++ other ++
          "; events apply in declaration order")]

/-- On the end of a scene of the length: the start of the event and the length are named. -/
inductive EndRemarks (length : Float) (index : Nat) (e : Event) : List Remark → Prop where
  | inside (in_time : ¬ e.time > length) : EndRemarks length index e []
  | outside {own whole : String} (late : e.time > length) (names : Names own e.time)
      (names_length : Names whole length) :
      EndRemarks length index e [(.afterSceneEnd index,
        "event at " ++ own ++ " starts after the scene's declared duration of " ++ whole)]

namespace Scene

def repeatedRemark (s : Scene) (id : String) : Remark :=
  (.duplicateId id, "element id \"" ++ id ++ "\" is declared " ++
    toString (s.elements.filter (·.id = id)).length ++ " times; fades affect only the last one")

def targetRemarks (s : Scene) (index : Nat) (c : Command) : List Remark :=
  if ∃ v ∈ s.elements, v.id = c.target then []
  else
    [(.unresolvedTarget c.target index,
      "fade target \"" ++ c.target ++ "\" does not match any element in this scene")]

/-- The report on a scene: each repeated id once, in the order of bytes, and then on each event. -/
inductive IsReport (s : Scene) : List Remark → Prop where
  | intro (ids : List String) (onEvent : Nat → List Remark)
      (increasing : ids.Pairwise fun a b => bytesOf a < bytesOf b)
      (repeated : ∀ id, id ∈ ids ↔ 2 ≤ (s.elements.filter (·.id = id)).length)
      (event : ∀ index e, s.timeline[index]? = some e →
        ∃ order overrun, OrderRemarks (s.timeline.take index) index e order ∧
          EndRemarks s.duration index e overrun ∧
          onEvent index = order ++ overrun ++ e.commands.flatMap (s.targetRemarks index)) :
      IsReport s
        (ids.map s.repeatedRemark ++ (List.range s.timeline.length).flatMap onEvent)

end Scene

/-- The reports on all scenes, in order. -/
inductive Program.IsReport (p : Program) : List Diagnostic → Prop where
  | intro (remarks : Nat → List Remark)
      (scene : ∀ (index : Nat) (s : Scene), p.scenes[index]? = some s → s.IsReport (remarks index)) :
      IsReport p (p.scenes.zipIdx.flatMap fun (s, index) =>
        (remarks index).map fun (finding, message) => ⟨index, s.title, finding, message⟩)

namespace Script

/-- A duration is spelled by a numeral and its unit. -/
theorem Spells.exists_numeral {t : Float} {piece : List Char} (spells : Spells (.duration t) piece) :
    ∃ n : Numeral, Numeral.ahead? piece = some (n, ['s']) ∧ n.value = t := by
  cases spells with
  | @duration n digits finite => exact ⟨n, Numeral.ahead?_text digits (n.ends_unit []), rfl⟩

end Script

/-- A text gives one time at most. -/
theorem GivesTime.unique {text : String} {t u : Float} (gives : GivesTime text t)
    (other : GivesTime text u) : t = u := by
  generalize same : text = again at other
  cases gives with
  | finite spells =>
    obtain ⟨n, read, rfl⟩ := spells.exists_numeral
    cases other with
    | finite spells =>
      obtain ⟨m, read', rfl⟩ := spells.exists_numeral
      subst same
      cases read.symm.trans read'
      rfl
    | infinite | negative => subst same; cases read
  | infinite =>
    cases other with
    | finite spells =>
      obtain ⟨n, read, -⟩ := spells.exists_numeral
      subst same
      cases read
    | infinite => rfl
    | negative => exact absurd same (by decide)
  | negative =>
    cases other with
    | finite spells =>
      obtain ⟨n, read, -⟩ := spells.exists_numeral
      subst same
      cases read
    | infinite => exact absurd same (by decide)
    | negative => rfl

/-- A finite number is shown as a script would spell it. -/
theorem exists_numeral_of_message {t : Float} (finite : t.isFinite) :
    ∃ n : Script.Numeral, n.WellFormed ∧ n.value = t ∧ messageNumber t = String.ofList n.text := by
  obtain ⟨b, read⟩ := Binary.exists_ofFloat? finite
  obtain ⟨magnitude, trimmed⟩ := shortestDecimal_reads_back .up read
  obtain ⟨whole, fraction, parts⟩ := Decimal.exists_parts false (Decimal.exponent_eq_zero trimmed)
  refine ⟨⟨isSigned t, whole, fraction⟩, ?_, ?_, ?_⟩
  · exact ⟨parts.front.nonempty, parts.front.digits, parts.digits⟩
  · rw [Script.Numeral.value, signedFloat_congr parts.value]
    exact signedFloat_abs read magnitude
  · have shown : messageLayout.finite? t = some ((if isSigned t then ['-'] else []) ++
        (shortestDecimal .up t b).placed false) := by
      rw [Layout.finite?, read]
      rfl
    simp only [messageNumber, shown, parts.text, Script.Numeral.text, List.append_assoc]

theorem secondsText_gives {t : Float} (number : t.isNaN = false) : GivesTime (secondsText t) t := by
  by_cases finite : t.isFinite
  · obtain ⟨n, digits, rfl, shown⟩ := exists_numeral_of_message finite
    refine .finite ?_
    rw [secondsText, shown, String.toList_append, String.toList_ofList]
    exact .duration digits finite
  · obtain ⟨s, unpacked⟩ := Double.exists_infinity number finite
    cases s with
    | positive =>
      obtain rfl : t = 1.0 / 0.0 := Double.eq_of_unpack unpacked
      exact .infinite
    | negative =>
      obtain rfl : t = -1.0 / 0.0 := Double.eq_of_unpack unpacked
      exact .negative

theorem secondsText_names {t : Float} (number : t.isNaN = false) : Names (secondsText t) t := by
  intro u
  constructor
  · intro gives
    exact gives.unique (secondsText_gives number)
  · rintro rfl
    exact secondsText_gives number

theorem nodup_eraseDups (l : List String) : l.eraseDups.Nodup := by
  induction h : l.length using Nat.strongRecOn generalizing l with
  | ind n ih =>
    cases l with
    | nil => exact List.nodup_nil
    | cons first rest =>
      rw [List.eraseDups_cons, List.nodup_cons]
      constructor
      · simp
      · have shorter := List.length_filter_le (fun b => !b == first) rest
        exact ih _ (by rw [← h, List.length_cons]; omega) _ rfl

namespace Scene

variable {s : Scene}

/-- Repeated ids are reported in the order of their bytes, each once. -/
theorem repeatedIds_increasing (s : Scene) :
    s.repeatedIds.Pairwise fun a b => bytesOf a < bytesOf b := by
  have sorted : s.repeatedIds.Pairwise fun a b => decide (a ≤ b) = true :=
    List.pairwise_mergeSort (fun a b c => by simpa using le_trans)
      (fun a b => by simpa using le_total a b) _
  have distinct : s.repeatedIds.Nodup :=
    (List.mergeSort_perm _ _).nodup_iff.2 ((nodup_eraseDups _).filter _)
  refine (sorted.and distinct).imp ?_
  rintro a b ⟨le, ne⟩
  exact bytesOf_lt (lt_of_le_of_ne (of_decide_eq_true le) ne)

theorem declarations_eq (s : Scene) (id : String) :
    s.declarations id = (s.elements.filter (·.id = id)).length := by
  rw [declarations, List.countP_eq_length_filter]
  rfl

theorem duplicateRemarks_eq (s : Scene) :
    s.duplicateRemarks = s.repeatedIds.map s.repeatedRemark := by
  unfold duplicateRemarks repeatedRemark
  simp only [declarations_eq]
  rfl

end Scene

/-- The greatest time is that of an event, unless it is the one to begin with. -/
theorem latestOf_attained (latest : Float) (events : List Event) :
    latestOf latest events = latest ∨ ∃ e ∈ events, latestOf latest events = e.time := by
  induction events generalizing latest with
  | nil => exact .inl rfl
  | cons first rest ih =>
    have next : latestOf latest (first :: rest) = latestOf (greater latest first.time) rest := rfl
    rw [next]
    rcases ih (greater latest first.time) with kept | ⟨e, mem, same⟩
    · rw [kept]
      rcases greater_eq latest first.time with old | new
      · exact .inl old
      · exact .inr ⟨first, List.mem_cons_self, new⟩
    · exact .inr ⟨e, List.mem_cons_of_mem _ mem, same⟩

theorem orderRemarks {earlier : List Event} {e : Event} (index : Nat)
    (numbers : ∀ a ∈ earlier, a.time.isNaN = false) :
    OrderRemarks earlier index e (if e.time < latestOf (-1.0 / 0.0) earlier then
      [(.outOfOrder index, "event at " ++ secondsText e.time ++ " is declared after an event at " ++
        secondsText (latestOf (-1.0 / 0.0) earlier) ++ "; events apply in declaration order")]
      else []) := by
  have infinite : (-1.0 / 0.0 : Float).isNaN = false := rfl
  obtain ⟨-, -, greatest⟩ := latestOf_bounds infinite numbers
  by_cases less : e.time < latestOf (-1.0 / 0.0) earlier
  · rw [if_pos less]
    -- Something is less than it, so it is not the infinity to begin with.
    rcases latestOf_attained (-1.0 / 0.0) earlier with none_yet | ⟨latest, mem, same⟩
    · rw [none_yet] at less
      exact absurd less (Double.not_lt_infinity rfl)
    · rw [same] at less greatest ⊢
      obtain ⟨number, number_latest⟩ := Double.isNaN_of_le (Double.le_of_lt less)
      exact .outOfOrder mem greatest less (secondsText_names number)
        (secondsText_names number_latest)
  · rw [if_neg less]
    refine .inOrder fun a mem later => less ?_
    exact Double.lt_of_lt_of_le later (greatest a mem)

theorem endRemarks (length : Float) (index : Nat) (e : Event) :
    EndRemarks length index e (if length < e.time then
      [(.afterSceneEnd index, "event at " ++ secondsText e.time ++
        " starts after the scene's declared duration of " ++ secondsText length)]
      else []) := by
  by_cases late : length < e.time
  · rw [if_pos late]
    obtain ⟨number_length, number⟩ := Double.isNaN_of_le (Double.le_of_lt late)
    exact .outside late (secondsText_names number) (secondsText_names number_length)
  · rw [if_neg late]
    exact .inside late

namespace Scene

variable {s : Scene}

theorem targetRemarks_eq (s : Scene) (index : Nat) (commands : List Command) :
    ((commands.filter fun c => !s.declares c.target).map fun c =>
        ((.unresolvedTarget c.target index,
          s!"fade target \"{c.target}\" does not match any element in this scene") : Remark)) =
      commands.flatMap (s.targetRemarks index) := by
  induction commands with
  | nil => rfl
  | cons c rest ih =>
    have declared : s.declares c.target = true ↔ ∃ v ∈ s.elements, v.id = c.target := by
      simp [declares]
    rw [List.flatMap_cons, ← ih, targetRemarks]
    by_cases known : ∃ v ∈ s.elements, v.id = c.target
    · rw [if_pos known, List.filter_cons_of_neg (by simp [declared.2 known])]
      rfl
    · have unknown : s.declares c.target = false := Bool.eq_false_iff.2 fun h => known (declared.1 h)
      rw [if_neg known, List.filter_cons_of_pos (by simp [unknown])]
      rfl

theorem eventRemarks_eq {earlier : List Event} (s : Scene) (index : Nat) (e : Event)
    (numbers : ∀ a ∈ earlier, a.time.isNaN = false) :
    ∃ order overrun, OrderRemarks earlier index e order ∧ EndRemarks s.duration index e overrun ∧
      s.eventRemarks (latestOf (-1.0 / 0.0) earlier) index e =
        order ++ overrun ++ e.commands.flatMap (s.targetRemarks index) := by
  refine ⟨_, _, orderRemarks index numbers, endRemarks s.duration index e, ?_⟩
  rw [← targetRemarks_eq]
  rfl

/-- What a scene is reported for, in the order in which it is said. -/
theorem remarks_isReport (numbers : ∀ e ∈ s.timeline, e.time.isNaN = false) :
    s.IsReport s.remarks := by
  rw [remarks, duplicateRemarks_eq, timelineRemarks_eq]
  refine .intro _ _ s.repeatedIds_increasing ?_ ?_
  · intro id
    rw [mem_repeatedIds, declarations_eq]
    rfl
  · intro index e at_index
    rw [at_index, Nat.zero_add]
    exact s.eventRemarks_eq index e fun a mem => numbers a (List.mem_of_mem_take mem)

end Scene

namespace Program

variable {p : Program}

/-- The remarks about the scene at an index. -/
def remarksOn (p : Program) (index : Nat) : List Remark :=
  (p.scenes[index]?.map Scene.remarks).getD []

theorem remarksOn_eq {index : Nat} {s : Scene} (found : p.scenes[index]? = some s) :
    p.remarksOn index = s.remarks := by
  rw [remarksOn, found]
  rfl

theorem diagnostics_eq (p : Program) :
    p.diagnostics = p.scenes.zipIdx.flatMap fun (s, index) =>
      (p.remarksOn index).map fun (finding, message) => ⟨index, s.title, finding, message⟩ := by
  apply List.flatMap_congr
  rintro ⟨s, index⟩ listed
  simp only [remarksOn_eq (List.mem_zipIdx_iff_getElem?.1 listed)]

end Program

/-- What is reported about a program whose events have times that are numbers is all that there is to
report, each finding in its place. -/
theorem diagnostics_isReport {p : Program}
    (numbers : ∀ s ∈ p.scenes, ∀ e ∈ s.timeline, e.time.isNaN = false) :
    p.IsReport p.diagnostics := by
  rw [p.diagnostics_eq]
  refine .intro p.remarksOn ?_
  intro index s found
  rw [Program.remarksOn_eq found]
  exact Scene.remarks_isReport (numbers s (List.mem_of_getElem? found))

/-- A scene with three elements of two names, whose second event comes after a later one and whose
first one starts too late. -/
def tangled : Program :=
  ⟨⟨2, 1⟩, [⟨"s", 2.0, none,
    [⟨"b", ⟨0.0, 0.0⟩, .circle 1.0⟩, ⟨"é", ⟨1.0, 0.0⟩, .text "x"⟩, ⟨"b", ⟨1.0, 1.0⟩, .text "y"⟩],
    [⟨3.0, []⟩, ⟨1.5, [.fade ⟨"ghost", .fadeIn, 0.0⟩]⟩]⟩]⟩

theorem tangled_isReport :
    tangled.IsReport tangled.diagnostics ∧ tangled.diagnostics.map (·.finding) =
      [.duplicateId "b", .afterSceneEnd 0, .outOfOrder 1, .unresolvedTarget "ghost" 1] :=
  ⟨diagnostics_isReport (by decide), by decide +kernel⟩

end Storyboard
