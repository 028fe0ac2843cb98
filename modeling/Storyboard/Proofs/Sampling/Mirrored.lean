import Storyboard.Proofs.Exchange.Frames
import Storyboard.Proofs.Sampling.Filling
import Storyboard.Sampling.Reel
import Storyboard.Source.Stretch

namespace Storyboard

/-- What stands on a line, if it is a header or a frame. -/
def readLine? (line : List Char) : Option Delivery :=
  (Json.parse? line).bind Delivery.ofLine?

/-- The characters of some lines. -/
def charsOf (lines : List Json) : List Char :=
  lines.flatMap fun v => v.compactText ++ ['\n']

theorem lineBytes_eq (v : Json) :
    lineBytes v = (String.ofList (v.compactText ++ ['\n'])).toUTF8 := by
  rw [String.ofList_append]
  exact String.toByteArray_append.symm

theorem textOf_eq (lines : List Json) : textOf lines = (String.ofList (charsOf lines)).toUTF8 := by
  induction lines with
  | nil => rfl
  | cons v lines ih =>
    have chars : charsOf (v :: lines) = v.compactText ++ ['\n'] ++ charsOf lines :=
      List.flatMap_cons
    have text : String.ofList (charsOf (v :: lines)) =
        String.ofList (v.compactText ++ ['\n']) ++ String.ofList (charsOf lines) := by
      rw [chars, String.ofList_append]
    rw [textOf_cons, lineBytes_eq, ih, text]
    exact String.toByteArray_append.symm

/-- A compact text stays on one line. -/
theorem newline_not_mem {v : Json} (plain : Json.Plain v) : '\n' ∉ v.compactText := by
  intro listed
  have printable := Json.printable_compactText plain '\n' listed
  exact absurd printable (by unfold Json.Printable; decide)

/-- Cut at its newlines, a text is the lines that it was written from, with nothing after the last
newline. -/
theorem stretches_charsOf {lines : List Json} (plain : ∀ v ∈ lines, Json.Plain v) :
    stretches '\n' (charsOf lines) = lines.map Json.compactText ++ [[]] := by
  induction lines with
  | nil => rfl
  | cons v lines ih =>
    rw [List.forall_mem_cons] at plain
    rw [charsOf, List.flatMap_cons, List.append_assoc, List.singleton_append,
      stretches_append, stretches_of_not_mem (newline_not_mem plain.1)]
    exact congrArg _ (ih plain.2)

/-- The headers and frames among some deliveries. -/
def givenOf (deliveries : List Delivery) : List Delivery :=
  deliveries.filter (· ≠ .sceneEnd)

theorem plain_linesOf (deliveries : List Delivery) : ∀ v ∈ linesOf deliveries, Json.Plain v := by
  intro v listed
  obtain ⟨d, -, line⟩ := List.mem_filterMap.1 listed
  exact Delivery.plain_line line

theorem readLine?_line {d : Delivery} {v : Json} (finite : ∀ x ∈ d.doubles, x.isFinite)
    (line : d.line? = some v) : readLine? v.compactText = some d := by
  rw [readLine?, Json.parse?_compactText (Delivery.plain_line line)]
  exact Delivery.ofLine?_line finite line

/-- The lines together are read back as the headers and frames that were delivered, in their
order. -/
theorem readLines {deliveries : List Delivery}
    (finite : ∀ d ∈ deliveries, ∀ x ∈ d.doubles, x.isFinite) :
    ((linesOf deliveries).map Json.compactText).mapM readLine? = some (givenOf deliveries) := by
  induction deliveries with
  | nil => rfl
  | cons d deliveries ih =>
    rw [List.forall_mem_cons] at finite
    cases line : d.line? with
    | none =>
      have ends : d = .sceneEnd := by cases d <;> first | rfl | cases line
      subst ends
      rw [linesOf_cons_none line, ih finite.2, givenOf, givenOf, List.filter_cons_of_neg (by simp)]
    | some v =>
      have other : d ≠ .sceneEnd := by
        rintro rfl
        cases line
      rw [linesOf_cons_some line, List.map_cons, List.mapM_cons, readLine?_line finite.1 line,
        ih finite.2, givenOf, givenOf, List.filter_cons_of_pos (by simpa using other)]
      rfl

/-- The frames up to the next header. -/
def leading : List Delivery → List SampledFrame
  | .frame f :: rest => f :: leading rest
  | .sceneEnd :: rest => leading rest
  | .header _ :: _ => []
  | [] => []

/-- Every header with the frames under it. A frame is under the nearest header above it. -/
def underHeaders : List Delivery → List (Header × List SampledFrame)
  | .header h :: rest => (h, leading rest) :: underHeaders rest
  | .frame _ :: rest => underHeaders rest
  | .sceneEnd :: rest => underHeaders rest
  | [] => []

theorem leading_givenOf (deliveries : List Delivery) :
    leading (givenOf deliveries) = leading deliveries := by
  induction deliveries with
  | nil => rfl
  | cons d deliveries ih =>
    cases d with
    | header h => rfl
    | frame f => exact congrArg (f :: ·) ih
    | sceneEnd => exact ih

theorem underHeaders_givenOf (deliveries : List Delivery) :
    underHeaders (givenOf deliveries) = underHeaders deliveries := by
  induction deliveries with
  | nil => rfl
  | cons d deliveries ih =>
    cases d with
    | header h =>
      change (h, leading (givenOf deliveries)) :: underHeaders (givenOf deliveries) = _
      rw [leading_givenOf, ih]
      rfl
    | frame f => exact ih
    | sceneEnd => exact ih

namespace Reel

theorem run_sink (r : Reel) (deliveries : List Delivery) :
    (forM deliveries sink).run.run r = (.ok (), deliveries.foldl record r) := by
  induction deliveries generalizing r with
  | nil => rfl
  | cons d deliveries ih =>
    have one : (sink d).run.run r = (.ok (), r.record d) := rfl
    rw [run_cons_ok one, ih]
    rfl

/-- What is recorded goes to the scene announced last, until the next one is announced. -/
theorem scenes_foldl_record {r : Reel} {before : List (Header × List SampledFrame)} {h : Header}
    {frames : List SampledFrame} (last : r.scenes = before ++ [(h, frames)])
    (deliveries : List Delivery) :
    (deliveries.foldl record r).scenes =
      before ++ (h, frames ++ leading deliveries) :: underHeaders deliveries := by
  induction deliveries generalizing r before h frames with
  | nil =>
    rw [List.foldl_nil, last, leading, List.append_nil]
    rfl
  | cons d deliveries ih =>
    rw [List.foldl_cons]
    cases d with
    | header next =>
      have scenes := scenes_record_header r next
      rw [last] at scenes
      rw [ih scenes, leading, underHeaders, List.append_nil, List.nil_append, List.append_assoc]
      rfl
    | frame f =>
      rw [ih (scenes_record_frame last f), leading, underHeaders, List.append_assoc]
      rfl
    | sceneEnd =>
      rw [ih ((scenes_record_sceneEnd r).trans last), leading, underHeaders]

/-- From a first header on, a reel holds the frames under each header. -/
theorem scenes_of_header (h : Header) (rest : List Delivery) :
    ((Delivery.header h :: rest).foldl record empty).scenes =
      underHeaders (.header h :: rest) := by
  have first : (empty.record (.header h)).scenes = [] ++ [(h, [])] := scenes_record_header empty h
  rw [List.foldl_cons, scenes_foldl_record first]
  rfl

end Reel

/-- Deliveries from a first header on, with finite doubles. The text of the lines has one line for
every header and frame, which is read back from it, and nothing after the last newline; the frames
under each header are those that the reel keeps with it. -/
theorem lines_mirror_reel (h : Header) (rest : List Delivery)
    (finite : ∀ d ∈ Delivery.header h :: rest, ∀ x ∈ d.doubles, x.isFinite) :
    ∃ (reel : Reel) (text : String) (lines : List (List Char)),
      (forM (Delivery.header h :: rest) Reel.sink).run.run Reel.empty = (.ok (), reel) ∧
      poured (forM (Delivery.header h :: rest) Tank.writer.lines) ⟨.empty, none, false⟩ =
        (.ok (), ⟨text.toUTF8, none, false⟩) ∧
      stretches '\n' text.toList = lines ++ [[]] ∧
      lines.mapM readLine? = some (givenOf (.header h :: rest)) ∧
      underHeaders (givenOf (.header h :: rest)) = reel.scenes := by
  generalize deliveries_eq : Delivery.header h :: rest = deliveries at finite
  refine ⟨_, String.ofList (charsOf (linesOf deliveries)), _, Reel.run_sink _ _, ?_, ?_,
    readLines finite, ?_⟩
  · rw [poured, Tank.run_unlimited, textOf_eq]
  · rw [String.toList_ofList]
    exact stretches_charsOf (plain_linesOf deliveries)
  · rw [underHeaders_givenOf, ← deliveries_eq, Reel.scenes_of_header]

/-- A header whose title and narration need escapes. -/
def Header.escaped : Header :=
  ⟨0, "two\nlines", ⟨2, 1⟩, ⟨30, 1⟩, 1, 0.1, some "\"\\\""⟩

def SampledFrame.blank : SampledFrame :=
  ⟨0, ⟨1, 2⟩, false, ⟨0, -0.0, ⟨2, 1⟩, [⟨"ü", .text "\t", 0.5, ⟨1e-300, 3.0⟩⟩]⟩⟩

theorem escaped_mirrored :
    ∃ (reel : Reel) (text : String) (lines : List (List Char)),
      poured (forM [.header .escaped, .frame .blank, .sceneEnd, .header .escaped]
        Tank.writer.lines) ⟨.empty, none, false⟩ = (.ok (), ⟨text.toUTF8, none, false⟩) ∧
      stretches '\n' text.toList = lines ++ [[]] ∧
      lines.mapM readLine? = some [.header .escaped, .frame .blank, .header .escaped] ∧
      reel.scenes = [(.escaped, [.blank]), (.escaped, [])] := by
  obtain ⟨reel, text, lines, -, written, cut, read, kept⟩ := lines_mirror_reel .escaped
    [.frame .blank, .sceneEnd, .header .escaped] (by decide +kernel)
  exact ⟨reel, text, lines, written, cut, read, kept.symm⟩

end Storyboard
