import Storyboard.Proofs.Exchange.Programs
import Storyboard.Sampling.Lines

namespace Storyboard

open Json (Plain)

def Header.doubles (h : Header) : List Float :=
  [h.duration]

def ElementState.doubles (s : ElementState) : List Float :=
  s.figure.doubles ++ s.opacity :: s.position.doubles

def Snapshot.doubles (s : Snapshot) : List Float :=
  s.time :: s.elements.flatMap ElementState.doubles

def Delivery.doubles : Delivery → List Float
  | .header h => h.doubles
  | .frame f => f.snapshot.doubles
  | .sceneEnd => []

theorem Rate.ofJson?_toJson (r : Rate) : Rate.ofJson? r.toJson = some r := by
  apply Json.record?_bind
  apply Json.read?_bind rfl (Json.word32?_ofWord32 r.num)
  exact Json.read?_bind rfl (Json.word32?_ofWord32 r.den) rfl

theorem Fingerprint.ofJson?_toJson (f : Fingerprint) : Fingerprint.ofJson? f.toJson = some f := by
  apply Json.record?_bind
  apply Json.read?_bind rfl (Json.word64?_ofWord64 f.hi)
  exact Json.read?_bind rfl (Json.word64?_ofWord64 f.lo) rfl

theorem Header.ofJson?_toJson {h : Header} (finite : ∀ x ∈ h.doubles, x.isFinite) :
    Header.ofJson? h.toJson = some h := by
  rw [doubles, List.forall_mem_singleton] at finite
  apply Json.record?_bind
  apply Json.read?_bind rfl (Json.word64?_ofWord64 h.scene)
  apply Json.read?_bind rfl (Json.text?_string h.title)
  apply Json.read?_bind rfl (Canvas.ofJson?_toJson h.canvas)
  apply Json.read?_bind rfl (Rate.ofJson?_toJson h.rate)
  apply Json.read?_bind rfl (Json.word64?_ofWord64 h.frameCount)
  apply Json.read?_bind rfl (Json.double?_ofFloat finite)
  exact Json.readOptional?_bind rfl (Json.nullable?_ofOption h.narration) rfl

theorem ElementState.ofJson?_toJson {s : ElementState} (finite : ∀ x ∈ s.doubles, x.isFinite) :
    ElementState.ofJson? s.toJson = some s := by
  rw [doubles, List.forall_mem_append, List.forall_mem_cons] at finite
  apply Json.record?_bind
  apply Json.read?_bind rfl (Json.text?_string s.id)
  apply Json.read?_bind rfl (Figure.ofJson?_toJson finite.1)
  apply Json.read?_bind rfl (Json.double?_ofFloat finite.2.1)
  exact Json.read?_bind rfl (Point.ofJson?_toJson finite.2.2) rfl

theorem Snapshot.ofJson?_toJson {s : Snapshot} (finite : ∀ x ∈ s.doubles, x.isFinite) :
    Snapshot.ofJson? s.toJson = some s := by
  rw [doubles, List.forall_mem_cons] at finite
  apply Json.record?_bind
  apply Json.read?_bind rfl (Json.word64?_ofWord64 s.scene)
  apply Json.read?_bind rfl (Json.double?_ofFloat finite.1)
  apply Json.read?_bind rfl (Canvas.ofJson?_toJson s.canvas)
  have elements := Json.list?_ofList fun e listed =>
    ElementState.ofJson?_toJson (s := e) (finite_item finite.2 listed)
  exact Json.read?_bind rfl elements rfl

theorem SampledFrame.ofJson?_toJson {f : SampledFrame}
    (finite : ∀ x ∈ f.snapshot.doubles, x.isFinite) : SampledFrame.ofJson? f.toJson = some f := by
  apply Json.record?_bind
  apply Json.read?_bind rfl (Json.word64?_ofWord64 f.frame)
  apply Json.read?_bind rfl (Fingerprint.ofJson?_toJson f.fingerprint)
  apply Json.read?_bind rfl (Json.bool?_bool f.repeatsPrevious)
  exact Json.read?_bind rfl (Snapshot.ofJson?_toJson finite) rfl

/-- A line is told by its tag. -/
theorem Delivery.ofLine?_line {d : Delivery} {v : Json} (finite : ∀ x ∈ d.doubles, x.isFinite)
    (line : d.line? = some v) : Delivery.ofLine? v = some d := by
  cases d with
  | header h =>
    cases line
    apply Json.tagged?_bind (by simp [Header.fields])
    dsimp only
    rw [if_pos rfl]
    exact Option.bind_eq_some_iff.2 ⟨h, Header.ofJson?_toJson finite, rfl⟩
  | frame f =>
    cases line
    apply Json.tagged?_bind (by simp [SampledFrame.fields])
    dsimp only
    rw [if_neg (by decide), if_pos rfl]
    exact Option.bind_eq_some_iff.2 ⟨f, SampledFrame.ofJson?_toJson finite, rfl⟩
  | sceneEnd => cases line

theorem Rate.plain_toJson (r : Rate) : Plain r.toJson := by
  apply Json.plain_object
  simp only [List.forall_mem_cons]
  exact ⟨Json.plain_ofWord32 r.num, Json.plain_ofWord32 r.den, List.forall_mem_nil _⟩

theorem Fingerprint.plain_toJson (f : Fingerprint) : Plain f.toJson := by
  apply Json.plain_object
  simp only [List.forall_mem_cons]
  exact ⟨Json.plain_ofWord64 f.hi, Json.plain_ofWord64 f.lo, List.forall_mem_nil _⟩

theorem ElementState.plain_toJson (s : ElementState) : Plain s.toJson := by
  apply Json.plain_object
  simp only [List.forall_mem_cons]
  exact ⟨Json.plain_string s.id, s.figure.plain_toJson, Json.plain_ofFloat s.opacity,
    s.position.plain_toJson, List.forall_mem_nil _⟩

theorem Snapshot.plain_toJson (s : Snapshot) : Plain s.toJson := by
  apply Json.plain_object
  simp only [List.forall_mem_cons]
  exact ⟨Json.plain_ofWord64 s.scene, Json.plain_ofFloat s.time, s.canvas.plain_toJson,
    Json.plain_ofList ElementState.plain_toJson s.elements, List.forall_mem_nil _⟩

theorem Header.plain_fields (h : Header) : ∀ f ∈ h.fields, Plain f.2 := by
  simp only [fields, List.forall_mem_cons]
  exact ⟨Json.plain_ofWord64 h.scene, Json.plain_string h.title, h.canvas.plain_toJson,
    h.rate.plain_toJson, Json.plain_ofWord64 h.frameCount, Json.plain_ofFloat h.duration,
    Json.plain_ofOption Json.plain_string h.narration, List.forall_mem_nil _⟩

theorem SampledFrame.plain_fields (f : SampledFrame) : ∀ g ∈ f.fields, Plain g.2 := by
  simp only [fields, List.forall_mem_cons]
  exact ⟨Json.plain_ofWord64 f.frame, f.fingerprint.plain_toJson,
    Json.plain_bool f.repeatsPrevious, f.snapshot.plain_toJson, List.forall_mem_nil _⟩

/-- Whatever is delivered, the line for it holds numbers that JSON can read back. -/
theorem Delivery.plain_line {d : Delivery} {v : Json} (line : d.line? = some v) : Plain v := by
  cases d with
  | header h =>
    cases line
    exact Json.plain_ofTagged "scene" h.plain_fields
  | frame f =>
    cases line
    exact Json.plain_ofTagged "frame" f.plain_fields
  | sceneEnd => cases line

end Storyboard
