import Mathlib.Data.List.Forall2
import Storyboard.Fingerprint

/-!
# States from their bytes

The bytes of element states are read back from the front, one field after the other: a field of
fixed size ends where it must, and a text ends where the length in front of it says. The bytes tell
a double by its bits, so that is how it is read back. Main statements: states with the same bytes
are the same (`states_of_bytes`), and whatever the bits of their doubles are, two rows of states
with the same bytes agree in all fields (`encode_injective`).
-/

namespace Storyboard

namespace Fingerprint

/-- A figure with its radius as bits. -/
inductive FigureBits where
  | text (content : String)
  | circle (radius : UInt64)
  deriving DecidableEq

/-- A state with its doubles as bits. They may be any bits: of the doubles that are not a number,
which have many bits, a `Float` is only one. -/
@[ext]
structure StateBits where
  id : String
  figure : FigureBits
  opacity : UInt64
  x : UInt64
  y : UInt64
  deriving DecidableEq

end Fingerprint

open Fingerprint

def Figure.bits : Figure → FigureBits
  | .text content => .text content
  | .circle radius => .circle radius.toBits

def ElementState.bits (s : ElementState) : StateBits :=
  ⟨s.id, s.figure.bits, s.opacity.toBits, s.position.x.toBits, s.position.y.toBits⟩

/-- The bits of a double say which one it is. -/
theorem eq_of_toBits {x y : Float} (same : x.toBits = y.toBits) : x = y := by
  obtain ⟨⟨xBits, _⟩⟩ := x
  obtain ⟨⟨yBits, _⟩⟩ := y
  obtain rfl : xBits = yBits := same
  rfl

theorem Figure.eq_of_bits {f g : Figure} (same : f.bits = g.bits) : f = g := by
  cases f with
  | text body =>
    cases g with
    | text other => rw [FigureBits.text.inj same]
    | circle radius => cases same
  | circle radius =>
    cases g with
    | text other => cases same
    | circle other => rw [eq_of_toBits (FigureBits.circle.inj same)]

/-- What enters the fingerprint of an element says all that is drawn of it. -/
theorem ElementState.eq_of_bits {a b : ElementState} (same : a.bits = b.bits) : a = b := by
  obtain ⟨aId, aFigure, aOpacity, ⟨aX, aY⟩⟩ := a
  obtain ⟨bId, bFigure, bOpacity, ⟨bX, bY⟩⟩ := b
  obtain ⟨id, figure, opacity, x, y⟩ := StateBits.mk.inj same
  obtain rfl : aId = bId := id
  obtain rfl := Figure.eq_of_bits figure
  obtain rfl := eq_of_toBits opacity
  obtain rfl := eq_of_toBits x
  obtain rfl := eq_of_toBits y
  rfl

theorem Figure.eq_text_of_bits {f : Figure} {body : String} (text : f.bits = .text body) :
    f = .text body := by
  cases f with
  | text other => rw [FigureBits.text.inj text]
  | circle radius => cases text

namespace Fingerprint

variable {r r' : List UInt8}

def FigureBits.bytes : FigureBits → List UInt8
  | .text content => 0 :: textBytes content
  | .circle radius => 1 :: wordBytes radius

def StateBits.bytes (s : StateBits) : List UInt8 :=
  textBytes s.id ++ s.figure.bytes ++ wordBytes s.opacity ++ wordBytes s.x ++ wordBytes s.y

def encodeBits (states : List StateBits) : List UInt8 :=
  wordBytes (UInt64.ofNat states.length) ++ states.flatMap StateBits.bytes

theorem stateBytes_eq (s : ElementState) : stateBytes s = s.bits.bytes := by
  obtain ⟨id, figure, opacity, position⟩ := s
  cases figure <;> rfl

/-- The bytes of a frame depend on the bits of its elements only. -/
theorem encode_eq (states : List ElementState) :
    encode states = encodeBits (states.map ElementState.bits) := by
  rw [encode, encodeBits, List.length_map, List.flatMap_map]
  congr 2
  funext s
  exact stateBytes_eq s

/-- The lengths of the two texts differ as words if they differ at all. Two texts of less than
`2 ^ 64` bytes are told apart, and so are two equal ones. -/
def LengthsTold (s t : String) : Prop :=
  UInt64.ofNat s.utf8ByteSize = UInt64.ofNat t.utf8ByteSize → s.utf8ByteSize = t.utf8ByteSize

theorem wordBytes_append_inj {v w : UInt64} (same : wordBytes v ++ r = wordBytes w ++ r') :
    v = w ∧ r = r' := by
  have sizes : (wordBytes v).length = (wordBytes w).length := by
    rw [wordBytes_length, wordBytes_length]
  obtain ⟨bytes, rest⟩ := List.append_inj same sizes
  exact ⟨wordBytes_inj bytes, rest⟩

/-- A text stands behind its length, so its end is known before it is read. -/
theorem textBytes_append_inj {s t : String} (told : LengthsTold s t)
    (same : textBytes s ++ r = textBytes t ++ r') : s = t ∧ r = r' := by
  simp only [textBytes, List.append_assoc] at same
  obtain ⟨sizes, bodies⟩ := wordBytes_append_inj same
  have lengths : s.toUTF8.data.toList.length = t.toUTF8.data.toList.length := told sizes
  obtain ⟨bytes, rest⟩ := List.append_inj bodies lengths
  have utf8 : s.toUTF8 = t.toUTF8 := ByteArray.ext (Array.toList_inj.1 bytes)
  exact ⟨String.toByteArray_inj.1 utf8, rest⟩

/-- The first byte tells which figure it is. -/
theorem figureBits_append_inj {f g : FigureBits}
    (told : ∀ body other, f = .text body → g = .text other → LengthsTold body other)
    (same : f.bytes ++ r = g.bytes ++ r') : f = g ∧ r = r' := by
  cases f with
  | text body =>
    cases g with
    | text other =>
      obtain ⟨-, fields⟩ := List.cons.inj same
      obtain ⟨rfl, rest⟩ := textBytes_append_inj (told body other rfl rfl) fields
      exact ⟨rfl, rest⟩
    | circle radius => exact absurd (List.cons.inj same).1 (by decide)
  | circle radius =>
    cases g with
    | text other => exact absurd (List.cons.inj same).1 (by decide)
    | circle other =>
      obtain ⟨-, fields⟩ := List.cons.inj same
      obtain ⟨rfl, rest⟩ := wordBytes_append_inj fields
      exact ⟨rfl, rest⟩

/-- An element can be told from what follows it: every part has a fixed length or a length in
front. -/
theorem stateBits_append_inj {a b : StateBits} (idTold : LengthsTold a.id b.id)
    (contentTold : ∀ body other, a.figure = .text body → b.figure = .text other →
      LengthsTold body other)
    (same : a.bytes ++ r = b.bytes ++ r') : a = b ∧ r = r' := by
  simp only [StateBits.bytes, List.append_assoc] at same
  obtain ⟨id, afterId⟩ := textBytes_append_inj idTold same
  obtain ⟨figure, afterFigure⟩ := figureBits_append_inj contentTold afterId
  obtain ⟨opacity, afterOpacity⟩ := wordBytes_append_inj afterFigure
  obtain ⟨x, afterX⟩ := wordBytes_append_inj afterOpacity
  obtain ⟨y, rest⟩ := wordBytes_append_inj afterX
  exact ⟨StateBits.ext id figure opacity x y, rest⟩

/-- The lengths of the texts in two states are told apart. -/
structure Told (a b : ElementState) : Prop where
  id : LengthsTold a.id b.id
  content : ∀ body other, a.figure = .text body → b.figure = .text other → LengthsTold body other

theorem stateBytes_append_inj {a b : ElementState} (told : Told a b)
    (same : stateBytes a ++ r = stateBytes b ++ r') : a = b ∧ r = r' := by
  rw [stateBytes_eq, stateBytes_eq] at same
  have content : ∀ body other, a.bits.figure = .text body → b.bits.figure = .text other →
      LengthsTold body other := fun body other isBody isOther =>
    told.content body other (Figure.eq_text_of_bits isBody) (Figure.eq_text_of_bits isOther)
  obtain ⟨bits, rest⟩ := stateBits_append_inj told.id content same
  exact ⟨ElementState.eq_of_bits bits, rest⟩

/-- Rows of states of one length with the same bytes are the same. -/
theorem states_of_bytes {as bs : List ElementState} (told : List.Forall₂ Told as bs)
    (same : as.flatMap stateBytes = bs.flatMap stateBytes) : as = bs := by
  induction told with
  | nil => rfl
  | cons head _ ih =>
    rw [List.flatMap_cons, List.flatMap_cons] at same
    obtain ⟨rfl, rest⟩ := stateBytes_append_inj head same
    rw [ih rest]

/-- The length in front takes eight bytes, whatever it is. -/
theorem flatMap_of_encode {as bs : List ElementState} (same : encode as = encode bs) :
    as.flatMap stateBytes = bs.flatMap stateBytes :=
  (wordBytes_append_inj same).2

def FigureBits.texts : FigureBits → List String
  | .text content => [content]
  | .circle _ => []

/-- No text of the state has `2 ^ 64` bytes or more. -/
def StateBits.Short (s : StateBits) : Prop :=
  ∀ text ∈ s.id :: s.figure.texts, text.utf8ByteSize < UInt64.size

/-- Lengths below `2 ^ 64` are written in full, so that they are told apart. -/
theorem lengthsTold_of_lt {s t : String} (hs : s.utf8ByteSize < UInt64.size)
    (ht : t.utf8ByteSize < UInt64.size) : LengthsTold s t := by
  intro words
  have words := congrArg UInt64.toNat words
  rwa [UInt64.toNat_ofNat_of_lt' hs, UInt64.toNat_ofNat_of_lt' ht] at words

theorem shortBits_append_inj {a b : StateBits} (shortA : a.Short) (shortB : b.Short)
    (same : a.bytes ++ r = b.bytes ++ r') : a = b ∧ r = r' := by
  obtain ⟨idA, contentA⟩ := List.forall_mem_cons.1 shortA
  obtain ⟨idB, contentB⟩ := List.forall_mem_cons.1 shortB
  refine stateBits_append_inj (lengthsTold_of_lt idA idB) (fun body other isBody isOther => ?_) same
  rw [isBody] at contentA
  rw [isOther] at contentB
  exact lengthsTold_of_lt (contentA body List.mem_cons_self) (contentB other List.mem_cons_self)

theorem stateBits_ne_nil (s : StateBits) : s.bytes ≠ [] := by
  have length := wordBytes_length s.y
  intro empty
  rw [(List.append_eq_nil_iff.1 empty).2] at length
  cases length

/-- No state is without bytes, so a row ends where its bytes end. -/
theorem bits_of_bytes {as bs : List StateBits} (shortA : ∀ s ∈ as, s.Short)
    (shortB : ∀ s ∈ bs, s.Short) (same : as.flatMap StateBits.bytes = bs.flatMap StateBits.bytes) :
    as = bs := by
  induction as generalizing bs with
  | nil =>
    cases bs with
    | nil => rfl
    | cons b bs =>
      rw [List.flatMap_nil, List.flatMap_cons] at same
      exact absurd (List.append_eq_nil_iff.1 same.symm).1 (stateBits_ne_nil b)
  | cons a as ih =>
    cases bs with
    | nil =>
      rw [List.flatMap_nil, List.flatMap_cons] at same
      exact absurd (List.append_eq_nil_iff.1 same).1 (stateBits_ne_nil a)
    | cons b bs =>
      obtain ⟨headA, tailA⟩ := List.forall_mem_cons.1 shortA
      obtain ⟨headB, tailB⟩ := List.forall_mem_cons.1 shortB
      rw [List.flatMap_cons, List.flatMap_cons] at same
      obtain ⟨rfl, rest⟩ := shortBits_append_inj headA headB same
      rw [ih tailA tailB rest]

/-- Frames with short texts have the same bytes just if they show the same elements in the same
order. -/
theorem encodeBits_eq_iff {as bs : List StateBits} (shortA : ∀ s ∈ as, s.Short)
    (shortB : ∀ s ∈ bs, s.Short) : encodeBits as = encodeBits bs ↔ as = bs := by
  constructor
  · intro same
    obtain ⟨-, states⟩ := wordBytes_append_inj same
    exact bits_of_bytes shortA shortB states
  · rintro rfl
    rfl

/-- Two rows have the same bytes only if they agree in every field of every state, a double in its
bits. This is so of element states, and, as their bytes come from nothing but these fields, also of
rows with doubles that a `Float` cannot be. -/
theorem encode_injective :
    (∀ as bs : List ElementState, (∀ s ∈ as, s.bits.Short) → (∀ s ∈ bs, s.bits.Short) →
      (encode as = encode bs ↔ as.map ElementState.bits = bs.map ElementState.bits)) ∧
    (∀ states, encode states = encodeBits (states.map ElementState.bits)) ∧
    ∀ as bs : List StateBits, (∀ s ∈ as, s.Short) → (∀ s ∈ bs, s.Short) →
      (encodeBits as = encodeBits bs ↔ as = bs) := by
  refine ⟨fun as bs shortA shortB => ?_, encode_eq, fun as bs => encodeBits_eq_iff⟩
  rw [encode_eq, encode_eq]
  exact encodeBits_eq_iff (List.forall_mem_map.2 shortA) (List.forall_mem_map.2 shortB)

/-- A text. Its id and its content are next to each other in the bytes. -/
def adjoining (id content : String) : ElementState :=
  ⟨id, .text content, 1.0, ⟨1.0, 2.0⟩⟩

/-- A circle with a radius of any bits. -/
def unmeasured (radius : UInt64) : StateBits :=
  ⟨"c", .circle radius, 0, 0, 0⟩

/-- Texts that are divided at another place, and radii that are not a number in another way. -/
theorem adjoining_told :
    encode [adjoining "ab" "c"] ≠ encode [adjoining "a" "bc"] ∧
    encodeBits [unmeasured 0x7ff8000000000001] ≠ encodeBits [unmeasured 0x7ff8000000000002] := by
  have short {id content : String} (hid : id.utf8ByteSize < UInt64.size)
      (hcontent : content.utf8ByteSize < UInt64.size) :
      ∀ s ∈ [adjoining id content], s.bits.Short :=
    List.forall_mem_singleton.2 (List.forall_mem_cons.2 ⟨hid, List.forall_mem_singleton.2 hcontent⟩)
  have shortCircle (radius : UInt64) : ∀ s ∈ [unmeasured radius], s.Short :=
    have size : "c".utf8ByteSize < UInt64.size := by decide
    List.forall_mem_singleton.2 (List.forall_mem_singleton.2 size)
  obtain ⟨states, -, bits⟩ := encode_injective
  constructor
  · rw [Ne, states _ _ (short (by decide) (by decide)) (short (by decide) (by decide))]
    decide
  · rw [Ne, bits _ _ (shortCircle _) (shortCircle _)]
    decide

end Fingerprint
end Storyboard
