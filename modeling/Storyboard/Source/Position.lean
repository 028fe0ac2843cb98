/-!
# Places in a text

Offsets count UTF-8 bytes from 0; lines and columns count from 1, columns in characters. A place is
looked up in the offsets at which the lines start, after its offset is moved back to where a
character starts.
-/

namespace Storyboard

/-- The bytes from `start` up to, and without, `stop`. -/
structure Span where
  start : Nat
  stop : Nat
  deriving DecidableEq, Repr

/-- The empty span at an offset. -/
def Span.point (offset : Nat) : Span :=
  ⟨offset, offset⟩

/-- The bytes that a row of characters takes. -/
def byteCount : List Char → Nat
  | [] => 0
  | c :: cs => c.utf8Size + byteCount cs

theorem byteCount_append (before after : List Char) :
    byteCount (before ++ after) = byteCount before + byteCount after := by
  induction before with
  | nil => simp [byteCount]
  | cons c cs ih => simp [byteCount, ih, Nat.add_assoc]

/-- The characters after this many bytes. -/
def dropBytes : Nat → List Char → List Char
  | 0, cs => cs
  | _, [] => []
  | n, c :: cs => dropBytes (n - c.utf8Size) cs

/-- The characters in this many bytes. -/
def takeBytes : Nat → List Char → List Char
  | 0, _ => []
  | _, [] => []
  | n, c :: cs => c :: takeBytes (n - c.utf8Size) cs

/-- The characters between two byte offsets. -/
def slice (text : List Char) (start stop : Nat) : List Char :=
  takeBytes (stop - start) (dropBytes start text)

/-- A character of the text starts at the byte offset, or the text ends there. -/
def isCharBoundary : List Char → Nat → Bool
  | _, 0 => true
  | [], _ => false
  | c :: cs, offset => c.utf8Size ≤ offset && isCharBoundary cs (offset - c.utf8Size)

/-- Goes back from the offset as long as it is inside a character. -/
def backToBoundary (text : List Char) : Nat → Nat
  | 0 => 0
  | offset + 1 =>
    if isCharBoundary text (offset + 1) then offset + 1 else backToBoundary text offset

/-- The last boundary at or before the offset. -/
def clampToBoundary (text : List Char) (offset : Nat) : Nat :=
  backToBoundary text (min offset (byteCount text))

structure Position where
  line : Nat
  column : Nat
  offset : Nat
  deriving DecidableEq, Repr

/-- The offsets right after the newlines of a text that starts at `offset`. -/
def newlineEnds : Nat → List Char → List Nat
  | _, [] => []
  | offset, c :: cs =>
    let next := offset + c.utf8Size
    if c = '\n' then next :: newlineEnds next cs else newlineEnds next cs

/-- The offsets at which lines start. -/
def lineStarts (text : List Char) : List Nat :=
  0 :: newlineEnds 0 text

/-- The last place of the text at or before the byte offset. Its line is the last one that starts
there or before. -/
def Position.locate (text : List Char) (offset : Nat) : Position :=
  let offset := clampToBoundary text offset
  let starts := lineStarts text
  let line := (starts.takeWhile (· ≤ offset)).length - 1
  ⟨line + 1, (slice text (starts.getD line 0) offset).length + 1, offset⟩

/-- A range of a text. -/
structure Location where
  start : Position
  stop : Position
  deriving DecidableEq, Repr

/-- The range of a span, whose end counts only if it is not before its start. -/
def Location.ofSpan (text : List Char) (span : Span) : Location :=
  ⟨Position.locate text span.start, Position.locate text (max span.start span.stop)⟩

end Storyboard
