import Storyboard.Timeline.Opacity

/-!
# Element states as bytes

What a fingerprint is taken of. Lists and strings have their length in front, so the bytes of one
field never run into the next one. The time is left out: two frames that show the same have the same
bytes.
-/

namespace Storyboard.Fingerprint

/-- The lowest `count` bytes of a number, the lowest first. -/
def littleEndian : Nat → Nat → List UInt8
  | 0, _ => []
  | count + 1, n => UInt8.ofNat n :: littleEndian count (n / 256)

theorem littleEndian_length (count n : Nat) : (littleEndian count n).length = count := by
  induction count generalizing n with
  | zero => rfl
  | succ count ih => simp [littleEndian, ih]

/-- Numbers that fit have different bytes. -/
theorem littleEndian_inj {count a b : Nat} (ha : a < Nat.pow 256 count)
    (hb : b < Nat.pow 256 count)
    (same : littleEndian count a = littleEndian count b) : a = b := by
  induction count generalizing a b with
  | zero => exact (Nat.lt_one_iff.1 ha).trans (Nat.lt_one_iff.1 hb).symm
  | succ count ih =>
    change a < Nat.pow 256 count * 256 at ha
    change b < Nat.pow 256 count * 256 at hb
    obtain ⟨low, high⟩ := List.cons.inj same
    have low := congrArg UInt8.toNat low
    simp only [UInt8.toNat_ofNat'] at low
    have high := ih (by omega) (by omega) high
    omega

def wordBytes (w : UInt64) : List UInt8 :=
  littleEndian 8 w.toNat

theorem wordBytes_length (w : UInt64) : (wordBytes w).length = 8 :=
  littleEndian_length 8 _

theorem wordBytes_inj {v w : UInt64} (same : wordBytes v = wordBytes w) : v = w :=
  have fits (u : UInt64) : u.toNat < Nat.pow 256 8 := u.toNat_lt
  UInt64.toNat.inj (littleEndian_inj (fits v) (fits w) same)

def floatBytes (x : Float) : List UInt8 :=
  wordBytes x.toBits

def textBytes (s : String) : List UInt8 :=
  wordBytes (UInt64.ofNat s.utf8ByteSize) ++ s.toUTF8.data.toList

/-- A figure begins with a byte for its kind. -/
def figureBytes : Figure → List UInt8
  | .text content => 0 :: textBytes content
  | .circle radius => 1 :: floatBytes radius

def stateBytes (s : ElementState) : List UInt8 :=
  textBytes s.id ++ figureBytes s.figure ++ floatBytes s.opacity ++
    floatBytes s.position.x ++ floatBytes s.position.y

def encode (states : List ElementState) : List UInt8 :=
  wordBytes (UInt64.ofNat states.length) ++ states.flatMap stateBytes

end Storyboard.Fingerprint
