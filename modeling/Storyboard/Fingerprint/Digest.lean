/-!
# A digest of 128 bits

XXH3 with 128 bits over a fixed seed. Short inputs are mixed word by word in one pass; inputs of more
than 240 bytes go through eight lanes in stripes of 64 bytes. Words are read with the lowest byte
first.
-/

namespace Storyboard

/-- 128 bits in two halves. -/
structure Fingerprint where
  hi : UInt64
  lo : UInt64
  deriving DecidableEq, Repr

namespace Fingerprint

def seed : UInt64 := 0x5c1e7a3d90b4e621

def p1 : UInt64 := 0x9E3779B1
def p2 : UInt64 := 0x85EBCA77
def p3 : UInt64 := 0xC2B2AE3D
def q1 : UInt64 := 0x9E3779B185EBCA87
def q2 : UInt64 := 0xC2B2AE3D27D4EB4F
def q3 : UInt64 := 0x165667B19E3779F9
def q4 : UInt64 := 0x85EBCA77C2B2AE63
def q5 : UInt64 := 0x27D4EB2F165667C5

/-- The byte at an offset; 0 beyond the end. -/
def byteOf (bytes : ByteArray) (offset : Nat) : UInt64 :=
  (bytes[offset]?.getD 0).toUInt64

/-- The word that starts at an offset. -/
def wordOf (bytes : ByteArray) (offset : Nat) : UInt64 :=
  byteOf bytes offset ||| byteOf bytes (offset + 1) <<< 8 |||
    byteOf bytes (offset + 2) <<< 16 ||| byteOf bytes (offset + 3) <<< 24 |||
    byteOf bytes (offset + 4) <<< 32 ||| byteOf bytes (offset + 5) <<< 40 |||
    byteOf bytes (offset + 6) <<< 48 ||| byteOf bytes (offset + 7) <<< 56

def bytesOfWord (w : UInt64) : List UInt8 :=
  (List.range 8).map fun i => (w >>> (8 * UInt64.ofNat i)).toUInt8

def ofWords (words : List UInt64) : ByteArray :=
  ⟨(words.flatMap bytesOfWord).toArray⟩

/-- The key that every input is mixed with. -/
def key : ByteArray :=
  ofWords [
    0xbe4ba423396cfeb8, 0x1cad21f72c81017c, 0xdb979083e96dd4de, 0x1f67b3b7a4a44072,
    0x78e5c0cc4ee679cb, 0x2172ffcc7dd05a82, 0x8e2443f7744608b8, 0x4c263a81e69035e0,
    0xcb00c391bb52283c, 0xa32e531b8b65d088, 0x4ef90da297486471, 0xd8acdea946ef1938,
    0x3f349ce33f76faa8, 0x1d4f0bc7c7bbdcf9, 0x3159b4cd4be0518a, 0x647378d9c97e9fc8,
    0xc3ebd33483acc5ea, 0xeb6313faffa081c5, 0x49daf0b751dd0d17, 0x9e68d429265516d3,
    0xfca1477d58be162b, 0xce31d07ad1b8f88f, 0x280416958f3acb45, 0x7e404bbbcafbd7af]

/-- Every other word of the key with the seed added, the ones between with it taken off. -/
def seededKey : ByteArray :=
  ofWords ((List.range 12).flatMap fun i =>
    [wordOf key (16 * i) + seed, wordOf key (16 * i + 8) - seed])

/-- The low and the high word of a product. -/
def wideProduct (a b : UInt64) : UInt64 × UInt64 :=
  let p := a.toNat * b.toNat
  (UInt64.ofNat p, UInt64.ofNat (p / UInt64.size))

def fold (a b : UInt64) : UInt64 :=
  let (low, high) := wideProduct a b
  low ^^^ high

/-- Spreads every bit over the word. -/
def avalanche (h : UInt64) : UInt64 :=
  let h := (h ^^^ (h >>> 37)) * 0x165667919E3779F9
  h ^^^ (h >>> 32)

/-- The four bytes of a 32-bit word in the opposite order. -/
def swapBytes (w : UInt64) : UInt64 :=
  (w &&& 0xff) <<< 24 ||| (w >>> 8 &&& 0xff) <<< 16 ||| (w >>> 16 &&& 0xff) <<< 8 |||
    (w >>> 24 &&& 0xff)

/-- Two words of the input with two words of the key. -/
def mixPair (input : ByteArray) (offset keyOffset : Nat) (s : UInt64) : UInt64 :=
  fold (wordOf input offset ^^^ (wordOf key keyOffset + s))
    (wordOf input (offset + 8) ^^^ (wordOf key (keyOffset + 8) - s))

/-- Mixes two pairs of words into the halves, each half also with the plain words of the other. -/
def mixPairs (input : ByteArray) (first second keyOffset : Nat) (s : UInt64) (f : Fingerprint) :
    Fingerprint :=
  let lo := f.lo + mixPair input first keyOffset s
  let hi := f.hi + mixPair input second (keyOffset + 16) s
  { lo := lo ^^^ (wordOf input second + wordOf input (second + 8))
    hi := hi ^^^ (wordOf input first + wordOf input (first + 8)) }

/-- The end of inputs up to 240 bytes. -/
def finish (length : UInt64) (f : Fingerprint) : Fingerprint where
  lo := avalanche (f.lo + f.hi)
  hi := 0 - avalanche (f.lo * q1 + f.hi * q4 + (length - seed) * q2)

/-- An input of eight bytes. -/
def ofWordInput (input : ByteArray) (length : UInt64) : Fingerprint :=
  let s := seed ^^^ (swapBytes (seed &&& 0xffffffff) <<< 32)
  let x := wordOf input 0 ^^^ ((wordOf key 16 ^^^ wordOf key 24) + s)
  let (lo, hi) := wideProduct x (q1 + 4 * length)
  let hi := hi + lo <<< 1
  let lo := lo ^^^ (hi >>> 3)
  let lo := (lo ^^^ (lo >>> 35)) * 0x9FB21C651E98DF25
  ⟨avalanche hi, lo ^^^ (lo >>> 28)⟩

/-- An input of up to 128 bytes, taken from both ends towards the middle. -/
def ofShort (input : ByteArray) (length : UInt64) : Fingerprint :=
  let n := input.size
  finish length
    ((List.range ((n - 1) / 32 + 1)).reverse.foldl
      (fun f i => mixPairs input (16 * i) (n - 16 * (i + 1)) (32 * i) seed f)
      ⟨0, length * q1⟩)

/-- An input of up to 240 bytes, taken from front to back. -/
def ofMedium (input : ByteArray) (length : UInt64) : Fingerprint :=
  let n := input.size
  let f := (List.range 4).foldl
    (fun f i => mixPairs input (32 * i) (32 * i + 16) (32 * i) seed f) ⟨0, length * q1⟩
  let f := ⟨avalanche f.hi, avalanche f.lo⟩
  let f := (List.range (n / 32 - 4)).foldl
    (fun f i => mixPairs input (32 * (i + 4)) (32 * (i + 4) + 16) (3 + 32 * i) seed f) f
  finish length (mixPairs input (n - 16) (n - 32) 103 (0 - seed) f)

abbrev Lanes := Vector UInt64 8

def startLanes : Lanes := #v[p3, q1, q2, q3, q4, p2, q5, p1]

/-- The product of the low and the high half of a word. -/
def halvesProduct (x : UInt64) : UInt64 :=
  (x &&& (0xffffffff : UInt64)) * (x >>> 32)

/-- Adds the 64 bytes at an offset to the lanes. The plain words go to the neighbouring lanes. -/
def stripe (input : ByteArray) (offset keyOffset : Nat) (lanes : Lanes) : Lanes :=
  Vector.ofFn fun i =>
    lanes[i] + wordOf input (offset + 8 * (i.val ^^^ 1)) +
      halvesProduct (wordOf input (offset + 8 * i.val) ^^^ wordOf seededKey (keyOffset + 8 * i.val))

def stripes (input : ByteArray) (offset count : Nat) (lanes : Lanes) : Lanes :=
  (List.range count).foldl (fun lanes j => stripe input (offset + 64 * j) (8 * j) lanes) lanes

/-- Stirs the lanes after a block of 16 stripes. -/
def scramble (lanes : Lanes) : Lanes :=
  Vector.ofFn fun i =>
    ((lanes[i] ^^^ (lanes[i] >>> 47)) ^^^ wordOf seededKey (128 + 8 * i.val)) * p1

/-- Folds the lanes into one word. -/
def merge (lanes : Lanes) (keyOffset : Nat) (start : UInt64) : UInt64 :=
  let term (a b : UInt64) (i : Nat) : UInt64 :=
    fold (a ^^^ wordOf seededKey (keyOffset + 16 * i))
      (b ^^^ wordOf seededKey (keyOffset + 16 * i + 8))
  avalanche (start + term lanes[0] lanes[1] 0 + term lanes[2] lanes[3] 1 +
    term lanes[4] lanes[5] 2 + term lanes[6] lanes[7] 3)

/-- An input of more than 240 bytes: full blocks, the full stripes that are left, and at last the
64 bytes at the end once more. -/
def ofLong (input : ByteArray) (length : UInt64) : Fingerprint :=
  let n := input.size
  let blocks := (n - 1) / 1024
  let lanes := (List.range blocks).foldl
    (fun lanes b => scramble (stripes input (1024 * b) 16 lanes)) startLanes
  let lanes := stripes input (1024 * blocks) ((n - 1 - 1024 * blocks) / 64) lanes
  let lanes := stripe input (n - 64) 121 lanes
  ⟨merge lanes 117 (~~~(length * q2)), merge lanes 11 (length * q1)⟩

/-- The digest of an input of 8 bytes or of more than 16. There is no input of another length, since
no encoding of states has one. -/
def digest (input : ByteArray) : Fingerprint :=
  let length := UInt64.ofNat input.size
  if input.size ≤ 16 then ofWordInput input length
  else if input.size ≤ 128 then ofShort input length
  else if input.size ≤ 240 then ofMedium input length
  else ofLong input length

end Fingerprint
end Storyboard
