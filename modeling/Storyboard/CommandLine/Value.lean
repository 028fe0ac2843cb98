import Storyboard.Decimal.Text

/-!
# Values on the command line

Whole numbers may have a plus in front. Of a whole number with a wrong character and too many digits
that fault is reported which comes first.
-/

namespace Storyboard.CommandLine

/-- Why a text is no number. -/
inductive NumeralFault where
  | emptyInteger
  | invalidDigit
  | tooLarge
  | tooSmall
  | emptyFloat
  | invalidFloat
  deriving DecidableEq, Repr

def NumeralFault.message : NumeralFault → String
  | .emptyInteger => "cannot parse integer from empty string"
  | .invalidDigit => "invalid digit found in string"
  | .tooLarge => "number too large to fit in target type"
  | .tooSmall => "number too small to fit in target type"
  | .emptyFloat => "cannot parse float from empty string"
  | .invalidFloat => "invalid float literal"

/-- The digits `cs` after digits of the value `n`, as a number that must not exceed `limit`. -/
def digits (limit : Nat) (beyond : NumeralFault) (n : Nat) : List Char → Except NumeralFault Nat
  | [] => .ok n
  | c :: cs =>
    if !c.isDigit then .error .invalidDigit
    else
      let next := 10 * n + (c.toNat - '0'.toNat)
      if limit < next then .error beyond else digits limit beyond next cs

/-- A whole number from 0 up to `limit`. -/
def natural (limit : Nat) : List Char → Except NumeralFault Nat
  | [] => .error .emptyInteger
  | ['+'] => .error .invalidDigit
  | '+' :: cs => digits limit .tooLarge 0 cs
  | cs => digits limit .tooLarge 0 cs

/-- An index or a size: a number that a 64-bit word holds. -/
def size (text : List Char) : Except NumeralFault Nat :=
  natural (UInt64.size - 1) text

/-- A whole number that a signed 64-bit word holds. -/
def integer : List Char → Except NumeralFault Int
  | ['-'] => .error .invalidDigit
  | '-' :: cs => (digits (UInt64.size / 2) .tooSmall 0 cs).map fun n => -n
  | cs => (natural (UInt64.size / 2 - 1) cs).map fun n => n

/-- Digits with an optional point among, before or after them, and an optional power of ten. -/
def decimal? (cs : List Char) : Option Decimal :=
  let whole := cs.takeWhile Char.isDigit
  let after := cs.dropWhile Char.isDigit
  let tail := if after.head? = some '.' then after.tail else []
  let fraction := tail.takeWhile Char.isDigit
  let rest := if after.head? = some '.' then tail.dropWhile Char.isDigit else after
  if whole.isEmpty && fraction.isEmpty then none
  else (Decimal.power? rest).map fun power => .ofParts whole fraction power

/-- A number, an infinity or NaN, with an optional sign. -/
def float (text : List Char) : Except NumeralFault Float :=
  if text.isEmpty then .error .emptyFloat
  else
    let negative := text.head? = some '-'
    let body := if negative || text.head? = some '+' then text.tail else text
    let word := String.ofList (body.map Char.toLower)
    if word = "nan" then .ok (0.0 / 0.0)
    else if word = "inf" ∨ word = "infinity" then
      .ok (if negative then -1.0 / 0.0 else 1.0 / 0.0)
    else match decimal? body with
      | some d => .ok (signedFloat negative d)
      | none => .error .invalidFloat

/-- White space in the sense of Unicode. -/
def isBlank (c : Char) : Bool :=
  let n := c.toNat
  (9 ≤ n && n ≤ 13) || n = 0x20 || n = 0x85 || n = 0xA0 || n = 0x1680 ||
    (0x2000 ≤ n && n ≤ 0x200A) || n = 0x2028 || n = 0x2029 || n = 0x202F || n = 0x205F || n = 0x3000

/-- Without the characters at the end that `drop` holds of. -/
def trimEnd (drop : Char → Bool) (cs : List Char) : List Char :=
  (cs.reverse.dropWhile drop).reverse

def trim (cs : List Char) : List Char :=
  trimEnd isBlank (cs.dropWhile isBlank)

/-- The index of a scene and the seconds of its narration, with an equals sign between them. The
seconds may end in `s`. -/
def narration (text : List Char) : Except String (Nat × Float) :=
  let index := text.takeWhile (· ≠ '=')
  match text.dropWhile (· ≠ '=') with
  | [] => .error s!"expected SCENE=SECONDS, got '{String.ofList text}'"
  | _ :: seconds =>
    match size (trim index) with
    | .error fault =>
      .error s!"invalid scene index '{String.ofList index}': {fault.message}"
    | .ok scene =>
      match float (trimEnd (· = 's') (trim seconds)) with
      | .error fault =>
        .error s!"invalid seconds '{String.ofList seconds}': {fault.message}"
      | .ok secs =>
        if !secs.isFinite || secs < 0.0 then
          .error ("narration length must be >= 0, got " ++ messageNumber secs)
        else .ok (scene, secs)

end Storyboard.CommandLine
