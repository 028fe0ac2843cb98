/-!
# JSON values

An object keeps its fields in order. Numbers written without a fraction and a power of ten are kept
apart from the others, because a whole-number field takes only those.
-/

namespace Storyboard

inductive Json.Number where
  | int (z : Int)
  | float (x : Float)
  deriving DecidableEq

inductive Json where
  | null
  | bool (b : Bool)
  | number (n : Json.Number)
  | string (s : String)
  | array (items : List Json)
  | object (fields : List (String × Json))

namespace Json

def ofNat (n : Nat) : Json :=
  .number (.int n)

/-- A double; what is not finite has no number and becomes `null`. -/
def ofFloat (x : Float) : Json :=
  if x.isFinite then .number (.float x) else .null

def ofOption {α : Type} (encode : α → Json) : Option α → Json
  | some a => encode a
  | none => .null

/-- The pieces a JSON text is made of. -/
inductive Token where
  | arrayOpen
  | arrayClose
  | objectOpen
  | objectClose
  | colon
  | comma
  | null
  | bool (b : Bool)
  | number (n : Number)
  | string (s : String)
  deriving DecidableEq

mutual
def tokens : Json → List Token
  | .null => [.null]
  | .bool b => [.bool b]
  | .number n => [.number n]
  | .string s => [.string s]
  | .array items => .arrayOpen :: itemTokens items
  | .object fields => .objectOpen :: fieldTokens fields

/-- The items with commas between them, and the closing bracket. -/
def itemTokens : List Json → List Token
  | [] => [.arrayClose]
  | [item] => item.tokens ++ [.arrayClose]
  | item :: next :: rest => item.tokens ++ .comma :: itemTokens (next :: rest)

/-- The fields with commas between them, and the closing brace. -/
def fieldTokens : List (String × Json) → List Token
  | [] => [.objectClose]
  | [(key, value)] => .string key :: .colon :: value.tokens ++ [.objectClose]
  | (key, value) :: next :: rest =>
    .string key :: .colon :: value.tokens ++ .comma :: fieldTokens (next :: rest)
end

end Json
end Storyboard
