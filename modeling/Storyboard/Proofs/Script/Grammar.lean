import Mathlib
import Storyboard.Exact
import Storyboard.Script.Mismatch
import Storyboard.Program

/-!
# The grammar of scripts

Derivation trees, one type for each rule of the grammar, with the tokens a tree spells. A tree is
plain syntax: which names, numbers and omissions are allowed is said beside it (`Admissible`), and
so is what an admissible tree denotes. Nothing here reads tokens.
-/

namespace Storyboard.Script.Grammar

/-- `","?` -/
def comma? (present : Bool) : List Token :=
  if present then [.mark .comma] else []

/-- `α ","?`, the rule for what stands in a block. -/
structure Item (α : Type) where
  node : α
  comma : Bool

def Item.tokens {α : Type} (tokens : α → List Token) (i : Item α) : List Token :=
  tokens i.node ++ comma? i.comma

/-- `"{" α* "}"` -/
def braced {α : Type} (tokens : α → List Token) (nodes : List α) : List Token :=
  .mark .openBrace :: (nodes.flatMap tokens ++ [.mark .closeBrace])

structure Number where
  value : Float
  integer : Bool

def Number.token (n : Number) : Token :=
  .number n.value n.integer

/-- `string | number | point` -/
inductive Value where
  | text (body : String)
  | number (n : Number)
  | point (x y : Number)

namespace Value

def tokens : Value → List Token
  | text body => [.text body]
  | number n => [n.token]
  | point x y => [.mark .openParen, x.token, .mark .comma, y.token, .mark .closeParen]

def text? : Value → Option String
  | text body => some body
  | _ => none

def number? : Value → Option Float
  | number n => some n.value
  | _ => none

def point? : Value → Option Point
  | point x y => some ⟨x.value, y.value⟩
  | _ => none

end Value

/-- `ident ":" value` -/
structure Clause where
  name : String
  value : Value

def Clause.tokens (c : Clause) : List Token :=
  .word c.name :: .mark .colon :: c.value.tokens

/-- The names and kinds of values that a shape takes; a radius is above zero. -/
inductive Clause.Allowed : Shape → Clause → Prop where
  | id {shape : Shape} {body : String} : Allowed shape ⟨"id", .text body⟩
  | anchor {shape : Shape} {x y : Number} : Allowed shape ⟨"at", .point x y⟩
  | content {body : String} : Allowed .text ⟨"content", .text body⟩
  | radius {n : Number} (positive : 0.0 < n.value) : Allowed .circle ⟨"radius", .number n⟩

/-- The value of a clause that has the name and the kind of value. -/
def Clause.valueOf {α : Type} (name : String) (kind : Value → Option α) (c : Clause) : Option α :=
  if c.name = name then kind c.value else none

/-- `arg ("," arg)* ","?` -/
structure Arguments where
  first : Clause
  others : List Clause
  comma : Bool

namespace Arguments

def clauses (a : Arguments) : List Clause :=
  a.first :: a.others

def tokens (a : Arguments) : List Token :=
  a.first.tokens ++ a.others.flatMap (.mark .comma :: ·.tokens) ++ comma? a.comma

/-- The value of the last clause with the name. -/
def last? {α : Type} (a : Arguments) (name : String) (kind : Value → Option α) : Option α :=
  (a.clauses.filterMap (Clause.valueOf name kind)).getLast?

end Arguments

/-- `("text" | "circle") "(" arguments ")"` -/
structure ElementTree where
  shape : Shape
  arguments : Arguments

namespace ElementTree

def tokens (t : ElementTree) : List Token :=
  .word t.shape.keyword :: .mark .openParen :: (t.arguments.tokens ++ [.mark .closeParen])

/-- The argument that only this shape has. -/
def ownName : Shape → String
  | .text => "content"
  | .circle => "radius"

/-- Only arguments of the shape, and each of them at least once. -/
structure Admissible (t : ElementTree) : Prop where
  allowed : ∀ c ∈ t.arguments.clauses, c.Allowed t.shape
  present : ∀ name ∈ ["id", "at", ownName t.shape], ∃ c ∈ t.arguments.clauses, c.name = name

def figure? (t : ElementTree) : Option Figure :=
  match t.shape with
  | .text => (t.arguments.last? "content" Value.text?).map .text
  | .circle => (t.arguments.last? "radius" Value.number?).map .circle

/-- Of a repeated argument the last counts. -/
def element? (t : ElementTree) : Option Element := do
  let id ← t.arguments.last? "id" Value.text?
  let anchor ← t.arguments.last? "at" Value.point?
  let figure ← t.figure?
  return ⟨id, anchor, figure⟩

end ElementTree

/-- `"fade" "(" string "," ("in" | "out") "," "duration" ":" duration ","? ")"` -/
structure FadeTree where
  target : String
  direction : Direction
  duration : Float
  comma : Bool

namespace FadeTree

def directionWord : Direction → String
  | .fadeIn => "in"
  | .fadeOut => "out"

def tokens (t : FadeTree) : List Token :=
  [.word "fade", .mark .openParen, .text t.target, .mark .comma,
    .word (directionWord t.direction), .mark .comma, .word "duration", .mark .colon,
    .duration t.duration] ++ comma? t.comma ++ [.mark .closeParen]

def Admissible (t : FadeTree) : Prop :=
  ¬ t.duration < 0.0

def fade (t : FadeTree) : Fade :=
  ⟨t.target, t.direction, t.duration⟩

end FadeTree

/-- `"at" duration "{" (command ","?)* "}"` -/
structure TriggerTree where
  time : Float
  commands : List (Item FadeTree)

namespace TriggerTree

def tokens (t : TriggerTree) : List Token :=
  .word "at" :: .duration t.time :: braced (Item.tokens FadeTree.tokens) t.commands

structure Admissible (t : TriggerTree) : Prop where
  time : ¬ t.time < 0.0
  commands : ∀ c ∈ t.commands, c.node.Admissible

def event (t : TriggerTree) : Event :=
  ⟨t.time, t.commands.map fun c => .fade c.node.fade⟩

end TriggerTree

/-- A property of a scene: `name ":" value`. -/
inductive PropertyTree where
  | duration (secs : Float)
  | narration (body : String)
  | visuals (elements : List (Item ElementTree))
  | timeline (triggers : List (Item TriggerTree))

namespace PropertyTree

def tokens : PropertyTree → List Token
  | duration secs => [.word "duration", .mark .colon, .duration secs]
  | narration body => [.word "narration", .mark .colon, .text body]
  | visuals elements =>
    .word "visuals" :: .mark .colon :: braced (Item.tokens ElementTree.tokens) elements
  | timeline triggers =>
    .word "timeline" :: .mark .colon :: braced (Item.tokens TriggerTree.tokens) triggers

def Admissible : PropertyTree → Prop
  | duration secs => ¬ secs < 0.0
  | narration _ => True
  | visuals elements => ∀ e ∈ elements, e.node.Admissible
  | timeline triggers => ∀ t ∈ triggers, t.node.Admissible

def duration? : PropertyTree → Option Float
  | duration secs => some secs
  | _ => none

def narration? : PropertyTree → Option String
  | narration body => some body
  | _ => none

def visuals? : PropertyTree → Option (List (Item ElementTree))
  | visuals elements => some elements
  | _ => none

def timeline? : PropertyTree → Option (List (Item TriggerTree))
  | timeline triggers => some triggers
  | _ => none

end PropertyTree

/-- `"scene" string "{" scene_prop* "}"` -/
structure SceneTree where
  title : String
  properties : List PropertyTree

namespace SceneTree

def tokens (t : SceneTree) : List Token :=
  .word "scene" :: .text t.title :: braced PropertyTree.tokens t.properties

/-- A duration is there at least once. -/
structure Admissible (t : SceneTree) : Prop where
  properties : ∀ p ∈ t.properties, p.Admissible
  duration : ∃ secs, .duration secs ∈ t.properties

/-- The value of the last property of a kind. -/
def last? {α : Type} (t : SceneTree) (kind : PropertyTree → Option α) : Option α :=
  (t.properties.filterMap kind).getLast?

/-- Of a repeated property the last counts; visuals and timeline may be missing. -/
def scene? (t : SceneTree) : Option Scene := do
  let duration ← t.last? PropertyTree.duration?
  let elements ← ((t.last? PropertyTree.visuals?).getD []).mapM (·.node.element?)
  let events := ((t.last? PropertyTree.timeline?).getD []).map (·.node.event)
  return ⟨t.title, duration, t.last? PropertyTree.narration?, elements, events⟩

end SceneTree

/-- `"dimensions" ":" "(" integer "," integer ")"` -/
structure Dimensions where
  width : Float
  height : Float

namespace Dimensions

def tokens (d : Dimensions) : List Token :=
  [.word "dimensions", .mark .colon, .mark .openParen, .number d.width true, .mark .comma,
    .number d.height true, .mark .closeParen]

/-- The double is a whole number from 1 to `2 ^ 32 - 1`. -/
def InPixels (value : Float) : Prop :=
  ∃ n : Nat, exactValue? value = some (n : Rat) ∧ 0 < n ∧ n < 2 ^ 32

structure Admissible (d : Dimensions) : Prop where
  width : InPixels d.width
  height : InPixels d.height

def pixels? (value : Float) : Option UInt32 :=
  (exactValue? value).map fun r => .ofNat r.num.toNat

def canvas? (d : Dimensions) : Option Canvas := do
  return ⟨← pixels? d.width, ← pixels? d.height⟩

end Dimensions

/-- `"video" "{" video_prop* "}" scene_block+` -/
structure ScriptTree where
  dimensions : List Dimensions
  first : SceneTree
  others : List SceneTree

namespace ScriptTree

def scenes (t : ScriptTree) : List SceneTree :=
  t.first :: t.others

def tokens (t : ScriptTree) : List Token :=
  .word "video" :: (braced Dimensions.tokens t.dimensions ++ t.scenes.flatMap SceneTree.tokens)

/-- Dimensions are there at least once. -/
structure Admissible (t : ScriptTree) : Prop where
  dimensions : t.dimensions ≠ []
  sizes : ∀ d ∈ t.dimensions, d.Admissible
  scenes : ∀ s ∈ t.scenes, s.Admissible

def program? (t : ScriptTree) : Option Program := do
  let dimensions ← t.dimensions.getLast?
  return ⟨← dimensions.canvas?, ← t.scenes.mapM SceneTree.scene?⟩

end ScriptTree
end Storyboard.Script.Grammar
