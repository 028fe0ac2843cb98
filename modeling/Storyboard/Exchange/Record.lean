import Storyboard.Json.Basic
import Storyboard.Decimal.Basic

/-!
# Records in JSON

A record is an object, or an array of the bare field values in the order in which they are written.
Fields that a record does not have are passed over.
-/

namespace Storyboard.Json

/-- A whole number below `bound`. A number with a fraction or a power of ten is none. -/
def natural? (bound : Nat) : Json → Option Nat
  | .number (.int z) => if 0 ≤ z ∧ z < bound then some z.toNat else none
  | _ => none

def word32? (v : Json) : Option UInt32 :=
  (v.natural? UInt32.size).map UInt32.ofNat

def word64? (v : Json) : Option UInt64 :=
  (v.natural? UInt64.size).map UInt64.ofNat

/-- Any number, as the nearest double. -/
def double? : Json → Option Float
  | .number (.float x) => some x
  | .number (.int z) => some (signedFloat (decide (z < 0)) ⟨z.natAbs, 0⟩)
  | _ => none

def text? : Json → Option String
  | .string s => some s
  | _ => none

def bool? : Json → Option Bool
  | .bool b => some b
  | _ => none

def list? {α : Type} (item? : Json → Option α) : Json → Option (List α)
  | .array items => items.mapM item?
  | _ => none

/-- A value that may be `null`. -/
def nullable? {α : Type} (value? : Json → Option α) : Json → Option (Option α)
  | .null => some none
  | v => (value? v).map some

def ofWord32 (n : UInt32) : Json := ofNat n.toNat

def ofWord64 (n : UInt64) : Json := ofNat n.toNat

def ofList {α : Type} (encode : α → Json) (items : List α) : Json :=
  .array (items.map encode)

/-- The fields of a record. -/
abbrev Fields := List (String × Json)

namespace Fields

/-- The value of a field; if the name comes up more than once, the last one. -/
def get? (key : String) : Fields → Option Json
  | [] => none
  | (name, value) :: rest =>
    match get? key rest with
    | some v => some v
    | none => if name = key then some value else none

theorem get?_eq_none_iff {key : String} {fields : Fields} :
    get? key fields = none ↔ ∀ f ∈ fields, f.1 ≠ key := by
  induction fields with
  | nil => simp [get?]
  | cons f rest ih =>
    obtain ⟨name, value⟩ := f
    rw [get?]
    cases later : get? key rest with
    | some v => simp_all
    | none =>
      rw [List.forall_mem_cons, and_iff_left (ih.1 later)]
      by_cases same : name = key <;> simp [same]

/-- What `value?` makes of a field that must be there. -/
def read? {α : Type} (fields : Fields) (key : String) (value? : Json → Option α) : Option α :=
  (fields.get? key).bind value?

/-- What `value?` makes of a field that may be absent or `null`. -/
def readOptional? {α : Type} (fields : Fields) (key : String) (value? : Json → Option α) :
    Option (Option α) :=
  match fields.get? key with
  | none => some none
  | some v => v.nullable? value?

end Fields

/-- The fields of a record that has the fields `names`. -/
def record? (names : List String) : Json → Option Fields
  | .object fields => some fields
  | .array items => if items.length = names.length then some (names.zip items) else none
  | _ => none

/-- The kind of a value that names it, and what is left of the value: the other fields of an object
with a field `type`, or the items of an array after the first. -/
def tagged? : Json → Option (String × Json)
  | .object fields =>
    match Fields.get? "type" fields with
    | some (.string kind) => some (kind, .object (fields.filter fun f => f.1 != "type"))
    | _ => none
  | .array (.string kind :: items) => some (kind, .array items)
  | _ => none

/-- An object that names its kind in front of the other fields. -/
def ofTagged (kind : String) (fields : Fields) : Json :=
  .object (("type", .string kind) :: fields)

end Storyboard.Json
