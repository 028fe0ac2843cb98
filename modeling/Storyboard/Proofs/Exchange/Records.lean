import Storyboard.Proofs.Json.Values
import Storyboard.Exchange.Record

namespace Storyboard.Json

theorem plain_null : Plain .null := by
  simp [Plain, tokens, Token.Plain]

theorem plain_bool (b : Bool) : Plain (.bool b) := by
  simp [Plain, tokens, Token.Plain]

theorem plain_string (s : String) : Plain (.string s) := by
  simp [Plain, tokens, Token.Plain]

theorem plain_number {n : Number} (plain : n.Plain) : Plain (.number n) := by
  rw [Plain, tokens, List.forall_mem_singleton]
  exact plain

theorem plain_laterItems {items : List Json} (plain : ∀ v ∈ items, Plain v) :
    ∀ t ∈ laterItems items, t.Plain := by
  induction items with
  | nil => simp [laterItems, Token.Plain]
  | cons item rest ih =>
    rw [List.forall_mem_cons] at plain
    exact plain_laterItems_cons.2 ⟨plain.1, ih plain.2⟩

theorem plain_array {items : List Json} (plain : ∀ v ∈ items, Plain v) : Plain (.array items) := by
  cases items with
  | nil => simp [Plain, tokens, itemTokens, Token.Plain]
  | cons item rest =>
    rw [List.forall_mem_cons] at plain
    exact plain_array_cons.2 ⟨plain.1, plain_laterItems plain.2⟩

theorem plain_laterFields {fields : List (String × Json)} (plain : ∀ f ∈ fields, Plain f.2) :
    ∀ t ∈ laterFields fields, t.Plain := by
  induction fields with
  | nil => simp [laterFields, Token.Plain]
  | cons field rest ih =>
    rw [List.forall_mem_cons] at plain
    exact plain_laterFields_cons.2 ⟨plain.1, ih plain.2⟩

theorem plain_object {fields : List (String × Json)} (plain : ∀ f ∈ fields, Plain f.2) :
    Plain (.object fields) := by
  cases fields with
  | nil => simp [Plain, tokens, fieldTokens, Token.Plain]
  | cons field rest =>
    rw [List.forall_mem_cons] at plain
    exact plain_object_cons.2 ⟨plain.1, plain_laterFields plain.2⟩

theorem plain_ofTagged (kind : String) {fields : Fields} (plain : ∀ f ∈ fields, Plain f.2) :
    Plain (.ofTagged kind fields) := by
  apply plain_object
  rw [List.forall_mem_cons]
  exact ⟨plain_string kind, plain⟩

/-- A double that is not finite is written as null, so that any double may stand in a text. -/
theorem plain_ofFloat (x : Float) : Plain (.ofFloat x) := by
  unfold ofFloat
  split
  · rename_i finite
    exact plain_number finite
  · exact plain_null

theorem plain_ofNat {n : Nat} (word : n < 2 ^ 64) : Plain (.ofNat n) :=
  plain_number ⟨by omega, by omega⟩

theorem plain_ofWord32 (n : UInt32) : Plain (.ofWord32 n) :=
  plain_ofNat (Nat.lt_trans n.toNat_lt (by decide))

theorem plain_ofWord64 (n : UInt64) : Plain (.ofWord64 n) :=
  plain_ofNat n.toNat_lt

theorem plain_ofOption {α : Type} {encode : α → Json} (plain : ∀ a, Plain (encode a))
    (value : Option α) : Plain (.ofOption encode value) := by
  cases value with
  | none => exact plain_null
  | some a => exact plain a

theorem plain_ofList {α : Type} {encode : α → Json} (plain : ∀ a, Plain (encode a))
    (items : List α) : Plain (.ofList encode items) := by
  apply plain_array
  rintro v listed
  obtain ⟨a, -, rfl⟩ := List.mem_map.1 listed
  exact plain a

/-- A finite double is read back as it was. -/
theorem double?_ofFloat {x : Float} (finite : x.isFinite) : double? (.ofFloat x) = some x := by
  rw [ofFloat, if_pos finite]
  rfl

theorem word32?_ofWord32 (n : UInt32) : word32? (.ofWord32 n) = some n := by
  have range : 0 ≤ (n.toNat : Int) ∧ (n.toNat : Int) < UInt32.size :=
    ⟨Int.natCast_nonneg _, Int.ofNat_lt.2 n.toNat_lt⟩
  simp only [word32?, ofWord32, ofNat, natural?, if_pos range, Int.toNat_natCast, Option.map_some,
    UInt32.ofNat_toNat]

theorem word64?_ofWord64 (n : UInt64) : word64? (.ofWord64 n) = some n := by
  have range : 0 ≤ (n.toNat : Int) ∧ (n.toNat : Int) < UInt64.size :=
    ⟨Int.natCast_nonneg _, Int.ofNat_lt.2 n.toNat_lt⟩
  simp only [word64?, ofWord64, ofNat, natural?, if_pos range, Int.toNat_natCast, Option.map_some,
    UInt64.ofNat_toNat]

theorem bool?_bool (b : Bool) : bool? (.bool b) = some b := rfl

theorem text?_string (s : String) : text? (.string s) = some s := rfl

/-- What is absent is written as null and read as absent. -/
theorem nullable?_ofOption (value : Option String) :
    nullable? text? (.ofOption .string value) = some value := by
  cases value <;> rfl

theorem list?_ofList {α : Type} {encode : α → Json} {item? : Json → Option α} {items : List α}
    (each : ∀ a ∈ items, item? (encode a) = some a) :
    list? item? (.ofList encode items) = some items := by
  simp only [ofList, list?, List.mapM_map]
  induction items with
  | nil => rfl
  | cons a items ih =>
    rw [List.forall_mem_cons] at each
    rw [List.mapM_cons, Function.comp_apply, each.1, ih each.2]
    rfl

section Fields

variable {α β : Type} {fields : Fields} {key : String} {v : Json} {a : α} {b : β}
  {value? : Json → Option α}

theorem record?_bind {names : List String} {next : Fields → Option β}
    (rest : next fields = some b) : ((Json.object fields).record? names >>= next) = some b :=
  rest

/-- A field that stands is read, and the reader goes on with what it held. -/
theorem read?_bind {next : α → Option β} (here : fields.get? key = some v)
    (read : value? v = some a) (rest : next a = some b) :
    (fields.read? key value? >>= next) = some b := by
  rw [Fields.read?, here]
  exact Option.bind_eq_some_iff.2 ⟨a, read, rest⟩

/-- A field may hold null, or a value that is read like any other. -/
theorem readOptional?_bind {next : Option α → Option β} {a : Option α}
    (here : fields.get? key = some v) (read : v.nullable? value? = some a)
    (rest : next a = some b) : (fields.readOptional? key value? >>= next) = some b := by
  rw [Fields.readOptional?, here]
  exact Option.bind_eq_some_iff.2 ⟨a, read, rest⟩

/-- The kind of a tagged value and its other fields, none of which is the tag. -/
theorem tagged?_ofTagged (kind : String) (other : ∀ f ∈ fields, f.1 ≠ "type") :
    tagged? (.ofTagged kind fields) = some (kind, .object fields) := by
  have untagged : Fields.get? "type" fields = none := Fields.get?_eq_none_iff.2 other
  have tag : Fields.get? "type" (("type", .string kind) :: fields) = some (.string kind) := by
    rw [Fields.get?, untagged]
    rfl
  have rest : (("type", Json.string kind) :: fields).filter (fun f => f.1 != "type") = fields := by
    rw [List.filter_cons_of_neg (by simp), List.filter_eq_self]
    exact fun f listed => bne_iff_ne.2 (other f listed)
  simp only [ofTagged, tagged?, tag, rest]

theorem tagged?_bind {kind : String} {next : String × Json → Option β}
    (other : ∀ f ∈ fields, f.1 ≠ "type") (rest : next (kind, .object fields) = some b) :
    (tagged? (.ofTagged kind fields) >>= next) = some b := by
  rw [tagged?_ofTagged kind other]
  exact rest

end Fields

end Storyboard.Json
