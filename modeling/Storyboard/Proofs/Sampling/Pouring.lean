import Mathlib
import Storyboard.Sampling.Tank

/-!
# What a tank takes

Bytes may be poured into a tank at once or piece by piece: the tank ends up the same, and the same
bytes fit (`pour_append`, `run_joined`). A tank that has refused something takes nothing more
(`pour_full`).
-/

namespace Storyboard

/-- Pieces of bytes one after the other. -/
def joined (pieces : List ByteArray) : ByteArray :=
  pieces.foldr (· ++ ·) .empty

/-- A writer that hands on what it is given in pieces, as an encoder does that writes as it goes. -/
def Writer.inPieces {m : Type → Type} [Monad m] (cut : ByteArray → List ByteArray) (w : Writer m) :
    Writer m where
  write bytes := (cut bytes).forM w.write
  flush := w.flush

theorem joined_cons (piece : ByteArray) (pieces : List ByteArray) :
    joined (piece :: pieces) = piece ++ joined pieces := rfl

theorem joined_append (before after : List ByteArray) :
    joined (before ++ after) = joined before ++ joined after := by
  induction before with
  | nil => exact ByteArray.empty_append.symm
  | cons piece before ih =>
    rw [List.cons_append, joined_cons, joined_cons, ih, ByteArray.append_assoc]

namespace Tank

variable {t : Tank} {a b : ByteArray} {n k : Nat}

/-- The room is enough for `n` bytes. -/
def Fits (t : Tank) (n : Nat) : Prop :=
  ∀ room, t.room = some room → n ≤ room

theorem fits_of_unlimited (unlimited : t.room = none) (n : Nat) : t.Fits n := by
  intro room limited
  rw [unlimited] at limited
  cases limited

theorem Fits.le (fits : t.Fits n) (le : k ≤ n) : t.Fits k :=
  fun room limited => Nat.le_trans le (fits room limited)

theorem taken_lt_iff : t.taken n < n ↔ ¬ t.Fits n := by
  unfold taken Fits
  cases t.room with
  | none => simp
  | some room => simp

/-- There is room for two pieces just if there is room for the first, and then for the second. -/
theorem fits_pour : (t.pour a).Fits n ∧ t.Fits a.size ↔ t.Fits (a.size + n) := by
  unfold pour Fits
  cases t.room with
  | none => simp
  | some room =>
    simp only [Option.map_some, Option.some.injEq, forall_eq']
    omega

theorem extract_min (bytes : ByteArray) (n : Nat) :
    bytes.extract 0 (min n bytes.size) = bytes.extract 0 n := by
  apply ByteArray.ext_getElem
  · simp [ByteArray.size_extract]
  · simp

theorem extract_append_min (a b : ByteArray) (n : Nat) :
    (a ++ b).extract 0 (min n (a.size + b.size)) =
      a.extract 0 (min n a.size) ++ b.extract 0 (min (n - a.size) b.size) := by
  rw [← ByteArray.size_append, extract_min, extract_min, extract_min, ByteArray.extract_append,
    Nat.zero_sub]

/-- Bytes may be poured in two goes. -/
theorem pour_append (t : Tank) (a b : ByteArray) : t.pour (a ++ b) = (t.pour a).pour b := by
  obtain ⟨written, room, flushFails⟩ := t
  cases room with
  | none =>
    simp only [pour, taken, Option.map_none, ByteArray.extract_zero_size, ByteArray.append_assoc]
  | some room =>
    simp only [pour, taken, Option.map_some, ByteArray.append_assoc, ByteArray.size_append,
      Nat.sub_sub, extract_append_min]

theorem pour_empty (t : Tank) : t.pour .empty = t := by
  have none : t.taken 0 = 0 := Nat.le_zero.1 (t.taken_le 0)
  simp only [pour, ByteArray.size_empty, none, ByteArray.extract_same, ByteArray.append_empty,
    Nat.sub_zero, Option.map_id']

/-- What has refused something is full. -/
theorem pour_full (full : ¬ t.Fits a.size) (b : ByteArray) : (t.pour a).pour b = t.pour a := by
  obtain ⟨written, room, flushFails⟩ := t
  cases room with
  | none => exact absurd (fits_of_unlimited rfl _) full
  | some room =>
    have less : room < a.size := by
      rw [← Nat.not_le]
      intro le
      apply full
      rintro _ ⟨⟩
      exact le
    have none : room - a.size = 0 := by omega
    simp [pour, taken, none]

/-- A write puts down what there is room for, and fails if that is not all. -/
theorem run_write (t : Tank) (bytes : ByteArray) :
    (writer.write bytes).run.run t =
      ((if t.taken bytes.size < bytes.size then .error "writer is full" else .ok ()),
        t.pour bytes) := by
  change (if t.taken bytes.size < bytes.size then throw "writer is full" else pure () :
    ExceptT String (StateM Tank) Unit).run.run (t.pour bytes) = _
  split <;> rfl

theorem run_write_fits (fits : t.Fits a.size) :
    (writer.write a).run.run t = (.ok (), t.pour a) := by
  rw [run_write, if_neg (by rw [taken_lt_iff]; exact not_not_intro fits)]

theorem run_write_full (full : ¬ t.Fits a.size) :
    (writer.write a).run.run t = (.error "writer is full", t.pour a) := by
  rw [run_write, if_pos (taken_lt_iff.2 full)]

/-- Writing pieces one by one, up to a refusal, is writing them at once. -/
theorem run_joined (t : Tank) (pieces : List ByteArray) :
    (pieces.forM writer.write).run.run t = (writer.write (joined pieces)).run.run t := by
  induction pieces generalizing t with
  | nil =>
    have fits : t.Fits (joined []).size := fun _ _ => Nat.zero_le _
    rw [run_write_fits fits]
    exact congrArg _ (pour_empty t).symm
  | cons piece pieces ih =>
    rw [List.forM_eq_forM, List.forM_cons, ExceptT.run_bind, StateT.run_bind, joined_cons]
    by_cases first : t.Fits piece.size
    · rw [run_write_fits first]
      change (pieces.forM writer.write).run.run (t.pour piece) = _
      rw [ih]
      have rest : (t.pour piece).Fits (joined pieces).size ↔
          t.Fits (piece ++ joined pieces).size := by
        rw [ByteArray.size_append, ← fits_pour, and_iff_left first]
      by_cases fits : (t.pour piece).Fits (joined pieces).size
      · rw [run_write_fits fits, run_write_fits (rest.1 fits), pour_append]
      · rw [run_write_full fits, run_write_full (fits ∘ rest.2), pour_append]
    · have full : ¬ t.Fits (piece ++ joined pieces).size := fun fits =>
        first (fits.le (by rw [ByteArray.size_append]; omega))
      rw [run_write_full first, run_write_full full, pour_append, pour_full first]
      rfl

/-- However an encoder cuts what it writes, the tank sees no difference. -/
theorem inPieces_writer {cut : ByteArray → List ByteArray} (whole : ∀ b, joined (cut b) = b) :
    writer.inPieces cut = writer := by
  have same : (fun bytes => (cut bytes).forM writer.write) = writer.write := by
    funext bytes
    have run (t : Tank) : ((cut bytes).forM writer.write).run.run t =
        (writer.write bytes).run.run t := by
      rw [run_joined, whole]
    exact funext run
  rw [Writer.inPieces, same]

end Tank
end Storyboard
