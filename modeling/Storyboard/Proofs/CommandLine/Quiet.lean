import Mathlib
import Storyboard.CommandLine.Disk
import Storyboard.CommandLine.Run

/-!
# Actions that leave the files alone

Of what a run does on a disk, only the making of a file changes files: directories are made where
nothing is, and reading changes nothing. Quiet actions are put together from quiet ones
(`Quiet.bind`). A file is made in one place, and is empty then (`Disk.create_eq_ok`).
-/

namespace Storyboard.CommandLine

theorem exists_of_bind_eq_ok {ε α β : Type} {x : Except ε α} {f : α → Except ε β} {b : β}
    (ran : (x >>= f) = .ok b) : ∃ a, x = .ok a ∧ f a = .ok b := by
  cases x with
  | error e => cases ran
  | ok a => exact ⟨a, rfl, ran⟩

namespace Disk

/-- The bytes of the file in a place. A directory is no file. -/
def file? (d : Disk) (place : Place) : Option ByteArray :=
  match d.node? place with
  | some (.file bytes) => some bytes
  | _ => none

variable {d made : Disk} {place other : Place} {path : String} {n : Node}

theorem node?_of_file? {bytes : ByteArray} (there : d.file? place = some bytes) :
    d.node? place = some (.file bytes) := by
  unfold file? at there
  split at there
  · cases there
    assumption
  · cases there

theorem lookup_map_other {entries : List (Place × Node)} (apart : other ≠ place) :
    (entries.map fun entry => if entry.1 = place then (place, n) else entry).lookup other =
      entries.lookup other := by
  induction entries with
  | nil => rfl
  | cons entry rest ih =>
    obtain ⟨spot, node⟩ := entry
    by_cases same : spot = place
    · have here : (other == place) = false := by simpa using apart
      simp [same, List.lookup_cons, here, ih]
    · simp [same, List.lookup_cons, ih]

theorem node?_put_other (apart : other ≠ place) : (d.put place n).node? other = d.node? other := by
  rw [node?, node?, home_put]
  congr 1
  unfold put
  split
  · exact lookup_map_other apart
  · have here : (other == place) = false := by simpa using apart
    rw [List.lookup_cons, here]

theorem file?_put_other (apart : other ≠ place) : (d.put place n).file? other = d.file? other := by
  rw [file?, file?, node?_put_other apart]

/-- What is added to a file comes after its bytes, and the others stay as they are. -/
theorem file?_append {before : ByteArray} (there : d.file? place = some before)
    (bytes : ByteArray) :
    (d.append place bytes).file? place = some (before ++ bytes) ∧
      ∀ other, other ≠ place → (d.append place bytes).file? other = d.file? other := by
  have node := node?_of_file? there
  have outside : ¬ place.isPrefixOf d.home := by
    intro above
    rw [node?, if_pos above] at node
    cases node
  rw [append, node]
  refine ⟨?_, fun other apart => file?_put_other apart⟩
  simp only [file?, node?_put d outside]

/-- A directory in a place where nothing was is no change to the files. -/
theorem file?_put_directory (free : d.node? place = none) :
    (d.put place .directory).file? = d.file? := by
  funext other
  by_cases same : other = place
  · subst same
    have outside : ¬ other.isPrefixOf d.home := by
      intro above
      rw [node?, if_pos above] at free
      cases free
    rw [file?, file?, node?_put d outside, free]
  · exact file?_put_other same

theorem look_eq_ok {dir : Place} {name : String} {node : Option Node}
    (looked : d.look dir name = .ok node) : node = d.node? (dir ++ [name]) := by
  unfold look at looked
  split at looked
  · cases looked
  · cases looked
    rfl

/-- A directory is made where nothing stood, so that every file stays. -/
theorem file?_makeDirectory (makes : d.makeDirectory path = .ok made) : made.file? = d.file? := by
  obtain ⟨⟨dir, step⟩, -, makes⟩ := exists_of_bind_eq_ok makes
  dsimp only at makes
  split at makes
  · cases makes
    rfl
  obtain ⟨node, looked, makes⟩ := exists_of_bind_eq_ok makes
  split at makes
  · cases makes
    rfl
  · cases makes
  · cases makes
    exact file?_put_directory (look_eq_ok looked).symm

/-- A file is made or emptied in one place, and the others stay as they are. -/
theorem create_eq_ok (makes : d.create path = .ok (place, made)) :
    made.file? place = some .empty ∧ ∀ other, other ≠ place → made.file? other = d.file? other := by
  obtain ⟨⟨dir, step⟩, -, makes⟩ := exists_of_bind_eq_ok makes
  dsimp only at makes
  split at makes
  · cases makes
  obtain ⟨node, looked, makes⟩ := exists_of_bind_eq_ok makes
  split at makes
  · cases makes
  · rename_i no_directory
    cases makes
    refine ⟨?_, fun other apart => file?_put_other apart⟩
    have outside : ¬ (dir ++ [step]).isPrefixOf d.home := by
      intro above
      apply no_directory
      rw [look_eq_ok looked, node?, if_pos above]
    rw [file?, node?_put d outside]

end Disk

section Runs

variable {σ ε α β : Type}

/-- A second step starts from the room that the first one left. -/
theorem run_bind (x : ExceptT ε (StateM σ) α) (f : α → ExceptT ε (StateM σ) β) (s : σ) :
    (x >>= f).run.run s = match x.run.run s with
      | (.ok a, next) => (f a).run.run next
      | (.error e, next) => (.error e, next) := by
  rw [ExceptT.run_bind, StateT.run_bind]
  change (match x.run.run s with | (result, next) => _) = _
  rcases x.run.run s with ⟨_ | _, _⟩ <;> rfl

/-- A run of two actions ends with the first one or goes on with the second. -/
theorem run_bind_cases {x : ExceptT ε (StateM σ) α} {f : α → ExceptT ε (StateM σ) β}
    {result : Except ε β} {s last : σ} (ran : (x >>= f).run.run s = (result, last)) :
    (∃ e, result = .error e ∧ x.run.run s = (.error e, last)) ∨
      ∃ a next, x.run.run s = (.ok a, next) ∧ (f a).run.run next = (result, last) := by
  rw [run_bind] at ran
  rcases first : x.run.run s with ⟨e | a, next⟩
  · rw [first] at ran
    cases ran
    exact .inl ⟨e, rfl, rfl⟩
  · rw [first] at ran
    exact .inr ⟨a, next, rfl, ran⟩

theorem run_tryCatch (x : ExceptT ε (StateM σ) α) (handler : ε → ExceptT ε (StateM σ) α) (s : σ) :
    (tryCatch x handler).run.run s = match x.run.run s with
      | (.ok a, next) => (.ok a, next)
      | (.error e, next) => (handler e).run.run next := by
  rw [ExceptT.run_tryCatch, StateT.run_bind]
  change (match x.run.run s with | (result, next) => _) = _
  rcases x.run.run s with ⟨_ | _, _⟩ <;> rfl

theorem run_adapt {ε' : Type} (x : ExceptT ε (StateM σ) α) (f : ε → ε') (s : σ) :
    (x.adapt f).run.run s = ((x.run.run s).1.mapError f, (x.run.run s).2) := rfl

theorem run_ofExcept (x : Except ε α) (s : σ) :
    (MonadExcept.ofExcept x : ExceptT ε (StateM σ) α).run.run s = (x, s) := by
  cases x <;> rfl

theorem run_orFail (x : Except Failure α) (s : σ) :
    (orFail (MonadExcept.ofExcept x) : ExceptT Trouble (StateM σ) α).run.run s =
      (x.mapError .ofFailure, s) := by
  rw [orFail, run_adapt, run_ofExcept]

theorem run_orFail_eq_ok {x : Except Failure α} {a : α} {s last : σ} :
    (orFail (MonadExcept.ofExcept x) : ExceptT Trouble (StateM σ) α).run.run s = (.ok a, last) ↔
      last = s ∧ x = .ok a := by
  rw [run_orFail]
  constructor
  · intro ran
    cases x with
    | error e => cases ran
    | ok b =>
      cases ran
      exact ⟨rfl, rfl⟩
  · rintro ⟨rfl, rfl⟩
    rfl

end Runs

namespace Room

/-- The two rooms have the same files and the same output. What is told to the reader may differ,
and so may the directories. -/
structure Alike (before after : Room) : Prop where
  files : after.disk.file? = before.disk.file?
  out : after.out = before.out

theorem Alike.refl (r : Room) : r.Alike r :=
  ⟨rfl, rfl⟩

theorem Alike.trans {r₁ r₂ r₃ : Room} (first : r₁.Alike r₂) (second : r₂.Alike r₃) :
    r₁.Alike r₃ :=
  ⟨second.files.trans first.files, second.out.trans first.out⟩

theorem Alike.told {before after : Room} (alike : before.Alike after) (err : String) :
    before.Alike { after with err } :=
  ⟨alike.files, alike.out⟩

end Room

/-- However the action ends, the room is like the one before. -/
def Quiet {ε α : Type} (action : ExceptT ε (StateM Room) α) : Prop :=
  ∀ r : Room, r.Alike (action.run.run r).2

namespace Quiet

variable {ε ε' α β : Type} {x : ExceptT ε (StateM Room) α}

/-- A quiet step leaves every file and everything that was printed as it was. -/
theorem alike {r last : Room} {result : Except ε α} (quiet : Quiet x)
    (ran : x.run.run r = (result, last)) : r.Alike last := by
  have same := quiet r
  rw [ran] at same
  exact same

theorem pure (a : α) : Quiet (pure a : ExceptT ε (StateM Room) α) :=
  fun r => .refl r

theorem throw (e : ε) : Quiet (throw e : ExceptT ε (StateM Room) α) :=
  fun r => .refl r

theorem bind {f : α → ExceptT ε (StateM Room) β} (first : Quiet x) (later : ∀ a, Quiet (f a)) :
    Quiet (x >>= f) := by
  intro r
  rcases ran : x.run.run r with ⟨_ | a, next⟩
  · rw [run_bind, ran]
    exact first.alike ran
  · rw [run_bind, ran]
    exact (first.alike ran).trans (later a next)

theorem tryCatch {handler : ε → ExceptT ε (StateM Room) α} (quiet : Quiet x)
    (handled : ∀ e, Quiet (handler e)) : Quiet (tryCatch x handler) := by
  intro r
  rcases ran : x.run.run r with ⟨e | _, next⟩
  · rw [run_tryCatch, ran]
    exact (quiet.alike ran).trans (handled e next)
  · rw [run_tryCatch, ran]
    exact quiet.alike ran

theorem adapt (quiet : Quiet x) (f : ε → ε') : Quiet (x.adapt f) :=
  quiet

end Quiet

theorem quiet_orFail {α : Type} (x : Except Failure α) :
    Quiet (orFail (MonadExcept.ofExcept x) : ExceptT Trouble (StateM Room) α) := by
  intro r
  rw [run_orFail]
  exact .refl r

namespace Room

variable {workers : Workers}

theorem run_readFile (path : String) (r : Room) :
    ((host workers).readFile path).run.run r = (r.disk.read path, r) := by
  change (MonadExcept.ofExcept (r.disk.read path) :
    ExceptT FileFault (StateM Room) _).run.run r = _
  rw [run_ofExcept]

theorem run_makeDirectory (path : String) (r : Room) :
    ((host workers).makeDirectory path).run.run r = match r.disk.makeDirectory path with
      | .ok disk => (.ok (), { r with disk })
      | .error fault => (.error fault, r) := by
  let makes : ExceptT FileFault (StateM Room) Disk :=
    MonadExcept.ofExcept (r.disk.makeDirectory path)
  change (makes >>= fun disk => set { r with disk }).run.run r = _
  rw [run_bind, run_ofExcept]
  cases r.disk.makeDirectory path <;> rfl

theorem run_createFile (path : String) (r : Room) :
    ((host workers).createFile path).run.run r = match r.disk.create path with
      | .ok (place, disk) => (.ok (fileWriter place), { r with disk })
      | .error fault => (.error fault, r) := by
  let makes : ExceptT FileFault (StateM Room) (Place × Disk) :=
    MonadExcept.ofExcept (r.disk.create path)
  change (makes >>= fun made => do
    set { r with disk := made.2 }
    return fileWriter made.1).run.run r = _
  rw [run_bind, run_ofExcept]
  cases r.disk.create path <;> rfl

theorem quiet_makeDirectory (path : String) : Quiet ((host workers).makeDirectory path) := by
  intro r
  rw [run_makeDirectory]
  cases makes : r.disk.makeDirectory path with
  | error fault => exact .refl r
  | ok disk => exact ⟨Disk.file?_makeDirectory makes, rfl⟩

theorem quiet_makeFirst (paths : List String) : Quiet ((host workers).makeFirst paths) := by
  induction paths with
  | nil => exact .pure ()
  | cons path rest ih =>
    refine (quiet_makeDirectory path).tryCatch fun fault => ?_
    split
    · exact ih.bind fun _ => quiet_makeDirectory path
    · exact .throw fault

/-- Directories that are made on the way to a file leave the files as they are. -/
theorem quiet_makeDirectories (path : String) : Quiet ((host workers).makeDirectories path) :=
  quiet_makeFirst _

end Room

/-- The text of a file. -/
def Disk.text (d : Disk) (path : String) : Except FileFault String := do
  match String.fromUTF8? (← d.read path) with
  | some text => return text
  | none => throw .notText

/-- The file has the script of the program. -/
def Disk.Holds (d : Disk) (path : String) (p : Program) : Prop :=
  ∃ text, d.text path = .ok text ∧ Script.parse text = .ok p

namespace Room

variable {workers : Workers} {script : String} {r next : Room} {p : Program}

theorem run_readText (path : String) (r : Room) :
    ((host workers).readText path).run.run r = (r.disk.text path, r) := by
  rw [Host.readText, run_bind, run_readFile, Disk.text]
  cases r.disk.read path with
  | error fault => rfl
  | ok bytes =>
    change (match String.fromUTF8? bytes with
      | some text => pure text
      | none => throw .notText : ExceptT FileFault (StateM Room) String).run.run r =
        (match String.fromUTF8? bytes with | some text => .ok text | none => .error .notText, r)
    cases String.fromUTF8? bytes <;> rfl

theorem run_load (script : String) (r : Room) :
    ((host workers).load script false).run.run r = match r.disk.text script with
      | .error fault => (.error (.during s!"read script '{script}'" fault.message), r)
      | .ok text => match Script.parse text with
        | .ok p => (.ok p, r)
        | .error e => (.error .told, { r with err := r.err ++ e.report text.toList script }) := by
  rw [Host.load, run_bind, during, run_adapt, run_readText]
  cases r.disk.text script with
  | error fault => rfl
  | ok text =>
    dsimp only [Except.mapError]
    cases Script.parse text <;> rfl

/-- Loading a script reads only. -/
theorem quiet_load (script : String) : Quiet ((host workers).load script false) := by
  intro r
  rw [run_load]
  split
  · exact .refl r
  · split
    · exact .refl r
    · exact ⟨rfl, rfl⟩

/-- A script is loaded just if the file is there, is text and is accepted. -/
theorem run_load_eq_ok :
    ((host workers).load script false).run.run r = (.ok p, next) ↔
      next = r ∧ r.disk.Holds script p := by
  rw [run_load]
  constructor
  · intro loads
    cases read : r.disk.text script with
    | error fault => rw [read] at loads; cases loads
    | ok text =>
      cases parsed : Script.parse text with
      | error e => simp only [read, parsed] at loads; cases loads
      | ok p' =>
        simp only [read, parsed] at loads
        cases loads
        exact ⟨rfl, text, read, parsed⟩
  · rintro ⟨rfl, text, read, parsed⟩
    simp only [read, parsed]

end Room

end Storyboard.CommandLine
