/-!
# Text without control sequences

A terminal takes some characters for commands: single control characters, and sequences that begin
with an escape character. A text that goes elsewhere is freed of them. Line breaks and tabs stay. One
of them within a sequence interrupts it: what follows is shown up to the next control character, and
there the sequence goes on. Main statement: of control characters, only line breaks and tabs are
left.
-/

namespace Storyboard.CommandLine.Terminal

/-- Where in a sequence a text is. -/
inductive Mode where
  /-- In none: characters are shown. -/
  | text
  /-- After an escape character. -/
  | escape
  /-- After an escape character and characters that only a letter or digit ends. -/
  | escapeTail
  /-- In the parameters of a control sequence. -/
  | parameters
  /-- At the start of a device control string. -/
  | device
  | deviceParameters
  | deviceTail
  /-- In a string for the device. -/
  | payload
  /-- In a command to the operating system. -/
  | systemCommand
  deriving DecidableEq, Repr

/-- The characters that may come between an introducer and a final character. -/
def isIntermediate (c : Char) : Bool :=
  ' ' ≤ c && c ≤ '/'

def isLayout (c : Char) : Bool :=
  c = '\t' || c = '\n' || c = '\x0c' || c = '\r'

/-- The byte that ends a string for the device. It may be part of a longer character. -/
def hasTerminator (c : Char) : Bool :=
  (String.utf8EncodeChar c).contains 0x9C

namespace Mode

/-- The mode after a character that is not shown. An escape character starts a new sequence in every
mode, and a cancelling character ends any. -/
def after (m : Mode) (c : Char) : Mode :=
  if c = '\x1b' then .escape
  else if c = '\x18' ∨ c = '\x1a' then .text
  else match m with
    | .text => .text
    | .escape =>
      if isIntermediate c then .escapeTail
      else if c = '[' then .parameters
      else if c = ']' then .systemCommand
      else if c = 'P' then .device
      else if c = 'X' ∨ c = '^' ∨ c = '_' then .payload
      else if '0' ≤ c ∧ c ≤ '~' then .text
      else .escape
    | .escapeTail => if '0' ≤ c ∧ c ≤ '~' then .text else .escapeTail
    | .parameters => if '@' ≤ c ∧ c ≤ '~' then .text else .parameters
    | .device =>
      if isIntermediate c then .deviceTail
      else if '0' ≤ c ∧ c ≤ '?' then .deviceParameters
      else if '@' ≤ c ∧ c ≤ '~' then .payload
      else .device
    | .deviceParameters =>
      if isIntermediate c then .deviceTail
      else if '<' ≤ c ∧ c ≤ '~' then .payload
      else .deviceParameters
    | .deviceTail => if '0' ≤ c ∧ c ≤ '~' then .payload else .deviceTail
    | .payload => if hasTerminator c then .text else .payload
    | .systemCommand => if c = '\x07' then .text else .systemCommand

/-- The character is shown in the mode. -/
def shows (c : Char) : Mode → Bool
  | .text => (' ' ≤ c && c ≠ '\x7f') || isLayout c
  | .escape => isLayout c
  | .escapeTail => isLayout c
  | .parameters => isLayout c
  | _ => false

theorem text_shows {m : Mode} {c : Char} (h : m.shows c) : Mode.text.shows c := by
  cases m <;> simp_all [shows]

end Mode

/-- The characters that are shown of a text in a mode. -/
def shown (m : Mode) (interrupted : Bool) : List Char → List Char
  | [] => []
  | c :: cs =>
    if (if interrupted then Mode.text else m).shows c then
      c :: shown (if c.toNat < 128 then m else .text) true cs
    else shown (m.after c) false cs

theorem shows_of_mem_shown {m : Mode} {interrupted : Bool} {cs : List Char} {c : Char}
    (h : c ∈ shown m interrupted cs) : Mode.text.shows c := by
  induction cs generalizing m interrupted with
  | nil => simp [shown] at h
  | cons first rest ih =>
    rw [shown] at h
    by_cases visible : (if interrupted then Mode.text else m).shows first
    · rw [if_pos visible] at h
      rcases List.mem_cons.1 h with rfl | later
      · exact Mode.text_shows visible
      · exact ih later
    · rw [if_neg visible] at h
      exact ih h

theorem shown_of_shows {interrupted : Bool} {cs : List Char}
    (h : ∀ c ∈ cs, Mode.text.shows c) : shown .text interrupted cs = cs := by
  induction cs generalizing interrupted with
  | nil => rfl
  | cons c cs ih =>
    have first := h c (List.mem_cons_self ..)
    have rest := @ih true fun d hd => h d (List.mem_cons_of_mem _ hd)
    simp [shown, first, rest]

/-- The text as it is shown where no terminal is. -/
def plain (s : String) : String :=
  String.ofList (shown .text false s.toList)

/-- A word that stands out on a terminal. The sequences that bring this about also end one that was
left open in or before the word. -/
def emphasized (s : String) : String :=
  "\x1b[1m" ++ s ++ "\x1b[0m"

end Storyboard.CommandLine.Terminal
