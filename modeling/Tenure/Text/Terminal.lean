/-!
# Texts on a terminal

A text may hold **control sequences**, which colour what follows, move the
cursor, or name the window. `bare` leaves them out, and with them every
control character but the blanks, so that a text of somebody else can be
shown without doing more than that.

A sequence begins with the escape character and ends as its kind says. A
blank control character, such as a line break, cannot be part of one: it is
shown, and so is what follows it up to the next control character.
-/

namespace Tenure.Text

/-- Where in a control sequence a text is. -/
inductive SequenceState where
  /-- In none. -/
  | outside
  /-- Behind the escape character. -/
  | begun
  /-- The same, with only the last character to come. -/
  | selected
  /-- In a sequence that a letter ends. -/
  | control
  /-- In a command for the window, which the bell ends. -/
  | command
  /-- In a string that only another sequence ends. -/
  | string
  deriving DecidableEq, Repr

/-- A blank among the control characters. -/
def isControlBlank (c : Char) : Bool := c = '\t' || c = '\n' || c = '\r' || c = '\x0c'

/-- Whether the character is neither a control character nor beyond
ASCII. -/
def isGraphic (c : Char) : Bool := 32 ≤ c.toNat && c.toNat < 127

/-- What becomes of a sequence by a character that is graphic. -/
def SequenceState.next (s : SequenceState) (c : Char) : SequenceState :=
  match s with
  | .outside => .outside
  | .begun =>
    if c = '[' then .control
    else if c = ']' then .command
    else if c = 'P' || c = 'X' || c = '^' || c = '_' then .string
    else if c.toNat < 0x30 then .selected
    else .outside
  | .selected => if c.toNat < 0x30 then .selected else .outside
  | .control => if c.toNat < 0x40 then .control else .outside
  | .command => .command
  | .string => .string

/-- Whether a blank control character shows inside such a sequence. -/
def SequenceState.letsBlanks : SequenceState → Bool
  | .command => false
  | .string => false
  | _ => true

/-- The characters that are shown. `shows` says whether a blank has
interrupted the sequence, so that characters are shown all the same. -/
def bareFrom (s : SequenceState) (shows : Bool) : List Char → List Char
  | [] => []
  | c :: r =>
    if c = '\x1b' then bareFrom .begun false r
    else if c = '\x18' || c = '\x1a' then bareFrom .outside false r
    else if shows || s = .outside then
      if 128 ≤ c.toNat then c :: bareFrom .outside true r
      else if isGraphic c || isControlBlank c then c :: bareFrom s true r
      else bareFrom s false r
    else if isGraphic c then bareFrom (s.next c) false r
    else if isControlBlank c && s.letsBlanks then c :: bareFrom s true r
    else if c = '\x07' && s = .command then bareFrom .outside false r
    else bareFrom s false r

/-- **The text without what is not shown.** -/
def bare (s : String) : String := String.ofList (bareFrom .outside false s.toList)

/-- The text's lines. A carriage return before a line break belongs to the
break. -/
def lines (s : String) : List String :=
  (s.splitOn "\r\n").flatMap fun part => part.splitOn "\n"

/-- Graphic characters outside of all sequences stay as they are. -/
theorem bareFrom_of_graphic {cs : List Char} (h : ∀ c ∈ cs, isGraphic c = true) (shows : Bool) :
    bareFrom .outside shows cs = cs := by
  induction cs generalizing shows with
  | nil => rfl
  | cons c r ih =>
    have hc : isGraphic c = true := h c (by simp)
    have hn : 32 ≤ c.toNat ∧ c.toNat < 127 := by simpa [isGraphic] using hc
    have h1 : c ≠ '\x1b' := by rintro rfl; simp at hn
    have h2 : c ≠ '\x18' := by rintro rfl; simp at hn
    have h3 : c ≠ '\x1a' := by rintro rfl; simp at hn
    have h4 : ¬ 128 ≤ c.toNat := by omega
    simp [bareFrom, h1, h2, h3, h4, hc, ih fun d hd => h d (by simp [hd])]

end Tenure.Text
