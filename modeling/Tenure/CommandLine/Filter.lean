import Tenure.CommandLine.Pattern
import Tenure.Notice
import Tenure.Text.Alphanumeric
import Tenure.Text.Blank

/-!
# Which notices are shown

A **filter** is a list of directives, each of which sets the least level
that is shown: for everything, for what some part of the program says, or
for what is said with a certain datum. Of the directives that are for a
notice the most particular counts, and where none is, the notice is not
shown. Longer names of parts are more particular than shorter ones, and a
directive for a datum is more particular than one for all data.

A directive is a level, a part of the program, or a part with an equals sign
and a level. Behind the part there may be brackets with the name of a span
and, in braces, a datum. The program has no spans, and no data are compared
with values, so what asks for such things is for nothing.
-/

namespace Tenure

/-- The part of the program in which a speaker stands. -/
def Speaker.part : Speaker → String
  | program => "aspen_singleton"
  | coordinator => "aspen_singleton::coordinator"
  | election => "aspen_singleton::coordination::election"
  | lock => "aspen_singleton::coordination::lock"
  | caches => "aspen_singleton::cache"
  | workers => "aspen_singleton::controller::runner"

/-- Whether a notice has a datum of this name. All have a message. -/
def Notice.mentions (n : Notice) (name : String) : Bool :=
  name = "message" || n.data.any fun d => d.1 = name

namespace CommandLine

/-- How much a level matters, from two up. One is less than all levels, and
six more. -/
def weight : Level → Nat
  | .debug => 2
  | .info => 3
  | .warn => 4
  | .error => 5

/-- What weight a notice must have to be shown. -/
structure Directive where
  /-- The beginning of the part that it is for. -/
  part : Option String := none
  datum : Option String := none
  /-- Whether it asks for a span, or for a value of its datum. -/
  remote : Bool := false
  least : Nat := 1
  deriving DecidableEq, Repr

namespace Directive

/-! ## Reading -/

/-- The least weight that a word stands for: the name of a level, or the
number of levels that are shown. -/
def leastOf (word : String) : Option Nat :=
  match Decimal.readNat UInt64.size word with
  | .ok n => if n ≤ 5 then some (6 - n) else none
  | .error _ =>
    match word.toLower with
    | "trace" => some 1
    | "debug" => some 2
    | "info" => some 3
    | "warn" => some 4
    | "error" => some 5
    | "off" => some 6
    | _ => none

/-- The text of a directive. Blanks at its ends are passed over when its
marks are looked for, but not when it is cut at them: places are counted
from the first character that is not blank, and cuts from the first of
all. -/
structure Script where
  /-- The bytes from which parts are cut. -/
  whole : ByteArray
  /-- The characters between the blanks, with their places in bytes. -/
  marks : List (Nat × Char)

/-- The places of characters. -/
def placed (start : Nat) : List Char → List (Nat × Char)
  | [] => []
  | c :: r => (start, c) :: placed (start + c.utf8Size) r

def Script.ofText (s : String) : Script := ⟨s.toUTF8, placed 0 (Text.trim s).toList⟩

namespace Script

/-- What stands between two places. -/
def cut (s : Script) (start stop : Nat) : Option String :=
  String.fromUTF8? (s.whole.extract start stop)

/-- What stands from a place on. -/
def rest (s : Script) (start : Nat) : Option String := s.cut start s.whole.size

/-- The level from a place on; none stands for the least. -/
def level (s : Script) (start : Nat) : Option Nat := do
  let word ← s.rest start
  if word.isEmpty then some 1 else leastOf word

end Script

/-- A datum: its name and whether a value is asked of it. -/
def readDatum (s : String) : Option (String × Bool) :=
  match s.splitOn "=" with
  | name :: value :: _ => if isComparable value then some (name, true) else none
  | name :: [] => some (name, false)
  | [] => none

/-- The end of a directive behind its closing bracket. -/
def readEnd (s : Script) (d : Directive) : List (Nat × Char) → Option Directive
  | [] => some d
  | (i, c) :: _ => if c = '=' then do return { d with least := ← s.level (i + 1) } else none

/-- The inside of braces that open at a place, and what follows. -/
def readBraces (s : Script) (d : Directive) (start : Nat) (marks : List (Nat × Char)) :
    Option Directive := do
  let (stop, _) :: after := marks.dropWhile fun m => m.2 ≠ '\x7d' | none
  if stop = start then none
  let (name, valued) ← readDatum (← s.cut start stop)
  let (_, c) :: after := after | none
  if c = ']' then
    readEnd s { d with datum := some name, remote := d.remote || valued } after
  else none

/-- The inside of brackets, and what follows. -/
def readBrackets (s : Script) (d : Directive) (marks : List (Nat × Char)) :
    Option Directive := do
  let (start, _) :: _ := marks | none
  let (stop, c) :: after := marks.dropWhile fun m => m.2 ≠ ']' && m.2 ≠ '\x7b' | none
  if c = ']' then readEnd s { d with remote := true } after
  else readBraces s { d with remote := stop ≠ start } (stop + 1) after

/-- A character with which a directive may begin. -/
def isStart (c : Char) : Bool := c = '-' || c = ':' || c = '_' || Text.isAlphanumeric c

/-- **Reads a directive.** -/
def read (text : String) : Option Directive := do
  let s := Script.ofText text
  let (_, first) :: others := s.marks | none
  if first = '[' then readBrackets s {} others
  else if !isStart first then none
  else
    match s.marks.dropWhile fun m => m.2 ≠ '=' && m.2 ≠ '[' with
    | [] =>
      match leastOf text with
      | some least => return { least }
      | none => return { part := some text }
    | (i, c) :: after =>
      let part ← s.cut 0 i
      if c = '=' then return { part := some part, least := ← s.level (i + 1) }
      else readBrackets s { part := some part } after

/-! ## Meaning -/

/-- Whether a directive is for a notice. -/
def isFor (d : Directive) (n : Notice) : Bool :=
  !d.remote && d.part.all (fun p => p.isPrefixOf n.speaker.part) && d.datum.all n.mentions

/-- How particular a directive is for what it is for: how long a name of a
part it has, if any. -/
def reach (d : Directive) : Nat :=
  match d.part with
  | none => 0
  | some p => p.utf8ByteSize + 1

/-- Whether, of two directives that are for one notice, the second is at
least as particular as the first. Of two for different data the one with the
later name counts as more so. -/
def yieldsTo (a b : Directive) : Bool :=
  if a.reach ≠ b.reach then a.reach < b.reach
  else match a.datum, b.datum with
    | none, _ => true
    | some _, none => false
    | some x, some y => x ≤ y

end Directive

/-- Which notices are shown. -/
structure LogFilter where
  directives : List Directive

namespace LogFilter

/-- Shows what is worth an operator's while. -/
def standard : LogFilter := ⟨[{ least := weight .info }]⟩

/-- Reads a filter; one that cannot be read counts as none. -/
def ofText (s : Option String) : LogFilter :=
  match s with
  | none => standard
  | some s =>
    match ((s.splitOn ",").filter fun part => !part.isEmpty).mapM Directive.read with
    | none => standard
    | some directives => ⟨directives⟩

/-- The directive that counts for a notice: of equals the last. -/
def decisive (f : LogFilter) (n : Notice) : Option Directive :=
  (f.directives.filter (·.isFor n)).foldl (fun best d =>
    match best with
    | none => some d
    | some b => some (if b.yieldsTo d then d else b)) none

/-- Whether a notice is shown. -/
def shows (f : LogFilter) (n : Notice) : Bool :=
  (f.decisive n).any fun d => d.least ≤ weight n.level

end LogFilter

end CommandLine

end Tenure
