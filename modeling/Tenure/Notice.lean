/-!
# Notices

Every component says what it is doing by **notices**: who speaks, a level, a
fixed message and named values. A notice is a value that a step returns, so what
is reported, and in which order, is part of what a step means. Rendering
one as a line of a log is the business of `Notice.line`.
-/

namespace Tenure

/-- How much a notice matters. -/
inductive Level where
  | debug
  | info
  | warn
  | error
  deriving DecidableEq, Repr

/-- The name a level has in a log. -/
def Level.name : Level → String
  | debug => "DEBUG"
  | info => "INFO"
  | warn => "WARN"
  | error => "ERROR"

/-- Who speaks. -/
inductive Speaker where
  /-- The program around all else. -/
  | program
  | coordinator
  | election
  | lock
  | caches
  | workers
  deriving DecidableEq, Repr

/-- A value reported with a notice. -/
inductive Datum where
  /-- Shown as it stands. -/
  | plain (shown : String)
  /-- A text that a log line shows in quotes. -/
  | quoted (text : String)
  /-- A list of texts, each shown in quotes. -/
  | list (texts : List String)
  deriving DecidableEq, Repr

/-- One report of a component about itself. -/
structure Notice where
  speaker : Speaker
  level : Level
  message : String
  data : List (String × Datum)
  deriving DecidableEq, Repr

namespace Notice

def debug (speaker : Speaker) (message : String) (data : List (String × Datum)) : Notice :=
  ⟨speaker, .debug, message, data⟩

def info (speaker : Speaker) (message : String) (data : List (String × Datum)) : Notice :=
  ⟨speaker, .info, message, data⟩

def warn (speaker : Speaker) (message : String) (data : List (String × Datum)) : Notice :=
  ⟨speaker, .warn, message, data⟩

def error (speaker : Speaker) (message : String) (data : List (String × Datum)) : Notice :=
  ⟨speaker, .error, message, data⟩

end Notice

/-- A number reported in decimal. -/
def Datum.number (n : Nat) : Datum := .plain (toString n)

end Tenure
