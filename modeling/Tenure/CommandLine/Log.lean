import Tenure.Notice
import Tenure.Text.Quoted

/-!
# Lines of a log

How a notice is written as a line, and how times are written.
-/

namespace Tenure

/-- A value as a line shows it. -/
def Datum.shown : Datum → String
  | plain shown => shown
  | quoted text => Text.quoted text
  | list texts => Text.quotedList texts

/-- A value by itself: as a line shows it, but a single text without its
quotes. -/
def Datum.text : Datum → String
  | quoted text => text
  | d => d.shown

/-- **A notice as a line**, without its time. -/
def Notice.line (n : Notice) : String :=
  n.level.name ++ " " ++ n.message
    ++ String.join (n.data.map fun (name, d) => " " ++ name ++ "=" ++ d.shown)

namespace CommandLine

/-! ## Times -/

/-- A number with at least so many digits. -/
def padded (width n : Nat) : String :=
  let digits := toString n
  String.ofList (List.replicate (width - digits.length) '0') ++ digits

/-- Year, month and day of a day, days being counted from the first of
January 1970. Years are counted from March, so that the day that is
sometimes missing comes last, in eras of four hundred years. -/
def dateOf (day : Nat) : Nat × Nat × Nat :=
  let z := day + 719468
  let era := z / 146097
  let dayOfEra := z % 146097
  let yearOfEra := (dayOfEra - dayOfEra / 1460 + dayOfEra / 36524 - dayOfEra / 146096) / 365
  let dayOfYear := dayOfEra - (365 * yearOfEra + yearOfEra / 4 - yearOfEra / 100)
  let month := (5 * dayOfYear + 2) / 153
  let year := yearOfEra + era * 400
  (if month < 10 then year else year + 1, if month < 10 then month + 3 else month - 9,
    dayOfYear - (153 * month + 2) / 5 + 1)

/-- A time in milliseconds since the first of January 1970, as log lines
begin with it. -/
def timestamp (ms : Nat) : String :=
  let (year, month, day) := dateOf (ms / 86400000)
  let seconds := ms / 1000 % 86400
  padded 4 year ++ "-" ++ padded 2 month ++ "-" ++ padded 2 day ++ "T"
    ++ padded 2 (seconds / 3600) ++ ":" ++ padded 2 (seconds / 60 % 60) ++ ":"
    ++ padded 2 (seconds % 60) ++ "." ++ padded 3 (ms % 1000) ++ "000Z"

end CommandLine

end Tenure
