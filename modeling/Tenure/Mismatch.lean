import Tenure.Text.Quoted

/-!
# When data does not have the expected form

A text can be well formed and still not be the data that was asked for: a
member is missing, occurs twice, has another type or a value out of range.
Readers of different formats report these in the same words.
-/

namespace Tenure

/-- What was found where something else was expected. -/
inductive Found where
  | null
  | boolean (b : Bool)
  | integer (n : Int)
  /-- A number with a fraction, in the spelling of its format. -/
  | fraction (spelling : String)
  | text (s : String)
  | sequence
  | table
  /-- A choice written without its content. -/
  | bareChoice
  deriving DecidableEq, Repr

/-- How a message names what was found. -/
def Found.describe : Found → String
  | null => "null"
  | boolean b => "boolean `" ++ (if b then "true" else "false") ++ "`"
  | integer n => "integer `" ++ toString n ++ "`"
  | fraction spelling => "floating point `" ++ spelling ++ "`"
  | text s => "string " ++ Text.quoted s
  | sequence => "sequence"
  | table => "map"
  | bareChoice => "unit variant"

/-- How data misses the expected form. -/
inductive Mismatch where
  | missing (member : String)
  | duplicate (member : String)
  | wrongType (found : Found) (expected : String)
  | outOfRange (found : Found) (expected : String)
  | wrongLength (length : Nat) (expected : String)
  | unknownChoice (name : String) (choices : List String)
  deriving DecidableEq, Repr

/-- A name as messages show it. -/
def ticked (name : String) : String := "`" ++ name ++ "`"

/-- The choices as messages list them. -/
def listChoices : List String → String
  | [] => "there are no variants"
  | [a] => "expected " ++ ticked a
  | [a, b] => "expected " ++ ticked a ++ " or " ++ ticked b
  | choices => "expected one of " ++ ", ".intercalate (choices.map ticked)

/-- The wording of each mismatch. -/
def Mismatch.message : Mismatch → String
  | missing member => "missing field " ++ ticked member
  | duplicate member => "duplicate field " ++ ticked member
  | wrongType found expected => "invalid type: " ++ found.describe ++ ", expected " ++ expected
  | outOfRange found expected => "invalid value: " ++ found.describe ++ ", expected " ++ expected
  | wrongLength length expected =>
    "invalid length " ++ toString length ++ ", expected " ++ expected
  | unknownChoice name choices =>
    "unknown variant " ++ ticked name ++ ", " ++ listChoices choices

end Tenure
