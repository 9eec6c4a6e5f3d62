/-!
# Writing JSON

Texts are written without blanks. In a string only the quotation mark, the
backslash and the control characters are escaped, by a letter where there
is one and by four digits to base sixteen otherwise.
-/

namespace Tenure.Json

/-- A digit to base sixteen. -/
def hexDigit (n : Nat) : Char := if n < 10 then Char.ofNat (48 + n) else Char.ofNat (87 + n)

/-- One character of a string. -/
def escapeChar (c : Char) : List Char :=
  if c = '"' then ['\\', '"']
  else if c = '\\' then ['\\', '\\']
  else if c = '\n' then ['\\', 'n']
  else if c = '\r' then ['\\', 'r']
  else if c = '\t' then ['\\', 't']
  else if c = '\x08' then ['\\', 'b']
  else if c = '\x0c' then ['\\', 'f']
  else if c.toNat < 32 then
    ['\\', 'u', '0', '0', hexDigit (c.toNat / 16), hexDigit (c.toNat % 16)]
  else [c]

/-- A string with its quotation marks. -/
def string (s : String) : List Char := '"' :: (s.toList.flatMap escapeChar ++ ['"'])

/-- A whole number in decimal. -/
def natural (n : Nat) : List Char := Nat.toDigits 10 n

def nullText : List Char := ['n', 'u', 'l', 'l']

/-- A value, or null. -/
def option {α : Type} (write : α → List Char) : Option α → List Char
  | none => nullText
  | some a => write a

/-- The members of an object, with commas between them. -/
def membersText : List (String × List Char) → List Char
  | [] => []
  | [(name, value)] => string name ++ ':' :: value
  | (name, value) :: rest => string name ++ ':' :: value ++ ',' :: membersText rest

/-- An object of members whose values are written already. -/
def object (members : List (String × List Char)) : List Char :=
  '\x7b' :: (membersText members ++ ['\x7d'])

end Tenure.Json
