/-!
# Numbers read from text

Whole numbers are read with an optional plus sign, and only if they fit.
Fractions are read with an optional sign, digits with an optional point
and an optional exponent, or one of the words for infinity and for what is
not a number, in any case of letters. A fraction is rounded to the nearest
double.
-/

namespace Tenure.Decimal

/-- Whether the character is one of the ten digits. -/
def isDigit (c : Char) : Bool := '0' ≤ c && c ≤ '9'

/-- The value of a digit. -/
def digitValue (c : Char) : Nat := c.toNat - 48

/-- The number that digits spell, on top of what stands before them. -/
def ofDigits (ds : List Char) (start : Nat) : Nat :=
  ds.foldl (fun n c => n * 10 + digitValue c) start

/-- Why a text is no whole number of a given size. -/
inductive NatError where
  | empty
  | invalidDigit
  | tooLarge
  deriving DecidableEq, Repr

/-- The wording of each failure. -/
def NatError.message : NatError → String
  | empty => "cannot parse integer from empty string"
  | invalidDigit => "invalid digit found in string"
  | tooLarge => "number too large to fit in target type"

/-- Reads a whole number below `bound`. A plus sign may stand before the
digits. The digits are judged from the left, so what does not fit is
reported only if nothing before it was wrong. -/
def readNat (bound : Nat) (s : String) : Except NatError Nat :=
  match s.toList with
  | [] => .error .empty
  | ['+'] => .error .invalidDigit
  | '+' :: ds => go ds 0
  | ds => go ds 0
where
  go : List Char → Nat → Except NatError Nat
    | [], n => .ok n
    | c :: cs, n =>
      if isDigit c then
        if n * 10 + digitValue c < bound then go cs (n * 10 + digitValue c)
        else .error .tooLarge
      else .error .invalidDigit

/-- The double nearest to `m · 10^e`. -/
def nearest (negative : Bool) (m : Nat) (e : Int) : Float :=
  let x :=
    if m = 0 then 0.0
    -- beyond these exponents every number is zero or infinite
    else if e + (Nat.toDigits 10 m).length < -400 then 0.0
    else if 0 ≤ e then
      if e > 400 then 1.0 / 0.0 else Float.ofScientific m false e.toNat
    else Float.ofScientific m true (-e).toNat
  if negative then -x else x

def lowerCase (c : Char) : Char := c.toLower

/-- Reads a sign. -/
def takeSign : List Char → Bool × List Char
  | '-' :: r => (true, r)
  | '+' :: r => (false, r)
  | r => (false, r)

/-- Reads an exponent to the end of the text, `none` if it is not one. -/
def readExponent : List Char → Option Int
  | [] => some 0
  | c :: r =>
    if c = 'e' || c = 'E' then
      let (negative, ds) := takeSign r
      if ds.isEmpty || !ds.all isDigit then none
      else
        let n : Int := ofDigits ds 0
        some (if negative then -n else n)
    else none

/-- **Reads a fraction**, `none` if the text is not one. -/
def readFloat (s : String) : Option Float :=
  let (negative, cs) := takeSign s.toList
  let word := String.ofList (cs.map lowerCase)
  if word = "inf" || word = "infinity" then
    some (if negative then -(1.0 / 0.0) else 1.0 / 0.0)
  else if word = "nan" then some (0.0 / 0.0)
  else
    let whole := cs.takeWhile isDigit
    let afterWhole := cs.dropWhile isDigit
    let (fraction, rest) := match afterWhole with
      | '.' :: r => (r.takeWhile isDigit, r.dropWhile isDigit)
      | r => ([], r)
    if whole.isEmpty && fraction.isEmpty then none
    else
      (readExponent rest).map fun e =>
        nearest negative (ofDigits fraction (ofDigits whole 0)) (e - fraction.length)

end Tenure.Decimal
