import Tenure.Decimal.Shortest

/-!
# Numbers as text

Two ways to write a double down, both with the fewest digits that read
back. `positional` never uses an exponent and writes whole numbers without
a point. `scientific` always has a point or an exponent, and an exponent
where the number has seventeen places before the point or five zeros behind
it. `pointed` is `positional` with a point in whole numbers.
-/

namespace Tenure.Decimal

/-- The digits of a number. -/
def digitsOf (n : Nat) : List Char := Nat.toDigits 10 n

def zeros (n : Nat) : List Char := List.replicate n '0'

/-- The digits around the point. -/
def places (s : Scientific) : List Char × List Char :=
  let ds := digitsOf s.digits
  if 0 ≤ s.exponent then (ds ++ zeros s.exponent.toNat, [])
  else
    let back := (-s.exponent).toNat
    if back < ds.length then (ds.take (ds.length - back), ds.drop (ds.length - back))
    else (['0'], zeros (back - ds.length) ++ ds)

def signed (negative : Bool) (text : List Char) : String :=
  String.ofList (if negative then '-' :: text else text)

/-- Without an exponent; whole numbers without a point. -/
def positional (x : Float) : String :=
  match Parts.ofBits x.toBits with
  | .nan => "NaN"
  | .infinity negative => signed negative ['i', 'n', 'f']
  | .zero negative => signed negative ['0']
  | .finite negative s =>
    match places s with
    | (whole, []) => signed negative whole
    | (whole, fraction) => signed negative (whole ++ '.' :: fraction)

/-- Without an exponent; whole numbers with `.0`. -/
def pointed (x : Float) : String :=
  match Parts.ofBits x.toBits with
  | .nan => "NaN"
  | .infinity negative => signed negative ['i', 'n', 'f']
  | .zero negative => signed negative ['0', '.', '0']
  | .finite negative s =>
    match places s with
    | (whole, []) => signed negative (whole ++ ['.', '0'])
    | (whole, fraction) => signed negative (whole ++ '.' :: fraction)

/-- An exponent with its sign. -/
def exponentText (e : Int) : List Char :=
  (if e < 0 then '-' else '+') :: digitsOf e.natAbs

/-- With a point or an exponent. -/
def scientific (x : Float) : String :=
  match Parts.ofBits x.toBits with
  | .nan => "NaN"
  | .infinity negative => signed negative ['i', 'n', 'f']
  | .zero negative => signed negative ['0', '.', '0']
  | .finite negative s =>
    let ds := digitsOf s.digits
    -- the power of ten of the first digit
    let place : Int := s.exponent + ds.length - 1
    if -5 ≤ place ∧ place < 16 then pointed x
    else
      let lead := ds.take 1
      let rest := ds.drop 1
      signed negative
        (lead ++ (if rest.isEmpty then [] else '.' :: rest) ++ 'e' :: exponentText place)

end Tenure.Decimal
