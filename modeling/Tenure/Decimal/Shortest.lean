/-!
# The fewest digits that read back

A binary fraction has many decimal spellings that are read back as the
same number. The one that is shown has the fewest digits, and among those
with as few digits it is the one nearest to the number.

A positive finite number is `m · 2^q`. The reals that are read as this
number form an interval around it: half a unit of `m` to both sides, only
a quarter below where `m` is the least of its binade, with the ends
included iff `m` is even. On the decimal grid of a given length only the
two grid points next to the number can be the nearest one inside, so it is
enough to look at those, for one digit, two digits and so on. Seventeen
digits always suffice.
-/

namespace Tenure.Decimal

/-- A decimal number `digits · 10^exponent`. -/
structure Scientific where
  digits : Nat
  exponent : Int
  deriving DecidableEq, Repr

/-- A positive real `num / den`. -/
structure Ratio where
  num : Nat
  den : Nat

namespace Ratio

/-- `n · 2^q`. -/
def ofBinary (n : Nat) (q : Int) : Ratio :=
  if 0 ≤ q then ⟨n * Nat.pow 2 q.toNat, 1⟩ else ⟨n, Nat.pow 2 (-q).toNat⟩

/-- `n · 10^e`. -/
def ofDecimal (n : Nat) (e : Int) : Ratio :=
  if 0 ≤ e then ⟨n * Nat.pow 10 e.toNat, 1⟩ else ⟨n, Nat.pow 10 (-e).toNat⟩

def lt (a b : Ratio) : Bool := a.num * b.den < b.num * a.den

def le (a b : Ratio) : Bool := a.num * b.den ≤ b.num * a.den

/-- The distance of two numbers. -/
def dist (a b : Ratio) : Ratio :=
  ⟨(a.num * b.den - b.num * a.den) + (b.num * a.den - a.num * b.den), a.den * b.den⟩

/-- The largest number of units `10^e` that is not above the number. -/
def floorAt (a : Ratio) (e : Int) : Nat :=
  if 0 ≤ e then a.num / (a.den * Nat.pow 10 e.toNat)
  else a.num * Nat.pow 10 (-e).toNat / a.den

end Ratio

/-- The reals that are read as one binary number. -/
structure Interval where
  low : Ratio
  high : Ratio
  closed : Bool

def Interval.contains (i : Interval) (x : Ratio) : Bool :=
  if i.closed then i.low.le x && x.le i.high else i.low.lt x && x.lt i.high

/-- The interval of `m · 2^q`; `narrow` says that the neighbour below is
only half as far away as the one above. -/
def Interval.of (m : Nat) (q : Int) (narrow : Bool) : Interval where
  low := .ofBinary (4 * m - (if narrow then 1 else 2)) (q - 2)
  high := .ofBinary (4 * m + 2) (q - 2)
  closed := m % 2 = 0

/-- The grid point of step `10^e` nearest to the number among its two
neighbours that lie in the interval. -/
def nearestAt (value : Ratio) (i : Interval) (e : Int) : Option Scientific :=
  let below := value.floorAt e
  let above := below + 1
  let hit (n : Nat) : Bool := 0 < n && i.contains (.ofDecimal n e)
  match hit below, hit above with
  | true, true =>
    if (value.dist (.ofDecimal below e)).lt (value.dist (.ofDecimal above e)) then
      some ⟨below, e⟩
    else some ⟨above, e⟩
  | true, false => some ⟨below, e⟩
  | false, true => some ⟨above, e⟩
  | false, false => none

/-- The first grid with a hit, from the coarsest on: `fuel` grids, the
first of step `10^e`. -/
def firstHit (value : Ratio) (i : Interval) : Nat → Int → Option Scientific
  | 0, _ => none
  | fuel + 1, e =>
    match nearestAt value i e with
    | some hit => some hit
    | none => firstHit value i fuel (e - 1)

/-- The position of the first decimal digit: the `e` with
`10^e ≤ value < 10^(e+1)`, searched downwards from `e`. -/
def leadingPlace (value : Ratio) : Nat → Int → Int
  | 0, e => e
  | fuel + 1, e => if 0 < value.floorAt e then e else leadingPlace value fuel (e - 1)

/-- Takes zeros off the end of the digits. -/
def Scientific.normalize (s : Scientific) : Scientific :=
  go 20 s.digits s.exponent
where
  go : Nat → Nat → Int → Scientific
    | 0, d, e => ⟨d, e⟩
    | fuel + 1, d, e => if d % 10 = 0 && d ≠ 0 then go fuel (d / 10) (e + 1) else ⟨d, e⟩

/-- **The fewest digits** of `m · 2^q`, for positive `m`. -/
def shortest (m : Nat) (q : Int) (narrow : Bool) : Scientific :=
  let value := Ratio.ofBinary m q
  -- no double reaches `10^309`, and none but zero is below `10^(-324)`
  let place := leadingPlace value 700 309
  ((firstHit value (.of m q narrow) 19 (place + 1)).getD ⟨0, 0⟩).normalize

/-- A double taken apart: not a number, an infinity, a zero or a number. -/
inductive Parts where
  | nan
  | infinity (negative : Bool)
  | zero (negative : Bool)
  | finite (negative : Bool) (shown : Scientific)
  deriving DecidableEq, Repr

/-- The bit that a fraction has in front of those that are stored. -/
def hiddenBit : Nat := 4503599627370496

/-- Takes a double apart by its bits: one for the sign, eleven for the
exponent, fifty-two for the fraction. -/
def Parts.ofBits (bits : UInt64) : Parts :=
  let n := bits.toNat
  let negative := n / 9223372036854775808 == 1
  let exponent : Nat := n / hiddenBit % 2048
  let fraction : Nat := n % hiddenBit
  if exponent = 2047 then if fraction = 0 then .infinity negative else .nan
  else if exponent = 0 then
    if fraction = 0 then .zero negative else .finite negative (shortest fraction (-1074) false)
  else
    .finite negative
      (shortest (hiddenBit + fraction) ((exponent : Int) - 1075) (fraction = 0 && exponent ≠ 1))

end Tenure.Decimal
