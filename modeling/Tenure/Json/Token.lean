import Tenure.Decimal.Reading

/-!
# Tokens of JSON

A JSON text is a sequence of tokens with blanks between them. Readers work
on the token list from the left and stop at the first thing that is wrong,
so the text behind a wrong type is never judged.

A text that does not go on with a token goes on with the token `bad`, and
nothing follows it: whoever reaches it has met a syntax error, and whoever
stopped before it has not.

Two things are settled later, because they matter only where a value is
used and not where it is skipped: whether the escapes of a string pair up
to characters (`Piece.join`), and which number a numeral is
(`Numeral.value?`).
-/

namespace Tenure.Json

open Tenure.Decimal (isDigit)

/-- Part of a string: a character, or a 16-bit unit that was written as
an escape. -/
inductive Piece where
  | char (c : Char)
  | unit (n : Nat)
  deriving DecidableEq, Repr

/-- A number as it is spelled. -/
structure Numeral where
  negative : Bool
  /-- The digits before the point. -/
  whole : List Char
  /-- The digits behind the point, none if there is no point. -/
  fraction : List Char
  /-- Sign and digits of the exponent. -/
  exponent : Option (Bool × List Char)
  deriving DecidableEq, Repr

inductive Token where
  | openBrace
  | closeBrace
  | openBracket
  | closeBracket
  | colon
  | comma
  | null
  | boolean (b : Bool)
  | number (n : Numeral)
  | string (pieces : List Piece)
  /-- What comes here is no token. -/
  | bad
  deriving DecidableEq, Repr

/-- The blanks between tokens. -/
def isBlank (c : Char) : Bool := c = ' ' || c = '\n' || c = '\t' || c = '\r'

/-- The value of a digit to base sixteen. -/
def hexValue (c : Char) : Option Nat :=
  if isDigit c then some (c.toNat - 48)
  else if 'a' ≤ c && c ≤ 'f' then some (c.toNat - 87)
  else if 'A' ≤ c && c ≤ 'F' then some (c.toNat - 55)
  else none

/-- The number that four digits to base sixteen spell. -/
def hexUnit (a b c d : Char) : Option Nat := do
  let a ← hexValue a
  let b ← hexValue b
  let c ← hexValue c
  let d ← hexValue d
  return ((a * 16 + b) * 16 + c) * 16 + d

/-- The character of a one-letter escape. -/
def escaped (c : Char) : Option Char :=
  if c = '"' then some '"'
  else if c = '\\' then some '\\'
  else if c = '/' then some '/'
  else if c = 'b' then some '\x08'
  else if c = 'f' then some '\x0c'
  else if c = 'n' then some '\n'
  else if c = 'r' then some '\r'
  else if c = 't' then some '\t'
  else none

/-- The rest of a string behind its opening quotation mark: its pieces,
and what follows the closing mark. `none` if the string is not closed, has
a control character or an escape that is none. -/
def scanString : List Char → Option (List Piece × List Char)
  | [] => none
  | '"' :: rest => some ([], rest)
  | '\\' :: 'u' :: a :: b :: c :: d :: rest =>
    match hexUnit a b c d, scanString rest with
    | some n, some (pieces, rest) => some (.unit n :: pieces, rest)
    | _, _ => none
  | '\\' :: c :: rest =>
    match escaped c, scanString rest with
    | some e, some (pieces, rest) => some (.char e :: pieces, rest)
    | _, _ => none
  | c :: rest =>
    if c = '\\' || c.toNat < 32 then none
    else match scanString rest with
      | some (pieces, rest) => some (.char c :: pieces, rest)
      | none => none

/-- The longest run of digits, and what follows it. -/
def scanDigits (cs : List Char) : List Char × List Char :=
  (cs.takeWhile isDigit, cs.dropWhile isDigit)

/-- The digits before the point: a zero that no digit follows, or digits
that begin with another one. -/
def scanWhole (cs : List Char) : Option (List Char × List Char) :=
  match scanDigits cs with
  | ([], _) => none
  | (['0'], rest) => some (['0'], rest)
  | ('0' :: _, _) => none
  | (digits, rest) => some (digits, rest)

/-- The point and the digits behind it, if there is a point. -/
def scanFraction : List Char → Option (List Char × List Char)
  | '.' :: rest =>
    match scanDigits rest with
    | ([], _) => none
    | (digits, rest) => some (digits, rest)
  | rest => some ([], rest)

/-- The exponent, if there is one. -/
def scanExponent : List Char → Option (Option (Bool × List Char) × List Char)
  | [] => some (none, [])
  | c :: rest =>
    if c = 'e' || c = 'E' then
      let (negative, afterSign) := Decimal.takeSign rest
      match scanDigits afterSign with
      | ([], _) => none
      | (digits, rest) => some (some (negative, digits), rest)
    else some (none, c :: rest)

/-- A numeral without its sign. -/
def scanNumeral (negative : Bool) (cs : List Char) : Option (Numeral × List Char) := do
  let (whole, rest) ← scanWhole cs
  let (fraction, rest) ← scanFraction rest
  let (exponent, rest) ← scanExponent rest
  return (⟨negative, whole, fraction, exponent⟩, rest)

/-- **The next token** of a text that does not begin with a blank, and the
text behind it. -/
def scanToken : List Char → Option (Token × List Char)
  | '{' :: rest => some (.openBrace, rest)
  | '}' :: rest => some (.closeBrace, rest)
  | '[' :: rest => some (.openBracket, rest)
  | ']' :: rest => some (.closeBracket, rest)
  | ':' :: rest => some (.colon, rest)
  | ',' :: rest => some (.comma, rest)
  | '"' :: rest => (scanString rest).map fun (pieces, rest) => (.string pieces, rest)
  | 'n' :: 'u' :: 'l' :: 'l' :: rest => some (.null, rest)
  | 't' :: 'r' :: 'u' :: 'e' :: rest => some (.boolean true, rest)
  | 'f' :: 'a' :: 'l' :: 's' :: 'e' :: rest => some (.boolean false, rest)
  | '-' :: rest => (scanNumeral true rest).map fun (n, rest) => (.number n, rest)
  | rest => (scanNumeral false rest).map fun (n, rest) => (.number n, rest)

/-- The tokens of a text, at most `fuel` of them and of the blanks between
them. -/
def scan : Nat → List Char → List Token
  | 0, _ => []
  | _ + 1, [] => []
  | fuel + 1, c :: cs =>
    if isBlank c then scan fuel cs
    else match scanToken (c :: cs) with
      | some (token, rest) => token :: scan fuel rest
      | none => [.bad]

/-- **The tokens of a text.** Every token and every blank takes at least
one character, so the length of the text is enough. -/
def tokens (text : String) : List Token :=
  let cs := text.toList
  scan (cs.length + 1) cs

/-- The characters that pieces spell. Two units in a row can be a pair that
stands for one character; a unit of a pair on its own spells none. -/
def Piece.join : List Piece → Option (List Char)
  | [] => some []
  | .char c :: rest => (join rest).map (c :: ·)
  | .unit high :: .unit low :: rest =>
    if 0xD800 ≤ high && high < 0xDC00 then
      if 0xDC00 ≤ low && low < 0xE000 then
        (join rest).map
          (Char.ofNat (0x10000 + (high - 0xD800) * 0x400 + (low - 0xDC00)) :: ·)
      else none
    else if 0xDC00 ≤ high && high < 0xE000 then none
    else (join (.unit low :: rest)).map (Char.ofNat high :: ·)
  | .unit n :: rest =>
    if 0xD800 ≤ n && n < 0xE000 then none else (join rest).map (Char.ofNat n :: ·)

/-- The number that a numeral stands for. -/
inductive Number where
  /-- A whole number of 64 bits without a sign. -/
  | natural (n : UInt64)
  /-- A whole number below zero of 64 bits with a sign. -/
  | negative (n : Int)
  | fraction (x : Float)

/-- The largest whole number that is kept as one. -/
def wholeTop : Nat := UInt64.size - 1

/-- The leading digits that fit 64 bits, and how many were left over. -/
def leadingDigits (start : Nat) : List Char → Nat × Nat
  | [] => (start, 0)
  | c :: cs =>
    let n := start * 10 + Decimal.digitValue c
    if n ≤ wholeTop then leadingDigits n cs else (start, cs.length + 1)

/-- A double scaled by a power of ten, in steps of at most `10^308`;
`none` beyond the largest double. -/
def scaled : Nat → Float → Int → Option Float
  | 0, x, _ => some x
  | fuel + 1, x, e =>
    if e.natAbs ≤ 308 then
      let power := Float.ofScientific 1 false e.natAbs
      if 0 ≤ e then
        let y := x * power
        if y.isInf then none else some y
      else some (x / power)
    else if x == 0.0 then some x
    else if 0 ≤ e then none
    else scaled fuel (x / 1e308) (e + 308)

/-- The double of the digits that fit 64 bits, scaled by the exponent that
is left. Digits of the whole part that do not fit still count as places;
digits of the fraction that do not fit are dropped. -/
def Numeral.toFloat? (n : Numeral) : Option Float :=
  let (significand, extra) := leadingDigits 0 n.whole
  let (significand, dropped) := leadingDigits significand n.fraction
  let point : Int := (extra : Int) - ((n.fraction.length - dropped : Nat) : Int)
  let size :=
    match n.exponent with
    | none => scaled 8 significand.toUInt64.toFloat point
    | some (below, digits) =>
      let e := Decimal.ofDigits digits 0
      if e > 2147483647 then
        if significand ≠ 0 && !below then none else some 0.0
      else
        scaled 8 significand.toUInt64.toFloat (if below then point - e else point + e)
  size.map fun x => if n.negative then -x else x

/-- **The number of a numeral.** Without point and exponent it is a whole
number if that fits 64 bits; minus zero is a fraction. `none` beyond the
largest double. -/
def Numeral.value? (n : Numeral) : Option Number :=
  if n.fraction.isEmpty && n.exponent.isNone then
    let m := Decimal.ofDigits n.whole 0
    if !n.negative && m ≤ wholeTop then some (.natural (UInt64.ofNat m))
    else if n.negative && 0 < m && m ≤ 9223372036854775808 then some (.negative (-m))
    else (n.toFloat?).map .fraction
  else (n.toFloat?).map .fraction

end Tenure.Json
