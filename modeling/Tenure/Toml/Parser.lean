import Tenure.Decimal.Reading
import Tenure.Toml.Document

/-!
# Reading TOML

A reader takes characters from the front of a text and gives a value and
the text behind it, or `none` where the text breaks a rule of the format.
What exactly is wrong is not kept: a document is read as a whole or not at
all.

Values nest, so the readers of values are bounded by a depth
(`deepest`), and those that repeat are bounded by the length of the text.
-/

namespace Tenure.Toml

open Decimal (isDigit)

/-- How deep arrays and inline tables may nest, and how many names a key
may have. -/
def deepest : Nat := 79

/-! ## Blanks, comments and lines -/

def isSpace (c : Char) : Bool := c = ' ' || c = '\t'

def skipSpace (cs : List Char) : List Char := cs.dropWhile isSpace

/-- A character that a comment may hold: no control character but the
tab. -/
def isCommentChar (c : Char) : Bool :=
  c = '\t' || (32 ≤ c.toNat && c.toNat ≠ 127)

/-- The text behind a line break, if there is one here. -/
def newline? : List Char → Option (List Char)
  | '\n' :: r => some r
  | '\r' :: '\n' :: r => some r
  | _ => none

/-- The text behind blanks and a comment. -/
def skipComment (cs : List Char) : List Char :=
  match skipSpace cs with
  | '#' :: r => r.dropWhile isCommentChar
  | r => r

/-- The text behind the rest of a line that must hold nothing more. -/
def endLine (cs : List Char) : Option (List Char) :=
  match skipComment cs with
  | [] => some []
  | r => newline? r

/-- The text behind blanks, comments and line breaks. -/
def skipLines : Nat → List Char → List Char
  | 0, cs => cs
  | fuel + 1, cs =>
    let r := skipComment cs
    match newline? r with
    | some next => skipLines fuel next
    | none => r

/-! ## Strings -/

/-- A character that stands for itself in a quoted string. -/
def isBasicChar (c : Char) : Bool :=
  c = '\t' || (32 ≤ c.toNat && c ≠ '"' && c ≠ '\\' && c.toNat ≠ 127)

/-- A character that a literal string may hold. -/
def isLiteralChar (c : Char) : Bool :=
  c = '\t' || (32 ≤ c.toNat && c ≠ '\'' && c.toNat ≠ 127)

def hexValue (c : Char) : Option Nat :=
  if isDigit c then some (c.toNat - 48)
  else if 'a' ≤ c && c ≤ 'f' then some (c.toNat - 87)
  else if 'A' ≤ c && c ≤ 'F' then some (c.toNat - 55)
  else none

/-- The character whose number is written with this many digits to base
sixteen. -/
def hexChar (digits : Nat) (cs : List Char) : Option (Char × List Char) := do
  let ds ← (cs.take digits).mapM hexValue
  if ds.length < digits then none
  let n := ds.foldl (fun n d => n * 16 + d) 0
  if n < 0xD800 || (0xE000 ≤ n && n < 0x110000) then some (Char.ofNat n, cs.drop digits)
  else none

/-- The character of an escape, behind its backslash. -/
def escape : List Char → Option (Char × List Char)
  | 'b' :: r => some ('\x08', r)
  | 't' :: r => some ('\t', r)
  | 'n' :: r => some ('\n', r)
  | 'f' :: r => some ('\x0c', r)
  | 'r' :: r => some ('\r', r)
  | '"' :: r => some ('"', r)
  | '\\' :: r => some ('\\', r)
  | 'u' :: r => hexChar 4 r
  | 'U' :: r => hexChar 8 r
  | _ => none

/-- A quoted string on one line, behind its opening mark. -/
def basicString : Nat → List Char → Option (List Char × List Char)
  | 0, _ => none
  | _ + 1, [] => none
  | fuel + 1, c :: r =>
    if c = '"' then some ([], r)
    else if c = '\\' then do
      let (e, r) ← escape r
      let (s, r) ← basicString fuel r
      return (e :: s, r)
    else if isBasicChar c then do
      let (s, r) ← basicString fuel r
      return (c :: s, r)
    else none

/-- A literal string on one line, behind its opening mark. -/
def literalString (cs : List Char) : Option (List Char × List Char) :=
  match cs.dropWhile isLiteralChar with
  | '\'' :: r => some (cs.takeWhile isLiteralChar, r)
  | _ => none

/-- Behind a backslash at the end of a line: the text behind the blanks
and line breaks that follow, if there is such a break. -/
def lineContinuation (cs : List Char) : Option (List Char) :=
  match newline? (skipSpace cs) with
  | none => none
  | some r => some (go (r.length + 1) r)
where
  go : Nat → List Char → List Char
    | 0, r => r
    | fuel + 1, r =>
      match newline? (skipSpace r) with
      | some next => go fuel next
      | none => skipSpace r

/-- How many marks stand at the front. -/
def marks (mark : Char) (cs : List Char) : Nat := (cs.takeWhile (· = mark)).length

/-- The end of a string of several lines: three marks, before which up to
two more belong to the string. -/
def closing (mark : Char) (cs : List Char) : Option (List Char × List Char) :=
  let n := marks mark cs
  if n < 3 then none
  else
    let inside := min (n - 3) 2
    some (List.replicate inside mark, cs.drop (inside + 3))

/-- A quoted string of several lines, behind its opening marks. -/
def basicLines : Nat → List Char → Option (List Char × List Char)
  | 0, _ => none
  | _ + 1, [] => none
  | fuel + 1, c :: r =>
    match closing '"' (c :: r) with
    | some done => some done
    | none =>
      if c = '\\' then
        match lineContinuation r with
        | some next => basicLines fuel next
        | none => do
          let (e, r) ← escape r
          let (s, r) ← basicLines fuel r
          return (e :: s, r)
      else match newline? (c :: r) with
        | some next => do
          let (s, r) ← basicLines fuel next
          return ('\n' :: s, r)
        | none =>
          if isBasicChar c || c = '"' then do
            let (s, r) ← basicLines fuel r
            return (c :: s, r)
          else none

/-- A literal string of several lines, behind its opening marks. -/
def literalLines : Nat → List Char → Option (List Char × List Char)
  | 0, _ => none
  | _ + 1, [] => none
  | fuel + 1, c :: r =>
    match closing '\'' (c :: r) with
    | some done => some done
    | none =>
      match newline? (c :: r) with
      | some next => do
        let (s, r) ← literalLines fuel next
        return ('\n' :: s, r)
      | none =>
        if isLiteralChar c || c = '\'' then do
          let (s, r) ← literalLines fuel r
          return (c :: s, r)
        else none

/-- A line break right behind the opening marks is no part of the string. -/
def skipFirstBreak (cs : List Char) : List Char := (newline? cs).getD cs

/-- A string of any kind. -/
def anyString : List Char → Option (String × List Char)
  | '"' :: '"' :: '"' :: r =>
    (basicLines (r.length + 1) (skipFirstBreak r)).map fun (s, r) => (String.ofList s, r)
  | '\'' :: '\'' :: '\'' :: r =>
    (literalLines (r.length + 1) (skipFirstBreak r)).map fun (s, r) => (String.ofList s, r)
  | '"' :: r => (basicString (r.length + 1) r).map fun (s, r) => (String.ofList s, r)
  | '\'' :: r => (literalString r).map fun (s, r) => (String.ofList s, r)
  | _ => none

/-! ## Keys -/

/-- A character of a key without quotation marks. -/
def isKeyChar (c : Char) : Bool :=
  isDigit c || ('a' ≤ c && c ≤ 'z') || ('A' ≤ c && c ≤ 'Z') || c = '_' || c = '-'

/-- One name of a key. -/
def simpleKey : List Char → Option (String × List Char)
  | '"' :: r => (basicString (r.length + 1) r).map fun (s, r) => (String.ofList s, r)
  | '\'' :: r => (literalString r).map fun (s, r) => (String.ofList s, r)
  | cs =>
    if (cs.takeWhile isKeyChar).isEmpty then none
    else some (String.ofList (cs.takeWhile isKeyChar), cs.dropWhile isKeyChar)

/-- A key: names with points between them. -/
def key : Nat → List Char → Option ((List String) × List Char)
  | 0, _ => none
  | fuel + 1, cs => do
    let (name, r) ← simpleKey (skipSpace cs)
    match skipSpace r with
    | '.' :: r =>
      let (names, r) ← key fuel r
      return (name :: names, r)
    | r => return ([name], r)

/-- A key as path and last name. -/
def dottedKey (cs : List Char) : Option ((List String × String) × List Char) := do
  let (names, r) ← key (cs.length + 1) cs
  if names.length > deepest then none
  let last ← names.getLast?
  return ((names.dropLast, last), r)

/-! ## Numbers, dates and times -/

/-- Digits of some base with single underscores between them. -/
def groupedDigits (valid : Char → Bool) : List Char → Option (List Char × List Char)
  | [] => none
  | c :: cs => if valid c then some (more cs |> fun (ds, r) => (c :: ds, r)) else none
where
  more : List Char → List Char × List Char
    | '_' :: c :: cs =>
      if valid c then (more cs |> fun (ds, r) => (c :: ds, r)) else ([], '_' :: c :: cs)
    | c :: cs =>
      if valid c then (more cs |> fun (ds, r) => (c :: ds, r)) else ([], c :: cs)
    | [] => ([], [])

/-- The digits of a decimal number, which begin with a zero only if that
is all. -/
def decimalDigits : List Char → Option (List Char × List Char)
  | '0' :: r => some (['0'], r)
  | cs => groupedDigits isDigit cs

/-- Whole numbers have 64 bits, one of them for the sign. -/
def wordHalf : Nat := 9223372036854775808

/-- A number that follows its sign and is written to some base. -/
def based (base : Nat) (valid : Char → Bool) (cs : List Char) : Option (Item × List Char) := do
  let (ds, r) ← groupedDigits valid cs
  let n := ds.foldl (fun n c => n * base + (hexValue c).getD 0) 0
  if n < wordHalf then some (.integer n, r) else none

def isHexDigit (c : Char) : Bool := (hexValue c).isSome

/-- A whole number or a fraction. -/
def number (cs : List Char) : Option (Item × List Char) :=
  match cs with
  | '0' :: 'x' :: r => based 16 isHexDigit r
  | '0' :: 'o' :: r => based 8 (fun c => '0' ≤ c && c ≤ '7') r
  | '0' :: 'b' :: r => based 2 (fun c => c = '0' || c = '1') r
  | _ => do
    let (negative, cs) := Decimal.takeSign cs
    match cs with
    | 'i' :: 'n' :: 'f' :: r =>
      return (.fraction (if negative then -(1.0 / 0.0) else 1.0 / 0.0), r)
    | 'n' :: 'a' :: 'n' :: r => return (.fraction (0.0 / 0.0), r)
    | _ =>
      let (whole, r) ← decimalDigits cs
      let (fraction, r) ← match r with
        | '.' :: r => groupedDigits isDigit r
        | r => some ([], r)
      let (exponent, r) ← match r with
        | c :: rest =>
          if c = 'e' || c = 'E' then do
            let (below, rest) := Decimal.takeSign rest
            let (ds, rest) ← groupedDigits isDigit rest
            let e : Int := Decimal.ofDigits ds 0
            some (some (if below then -e else e), rest)
          else some (none, c :: rest)
        | [] => some (none, [])
      let m := Decimal.ofDigits fraction (Decimal.ofDigits whole 0)
      if fraction.isEmpty && exponent.isNone then
        let n : Int := if negative then -m else m
        if -(wordHalf : Int) ≤ n ∧ n < wordHalf then return (.integer n, r) else none
      else
        let x := Decimal.nearest negative m (exponent.getD 0 - fraction.length)
        -- a fraction that is too large is refused above zero only
        if x == 1.0 / 0.0 then none else return (.fraction x, r)

/-- A number of exactly so many digits within bounds. -/
def fixedNumber (digits low high : Nat) (cs : List Char) : Option (Nat × List Char) :=
  let ds := cs.take digits
  if ds.length = digits && ds.all isDigit then
    let n := Decimal.ofDigits ds 0
    if low ≤ n && n ≤ high then some (n, cs.drop digits) else none
  else none

def expectChar (c : Char) : List Char → Option (List Char)
  | d :: r => if d = c then some r else none
  | [] => none

/-- The days of a month. -/
def daysIn (year month : Nat) : Nat :=
  if month = 2 then
    if year % 4 = 0 && (year % 100 ≠ 0 || year % 400 = 0) then 29 else 28
  else if month = 4 || month = 6 || month = 9 || month = 11 then 30
  else 31

def date (cs : List Char) : Option (List Char) := do
  let (year, r) ← fixedNumber 4 0 9999 cs
  let (month, r) ← fixedNumber 2 1 12 (← expectChar '-' r)
  let (_, r) ← fixedNumber 2 1 (daysIn year month) (← expectChar '-' r)
  return r

def time (cs : List Char) : Option (List Char) := do
  let (_, r) ← fixedNumber 2 0 23 cs
  let (_, r) ← fixedNumber 2 0 59 (← expectChar ':' r)
  let (_, r) ← fixedNumber 2 0 60 (← expectChar ':' r)
  match r with
  | '.' :: r => if (r.takeWhile isDigit).isEmpty then none else return r.dropWhile isDigit
  | r => return r

/-- The distance of a time from the standard time; the text as it is if
there is none. -/
def offset : List Char → Option (List Char)
  | 'Z' :: r => some r
  | 'z' :: r => some r
  | c :: r =>
    if c = '+' || c = '-' then do
      let (_, r) ← fixedNumber 2 0 23 r
      let (_, r) ← fixedNumber 2 0 59 (← expectChar ':' r)
      return r
    else some (c :: r)
  | [] => some []

/-- Whether a date or a time begins here, so that nothing else may. -/
def isMoment (cs : List Char) : Bool :=
  match cs with
  | a :: b :: c :: rest =>
    (isDigit a && isDigit b && c = ':')
      || (isDigit a && isDigit b && isDigit c
        && match rest with
          | d :: '-' :: _ => isDigit d
          | _ => false)
  | _ => false

/-- A date, a time, or both. -/
def moment (cs : List Char) : Option (Item × List Char) :=
  match cs with
  | _ :: _ :: ':' :: _ => (time cs).map (.moment, ·)
  | _ => do
    let r ← date cs
    match r with
    | c :: next =>
      if c = 'T' || c = 't' then return (.moment, ← offset (← time next))
      else if c = ' ' && (next.head?.map isDigit).getD false then
        return (.moment, ← offset (← time next))
      else return (.moment, r)
    | [] => return (.moment, r)

/-! ## Values -/

/-- A value that holds no others. -/
def simpleValue (cs : List Char) : Option (Item × List Char) :=
  match cs with
  | '"' :: _ => (anyString cs).map fun (s, r) => (.text s, r)
  | '\'' :: _ => (anyString cs).map fun (s, r) => (.text s, r)
  | 't' :: 'r' :: 'u' :: 'e' :: r => some (.boolean true, r)
  | 'f' :: 'a' :: 'l' :: 's' :: 'e' :: r => some (.boolean false, r)
  | _ => if isMoment cs then moment cs else number cs

mutual

/-- A value; `depth` is how much deeper values may nest, `fuel` bounds the
characters. -/
def value : Nat → Nat → List Char → Option (Item × List Char)
  | 0, _, _ => none
  | fuel + 1, depth, cs =>
    match cs with
    | '[' :: r =>
      match depth with
      | 0 => none
      | depth + 1 =>
        match skipLines (r.length + 1) r with
        | ']' :: r => some (.array [], r)
        | r => (elements fuel depth r).map fun (items, r) => (.array items, r)
    | '\x7b' :: r =>
      match depth with
      | 0 => none
      | depth + 1 =>
        match skipSpace r with
        | '\x7d' :: r => some (.table .value [], r)
        | r => (inlineMembers fuel depth [] r).map fun (ms, r) => (.table .value ms, r)
    | _ => simpleValue cs

/-- The elements of an array up to its closing bracket. -/
def elements : Nat → Nat → List Char → Option ((List Item) × List Char)
  | 0, _, _ => none
  | fuel + 1, depth, cs => do
    let (item, r) ← value fuel depth cs
    match skipLines (r.length + 1) r with
    | ']' :: r => return ([item], r)
    | ',' :: r =>
      match skipLines (r.length + 1) r with
      | ']' :: r => return ([item], r)
      | r =>
        let (items, r) ← elements fuel depth r
        return (item :: items, r)
    | _ => none

/-- The members of an inline table up to its closing brace. -/
def inlineMembers : Nat → Nat → Members → List Char → Option (Members × List Char)
  | 0, _, _, _ => none
  | fuel + 1, depth, ms, cs => do
    let ((path, name), r) ← dottedKey cs
    let (item, r) ← value fuel depth (skipSpace (← expectChar '=' r))
    let ms ← ms.assign path name item
    match skipSpace r with
    | '\x7d' :: r => return (ms, r)
    | ',' :: r => inlineMembers fuel depth ms r
    | _ => none

end

/-! ## Documents -/

/-- What stands on a line. -/
inductive Line where
  | assignment (path : List String) (name : String) (item : Item)
  | heading (path : List String) (name : String) (repeated : Bool)

/-- A line that is not empty. -/
def line : List Char → Option (Line × List Char)
  | '[' :: '[' :: r => do
    let ((path, name), r) ← dottedKey r
    let r ← expectChar ']' (← expectChar ']' r)
    return (.heading path name true, ← endLine r)
  | '[' :: r => do
    let ((path, name), r) ← dottedKey r
    return (.heading path name false, ← endLine (← expectChar ']' r))
  | cs => do
    let ((path, name), r) ← dottedKey cs
    let r := skipSpace (← expectChar '=' r)
    let (item, r) ← value (r.length + 1) deepest r
    return (.assignment path name item, ← endLine r)

/-- The lines of a text. -/
def lines : Nat → List Char → Option (List Line)
  | 0, _ => none
  | fuel + 1, cs =>
    match skipLines (cs.length + 1) cs with
    | [] => some []
    | r => do
      let (first, r) ← line r
      return first :: (← lines fuel r)

/-- Sorts lines into sections. -/
def sections : List Line → List (List String × String × Item) × List Section
  | [] => ([], [])
  | .assignment path name item :: rest =>
    let (top, below) := sections rest
    ((path, name, item) :: top, below)
  | .heading path name repeated :: rest =>
    let (top, below) := sections rest
    ([], ⟨path, name, repeated, top⟩ :: below)

/-- **Reads a document.** A byte-order mark may stand before it. -/
def parse (text : String) : Option Members :=
  let cs := match text.toList with
    | '\uFEFF' :: r => r
    | r => r
  (lines (cs.length + 1) cs).bind fun ls =>
    let (top, below) := sections ls
    Members.ofSections top below

end Tenure.Toml
