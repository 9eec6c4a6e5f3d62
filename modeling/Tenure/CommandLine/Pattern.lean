import Tenure.Decimal.Reading

/-!
# Patterns that data are compared with

A directive of a filter may compare a datum with a truth value, a number or
a pattern. Nothing ever comes of the comparison, but a filter in which a
pattern breaks the rules of patterns cannot be read. `isPattern` says which
are well formed, as far as brackets and marks of repetition go.
-/

namespace Tenure.CommandLine

/-- A letter that has a meaning behind a backslash. -/
def isEscapeLetter (c : Char) : Bool :=
  ['d', 'D', 'w', 'W', 's', 'S', 'A', 'z', 'n', 't', 'r', 'f', 'v', 'a'].contains c

/-- A character that may stand behind a backslash. -/
def isEscapable (c : Char) : Bool :=
  isEscapeLetter c || (33 ≤ c.toNat && c.toNat < 127 && !c.isAlphanum)

/-- The text behind a set of characters, from behind its opening bracket
on. -/
def skipSet : List Char → Option (List Char)
  | [] => none
  | ['\\'] => none
  | '\\' :: c :: r => if isEscapable c then skipSet r else none
  | ']' :: r => some r
  | _ :: r => skipSet r

/-- Behind the opening bracket: a bracket that closes at once is part of the
set. -/
def openSet : List Char → Option (List Char)
  | '^' :: ']' :: r => skipSet r
  | ']' :: r => skipSet r
  | r => skipSet r

/-- Whether a pattern goes on well. `depth` counts the open parentheses, and
`repeatable` says whether something that can be repeated comes before. -/
def isPatternFrom : Nat → Nat → Bool → List Char → Bool
  | 0, _, _, _ => false
  | _ + 1, depth, _, [] => depth = 0
  | fuel + 1, depth, repeatable, c :: r =>
    if c = '\\' then
      match r with
      | [] => false
      | e :: r => isEscapable e && isPatternFrom fuel depth true r
    else if c = '*' || c = '+' || c = '?' then
      repeatable && isPatternFrom fuel depth true r
    else if c = '\x7b' then false
    else if c = '(' then
      match r with
      | '?' :: r => isPatternFrom fuel (depth + 1) false r
      | r => isPatternFrom fuel (depth + 1) false r
    else if c = ')' then
      0 < depth && isPatternFrom fuel (depth - 1) true r
    else if c = '|' then isPatternFrom fuel depth false r
    else if c = '[' then
      match openSet r with
      | none => false
      | some r => isPatternFrom fuel depth true r
    else isPatternFrom fuel depth true r

/-- Whether a text is a well-formed pattern. -/
def isPattern (s : String) : Bool :=
  isPatternFrom (s.toList.length + 1) 0 false s.toList

/-- Whether a datum can be compared with what a text says. -/
def isComparable (s : String) : Bool := (Decimal.readFloat s).isSome || isPattern s

end Tenure.CommandLine
