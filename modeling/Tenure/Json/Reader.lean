import Tenure.Mismatch
import Tenure.Decimal.Text
import Tenure.Json.Token

/-!
# Reading data from JSON

A reader takes tokens from the front of the list and gives a value and the
tokens behind it, or the first error it meets. What is read has an expected
form, and only the part of the text that the form asks for is looked at
closely: members with unknown names are skipped, and skipping asks only
that the text is well formed.

A record (`Members`) may be written as an object or as an array of its
members in order. In an object the members come in any order and at most
once; a member that is missing is reported when the object ends, in the
order of the record. Errors of the members come before errors of what
follows the object, since they are met first.
-/

namespace Tenure.Json

/-- What is wrong with a text. -/
inductive Error where
  /-- It is not JSON, as far as it was read. -/
  | malformed
  /-- It is JSON of another form. -/
  | mismatch (m : Mismatch)
  deriving DecidableEq, Repr

/-- The wording of each error. -/
def Error.message : Error → String
  | malformed => "syntax"
  | mismatch m => m.message

/-- A reader of values from tokens. -/
abbrev Reader (α : Type) := StateT (List Token) (Except Error) α

namespace Reader

def malformed {α : Type} : Reader α := throw .malformed

def mismatch {α : Type} (m : Mismatch) : Reader α := throw (.mismatch m)

/-- The next token, left where it is. -/
def peek : Reader (Option Token) := do return (← get).head?

/-- Passes over the next token. -/
def skip : Reader Unit := modify List.tail

/-- Takes the next token, which must be this one. -/
def expect (t : Token) : Reader Unit := do
  if (← peek) = some t then skip else malformed

end Reader

/-! ## Skipping -/

/-- Passes over one value. `closers` are the brackets that are open, the
innermost first; `fuel` bounds the tokens. A string that is skipped need
not spell characters, and a number need not be a number of any size. -/
def skipTokens : Nat → List Token → List Token → Except Error (List Token)
  | 0, _, _ => .error .malformed
  | fuel + 1, closers, ts =>
    match ts with
    | .openBracket :: .closeBracket :: rest => close fuel closers rest
    | .openBracket :: rest => skipTokens fuel (.closeBracket :: closers) rest
    | .openBrace :: .closeBrace :: rest => close fuel closers rest
    | .openBrace :: .string _ :: .colon :: rest => skipTokens fuel (.closeBrace :: closers) rest
    | .null :: rest => close fuel closers rest
    | .boolean _ :: rest => close fuel closers rest
    | .number _ :: rest => close fuel closers rest
    | .string _ :: rest => close fuel closers rest
    | _ => .error .malformed
where
  /-- Goes on behind a value: with the next one, or out of the brackets
  that end here. -/
  close (fuel : Nat) : List Token → List Token → Except Error (List Token)
    | [], ts => .ok ts
    | closer :: closers, .comma :: ts =>
      if closer = .closeBrace then
        match ts with
        | .string _ :: .colon :: rest => skipTokens fuel (closer :: closers) rest
        | _ => .error .malformed
      else skipTokens fuel (closer :: closers) ts
    | closer :: closers, t :: ts =>
      if t = closer then close fuel closers ts else .error .malformed
    | _ :: _, [] => .error .malformed

/-- Passes over one value of any form. -/
def Reader.skipValue : Reader Unit := do
  let ts ← get
  match skipTokens (ts.length + 1) [] ts with
  | .ok rest => set rest
  | .error e => throw e

/-! ## Values of one token -/

/-- What a value of an unexpected form is called. -/
def found : Token → Option Found
  | .null => some .null
  | .boolean b => some (.boolean b)
  | .number n =>
    match n.value? with
    | some (.natural m) => some (.integer m.toNat)
    | some (.negative m) => some (.integer m)
    | some (.fraction x) => some (.fraction (Decimal.scientific x))
    | none => none
  | .string pieces => (Piece.join pieces).map fun cs => .text (String.ofList cs)
  | .openBracket => some .sequence
  | .openBrace => some .table
  | _ => none

namespace Reader

/-- Reports that the next token begins a value of another form. -/
def wrongType {α : Type} (expected : String) : Reader α := do
  match (← peek).bind found with
  | some f => mismatch (.wrongType f expected)
  | none => malformed

/-- A text. -/
def text : Reader String := do
  match ← peek with
  | some (.string pieces) =>
    match Piece.join pieces with
    | some cs =>
      skip
      return String.ofList cs
    | none => malformed
  | _ => wrongType "a string"

/-- A whole number below `bound`; `expected` names the type. -/
def natural (bound : Nat) (expected : String) : Reader Nat := do
  match ← peek with
  | some (.number n) =>
    match n.value? with
    | some (.natural m) =>
      if m.toNat < bound then
        skip
        return m.toNat
      else mismatch (.outOfRange (.integer m.toNat) expected)
    | some (.negative m) => mismatch (.outOfRange (.integer m) expected)
    | _ => wrongType expected
  | _ => wrongType expected

/-- A whole number of 64 bits. -/
def word64 : Reader UInt64 := return UInt64.ofNat (← natural UInt64.size "u64")

/-- A whole number of 32 bits. -/
def word32 : Reader UInt32 := return UInt32.ofNat (← natural UInt32.size "u32")

/-- A number, rounded to a double. -/
def float : Reader Float := do
  match ← peek with
  | some (.number n) =>
    match n.value? with
    | some (.natural m) =>
      skip
      return m.toFloat
    | some (.negative m) =>
      skip
      return -(m.natAbs.toUInt64.toFloat)
    | some (.fraction x) =>
      skip
      return x
    | none => malformed
  | _ => wrongType "f64"

/-- A value or null. -/
def option {α : Type} (read : Reader α) : Reader (Option α) := do
  match ← peek with
  | some .null =>
    skip
    return none
  | _ => return some (← read)

end Reader

/-! ## Records -/

/-- **The members of a record**, in order, as they are read into a draft
in which some of them may still be missing. -/
structure Members (α : Type) where
  Draft : Type
  /-- Nothing read yet. -/
  start : Draft
  /-- How a member of this name is read into the draft, `none` if there is
  no such member. A member that was read before is refused. -/
  member : String → Option (Draft → Reader Draft)
  /-- How many members there are. -/
  count : Nat
  /-- Reads the members of an array from the given position on. `next`
  says whether another element follows. -/
  inOrder : (next : Nat → Reader Bool) → Nat → Draft → Reader Draft
  /-- The record, or the first member that is missing from an object. -/
  finish : Draft → Except String α
  /-- The record, or the position of the first member that is missing from
  an array. -/
  finishInOrder : Draft → Nat → Except Nat α

namespace Members

/-- One member. `absent` is its value where an object does not have it,
and `unlisted` where an array ends before it. -/
def one {α : Type} (name : String) (read : Reader α) (absent unlisted : Option α := none) :
    Members α where
  Draft := Option α
  start := none
  member other :=
    if other = name then
      some fun draft => do
        if draft.isSome then Reader.mismatch (.duplicate name)
        Reader.expect .colon
        return some (← read)
    else none
  count := 1
  inOrder next i draft := do
    if ← next i then return some (← read) else return draft
  finish draft :=
    match draft, absent with
    | some a, _ => .ok a
    | none, some a => .ok a
    | none, none => .error name
  finishInOrder draft i :=
    match draft, unlisted with
    | some a, _ => .ok a
    | none, some a => .ok a
    | none, none => .error i

/-- The members of one record and then those of another. -/
def and {α β : Type} (a : Members α) (b : Members β) : Members (α × β) where
  Draft := a.Draft × b.Draft
  start := (a.start, b.start)
  member name :=
    match a.member name, b.member name with
    | some read, _ => some fun draft => return (← read draft.1, draft.2)
    | none, some read => some fun draft => return (draft.1, ← read draft.2)
    | none, none => none
  count := a.count + b.count
  inOrder next i draft := do
    let first ← a.inOrder next i draft.1
    return (first, ← b.inOrder next (i + a.count) draft.2)
  finish draft := return (← a.finish draft.1, ← b.finish draft.2)
  finishInOrder draft i :=
    return (← a.finishInOrder draft.1 i, ← b.finishInOrder draft.2 (i + a.count))

/-- A record made of the values of its members. -/
def map {α β : Type} (f : α → β) (a : Members α) : Members β where
  Draft := a.Draft
  start := a.start
  member := a.member
  count := a.count
  inOrder := a.inOrder
  finish draft := (a.finish draft).map f
  finishInOrder draft i := (a.finishInOrder draft i).map f

end Members

namespace Reader

/-- Whether an array goes on with another element, the comma before it
taken. -/
def nextElement (i : Nat) : Reader Bool := do
  match ← peek with
  | none => malformed
  | some .closeBracket => return false
  | some .comma =>
    if i = 0 then malformed
    skip
    if (← peek) = some .closeBracket then malformed
    return true
  | some _ => if i = 0 then return true else malformed

/-- The name before the colon of a member. -/
def memberName : Reader String := do
  match ← peek with
  | some (.string _) => text
  | _ => malformed

/-- Reads one member into the draft; a member of another name is
skipped. -/
def oneMember {α : Type} (m : Members α) (draft : m.Draft) : Reader m.Draft := do
  match m.member (← memberName) with
  | some read => read draft
  | none =>
    expect .colon
    skipValue
    return draft

/-- Reads the members of an object up to the closing brace. -/
def members {α : Type} (m : Members α) : Nat → Bool → m.Draft → Reader m.Draft
  | 0, _, _ => malformed
  | fuel + 1, first, draft => do
    match ← peek with
    | some .closeBrace => return draft
    | some .comma =>
      if first then malformed
      skip
      members m fuel false (← oneMember m draft)
    | some _ =>
      if first then members m fuel false (← oneMember m draft) else malformed
    | none => malformed

/-- How many members an array of them has. -/
def lengthOf (name : String) (count : Nat) : String :=
  name ++ " with " ++ toString count ++ (if count = 1 then " element" else " elements")

/-- **Reads a record**, from an object or from an array of its members. -/
def record {α : Type} (name : String) (m : Members α) : Reader α := do
  match ← peek with
  | some .openBrace =>
    skip
    let draft ← members m ((← get).length + 1) true m.start
    match m.finish draft with
    | .ok a =>
      expect .closeBrace
      return a
    | .error absent => mismatch (.missing absent)
  | some .openBracket =>
    skip
    let draft ← m.inOrder nextElement 0 m.start
    match m.finishInOrder draft 0 with
    | .ok a =>
      expect .closeBracket
      return a
    | .error i => mismatch (.wrongLength i (lengthOf name m.count))
  | _ => wrongType name

/-- **Reads a choice** with content: an object with one member, named for
the choice. -/
def choice {α : Type} (choices : List (String × Reader α)) : Reader α := do
  let pick (name : String) : Reader (Reader α) :=
    match choices.lookup name with
    | some content => pure content
    | none => mismatch (.unknownChoice name (choices.map Prod.fst))
  match ← peek with
  | some .openBrace =>
    skip
    let name ← match ← peek with
      | some (.string _) => text
      | _ => wrongType "variant identifier"
    let content ← pick name
    expect .colon
    let a ← content
    expect .closeBrace
    return a
  | some (.string _) =>
    let _ ← pick (← text)
    mismatch (.wrongType .bareChoice "struct variant")
  | _ => malformed

/-- **Reads a whole text**: a value and nothing behind it. -/
def parse {α : Type} (read : Reader α) (input : String) : Except Error α :=
  match read.run (tokens input) with
  | .ok (a, []) => .ok a
  | .ok (_, _ :: _) => .error .malformed
  | .error e => .error e

end Reader

end Tenure.Json
