import Tenure.Json.Reader

/-!
# JSON of any form

A text as the value it stands for, whatever its form, for those who look
into a text without expecting a form of it. Here all of the text counts:
what cannot be read in some corner of it makes the whole unreadable, and so
do arrays and objects that nest deeper than `Value.deepest`.
-/

namespace Tenure.Json

/-- A value of JSON. -/
inductive Value where
  | null
  | boolean (b : Bool)
  | number (n : Number)
  | text (s : String)
  | array (items : List Value)
  /-- The members in the order of the text. -/
  | object (members : List (String × Value))

namespace Value

/-- How deep arrays and objects may nest. -/
def deepest : Nat := 127

mutual

/-- Reads a value; `depth` is how much deeper values may nest, `fuel`
bounds the tokens. -/
def read : Nat → Nat → Reader Value
  | 0, _ => Reader.malformed
  | fuel + 1, depth => do
    match ← Reader.peek with
    | some .null =>
      Reader.skip
      return .null
    | some (.boolean b) =>
      Reader.skip
      return .boolean b
    | some (.number n) =>
      match n.value? with
      | some x =>
        Reader.skip
        return .number x
      | none => Reader.malformed
    | some (.string _) => return .text (← Reader.text)
    | some .openBracket =>
      match depth with
      | 0 => Reader.malformed
      | depth + 1 =>
        Reader.skip
        return .array (← readItems fuel depth 0)
    | some .openBrace =>
      match depth with
      | 0 => Reader.malformed
      | depth + 1 =>
        Reader.skip
        return .object (← readMembers fuel depth true)
    | _ => Reader.malformed

/-- Reads the items of an array from the given position on, and the closing
bracket. -/
def readItems : Nat → Nat → Nat → Reader (List Value)
  | 0, _, _ => Reader.malformed
  | fuel + 1, depth, i => do
    if ← Reader.nextElement i then
      let item ← read fuel depth
      return item :: (← readItems fuel depth (i + 1))
    else
      Reader.skip
      return []

/-- Reads the members of an object and the closing brace. -/
def readMembers : Nat → Nat → Bool → Reader (List (String × Value))
  | 0, _, _ => Reader.malformed
  | fuel + 1, depth, first => do
    match ← Reader.peek with
    | some .closeBrace =>
      Reader.skip
      return []
    | _ =>
      if !first then Reader.expect .comma
      let name ← Reader.memberName
      Reader.expect .colon
      let item ← read fuel depth
      return (name, item) :: (← readMembers fuel depth false)

end

/-- **The value that a text stands for.** -/
def parse (input : String) : Option Value :=
  (Reader.parse (read ((tokens input).length + 1) deepest) input).toOption

/-- The member of a name: the last of that name in an object, null if
there is none or the value is no object. -/
def member (v : Value) (name : String) : Value :=
  match v with
  | object members => ((members.reverse.lookup name)).getD null
  | _ => null

/-- Whether the value is the number zero, written as a whole number. -/
def isZero : Value → Bool
  | number (.natural n) => n = 0
  | _ => false

end Value

end Tenure.Json
