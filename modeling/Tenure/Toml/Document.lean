/-!
# TOML documents

A document is a table: named items in the order in which they were first
written. A table that is defined twice is an error, and whether a second
mention *is* a second definition depends on how the table came to be, so a
table remembers its origin. Headings may pass through any table that is
not a value, and may define a table that was only implied so far, once.
Dotted keys may only extend what dotted keys have made.

`Document.ofSections` builds the document from its headings and
assignments.
-/

namespace Tenure.Toml

/-- How a table came to be. -/
inductive Origin where
  /-- It has a heading of its own. -/
  | heading
  /-- A heading further down passed through it. -/
  | implied
  /-- It was written as dotted keys. -/
  | dotted
  /-- It was written as a value and is complete. -/
  | value
  deriving DecidableEq, Repr

/-- What a name stands for. -/
inductive Item where
  | text (s : String)
  | integer (n : Int)
  | fraction (x : Float)
  | boolean (b : Bool)
  /-- A date or a time. -/
  | moment
  | array (items : List Item)
  | table (origin : Origin) (members : List (String × Item))
  /-- The tables under a repeated heading, of which only the last can
  still be extended. -/
  | tables (last : List (String × Item))

/-- Named items, each name once. -/
abbrev Members := List (String × Item)

namespace Members

/-- The item of a name. -/
def get? (ms : Members) (name : String) : Option Item := List.lookup name ms

/-- Gives a name an item, in its place if the name is known and at the end
if it is new. -/
def put (ms : Members) (name : String) (item : Item) : Members :=
  if (ms.get? name).isSome then
    ms.map fun (other, old) => if other = name then (other, item) else (other, old)
  else ms ++ [(name, item)]

/-- Takes a name away. -/
def erase (ms : Members) (name : String) : Members := ms.filter fun (other, _) => other ≠ name

/-- **Assigns an item to a key behind a path of dotted keys.** `none` if
the key is taken, or the path passes through what dotted keys may not
extend. -/
def assign : List String → String → Item → Members → Option Members
  | [], key, item, ms => if (ms.get? key).isSome then none else some (ms.put key item)
  | step :: path, key, item, ms =>
    match ms.get? step with
    | none => (assign path key item []).map fun m => ms.put step (.table .dotted m)
    | some (.table .dotted inner) =>
      (assign path key item inner).map fun m => ms.put step (.table .dotted m)
    | some (.table .implied inner) =>
      if path.isEmpty then none
      else (assign path key item inner).map fun m => ms.put step (.table .implied m)
    | some (.tables last) =>
      if path.isEmpty then none
      else (assign path key item last).map fun m => ms.put step (.tables m)
    | some _ => none

/-- Changes the table that a heading's path leads to, implying the tables
on the way that are not there yet. -/
def within (change : Members → Option Members) : List String → Members → Option Members
  | [], ms => change ms
  | step :: path, ms =>
    match ms.get? step with
    | none => (within change path []).map fun m => ms.put step (.table .implied m)
    | some (.table origin inner) =>
      if origin = .value then none
      else (within change path inner).map fun m => ms.put step (.table origin m)
    | some (.tables last) => (within change path last).map fun m => ms.put step (.tables m)
    | some _ => none

/-- The assignments of one table in order. -/
def assignAll (ms : Members) : List (List String × String × Item) → Option Members
  | [] => some ms
  | (path, key, item) :: rest => (assign path key item ms).bind (assignAll · rest)

end Members

/-- A heading with the assignments below it. -/
structure Section where
  /-- The names of the heading before its last one. -/
  path : List String
  name : String
  /-- Whether the heading may be repeated, each time for another table. -/
  repeated : Bool
  assignments : List (List String × String × Item)

namespace Members

/-- Adds a section to the document. -/
def addSection (ms : Members) (s : Section) : Option Members :=
  ms.within (fun parent =>
    match s.repeated, parent.get? s.name with
    | true, none => (assignAll [] s.assignments).map fun m => parent.put s.name (.tables m)
    | true, some (.tables _) =>
      (assignAll [] s.assignments).map fun m => parent.put s.name (.tables m)
    | false, none =>
      (assignAll [] s.assignments).map fun m => parent.put s.name (.table .heading m)
    | false, some (.table .implied inner) =>
      (assignAll inner s.assignments).map fun m =>
        (parent.erase s.name).put s.name (.table .heading m)
    | _, _ => none) s.path

/-- **The document** of the assignments before the first heading and of
the sections. -/
def ofSections (top : List (List String × String × Item)) (sections : List Section) :
    Option Members :=
  sections.foldlM addSection =<< assignAll [] top

end Members

end Tenure.Toml
