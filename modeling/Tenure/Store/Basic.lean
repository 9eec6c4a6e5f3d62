import Tenure.Store.Error

/-!
# The versioned store

A finite map from keys to texts with versions. A key starts at version 1
and each write of it adds 1, so a writer who names the version it has read
learns whether anyone wrote in between; a key that is removed and written
again starts over at 1.

Two faults can be armed. While the store is `unavailable` it answers
nothing, and `failingWrites` counts the writes that are still to be
refused. An outage does not use up an armed refusal.

`find?_put` and `find?_erase` are what the map does to a look-up, and
nobody needs to open the list behind it.
-/

namespace Tenure

/-- The longest key in bytes. -/
def Store.maxKeySize : UInt32 := 1024

/-- The longest text in bytes. -/
def Store.maxValueSize : UInt32 := 64 * 1024

/-- A text and its version. -/
structure Store.Entry where
  value : String
  version : UInt64
  deriving DecidableEq, Repr

/-- The entries, and the faults armed against callers. -/
structure Store where
  entries : List (String × Store.Entry) := []
  unavailable : Bool := false
  failingWrites : UInt32 := 0
  deriving DecidableEq, Repr

namespace Store

/-- A store without entries or faults. -/
def empty : Store := {}

/-- The entry of a key. -/
def find? (s : Store) (key : String) : Option Entry :=
  (s.entries.find? (fun e => e.1 = key)).map Prod.snd

/-- The store in which a key has this entry. -/
def put (s : Store) (key : String) (entry : Entry) : Store :=
  { s with entries := (key, entry) :: s.entries.filter (fun e => e.1 ≠ key) }

/-- The store without a key. -/
def erase (s : Store) (key : String) : Store :=
  { s with entries := s.entries.filter (fun e => e.1 ≠ key) }

/-- The entry of a key as a read reports it. -/
def get? (s : Store) (key : String) : Option Versioned :=
  (s.find? key).map fun e => ⟨key, e.value, e.version⟩

/-- The text under a key, whatever faults are armed. -/
def value? (s : Store) (key : String) : Option String := (s.find? key).map (·.value)

/-- The version of a key, whatever faults are armed. -/
def version? (s : Store) (key : String) : Option UInt64 := (s.find? key).map (·.version)

/-- The version after one more write. -/
def nextVersion : Option UInt64 → UInt64
  | none => 1
  | some version => version + 1

/-- Refuses an empty key, a key that is too long and a text that is too
long, in this order. -/
def validate (c : Command) : Except Error Unit :=
  if c.key.isEmpty then .error .emptyKey
  else if c.key.utf8ByteSize > maxKeySize.toNat then
    .error (.keyTooLarge (UInt32.ofNat c.key.utf8ByteSize) maxKeySize)
  else match c.value? with
    | some value =>
      if value.utf8ByteSize > maxValueSize.toNat then
        .error (.valueTooLarge (UInt32.ofNat value.utf8ByteSize) maxValueSize)
      else .ok ()
    | none => .ok ()

/-- What a command does to the entries once nothing refuses it
beforehand. -/
def apply (s : Store) : Command → WriteAnswer × Store
  | .set key value =>
    let version := nextVersion (s.version? key)
    (.ok ⟨some version⟩, s.put key ⟨value, version⟩)
  | .compareAndSwap key expected value =>
    if s.version? key = expected then
      let version := nextVersion (s.version? key)
      (.ok ⟨some version⟩, s.put key ⟨value, version⟩)
    else (.error (.swapFailed key expected (s.get? key)), s)
  | .delete key => (.ok ⟨none⟩, s.erase key)

/-- **A write.** An outage refuses it and nothing else happens; an armed
refusal is used up by it, whether or not the command is valid; only then
is the command judged and applied. -/
def write (s : Store) (c : Command) : WriteAnswer × Store :=
  if s.unavailable then (.error (.unavailable "injected outage"), s)
  else if s.failingWrites ≠ 0 then
    (.error (.unavailable "injected write failure"),
      { s with failingWrites := s.failingWrites - 1 })
  else match validate c with
    | .error e => (.error e, s)
    | .ok () => s.apply c

/-- **A read.** An absent key is a refusal. -/
def read (s : Store) (key : String) : ReadAnswer :=
  if s.unavailable then .error (.unavailable "injected outage")
  else match s.get? key with
    | some entry => .ok ⟨some entry⟩
    | none => .error (.notFound key)

/-- Starts or ends an outage. -/
def setUnavailable (s : Store) (unavailable : Bool) : Store := { s with unavailable }

/-- Arms the refusal of the next writes. -/
def failNextWrites (s : Store) (count : UInt32) : Store := { s with failingWrites := count }

/-! ## Look-ups -/

@[simp] theorem find?_empty (key : String) : empty.find? key = none := rfl

theorem find?_put (s : Store) (key other : String) (entry : Entry) :
    (s.put key entry).find? other = if other = key then some entry else s.find? other := by
  by_cases h : other = key
  · simp [find?, put, h]
  · have hk : ¬ key = other := fun e => h e.symm
    simp only [find?, put, List.find?_cons, hk, decide_false, h, if_false]
    rw [List.find?_filter]
    congr 2
    funext e
    by_cases he : e.1 = other <;> simp [he, h]

theorem find?_erase (s : Store) (key other : String) :
    (s.erase key).find? other = if other = key then none else s.find? other := by
  by_cases h : other = key
  · simp [find?, erase, h, List.find?_filter]
  · simp only [find?, erase, h, if_false]
    rw [List.find?_filter]
    congr 2
    funext e
    by_cases he : e.1 = other <;> simp [he, h]

end Store

end Tenure
