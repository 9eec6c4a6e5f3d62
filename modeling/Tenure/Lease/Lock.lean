import Tenure.Lease.Error
import Tenure.Lease.Wire
import Tenure.Notice
import Tenure.Store.Basic

/-!
# The lease lock

A lock is a handle on one lease in the store. Its three operations all go
the same way: read the clock, read the record, decide, and write the new
record only if the entry still has the version that was read. Between these
steps anything may happen to the entry, so an **operation** is not a
function of the store but a pair of decisions, one for each answer of the
store. Whoever runs it chooses what happens in between; `Operation.perform`
is the run in which nothing does.

No write is ever blind. The decision after the read names the version that
the write expects, and a swap that another writer beat is answered by the
entry that is there now.
-/

namespace Tenure.Lease

/-- A handle on a lease: its key, and how long each term of it lasts
without renewal. -/
structure Lock where
  key : String
  duration : UInt64
  deriving DecidableEq, Repr

/-- The answer to an attempt to acquire the lease. -/
inductive AcquireOutcome where
  | acquired (term : Term) (deadline : UInt64)
  /-- Another identity has it until the deadline. -/
  | heldByOther (holder : String) (deadline : UInt64)
  deriving DecidableEq, Repr

/-- The answer to a renewal. -/
inductive RenewOutcome where
  | renewed (deadline : UInt64)
  /-- The lease is not the caller's any more; the holder, if there is one. -/
  | lost (holder : Option String)
  deriving DecidableEq, Repr

/-- The answer to a release. -/
inductive ReleaseOutcome where
  | released
  /-- There was nothing to give back. -/
  | alreadyReleased
  deriving DecidableEq, Repr

/-- What an operation does once it knows the record: end, or swap the entry
of the expected version for a new record. -/
inductive Decision (α : Type) where
  | done (result : Except Error α)
  | swap (expected : Option UInt64) (record : Record)

/-- **An operation on a lease**, as the decisions it takes. Each comes with
the notices it gives. -/
structure Operation (α : Type) where
  /-- What follows from the clock reading and the store's answer to the
  read. -/
  onRead : UInt64 → Store.ReadAnswer → Decision α × List Notice
  /-- What follows from the store's answer to the swap for this record. -/
  onSwap : Record → Store.WriteAnswer → Except Error α × List Notice

namespace Lock

/-- The handle on the lease of this name. -/
def of (namespaceName name : String) (duration : UInt64) : Lock :=
  ⟨Lease.key namespaceName name, duration⟩

/-- **The record that a stored text stands for.** The version of the layout
comes first; a text of another version is not looked at further. -/
def decode (l : Lock) (text : String) : Except Error Record :=
  match Record.readSchema.parse text with
  | .error e => .error (.corruptedRecord l.key e.message)
  | .ok schema =>
    if schema ≠ schemaVersion then .error (.unsupportedSchema l.key schema schemaVersion)
    else match Record.read.parse text with
      | .error e => .error (.corruptedRecord l.key e.message)
      | .ok record => .ok record

/-- The record and its version, from the store's answer to a read. An entry
that is not found is no failure. -/
def current (l : Lock) : Store.ReadAnswer → Except Error (Option (Record × UInt64))
  | .ok ⟨none⟩ => .ok none
  | .ok ⟨some entry⟩ => (l.decode entry.value).map fun record => some (record, entry.version)
  | .error (.notFound _) => .ok none
  | .error e => .error (.storage l.key e)

/-- What the store's answer to a swap says: done, or the entry that was
there instead. -/
def swapped (l : Lock) : Store.WriteAnswer → Except Error (Except (Option Store.Versioned) Unit)
  | .ok _ => .ok (.ok ())
  | .error (.swapFailed _ _ actual) => .ok (.error actual)
  | .error e => .error (.storage l.key e)

/-- The record of the entry that won a race, if it left one. -/
def decodeActual (l : Lock) : Option Store.Versioned → Except Error (Option Record)
  | none => .ok none
  | some entry => (l.decode entry.value).map some

/-- The command that writes a record over the expected version. -/
def swapCommand (l : Lock) (expected : Option UInt64) (record : Record) : Store.Command :=
  .compareAndSwap l.key expected record.text

/-- **Acquires the lease** if it is absent, given back, expired, or carries
the caller's own identity, which is how a holder that lost track of its
term finds back. The new term is one above the stored one. -/
def acquire (l : Lock) (identity : String) : Operation AcquireOutcome where
  onRead now answer :=
    match l.current answer with
    | .error e => (.done (.error e), [])
    | .ok none => (.swap none (.acquired identity (nextTerm none) l.duration now), [])
    | .ok (some (record, version)) =>
      if !record.isReleased && !record.isExpiredAt now && record.holder ≠ identity then
        (.done (.ok (.heldByOther record.holder record.deadline)), [])
      else
        (.swap (some version) (.acquired identity (nextTerm (some record.term)) l.duration now),
          if record.isReleased then []
          else [.debug .lock "taking over lease" [("key", .plain l.key),
            ("previous_holder", .plain record.holder),
            ("previous_term", .number record.term.toNat)]])
  onSwap record answer :=
    match l.swapped answer with
    | .error e => (.error e, [])
    | .ok (.ok ()) =>
      (.ok (.acquired ⟨record.term⟩ record.deadline),
        [.debug .lock "lease acquired" [("key", .plain l.key), ("identity", .quoted record.holder),
          ("term", .number record.term.toNat),
          ("lease_duration_ms", .number l.duration.toNat)]])
    | .ok (.error actual) =>
      match l.decodeActual actual with
      | .error e => (.error e, [])
      | .ok none => (.ok (.heldByOther "" 0), [])
      | .ok (some winner) => (.ok (.heldByOther winner.holder winner.deadline), [])

/-- The holder of a record, if it has one. -/
def holder? (record : Record) : Option String :=
  if record.holder.isEmpty then none else some record.holder

/-- **Renews the lease** if the stored record is the caller's, of this term
and not expired. -/
def renew (l : Lock) (identity : String) (term : Term) : Operation RenewOutcome where
  onRead now answer :=
    match l.current answer with
    | .error e => (.done (.error e), [])
    | .ok none => (.done (.ok (.lost none)), [])
    | .ok (some (record, version)) =>
      if !record.isHeldBy identity term then (.done (.ok (.lost (holder? record))), [])
      -- others may take an expired lease at any moment
      else if record.isExpiredAt now then (.done (.ok (.lost (some record.holder))), [])
      else (.swap (some version) (record.renewed now), [])
  onSwap record answer :=
    match l.swapped answer with
    | .error e => (.error e, [])
    | .ok (.ok ()) =>
      (.ok (.renewed record.deadline),
        [.debug .lock "lease renewed" [("key", .plain l.key), ("identity", .quoted identity),
          ("term", .number term.value.toNat)]])
    | .ok (.error actual) =>
      match l.decodeActual actual with
      | .error e => (.error e, [])
      | .ok winner => (.ok (.lost (winner.bind holder?)), [])

/-- **Gives the lease back** if the stored record is the caller's, of this
term. An expired lease can still be given back. -/
def release (l : Lock) (identity : String) (term : Term) : Operation ReleaseOutcome where
  onRead _ answer :=
    match l.current answer with
    | .error e => (.done (.error e), [])
    | .ok none => (.done (.ok .alreadyReleased), [])
    | .ok (some (record, version)) =>
      if record.isHeldBy identity term then (.swap (some version) record.released, [])
      else (.done (.ok .alreadyReleased), [])
  onSwap _ answer :=
    match l.swapped answer with
    | .error e => (.error e, [])
    | .ok (.ok ()) =>
      (.ok .released,
        [.debug .lock "lease released" [("key", .plain l.key), ("identity", .quoted identity),
          ("term", .number term.value.toNat)]])
    | .ok (.error _) =>
      (.ok .alreadyReleased,
        [.warn .lock "lease release raced with another writer" [("key", .plain l.key),
          ("identity", .quoted identity), ("term", .number term.value.toNat)]])

end Lock

/-- **An operation on a store that nobody else touches.** -/
def Operation.perform {α : Type} (op : Operation α) (l : Lock) (now : UInt64) (s : Store) :
    Except Error α × Store :=
  match (op.onRead now (s.read l.key)).1 with
  | .done result => (result, s)
  | .swap expected record =>
    let (answer, after) := s.write (l.swapCommand expected record)
    ((op.onSwap record answer).1, after)

/-- What such an operation says. -/
def Operation.notices {α : Type} (op : Operation α) (l : Lock) (now : UInt64) (s : Store) :
    List Notice :=
  match op.onRead now (s.read l.key) with
  | (.done _, said) => said
  | (.swap expected record, said) =>
    said ++ (op.onSwap record (s.write (l.swapCommand expected record)).1).2

end Tenure.Lease
