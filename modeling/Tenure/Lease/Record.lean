import Tenure.Lease.Timing

/-!
# Lease records

What is stored for a lease: who holds it, in which term, since when and
until when. A record is never edited in place. It is `acquired` for a new
term, `renewed` with a later deadline, or `released`, and the last two keep
the term and the moment of acquisition, so the term survives the holder and
the next holder can count on from it.
-/

namespace Tenure

/-- **A leadership term**, counted up with every acquisition. Work done for
a term can be refused by whoever has seen a later one. -/
structure Term where
  value : UInt64
  deriving DecidableEq, Repr, Inhabited

namespace Term

/-- Terms are ordered by their numbers. -/
def compare (a b : Term) : Ordering := Ord.compare a.value b.value

/-- The number in decimal. -/
def text (t : Term) : String := toString t.value.toNat

end Term

namespace Lease

/-- The layout of records that this library writes and reads. -/
def schemaVersion : UInt32 := 1

/-- A stored lease. -/
structure Record where
  schema : UInt32
  /-- Who holds the lease; empty once it is given back. -/
  holder : String
  term : UInt64
  acquiredAt : UInt64
  renewedAt : UInt64
  duration : UInt64
  /-- The last moment of the lease; zero once it is given back. -/
  deadline : UInt64
  deriving DecidableEq, Repr, Inhabited

namespace Record

/-- The record of a term that begins now. -/
def acquired (holder : String) (term duration now : UInt64) : Record where
  schema := schemaVersion
  holder := holder
  term := term
  acquiredAt := now
  renewedAt := now
  duration := duration
  deadline := Saturating.add now duration

/-- The same holder and term with the deadline moved ahead of `now`. -/
def renewed (r : Record) (now : UInt64) : Record :=
  { r with renewedAt := now, deadline := Saturating.add now r.duration }

/-- The same term without a holder. -/
def released (r : Record) : Record := { r with holder := "", deadline := 0 }

/-- Whether the lease was given back. -/
def isReleased (r : Record) : Bool := r.holder.isEmpty || r.deadline = 0

/-- Whether the lease no longer protects its holder at `now`. -/
def isExpiredAt (r : Record) (now : UInt64) : Bool := isExpired r.deadline now

/-- Whether this identity holds this term. -/
def isHeldBy (r : Record) (identity : String) (term : Term) : Bool :=
  !r.isReleased && r.holder = identity && r.term = term.value

@[simp] theorem term_renewed (r : Record) (now : UInt64) : (r.renewed now).term = r.term := rfl

@[simp] theorem holder_renewed (r : Record) (now : UInt64) :
    (r.renewed now).holder = r.holder := rfl

@[simp] theorem term_released (r : Record) : r.released.term = r.term := rfl

@[simp] theorem acquiredAt_released (r : Record) : r.released.acquiredAt = r.acquiredAt := rfl

/-- A record that is given back counts as such. -/
@[simp] theorem isReleased_released (r : Record) : r.released.isReleased = true := by
  simp [released, isReleased]

/-- Nobody holds a record that is given back. -/
theorem not_isHeldBy_of_isReleased {r : Record} (h : r.isReleased = true) (identity : String)
    (term : Term) : r.isHeldBy identity term = false := by
  simp [isHeldBy, h]

end Record

end Lease

end Tenure
