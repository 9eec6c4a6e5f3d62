import Tenure.Lease.Record

/-!
# What a candidate shows of its election

A candidate publishes its state, and tells the one consumer of its events
when a leadership period begins and when it ends. Both are values here;
`Tenure.Election.Elector` produces them.
-/

namespace Tenure.Election

/-- The timings of an election, in milliseconds. -/
structure Timing where
  /-- How long a lease protects its holder without renewal. -/
  leaseDuration : UInt64 := 15000
  /-- How often a leader renews. -/
  renewInterval : UInt64 := 5000
  /-- From one attempt to acquire the lease to the next. -/
  retryPeriod : UInt64 := 2000
  /-- The share of a delay that chance may add to it. -/
  jitterFactor : Float := 0.2
  /-- The longest delay after failed attempts. -/
  maxBackoff : UInt64 := 30000

/-- Where a candidate stands. -/
inductive State where
  /-- Not leading, and waiting before the next attempt. -/
  | standby
  /-- An attempt is under way. -/
  | acquiring
  | leading (term : Term)
  /-- Leadership has ended; work is drained and the lease given back. -/
  | released
  deriving DecidableEq, Repr

namespace State

/-- Whether the candidate leads. -/
def isLeader : State → Bool
  | leading _ => true
  | _ => false

/-- The term of a leader. -/
def term? : State → Option Term
  | leading term => some term
  | _ => none

/-- The state after an attempt that was answered. -/
def afterAcquire : Option Term → State
  | some term => leading term
  | none => standby

end State

/-- Why a leadership period ended. -/
inductive LossReason where
  /-- Another candidate has the lease. -/
  | superseded
  /-- A renewal failed, or it is not known whether it did. -/
  | renewFailed
  /-- The candidate was told to stop. -/
  | shutdown
  deriving DecidableEq, Repr

/-- The name of a reason in notices. -/
def LossReason.name : LossReason → String
  | superseded => "Superseded"
  | renewFailed => "RenewFailed"
  | shutdown => "Shutdown"

/-- A change of leadership. -/
inductive Event where
  /-- A leadership period begins. -/
  | becameLeader (term : Term)
  /-- It has ended. The lease is kept until the consumer confirms that the
  work of the term has stopped. -/
  | lostLeadership (term : Term) (reason : LossReason)
  deriving DecidableEq, Repr

/-- The term that an event is about. -/
def Event.term : Event → Term
  | becameLeader term => term
  | lostLeadership term _ => term

end Tenure.Election
