import Tenure.Lease.Lock
import Tenure.Store.Channel

/-!
# A session with locks

Several locks over one store, with a clock that is moved by hand and the
faults of a channel. Calls come one after the other and take no time.
-/

namespace Tenure.Simulation

open Lease Store

/-- The locks of a session, their store and their clock. -/
structure LockSession where
  locks : List Lock
  channel : Channel := {}
  clock : UInt64

namespace LockSession

/-- An operation through the channel. `none` means that the call brought
its caller down. -/
def perform {α : Type} (s : LockSession) (l : Lock) (op : Operation α) :
    Option (Except Lease.Error α) × LockSession :=
  let now := s.clock
  let (ask, channel) := s.channel.beginRead
  match channel.finishRead ask l.key with
  | none => (none, { s with channel })
  | some answer =>
    match (op.onRead now answer).1 with
    | .done result => (some result, { s with channel })
    | .swap expected record =>
      let (order, channel) := channel.beginWrite
      match channel.finishWrite order (l.swapCommand expected record) with
      | (none, channel) => (none, { s with channel })
      | (some answer, channel) =>
        (some (op.onSwap record answer).1,
          { s with channel, clock := s.clock + order.clockJump })

/-- Reads the record of a lock. -/
def readRecord (s : LockSession) (l : Lock) :
    Option (Except Lease.Error (Option (Record × UInt64))) × LockSession :=
  let (ask, channel) := s.channel.beginRead
  ((channel.finishRead ask l.key).map l.current, { s with channel })

/-- The entry of a lock's key as text and version. -/
def stored (s : LockSession) (l : Lock) : Option (String × UInt64) :=
  (s.channel.store.find? l.key).map fun e => (e.value, e.version)

end LockSession

end Tenure.Simulation
