import Tenure.Simulation.Line

/-!
# What else happens

Things that happen around electors and replicas: faults on the line, other
clients that write the lease's entry, rivals that contend for the lease by
a way of their own, and jumps of the clock.
-/

namespace Tenure.Simulation

open Lease (Lock Operation)

/-- One thing that happens. Entries and rivals are those of one lease. -/
inductive Happening where
  | fault (f : Store.Fault)
  | clockJump (ms : UInt64)
  | put (text : String)
  | remove
  /-- Happens just before the next write. -/
  | racePut (text : String)
  | raceRemove
  | rivalAcquire (identity : String) (duration : UInt64)
  | rivalRenew (identity : String) (term : Term) (duration : UInt64)
  | rivalRelease (identity : String) (term : Term)
  /-- Looks at the lease's entry. -/
  | stored

/-- What comes of it. -/
inductive Response where
  | nothing
  | written (a : Store.WriteAnswer)
  | clock (c : UInt64)
  | acquired (r : Except Lease.Error Lease.AcquireOutcome)
  | renewed (r : Except Lease.Error Lease.RenewOutcome)
  | released (r : Except Lease.Error Lease.ReleaseOutcome)
  | entry (e : Option (String × UInt64))

namespace Line

/-- The entry of a key as text and version. -/
def stored (l : Line) (key : String) : Option (String × UInt64) :=
  (l.channel.store.find? key).map fun e => (e.value, e.version)

/-- A write of another client. -/
def write (l : Line) (c : Store.Command) : Store.WriteAnswer × Line :=
  let (a, store) := l.channel.store.write c
  (a, { l with channel := { l.channel with store } })

/-- A call of a rival, and what it says. -/
def rival {α : Type} (l : Line) (now : Nat) (lock : Lock) (op : Operation α) :
    Except Lease.Error α × List Notice × Line :=
  let clock := l.clock now
  let (r, store) := op.perform lock clock l.channel.store
  (r, op.notices lock clock l.channel.store, { l with channel := { l.channel with store } })

/-- Lets something happen. A jump of the clock answers its new reading, a
look at the entry what it shows; only rivals say anything. -/
def happen (l : Line) (now : Nat) (key : String) : Happening → Response × List Notice × Line
  | .fault f =>
    let (a, channel) := l.channel.apply f
    ((a.map Response.written).getD .nothing, [], { l with channel })
  | .clockJump ms =>
    let l := l.jump ms
    (.clock (l.clock now), [], l)
  | .put text =>
    let (a, l) := l.write (.set key text)
    (.written a, [], l)
  | .remove =>
    let (a, l) := l.write (.delete key)
    (.written a, [], l)
  | .racePut text =>
    (.nothing, [], { l with channel := (l.channel.apply (.race (.set key text))).2 })
  | .raceRemove =>
    (.nothing, [], { l with channel := (l.channel.apply (.race (.delete key))).2 })
  | .rivalAcquire identity duration =>
    let lock : Lock := ⟨key, duration⟩
    let (r, after) := l.rival now lock (lock.acquire identity)
    (.acquired r, after)
  | .rivalRenew identity term duration =>
    let lock : Lock := ⟨key, duration⟩
    let (r, after) := l.rival now lock (lock.renew identity term)
    (.renewed r, after)
  | .rivalRelease identity term =>
    let lock : Lock := ⟨key, 0⟩
    let (r, after) := l.rival now lock (lock.release identity term)
    (.released r, after)
  | .stored => (.entry (l.stored key), [], l)

end Line

end Tenure.Simulation
