import Tenure.Simulation.ReplicaTrial

/-!
# A bare replica that runs for a while

One replica that only leads, started on a prepared store and told to stop
at a moment. The clock stands still while time passes, so no lease
expires.
-/

namespace Tenure.Simulation

/-- What an entry says of a lease, whatever its form. -/
structure Glance where
  holder : Json.Value
  term : Json.Value
  duration : Json.Value
  /-- Whether the deadline is zero. -/
  givenBack : Bool

/-- A glance at an entry's text, if it is JSON. -/
def Glance.ofText (text : String) : Option Glance :=
  (Json.Value.parse text).map fun v =>
    ⟨v.member "holder_identity", v.member "term", v.member "lease_duration_ms",
      (v.member "deadline_ms").isZero⟩

/-- What came of it. -/
structure FreeRun where
  result : Option (Except RunError Unit)
  observed : List Observation
  /-- The version of the lease's entry when the replica was told to
  stop. -/
  versionBefore : Option UInt64
  version : Option UInt64
  record : Option Glance

/-- A reading of the clock in the present. -/
def presentClock : UInt64 := 1750000000000

/-- **Runs a bare replica** until some time after it is told to stop. -/
def freeRun (c : Coordinator) (setup : List Happening) (cancelAt : Nat) : FreeRun :=
  let key := c.candidate.lock.key
  let line : Line := { clockBase := presentClock, clockStands := true }
  let rep : Replica :=
    { id := c.config.identity, coordinator := c, queue := 0, observer := some {} }
  let t : ReplicaTrial := { key, line, queues := [{}], replicas := [rep] }
  let t := setup.foldl ReplicaTrial.prepare t
  let t := ReplicaTrial.world.runTo cancelAt (t.start 0)
  let before := (t.line.stored key).map (·.2)
  let t := (t.cancel 0).awaitReturn 0
  let entry := t.line.stored key
  { result := (t.returned? 0).map (·.result)
    observed := (t.replicas.flatMap fun rep => rep.observed.toList)
    versionBefore := before
    version := entry.map (·.2)
    record := entry.bind fun e => Glance.ofText e.1 }

end Tenure.Simulation
