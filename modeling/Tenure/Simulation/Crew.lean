import Tenure.Simulation.Scheduler
import Tenure.Work.Pool

/-!
# The members of a pool in virtual time

How long reconciles take and how they end is laid down by a script, and
each of them is entered in a log. A **crew** is what there is to know of a
pool's members besides the pool itself: the reconciles under way, and who
watches for the end of the pool since when.
-/

namespace Tenure.Simulation

open Work (Pool PoolInput Queue Reconciled)

/-- One attempt to reconcile a key. -/
structure Attempt where
  duration : Nat := 0
  /-- It goes on until it is told to stop. -/
  blocks : Bool := false
  result : Reconciled := .ok
  /-- How it ends if it is told to stop. -/
  whenStopped : Reconciled := .ok
  /-- It does not listen when it is told to stop. -/
  stubborn : Bool := false

/-- The end of an attempt. -/
structure Conclusion where
  time : Nat
  result : Reconciled
  /-- Whether it was cut short. -/
  cut : Bool

/-- The record of an attempt. -/
structure WorkEntry where
  key : String
  start : Nat
  finish : Option Conclusion := none

/-- The attempts still to come, key by key, and the record of those made. -/
structure WorkLog where
  script : List (String × List Attempt) := []
  /-- The attempt at a key that has none left. -/
  standard : Attempt := {}
  entries : Array WorkEntry := #[]

namespace WorkLog

/-- The next attempt at a key, which begins now. -/
def begin (l : WorkLog) (now : Nat) (key : String) : Attempt × WorkLog :=
  let attempt := ((l.script.lookup key).bind List.head?).getD l.standard
  let script := l.script.map fun (k, attempts) =>
    if k = key then (k, attempts.tail) else (k, attempts)
  (attempt, { l with script, entries := l.entries.push ⟨key, now, none⟩ })

/-- Enters the end of an attempt. -/
def close (l : WorkLog) (entry : Nat) (c : Conclusion) : WorkLog :=
  { l with entries := l.entries.modify entry fun e => { e with finish := some c } }

end WorkLog

/-- A worker, or a timer that adds a key again. -/
inductive Member where
  | worker (i : Nat)
  | requeue (id : Nat)
  deriving DecidableEq

/-- An attempt under way. -/
structure Toil where
  worker : Nat
  /-- The place of its record. -/
  entry : Nat
  attempt : Attempt
  due : Nat

namespace Toil

/-- Whether it ends when it is told to stop. -/
def heeds (t : Toil) : Bool := t.attempt.blocks || !t.attempt.stubborn

/-- Whether and how it ends now. One that takes no time does not notice
that it is told to stop. -/
def conclusion? (t : Toil) (now : Nat) (stopped : Bool) : Option Conclusion :=
  if !t.attempt.blocks && t.attempt.duration = 0 then some ⟨now, t.attempt.result, false⟩
  else if stopped && t.heeds then some ⟨now, t.attempt.whenStopped, true⟩
  else if !t.attempt.blocks && t.due ≤ now then some ⟨now, t.attempt.result, false⟩
  else none

/-- When it ends by itself. -/
def due? (t : Toil) : Option Nat := if t.attempt.blocks then none else some t.due

end Toil

/-- The reconciles under way, and the members that watch for the end of
the pool, those that have watched longest first. -/
structure Crew where
  toils : List Toil := []
  watching : List Member := []

namespace Crew

/-- The reconcile of a worker. -/
def toil? (c : Crew) (i : Nat) : Option Toil := c.toils.find? (·.worker = i)

/-- A worker begins to reconcile a key. -/
def begin (c : Crew) (l : WorkLog) (now i : Nat) (key : String) : Crew × WorkLog :=
  let (attempt, after) := l.begin now key
  ({ c with toils := ⟨i, l.entries.size, attempt, pauseEnd now attempt.duration⟩ :: c.toils },
    after)

/-- **What a member does next**, if it does not have to wait. `stopped`
says whether the pool was told to stop; a worker that was woken and told
to stop at one moment notices that it was woken. -/
def next (c : Crew) (l : WorkLog) (p : Pool) (q : Queue) (now : Nat) (stopped : Bool) :
    Member → Option (PoolInput × Crew × WorkLog)
  | .worker i =>
    match p.workers[i]? with
    | some .created => some (.begin i, c, l)
    | some (.seeking .listening) =>
      if stopped || q.woken.contains (p.caller i) then some (.seek i true, c, l) else none
    | some (.seeking _) => some (.seek i true, c, l)
    | some (.reconciling _) =>
      match c.toil? i with
      | none => none
      | some toil =>
        (toil.conclusion? now stopped).map fun done =>
          (.returned i done.result,
            { c with toils := c.toils.filter fun t => t.worker ≠ i },
            l.close toil.entry done)
    | _ => none
  | .requeue id =>
    match p.requeues.find? (·.id = id) with
    | none => none
    | some timer =>
      if stopped then some (.requeueStopped id, c, l)
      else if timer.due ≤ now then some (.requeueDue id, c, l)
      else none

/-- When a member that waits goes on by itself. -/
def due? (c : Crew) (p : Pool) : Member → Option Nat
  | .worker i =>
    match p.workers[i]? with
    | some (.reconciling _) => (c.toil? i).bind Toil.due?
    | _ => none
  | .requeue id => (p.requeues.find? (·.id = id)).map (·.due)

/-- Whether a member that waits is woken by the end of the pool. -/
def watches (c : Crew) (p : Pool) : Member → Bool
  | .worker i =>
    match p.workers[i]? with
    | some (.seeking _) => true
    | some (.reconciling _) => ((c.toil? i).map Toil.heeds).getD false
    | _ => false
  | .requeue id => p.requeues.any (·.id = id)

/-- A member goes on, and watches nothing meanwhile. -/
def leave (c : Crew) (m : Member) : Crew :=
  { c with watching := c.watching.filter fun w => w ≠ m }

/-- A member has to wait. -/
def wait (c : Crew) (p : Pool) (m : Member) : Crew :=
  if c.watches p m && !c.watching.contains m then { c with watching := c.watching ++ [m] }
  else c

end Crew

end Tenure.Simulation
