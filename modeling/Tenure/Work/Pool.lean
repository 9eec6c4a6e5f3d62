import Tenure.Notice
import Tenure.Pause
import Tenure.Work.Queue

/-!
# Worker pools

A pool of workers that take keys from a queue, one at a time, and have
each reconciled. Which key a worker gets, how long a reconcile takes and
how it ends is decided outside; `Pool.step` says what a worker does then.

A reconcile that fails starts a timer that adds its key again after a
while. Workers and timers are the **members** of a pool, and the pool is
empty when no member is left: a pool that is told to stop keeps its timers
from firing and its workers from taking another key, but a reconcile that
is under way runs to its end.

A worker counts as live from before its start to its end, however it ends.
-/

namespace Tenure.Work

/-- How a reconcile ended. -/
inductive Reconciled where
  | ok
  | failed (message : String)
  /-- It brought its worker down. -/
  | crashed
  deriving DecidableEq, Repr

/-- The failure to reconcile a key. -/
def reconcileError (key message : String) : String :=
  "failed to reconcile '" ++ key ++ "': " ++ message

/-- Where a worker stands. -/
inductive Worker where
  | created
  | seeking (s : Seeker)
  | reconciling (key : String)
  | ended
  deriving DecidableEq, Repr, Inhabited

/-- A timer that adds a key again when it is due. -/
structure Requeue where
  id : Nat
  key : String
  due : Nat
  deriving DecidableEq, Repr

/-- The workers of one leadership period. -/
structure Pool where
  /-- The first worker's number among the callers of the queue; the others
  follow it. -/
  base : Nat
  /-- How long a key rests after its reconcile failed. -/
  requeueDelay : Nat
  workers : List Worker
  requeues : List Requeue := []
  /-- The number of the next timer. -/
  nextRequeue : Nat := 0
  /-- The workers that count as live. -/
  active : Nat
  /-- Whether the pool was told to stop. -/
  cancelled : Bool := false
  deriving Repr

/-- What a pool does besides changing the queue. -/
inductive PoolAction where
  | note (n : Notice)
  /-- A worker begins to reconcile a key. -/
  | reconcile (worker : Nat) (key : String)
  /-- A timer begins to run. -/
  | startRequeue (id : Nat)
  /-- A worker does not count as live any more. -/
  | retire (worker : Nat)
  deriving DecidableEq, Repr

/-- What arrives at a pool. -/
inductive PoolInput where
  /-- A worker is started. -/
  | begin (worker : Nat)
  /-- A worker that wants a key takes a step at the queue; `wakeFirst` as
  there. -/
  | seek (worker : Nat) (wakeFirst : Bool)
  /-- The reconcile of a worker has ended. -/
  | returned (worker : Nat) (result : Reconciled)
  /-- A timer is due. -/
  | requeueDue (id : Nat)
  /-- A timer learns that the pool was told to stop. -/
  | requeueStopped (id : Nat)
  /-- The pool is told to stop. -/
  | cancel

namespace Pool

/-- A pool of so many workers, none of them started. -/
def start (base requeueDelay workerCount : Nat) : Pool where
  base := base
  requeueDelay := requeueDelay
  workers := List.replicate workerCount .created
  active := workerCount

/-- What a starting pool says. -/
def startNotice (workerCount : Nat) : Notice :=
  .info .workers "starting controller workers" [("worker_count", .number workerCount)]

/-- What a pool says when no member is left. -/
def stopNotice (workerCount : Nat) : Notice :=
  .info .workers "controller workers stopped" [("worker_count", .number workerCount)]

/-- Whether no member is left. -/
def isEmpty (p : Pool) : Bool :=
  p.requeues.isEmpty && p.workers.all fun w => w = .ended

/-- The number by which the queue knows a worker. -/
def caller (p : Pool) (worker : Nat) : Nat := p.base + worker

/-- How a notice names a worker. -/
def workerDatum (i : Nat) : String × Datum := ("worker", .number i)

/-- The end of a worker. -/
def endWorker (p : Pool) (i : Nat) : Pool :=
  { p with workers := p.workers.set i .ended, active := p.active - 1 }

/-- A worker after its step at the queue. -/
def sought (p : Pool) (i : Nat) : Seeker → Pool × List PoolAction
  | .found key =>
    ({ p with workers := p.workers.set i (.reconciling key) }, [.reconcile i key])
  | .gone => (p.endWorker i, [.note (.debug .workers "worker exiting" [workerDatum i]), .retire i])
  | s => ({ p with workers := p.workers.set i (.seeking s) }, [])

/-- **One step of a pool** on its queue. `told` says whether whoever
started the pool has been told to stop. `none` if the input is not one that
is waited for. -/
def step (q : Queue) (time : Nat) (told : Bool) (p : Pool) :
    PoolInput → Option (Queue × Pool × List PoolAction)
  | .begin i =>
    match p.workers[i]? with
    | some .created =>
      some (q, { p with workers := p.workers.set i (.seeking .looking) },
        [.note (.debug .workers "worker started" [workerDatum i])])
    | _ => none
  | .seek i wakeFirst =>
    match p.workers[i]? with
    | some (.seeking s) =>
      let (q, s) := q.seek (p.caller i) (p.cancelled || told) wakeFirst s
      let (p, actions) := p.sought i s
      some (q, p, actions)
    | _ => none
  | .returned i result =>
    match p.workers[i]? with
    | some (.reconciling key) =>
      match result with
      | .ok =>
        some (q, { p with workers := p.workers.set i (.seeking .looking) },
          [.note (.debug .workers "reconciled" [workerDatum i, ("key", .plain key)])])
      | .failed message =>
        let timer : Requeue := ⟨p.nextRequeue, key, pauseEnd time p.requeueDelay⟩
        some (q,
          { p with
            workers := p.workers.set i (.seeking .looking)
            requeues := p.requeues ++ [timer]
            nextRequeue := p.nextRequeue + 1 },
          [.note (.warn .workers "reconcile failed" [workerDatum i,
            ("error", .plain (reconcileError key message)),
            ("retry_in_ms", .number p.requeueDelay)]), .startRequeue timer.id])
      | .crashed => some (q, p.endWorker i, [.retire i])
    | _ => none
  | .requeueDue id =>
    match p.requeues.find? (fun r => r.id = id && r.due ≤ time) with
    | some timer =>
      some ((q.add timer.key).1, { p with requeues := p.requeues.filter (·.id ≠ id) }, [])
    | none => none
  | .requeueStopped id =>
    if (p.cancelled || told) && p.requeues.any (·.id = id) then
      some (q, { p with requeues := p.requeues.filter (·.id ≠ id) }, [])
    else none
  | .cancel => some (q, { p with cancelled := true }, [])

end Pool

end Tenure.Work
