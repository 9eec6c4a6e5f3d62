import Tenure.Simulation.Crew
import Tenure.Simulation.QueueTrial

/-!
# Pools in virtual time

Pools of workers on one queue, started and stopped one by one. They count
their live workers together, and one parent can stop them all.
-/

namespace Tenure.Simulation

open Work (Pool PoolAction PoolInput Queue)

/-- A pool that was started, with its crew. -/
structure StartedPool where
  pool : Pool
  crew : Crew := {}
  /-- Whether its end has been awaited. -/
  stopped : Bool := false

/-- A trial under way. -/
structure PoolTrial where
  queue : Queue := {}
  log : WorkLog := {}
  requeueDelay : Nat := 1000
  /-- Where the counter of live workers started. -/
  counterStart : UInt64 := 0
  pools : List StartedPool := []
  /-- Whether the parent was told to stop. -/
  told : Bool := false
  scheduler : Scheduler (Nat × Member) := {}
  notices : Array (Nat × Notice) := #[]

namespace PoolTrial

def now (t : PoolTrial) : Nat := t.scheduler.now

/-- The counter of live workers. -/
def counter (t : PoolTrial) : UInt64 :=
  t.counterStart + UInt64.ofNat (t.pools.foldl (fun n s => n + s.pool.active) 0)

def note (t : PoolTrial) (n : Notice) : PoolTrial :=
  { t with notices := t.notices.push (t.now, n) }

/-- The member that the queue knows by a number. -/
def member? (t : PoolTrial) (caller : Nat) : Option (Nat × Member) :=
  (t.pools.zipIdx.find? fun (s, _) =>
    s.pool.base ≤ caller && caller < s.pool.base + s.pool.workers.length).map fun (s, i) =>
      (i, .worker (caller - s.pool.base))

/-- Puts a changed queue in place and wakes the workers that it woke. -/
def changeQueue (t : PoolTrial) (queue : Queue) : PoolTrial :=
  { t with
    queue
    scheduler := t.scheduler.wakeAll ((newlyWoken t.queue queue).filterMap t.member?) }

/-- Puts a changed pool in place. -/
def setPool (t : PoolTrial) (i : Nat) (s : StartedPool) : PoolTrial :=
  { t with pools := t.pools.set i s }

/-- Does what a pool wants done. -/
def perform (i : Nat) (t : PoolTrial) : PoolAction → PoolTrial
  | .note n => t.note n
  | .reconcile worker key =>
    match t.pools[i]? with
    | none => t
    | some s =>
      let (crew, log) := s.crew.begin t.log t.now worker key
      { t with log }.setPool i { s with crew }
  | .startRequeue id => { t with scheduler := t.scheduler.wake (i, .requeue id) }
  | .retire _ => t

/-- Gives a pool an input. -/
def give (t : PoolTrial) (i : Nat) (s : StartedPool) (input : PoolInput) : PoolTrial :=
  match Pool.step t.queue t.now t.told s.pool input with
  | none => t.setPool i s
  | some (queue, pool, actions) =>
    actions.foldl (perform i) ((t.changeQueue queue).setPool i { s with pool })

/-- A member goes on as far as it can. -/
def poll (i : Nat) (m : Member) : Nat → PoolTrial → PoolTrial
  | 0, t => t
  | fuel + 1, t =>
    match t.pools[i]? with
    | none => t
    | some s =>
      match s.crew.next t.log s.pool t.queue t.now (t.told || s.pool.cancelled) m with
      | some (input, crew, log) =>
        poll i m fuel ({ t with log }.give i { s with crew := crew.leave m } input)
      | none =>
        let t := t.setPool i { s with crew := s.crew.wait s.pool m }
        { t with scheduler := t.scheduler.setTimer (i, m) (s.crew.due? s.pool m) }

/-- The world of a trial. -/
def world : World PoolTrial (Nat × Member) where
  scheduler := (·.scheduler)
  schedule t scheduler := { t with scheduler }
  poll p t := poll p.1 p.2 World.patience t

/-- Wakes the members of a pool that watch for its end. -/
def wakeWatching (i : Nat) (t : PoolTrial) : PoolTrial :=
  match t.pools[i]? with
  | none => t
  | some s => { t with scheduler := t.scheduler.wakeAll (s.crew.watching.map (i, ·)) }

/-- What the timeline of a trial asks for. -/
inductive Order where
  /-- Starts a pool of so many workers. -/
  | start (workers : Nat)
  | add (key : String)
  | cancelParent
  /-- Stops a pool and waits for its end. -/
  | stop (pool : Nat)
  | sample

/-- What it answers. -/
inductive Reply where
  | nothing
  /-- The workers of the pool, the counter as the pool shows it, and the
  counter itself. -/
  | started (workers : Nat) (active counter : UInt64)
  | added (b : Bool)
  | stopped (time : Nat) (counter : UInt64)

/-- Starts a pool. -/
def start (t : PoolTrial) (workers : Nat) : PoolTrial :=
  let t := t.note (Pool.startNotice workers)
  let base := t.pools.foldl (fun n s => n + s.pool.workers.length) 0
  let i := t.pools.length
  { t with
    pools := t.pools ++ [{ pool := Pool.start base t.requeueDelay workers }]
    scheduler := t.scheduler.wakeAll ((List.range workers).map fun w => (i, .worker w)) }

/-- Whether a pool has no member left. -/
def isEmpty (i : Nat) (t : PoolTrial) : Bool :=
  match t.pools[i]? with
  | none => true
  | some s => s.pool.isEmpty

/-- Stops a pool and lets time pass until it is empty. -/
def stop (t : PoolTrial) (i : Nat) : PoolTrial :=
  match t.pools[i]? with
  | none => t
  | some s =>
    let t := if t.told || s.pool.cancelled then t else t.wakeWatching i
    let t := t.setPool i { s with pool := { s.pool with cancelled := true } }
    let t := if isEmpty i t then t else world.runWhile (!isEmpty i ·) t
    let t := t.note (Pool.stopNotice s.pool.workers.length)
    match t.pools[i]? with
    | none => t
    | some s => t.setPool i { s with stopped := true }

/-- Lets time pass up to a moment and then carries out an order. -/
def carryOut (t : PoolTrial) (moment : Nat) (o : Order) : Reply × PoolTrial :=
  let t := world.runTo moment t
  match o with
  | .start workers =>
    let t := t.start workers
    (.started workers t.counter t.counter, world.settle t)
  | .add key =>
    let (queue, added) := t.queue.add key
    (.added added, world.settle (t.changeQueue queue))
  | .cancelParent =>
    let told := (List.range t.pools.length).reverse.filter fun i =>
      !t.told && !((t.pools[i]?.map (·.pool.cancelled)).getD true)
    (.nothing, world.settle { told.foldl (fun t i => t.wakeWatching i) t with told := true })
  | .stop i =>
    let t := t.stop i
    (.stopped t.now t.counter, world.settle t)
  | .sample => (.nothing, world.settle t)

/-- How many pools have not been stopped. -/
def running (t : PoolTrial) : Nat := (t.pools.filter (!·.stopped)).length

end PoolTrial

end Tenure.Simulation
