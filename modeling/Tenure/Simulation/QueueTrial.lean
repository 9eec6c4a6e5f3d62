import Tenure.Simulation.Scheduler
import Tenure.Work.Queue

/-!
# A queue and its waiters

Callers that wait for a key, each until a token it watches is cancelled,
while keys are added and taken. A caller's number is its place among the
waits; it takes all its steps up to where it has to wait in one turn.
-/

namespace Tenure.Simulation

open Work (Queue Seeker)

/-- A caller that wants a key. -/
structure Waiter where
  name : String
  /-- The token that it watches. -/
  token : Nat
  seeker : Seeker := .looking

/-- A trial under way. -/
structure QueueTrial where
  queue : Queue := {}
  waiters : List Waiter := []
  /-- The tokens that are cancelled. -/
  cancelled : List Nat := []
  /-- The callers that wait, in the order in which they began to watch
  their tokens. -/
  watching : List Nat := []
  scheduler : Scheduler Nat := {}

/-- The callers that were woken when one queue became another. -/
def newlyWoken (before after : Queue) : List Nat :=
  after.woken.filter fun id => !before.woken.contains id

namespace QueueTrial

/-- Puts a changed queue in place and wakes the callers that it woke. -/
def changeQueue (t : QueueTrial) (queue : Queue) : QueueTrial :=
  { t with queue, scheduler := t.scheduler.wakeAll (newlyWoken t.queue queue) }

/-- A caller's turn. -/
def poll (id : Nat) (t : QueueTrial) : QueueTrial :=
  match t.waiters[id]? with
  | none => t
  | some w =>
    let (queue, seeker) := t.queue.poll id (t.cancelled.contains w.token) w.seeker
    let others := t.watching.filter fun i => i ≠ id
    { t.changeQueue queue with
      waiters := t.waiters.set id { w with seeker }
      watching := if seeker.isDone then others else others ++ [id] }

/-- The world of a trial. -/
def world : World QueueTrial Nat where
  scheduler := (·.scheduler)
  schedule t scheduler := { t with scheduler }
  poll := poll

/-- What is asked for. -/
inductive Order where
  | add (key : String)
  | tryNext
  | length
  | isEmpty
  /-- A caller comes. -/
  | wait (name : String) (token : Nat)
  | cancel (token : Nat)

/-- What is answered. -/
inductive Reply where
  | nothing
  | flag (b : Bool)
  | count (n : Nat)
  | key (k : Option String)

/-- Carries out an order. -/
def begin (t : QueueTrial) : Order → Reply × QueueTrial
  | .add key =>
    let (queue, added) := t.queue.add key
    (.flag added, t.changeQueue queue)
  | .tryNext =>
    let (queue, key) := t.queue.tryNext
    (.key key, t.changeQueue queue)
  | .length => (.count t.queue.length, t)
  | .isEmpty => (.flag t.queue.items.isEmpty, t)
  | .wait name token =>
    let id := t.waiters.length
    (.nothing, { t with
      waiters := t.waiters ++ [⟨name, token, .looking⟩]
      scheduler := t.scheduler.wake id })
  | .cancel token =>
    let told := t.watching.filter fun id =>
      (t.waiters[id]?.map fun w => w.token == token).getD false
    (.nothing, { t with
      cancelled := token :: t.cancelled
      scheduler := t.scheduler.wakeAll told })

/-- The result of a caller that is done. -/
def outcome? (w : Waiter) : Option (String × Option String) :=
  match w.seeker with
  | .found key => some (w.name, some key)
  | .gone => some (w.name, none)
  | _ => none

/-- Carries out an order and lets everybody go on: the answer, and the
callers that have become done by it with their keys, by name. -/
def carryOut (t : QueueTrial) (o : Order) :
    Reply × List (String × Option String) × QueueTrial :=
  let (reply, after) := t.begin o
  let after := world.settle after
  let done := after.waiters.zipIdx.filter fun (w, i) =>
    w.seeker.isDone && !((t.waiters[i]?.map fun w => w.seeker.isDone).getD false)
  let ended := (done.filterMap fun (w, _) => outcome? w).mergeSort fun a b => a.1 ≤ b.1
  (reply, ended, after)

end QueueTrial

end Tenure.Simulation
