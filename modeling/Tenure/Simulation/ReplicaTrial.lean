import Tenure.Coordinator
import Tenure.Json.Value
import Tenure.Simulation.Crew
import Tenure.Simulation.Scene
import Tenure.Simulation.QueueTrial

/-!
# Replicas in virtual time

Coordinators that contend for a lease on one store, each with its caches,
its observer and its work by a script. A coordinator may be run more than
once; a run whose elector was brought down leaves its work behind.

A run has four kinds of tasks: its elector, its consumer, the work of the
present period and the members of the pool. Each takes all its steps up to
where it has to wait in one turn. Who is woken, and in which order, is
decided here; what a step does is decided by `Coordinator.Run.step`.
-/

namespace Tenure.Simulation

open Coordinator (Run Hook)
open Work (Pool PoolAction Queue)

/-- A call of an observer. -/
structure Observation where
  time : Nat
  hook : Hook
  /-- The replica's live workers. -/
  workers : Nat
  /-- What the lease's entry has for the holder, if it is JSON. -/
  holder : Option Json.Value

/-- How long the observer takes for its hooks. -/
structure ObserverPlan where
  becameLeader : Nat := 0
  lostLeadership : Nat := 0

/-- A coordinator with what belongs to it. -/
structure Replica where
  id : String
  coordinator : Coordinator
  /-- Which queue it works on. -/
  queue : Nat
  caches : List CacheSource := []
  observer : Option ObserverPlan := none
  observed : Array Observation := #[]
  /-- The name under which its observer and its reconciles report what they
  do, if they do. -/
  reporter : Option String := none
  log : WorkLog := {}
  /-- Whether its next run is told to stop from the start. -/
  stopped : Bool := false

/-- How a run returned. -/
structure Return where
  time : Nat
  result : Except RunError Unit

/-- A run under way, or returned. -/
structure ActiveRun where
  replica : Nat
  run : Run
  /-- Whether it was told to stop. -/
  stopped : Bool
  /-- What it says on its first turn, unless it is refused. -/
  opening : List Notice := []
  caller : Caller := {}
  crew : Crew := {}
  /-- When the hook that is running returns. -/
  hookDue : Nat := 0
  returned : Option Return := none

/-- A task of a run. -/
inductive Task where
  | elector
  | consumer
  | work
  | member (m : Member)
  deriving DecidableEq

/-- A trial under way. -/
structure ReplicaTrial where
  /-- The lease that the trial looks at. -/
  key : String
  line : Line := {}
  queues : List Queue := []
  replicas : List Replica := []
  runs : List ActiveRun := []
  scheduler : Scheduler (Nat × Task) := {}
  log : Array (Nat × Notice) := #[]
  /-- The first number that no worker has yet at its queue. -/
  freshCaller : Nat := 0
  /-- Chance, for the spread of delays. -/
  chance : Float := 0.0

namespace ReplicaTrial

def now (t : ReplicaTrial) : Nat := t.scheduler.now

def note (t : ReplicaTrial) (n : Notice) : ReplicaTrial :=
  { t with log := t.log.push (t.now, n) }

def wake (t : ReplicaTrial) (r : Nat) (task : Task) : ReplicaTrial :=
  { t with scheduler := t.scheduler.wake (r, task) }

def wakeAll (t : ReplicaTrial) (r : Nat) (tasks : List Task) : ReplicaTrial :=
  tasks.foldl (·.wake r ·) t

def setTimer (t : ReplicaTrial) (r : Nat) (task : Task) (due : Option Nat) : ReplicaTrial :=
  { t with scheduler := t.scheduler.setTimer (r, task) due }

def modifyRun (t : ReplicaTrial) (r : Nat) (f : ActiveRun → ActiveRun) : ReplicaTrial :=
  { t with runs := t.runs.modify r f }

def modifyReplica (t : ReplicaTrial) (i : Nat) (f : Replica → Replica) : ReplicaTrial :=
  { t with replicas := t.replicas.modify i f }

/-- The pool of a run. -/
def pool? (a : ActiveRun) : Option Pool := a.run.work.bind (·.pool)

/-- A replica's live workers. -/
def active (t : ReplicaTrial) (replica : Nat) : Nat :=
  (t.runs.filter (·.replica = replica)).foldl
    (fun n a => n + ((pool? a).map (·.active)).getD 0) 0

/-- The worker that a queue knows by a number. -/
def worker? (t : ReplicaTrial) (caller : Nat) : Option (Nat × Task) :=
  t.runs.zipIdx.findSome? fun (a, r) => do
    let p ← pool? a
    if p.base ≤ caller && caller < p.base + p.workers.length then
      some (r, .member (.worker (caller - p.base)))
    else none

/-- Puts a changed queue in place and wakes the workers that it woke. -/
def changeQueue (t : ReplicaTrial) (i : Nat) (queue : Queue) : ReplicaTrial :=
  let before := t.queues[i]?.getD {}
  { t with
    queues := t.queues.set i queue
    scheduler := t.scheduler.wakeAll ((newlyWoken before queue).filterMap t.worker?) }

/-- What a run finds around it. -/
def surroundings (t : ReplicaTrial) (a : ActiveRun) (rep : Replica) :
    Coordinator.Surroundings where
  time := t.now
  clock := t.line.clock t.now
  stopped := a.stopped
  chance := t.chance
  caches := rep.caches
  freshCaller := t.freshCaller

/-- Who learns that the leadership of a run is over: first the members of
the pool, then its work. -/
def underLeadership (a : ActiveRun) : List Task :=
  a.crew.watching.map .member ++ [.work]

/-- Who learns that a run is told to stop. The end of a leadership with a
pool takes a longer way than that of one without. -/
def underRun (a : ActiveRun) : List Task :=
  match pool? a with
  | some _ => .elector :: underLeadership a
  | none => underLeadership a ++ [.elector]

/-- What an entry's text has for the holder, if it is JSON. -/
def holderIn (text : String) : Option Json.Value :=
  (Json.Value.parse text).map (·.member "holder_identity")

/-- Does what an elector wants done. -/
def performElector (t : ReplicaTrial) (r : Nat) (a : ActiveRun) (rep : Replica) :
    Election.Action → ReplicaTrial
  | .note n => t.note n
  | .publish s => t.modifyRun r fun a => { a with caller := { a.caller with published := s } }
  | .announce _ => t.wake r .consumer
  | .revoke _ => t.wakeAll r (underLeadership a)
  | .read =>
    let (caller, line) := a.caller.read t.line t.now
    { t with line }.modifyRun r fun a => { a with caller }
  | .swap expected record =>
    let lock := rep.coordinator.candidate.lock
    let (caller, line) := a.caller.swap t.line t.now lock expected record
    { t with line }.modifyRun r fun a => { a with caller }
  | .abandon => t.modifyRun r fun a => { a with caller := a.caller.abandon }

/-- Does what a pool wants done. -/
def performPool (t : ReplicaTrial) (r : Nat) (a : ActiveRun) (rep : Replica) :
    PoolAction → ReplicaTrial
  | .note n => t.note n
  | .reconcile worker key =>
    let (crew, log) := a.crew.begin rep.log t.now worker key
    (t.modifyReplica a.replica fun rep => { rep with log }).modifyRun r fun a => { a with crew }
  | .startRequeue id => t.wake r (.member (.requeue id))
  | .retire _ => t

/-- What an observer that reports says. -/
def hookNotice (name : String) : Hook → Notice
  | .becameLeader term =>
    .info .program "became leader" [("replica", .plain name), ("term", .number term.value.toNat)]
  | .lostLeadership term =>
    .info .program "lost leadership" [("replica", .plain name), ("term", .number term.value.toNat)]

/-- What a reconcile that reports says at its end; one cut short says
nothing. -/
def reconcileNotices (name key : String) (c : Conclusion) : List Notice :=
  if c.cut then []
  else [.info .program "reconciled" [("replica", .plain name), ("key", .quoted key)]]

/-- Calls the observer, if there is one. -/
def observe (t : ReplicaTrial) (r : Nat) (a : ActiveRun) (rep : Replica) (hook : Hook) :
    ReplicaTrial :=
  let t := ((rep.reporter.map fun name => t.note (hookNotice name hook))).getD t
  match rep.observer with
  | none => t.modifyRun r fun a => { a with hookDue := t.now }
  | some plan =>
    let seen : Observation :=
      ⟨t.now, hook, t.active a.replica, (t.line.stored t.key).bind fun e => holderIn e.1⟩
    let delay := match hook with
      | .becameLeader _ => plan.becameLeader
      | .lostLeadership _ => plan.lostLeadership
    (t.modifyReplica a.replica fun rep => { rep with observed := rep.observed.push seen }).modifyRun
      r fun a => { a with hookDue := pauseEnd t.now delay }

/-- Does what a run wants done. -/
def perform (r : Nat) (t : ReplicaTrial) (action : Coordinator.Action) : ReplicaTrial :=
  match t.runs[r]? with
  | none => t
  | some a =>
    match t.replicas[a.replica]? with
    | none => t
    | some rep =>
      match action with
      | .note n => t.note n
      | .elector e => t.performElector r a rep e
      | .hook h => t.observe r a rep h
      | .startWork => t.wake r .work
      | .startPool =>
        let count := rep.coordinator.config.workerCount.toNat
        let t := { t with freshCaller := t.freshCaller + count }
        (t.modifyRun r fun a => { a with crew := {} }).wakeAll r
          ((List.range count).map fun i => .member (.worker i))
      | .pool p => t.performPool r a rep p
      | .confirm => t.wake r .elector
      | .halt => t.wake r .elector

/-- Gives a run an input. `none` if it has no step to take. -/
def give (t : ReplicaTrial) (r : Nat) (input : Coordinator.Input) : Option ReplicaTrial := do
  let a ← t.runs[r]?
  let rep ← t.replicas[a.replica]?
  let queue ← t.queues[rep.queue]?
  let (run, queue, actions) ← a.run.step rep.coordinator (t.surroundings a rep) queue input
  let t := (t.modifyRun r fun a => { a with run }).changeQueue rep.queue queue
  some (actions.foldl (perform r) t)

/-- What the work of a run is doing. -/
def stage? (a : ActiveRun) : Option Coordinator.WorkStage := a.run.work.map (·.stage)

/-- Whether the work of a run has ended. -/
def workEnded (a : ActiveRun) : Bool :=
  match stage? a with
  | some (.ended _) => true
  | _ => false

/-- The elector of a run goes on as far as it can. -/
def pollElector (r : Nat) : Nat → ReplicaTrial → ReplicaTrial
  | 0, t => t
  | fuel + 1, t =>
    match t.runs[r]? with
    | none => t
    | some a =>
      match t.replicas[a.replica]? with
      | none => t
      | some rep =>
        let s := t.surroundings a rep
        let key := rep.coordinator.candidate.lock.key
        let (arrived, caller, line) := a.caller.arrive t.line t.now key
        let t := { t with line }.modifyRun r fun a => { a with caller }
        let phase := a.run.elector.phase
        let input : Option Election.Input := match phase with
          | .created => some .start
          | _ => arrived <|> nextInput phase t.now (a.run.isCancelled s) a.run.confirmed
        match input.bind fun i => t.give r (.elector i) with
        | some t => pollElector r fuel t
        | none =>
          let t := t.setTimer r .elector (earlier (caller.flight.bind Flight.due) phase.due)
          if a.run.electorEnded then t.wake r .consumer else t

/-- The first turn of a run that is not refused starts its elector. -/
def openRun (t : ReplicaTrial) (r : Nat) : ReplicaTrial :=
  match t.runs[r]?.map (·.opening) with
  | none => t
  | some [] => t
  | some said =>
    let t := t.modifyRun r fun a => { a with opening := [] }
    (said.foldl note t).wake r .elector

/-- The consumer of a run goes on as far as it can. -/
def pollConsumer (r : Nat) : Nat → ReplicaTrial → ReplicaTrial
  | 0, t => t
  | fuel + 1, t =>
    match t.runs[r]? with
    | none => t
    | some a =>
      let running := match a.run.consumer with
        | .announcing _ => true
        | .reporting _ => true
        | _ => false
      let input : Option Coordinator.Input := match a.run.consumer with
        | .listening => some .receive
        | .joining _ _ => some .join
        | .finished _ => none
        | _ => if a.hookDue ≤ t.now then some .hookReturned else none
      match input.bind (t.give r) with
      | some t => pollConsumer r fuel t
      | none =>
        match a.run.consumer with
        | .finished result =>
          t.modifyRun r fun a =>
            { a with returned := some (a.returned.getD ⟨t.now, result⟩) }
        | _ => t.setTimer r .consumer (if running then some a.hookDue else none)

/-- The work of a run goes on as far as it can. -/
def pollWork (r : Nat) : Nat → ReplicaTrial → ReplicaTrial
  | 0, t => t
  | fuel + 1, t =>
    match t.give r (.work false) with
    | some t => pollWork r fuel t
    | none =>
      match t.runs[r]? with
      | none => t
      | some a =>
        let due := match stage? a with
          | some (.syncing deadline _) => some deadline
          | _ => none
        let t := t.setTimer r .work due
        if workEnded a then t.wake r .consumer else t

/-- What a member that reports says about the reconcile it has just ended. -/
def reportsOf (rep : Replica) (after : WorkLog) (m : Member) (before : Crew) : List Notice :=
  match rep.reporter, m with
  | some name, .worker i =>
    let entry? := (before.toil? i).bind fun toil => after.entries[toil.entry]?
    match entry?.bind fun e => e.finish.map fun c => (e.key, c) with
    | some (key, c) => reconcileNotices name key c
    | none => []
  | _, _ => []

/-- A member of the pool of a run goes on as far as it can. -/
def pollMember (r : Nat) (m : Member) : Nat → ReplicaTrial → ReplicaTrial
  | 0, t => t
  | fuel + 1, t =>
    match t.runs[r]? with
    | none => t
    | some a =>
      match t.replicas[a.replica]?, pool? a with
      | some rep, some pool =>
        let stopped := pool.cancelled || a.run.isRevoked (t.surroundings a rep)
        let queue := t.queues[rep.queue]?.getD {}
        match a.crew.next rep.log pool queue t.now stopped m with
        | some (input, crew, log) =>
          let t := (reportsOf rep log m a.crew).foldl note t
          let t := (t.modifyReplica a.replica fun rep => { rep with log }).modifyRun r fun a =>
            { a with crew := crew.leave m }
          match t.give r (.pool input) with
          | some t => pollMember r m fuel t
          | none => t
        | none =>
          let t := t.modifyRun r fun a => { a with crew := a.crew.wait pool m }
          let t := t.setTimer r (.member m) (a.crew.due? pool m)
          if pool.isEmpty then t.wake r .work else t
      | _, _ => t

/-- The world of a trial. -/
def world : World ReplicaTrial (Nat × Task) where
  scheduler := (·.scheduler)
  schedule t scheduler := { t with scheduler }
  poll p t := match p.2 with
    | .elector => pollElector p.1 World.patience t
    | .consumer => pollConsumer p.1 World.patience (t.openRun p.1)
    | .work => pollWork p.1 World.patience t
    | .member m => pollMember p.1 m World.patience t

/-- The place of a replica. -/
def place? (t : ReplicaTrial) (id : String) : Option Nat :=
  t.replicas.findIdx? fun rep => rep.id == id

/-- The last run of a replica. -/
def lastRun? (t : ReplicaTrial) (replica : Nat) : Option (Nat × ActiveRun) :=
  (t.runs.zipIdx.reverse.find? fun (a, _) => a.replica = replica).map fun (a, r) => (r, a)

/-- Runs a replica. -/
def start (t : ReplicaTrial) (replica : Nat) : ReplicaTrial :=
  match t.replicas[replica]? with
  | none => t
  | some rep =>
    let (run, opening) := rep.coordinator.begin
    let a : ActiveRun := { replica, run, stopped := rep.stopped, opening }
    { t with runs := t.runs ++ [a] }.wake t.runs.length .consumer

/-- Tells the last run of a replica to stop. -/
def cancel (t : ReplicaTrial) (replica : Nat) : ReplicaTrial :=
  match t.lastRun? replica with
  | none => t.modifyReplica replica fun rep => { rep with stopped := true }
  | some (r, a) =>
    if a.stopped then t
    else
      let t := t.modifyRun r fun a => { a with stopped := true }
      if a.run.halted then t else t.wakeAll r (underRun a)

/-- A feed of a replica does something to its cache. -/
def feedAt (t : ReplicaTrial) (replica i : Nat)
    (f : CacheSource → CacheSource × List Notice) : ReplicaTrial :=
  match t.replicas[replica]?.bind fun rep => rep.caches[i]? with
  | none => t
  | some c =>
    let (c, said) := f c
    let t := t.modifyReplica replica fun rep => { rep with caches := rep.caches.set i c }
    let t := said.foldl note t
    let waiting := t.runs.zipIdx.filter fun (a, _) => a.replica = replica
    waiting.foldl (fun t (_, r) => t.wake r .work) t

/-- The same for the cache of a name. -/
def feed (t : ReplicaTrial) (replica : Nat) (cache : String)
    (f : CacheSource → CacheSource × List Notice) : ReplicaTrial :=
  match (t.replicas[replica]?).bind fun rep => rep.caches.findIdx? fun c => c.name == cache with
  | none => t
  | some i => t.feedAt replica i f

/-- What the timeline of a trial asks for. -/
inductive Order where
  | happen (h : Happening)
  | start (id : String)
  | cancel (id : String)
  /-- Runs a replica again. -/
  | restart (id : String)
  | markSynced (id cache : String)
  | endFeed (id cache : String)
  | add (id key : String)
  | sample (id : String)

/-- What it answers. -/
inductive Reply where
  | nothing
  | response (r : Response)
  | added (b : Bool)
  | returned (r : Option Return)
  /-- The live workers, the waiting keys, and how the last run returned. -/
  | sample (active queued : Nat) (returned : Option Return)

/-- The length of a replica's queue. -/
def queued (t : ReplicaTrial) (replica : Nat) : Nat :=
  (((t.replicas[replica]?.bind fun rep => t.queues[rep.queue]?).map (·.length))).getD 0

/-- How the last run of a replica returned. -/
def returned? (t : ReplicaTrial) (replica : Nat) : Option Return :=
  (t.lastRun? replica).bind fun (_, a) => a.returned

/-- Lets something happen before the start, of which the log knows
nothing. -/
def prepare (t : ReplicaTrial) (h : Happening) : ReplicaTrial :=
  { t with line := (t.line.happen t.now t.key h).2.2 }

/-- Carries out an order. -/
def begin (t : ReplicaTrial) : Order → Reply × ReplicaTrial
  | .happen h =>
    let (r, said, line) := t.line.happen t.now t.key h
    (.response r, said.foldl note { t with line })
  | .start id => (.nothing, ((t.place? id).map t.start).getD t)
  | .cancel id => (.nothing, ((t.place? id).map t.cancel).getD t)
  | .restart id =>
    match t.place? id with
    | none => (.nothing, t)
    | some i =>
      let earlier := t.returned? i
      (.returned earlier, (t.modifyReplica i fun rep => { rep with stopped := false }).start i)
  | .markSynced id cache =>
    (.nothing, ((t.place? id).map fun i => t.feed i cache (·.markSynced)).getD t)
  | .endFeed id cache =>
    (.nothing, ((t.place? id).map fun i => t.feed i cache fun c => (c.endFeed, [])).getD t)
  | .add id key =>
    match t.replicas.find? fun rep => rep.id == id with
    | none => (.nothing, t)
    | some rep =>
      let (queue, added) := (t.queues[rep.queue]?.getD {}).add key
      (.added added, t.changeQueue rep.queue queue)
  | .sample id =>
    match t.place? id with
    | none => (.nothing, t)
    | some i => (.sample (t.active i) (t.queued i) (t.returned? i), t)

/-- Lets time pass up to a moment and then carries out an order. -/
def carryOut (t : ReplicaTrial) (moment : Nat) (o : Order) : Reply × ReplicaTrial :=
  let (reply, t) := (world.runTo moment t).begin o
  (reply, world.settle t)

/-- Lets time pass until the last run of a replica has returned. -/
def awaitReturn (t : ReplicaTrial) (replica : Nat) : ReplicaTrial :=
  world.runWhile (fun t => (t.returned? replica).isNone) t

/-- The calls of a replica in order of their start. -/
def calls (t : ReplicaTrial) (replica : Nat) : List CallEntry :=
  ((t.runs.filter (·.replica = replica)).flatMap fun a => a.caller.calls.toList).mergeSort
    fun a b => a.start ≤ b.start

end ReplicaTrial

end Tenure.Simulation
