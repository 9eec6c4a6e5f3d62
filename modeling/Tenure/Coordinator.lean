import Tenure.Barrier
import Tenure.Config.Basic
import Tenure.Election.Elector
import Tenure.Work.Pool

/-!
# The coordinator

A replica that contends for a lease and works only while it leads. One
`Run` of it is made of parts that go on side by side:

* the **elector** contends for the lease and announces leadership,
* the **consumer** takes its events one at a time, calls the observer's
  hooks, starts the work of a period and waits for its end,
* the **work** of a period waits for the caches and then keeps a pool of
  workers until leadership is revoked.

The parts meet in few places: the inbox of events, the revocation of a
period, the confirmation that work has stopped, and the cancellation of the
run. `Run.step` takes one step of one part, if that part has one to take,
so the order in which the parts go on is left to whoever drives the run.

What makes the hand-over safe is the order on the consumer's side: it
confirms only after the work has ended and the observer's hook for the loss
has returned, and the elector gives the lease back only after that.
-/

namespace Tenure

open Election (Candidate Elector Event LossReason)
open Work (Pool PoolInput PoolAction Queue)

/-- Why a run ended before it was told to stop. -/
inductive RunError where
  /-- The configuration was refused; nothing was started. -/
  | config (cause : Config.Error)
  /-- A new leader's caches did not sync in time. -/
  | cacheSyncTimeout (unsynced : List String) (timeoutMs : UInt64)
  /-- The elector was brought down. -/
  | electorTask

namespace RunError

/-- The wording of each error. What brought an elector down is not known
here. -/
def message : RunError → String
  | config cause => "invalid configuration: " ++ cause.message
  | cacheSyncTimeout unsynced timeoutMs =>
    "timed out after " ++ toString timeoutMs.toNat ++ "ms waiting for caches to sync: "
      ++ ", ".intercalate unsynced
  | electorTask => "leader election task failed"

/-- The caches that did not sync, if that is why. -/
def unsynced? : RunError → Option (List String)
  | cacheSyncTimeout unsynced _ => some unsynced
  | _ => none

end RunError

/-- A replica: its settings, and whether there is anything for workers to
do. -/
structure Coordinator where
  config : Config
  hasReconciler : Bool

namespace Coordinator

/-- The version of this library, as replicas report it. -/
def version : String := "0.1.0"

/-- A replica with the usual settings that only leads: it waits for no
caches and has no workers. -/
def bare (identity leaseName leaseNamespace : String) : Coordinator where
  config := { Config.default with identity, leaseName, leaseNamespace }
  hasReconciler := false

/-- The candidate that contends for the lease. -/
def candidate (c : Coordinator) : Candidate where
  identity := c.config.identity
  lock := .of c.config.leaseNamespace c.config.leaseName c.config.leaseDuration
  timing := c.config.timing

/-- A call of the observer. -/
inductive Hook where
  | becameLeader (term : Term)
  | lostLeadership (term : Term)
  deriving DecidableEq, Repr

/-- What the consumer of events is doing. -/
inductive Consumer where
  /-- Waiting for an event. -/
  | listening
  /-- The hook for a new leadership is running. -/
  | announcing (term : Term)
  /-- Waiting for the work of the term to end. -/
  | joining (term : Term) (reason : LossReason)
  /-- The hook for the loss is running. -/
  | reporting (term : Term)
  /-- The run has returned. -/
  | finished (result : Except RunError Unit)

/-- What the work of a period is doing. -/
inductive WorkStage where
  | created
  /-- Waiting for the caches until a moment; `known` are those whose feed
  is known to have ended. -/
  | syncing (deadline : Nat) (known : List Nat)
  /-- Leading without workers. -/
  | idle
  | running
  /-- Waiting for the pool to become empty. -/
  | stopping
  | ended (failure : Option RunError)

/-- The work of one leadership period. -/
structure PeriodWork where
  term : Term
  stage : WorkStage := .created
  pool : Option Pool := none

/-- One run of a coordinator. -/
structure Run where
  elector : Elector := {}
  /-- Events announced and not yet received. -/
  inbox : List Event := []
  consumer : Consumer := .listening
  /-- Whether the leadership announced last has been revoked. -/
  revoked : Bool := false
  /-- Whether the end of that leadership's work has been confirmed. -/
  confirmed : Bool := false
  work : Option PeriodWork := none
  fatal : Option RunError := none
  /-- Whether the run has told itself to stop. -/
  halted : Bool := false

/-- What a step finds around it. -/
structure Surroundings where
  time : Nat
  clock : UInt64
  /-- Whether the caller has told the run to stop. -/
  stopped : Bool
  chance : Float
  caches : List CacheSource
  /-- The first number that no caller of the queue has. -/
  freshCaller : Nat

/-- What a run does, in order. -/
inductive Action where
  | note (n : Notice)
  /-- What the elector does to its state and to the store. -/
  | elector (a : Election.Action)
  /-- Calls the observer. -/
  | hook (h : Hook)
  /-- The work of a period is started. -/
  | startWork
  /-- A pool is started. -/
  | startPool
  | pool (a : PoolAction)
  /-- Confirms to the elector that work has stopped. -/
  | confirm
  /-- The run tells itself to stop. -/
  | halt

/-- Which part takes a step. -/
inductive Input where
  | elector (i : Election.Input)
  /-- The consumer looks for an event, or for the end of the elector. -/
  | receive
  /-- The hook that is running returns. -/
  | hookReturned
  /-- The consumer looks whether the work has ended. -/
  | join
  /-- The work looks at what it is waiting for. `overFirst` says which of two
  things it notices first if its leadership is over and its wait for the
  caches as well. -/
  | work (overFirst : Bool)
  | pool (i : PoolInput)

namespace Run

/-- Whether the elector is told to stop. -/
def isCancelled (s : Surroundings) (r : Run) : Bool := s.stopped || r.halted

/-- Whether the leadership announced last is over for its work. -/
def isRevoked (s : Surroundings) (r : Run) : Bool := r.isCancelled s || r.revoked

/-- What the elector finds around it. -/
def electorSurroundings (s : Surroundings) (r : Run) : Election.Surroundings where
  time := s.time
  clock := s.clock
  cancelled := r.isCancelled s
  deaf := false
  chance := s.chance

/-- Whether the elector will do nothing more. -/
def electorEnded (r : Run) : Bool :=
  match r.elector.phase with
  | .finished => true
  | .crashed => true
  | _ => false

/-- Whether the run has returned. -/
def isOver (r : Run) : Bool :=
  match r.consumer with
  | .finished _ => true
  | _ => false

/-- The effect of what the elector does on the rest of the run. -/
def heed (r : Run) : Election.Action → Run
  | .announce (.becameLeader term) =>
    { r with
      inbox := r.inbox ++ [.becameLeader term]
      revoked := false
      confirmed := false }
  | .announce e => { r with inbox := r.inbox ++ [e] }
  | .revoke _ => { r with revoked := true }
  | _ => r

/-- Whether an input can reach the elector now. -/
def admits (s : Surroundings) (r : Run) : Election.Input → Bool
  | .start => !r.isOver
  | .cancelled => r.isCancelled s
  | .timeUp => match r.elector.phase.due with
    | some due => due ≤ s.time
    | none => false
  | .stopped => r.confirmed
  | _ => true

/-- A step of the elector. -/
def stepElector (c : Coordinator) (s : Surroundings) (r : Run) (i : Election.Input) :
    Option (Run × List Action) :=
  if !r.admits s i then none
  else match c.candidate.step (r.electorSurroundings s) r.elector i with
    | none => none
    | some (elector, actions) =>
      some (actions.foldl heed { r with elector }, actions.map .elector)

/-- The end of the run once the elector has ended. -/
def conclude (c : Coordinator) (r : Run) : Run × List Action :=
  match r.fatal with
  | some e => ({ r with consumer := .finished (.error e) }, [])
  | none =>
    match r.elector.phase with
    | .crashed => ({ r with consumer := .finished (.error .electorTask) }, [])
    | _ =>
      ({ r with consumer := .finished (.ok ()) },
        [.note (.info .coordinator "singleton coordinator stopped"
          [("identity", .plain c.config.identity)])])

/-- Work has ended: says so and calls the hook for the loss. -/
def report (r : Run) (term : Term) (reason : LossReason) : Run × List Action :=
  ({ r with consumer := .reporting term },
    [.note (.info .coordinator "leadership work stopped" [("term", .number term.value.toNat),
      ("reason", .plain reason.name)]), .hook (.lostLeadership term)])

/-- The consumer takes the next event. -/
def receive (c : Coordinator) (r : Run) : Option (Run × List Action) :=
  match r.consumer, r.inbox with
  | .listening, .becameLeader term :: rest =>
    some ({ r with inbox := rest, consumer := .announcing term }, [.hook (.becameLeader term)])
  | .listening, .lostLeadership term reason :: rest =>
    let r := { r with inbox := rest }
    match r.work with
    | none => some (r.report term reason)
    | some _ => some ({ r with consumer := .joining term reason }, [])
  | .listening, [] => if r.electorEnded then some (r.conclude c) else none
  | _, _ => none

/-- The consumer goes on when the work has ended; the first failure of any
period is kept. -/
def join (r : Run) : Option (Run × List Action) :=
  match r.consumer, r.work with
  | .joining term reason, some work =>
    match work.stage with
    | .ended failure =>
      some ({ r with work := none, fatal := r.fatal <|> failure }.report term reason)
    | _ => none
  | _, _ => none

/-- The running hook returns. -/
def hookReturned (r : Run) : Option (Run × List Action) :=
  match r.consumer with
  | .announcing term =>
    some ({ r with consumer := .listening, work := some { term } }, [.startWork])
  | .reporting _ =>
    some ({ r with consumer := .listening, confirmed := true }, [.confirm])
  | _ => none

/-- The caches are complete: the work starts its workers, if it has any. -/
def startWorkers (c : Coordinator) (s : Surroundings) (work : PeriodWork) :
    PeriodWork × List Action :=
  let term : String × Datum := ("term", .number work.term.value.toNat)
  let count := c.config.workerCount.toNat
  if c.hasReconciler then
    ({ work with
        stage := .running
        pool := some (Pool.start s.freshCaller c.config.requeueDelay.toNat count) },
      [.note (Pool.startNotice count), .startPool,
        .note (.info .coordinator "controller started" [term, ("worker_count", .number count)])])
  else
    ({ work with stage := .idle },
      [.note (.warn .coordinator "no reconciler configured, leading without workers" [term])])

/-- The work looks at the caches. -/
def lookAtCaches (c : Coordinator) (s : Surroundings) (r : Run) (work : PeriodWork)
    (deadline : Nat) (known : List Nat) (overFirst : Bool) : Option (Run × List Action) :=
  let stuck := if r.isRevoked s && !overFirst then [] else Barrier.newlyStuck s.caches known
  let said : List Action := stuck.map fun (_, n) => .note n
  let ends := (Barrier.look s.caches false (deadline ≤ s.time)).isSome
  match Barrier.look s.caches (r.isRevoked s && !(overFirst && ends)) (deadline ≤ s.time) with
  | none =>
    if stuck.isEmpty then none
    else
      some ({ r with work := some { work with
        stage := .syncing deadline (known ++ stuck.map Prod.fst) } }, said)
  | some outcome =>
    let told := said ++
      (Barrier.outcomeNotices s.caches c.config.cacheSyncTimeout outcome).map .note
    match outcome with
    | .cancelled => some ({ r with work := some { work with stage := .ended none } }, told)
    | .allSynced =>
      let (work, actions) := startWorkers c s work
      some ({ r with work := some work }, told ++ actions)
    | .partialTimeout unsynced =>
      some ({ r with
          halted := true
          work := some { work with
            stage := .ended (some (.cacheSyncTimeout unsynced c.config.cacheSyncTimeout)) } },
        told ++ [.note (.error .coordinator "caches failed to sync, stopping"
          [("term", .number work.term.value.toNat), ("unsynced", .list unsynced)]), .halt])

/-- The work looks at what it is waiting for. -/
def stepWork (c : Coordinator) (s : Surroundings) (r : Run) (overFirst : Bool) :
    Option (Run × List Action) :=
  match r.work with
  | none => none
  | some work =>
    match work.stage, work.pool with
    | .created, _ =>
      let deadline := pauseEnd s.time c.config.cacheSyncTimeout.toNat
      some ({ r with work := some { work with stage := .syncing deadline [] } }, [])
    | .syncing deadline known, _ => lookAtCaches c s r work deadline known overFirst
    | .idle, _ =>
      if r.isRevoked s then some ({ r with work := some { work with stage := .ended none } }, [])
      else none
    | .running, some pool =>
      if r.isRevoked s then
        some ({ r with work := some { work with
          stage := .stopping
          pool := some { pool with cancelled := true } } }, [])
      else none
    | .stopping, some pool =>
      if pool.isEmpty then
        some ({ r with work := some { work with stage := .ended none } },
          [.note (Pool.stopNotice pool.workers.length)])
      else none
    | _, _ => none

/-- A step of the pool. -/
def stepPool (s : Surroundings) (r : Run) (q : Queue) (i : PoolInput) :
    Option (Run × Queue × List Action) :=
  match r.work with
  | none => none
  | some work =>
    match work.pool with
    | none => none
    | some pool =>
      match Pool.step q s.time (r.isRevoked s) pool i with
      | none => none
      | some (q, pool, actions) =>
        some ({ r with work := some { work with pool := some pool } }, q, actions.map .pool)

/-- **One step of a run** on its queue. `none` if the part has no step to
take. -/
def step (c : Coordinator) (s : Surroundings) (r : Run) (q : Queue) :
    Input → Option (Run × Queue × List Action)
  | .elector i => (r.stepElector c s i).map fun (r, actions) => (r, q, actions)
  | .receive => (r.receive c).map fun (r, actions) => (r, q, actions)
  | .hookReturned => r.hookReturned.map fun (r, actions) => (r, q, actions)
  | .join => r.join.map fun (r, actions) => (r, q, actions)
  | .work overFirst => (r.stepWork c s overFirst).map fun (r, actions) => (r, q, actions)
  | .pool i => r.stepPool s q i

end Run

/-- **A run begins.** A refused configuration ends it before anything is
started. -/
def begin (c : Coordinator) : Run × List Notice :=
  match c.config.validate with
  | .error e => ({ consumer := .finished (.error (.config e)) }, [])
  | .ok () =>
    ({}, c.config.warnings.map (fun w => .warn .coordinator w []) ++
      [.info .coordinator "starting singleton coordinator" [("version", .quoted version),
        ("identity", .plain c.config.identity),
        ("lease_namespace", .plain c.config.leaseNamespace),
        ("lease_name", .plain c.config.leaseName)]])

end Coordinator

end Tenure
