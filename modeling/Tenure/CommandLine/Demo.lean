import Tenure.CommandLine.Filter
import Tenure.CommandLine.Launch
import Tenure.CommandLine.Log
import Tenure.Simulation.ReplicaTrial

/-!
# The demonstration

Replicas that contend for one lease in one process. Keys are added to a
queue that all share, the caches of each replica fill after a while, and a
reconcile only takes its time. The demonstration ends when it is told to
stop, or as soon as one replica gives up; the others then stop as well, and
it is over when all have returned.

A demonstration has a next moment at which something happens. Whoever
drives it waits for that moment or lets it come at once.
-/

namespace Tenure.CommandLine

open Simulation (Replica ReplicaTrial)

/-- What tells the program to stop. -/
inductive Signal where
  | interrupt
  | terminate
  deriving DecidableEq

/-- The name of a signal. -/
def Signal.name : Signal → String
  | interrupt => "SIGINT"
  | terminate => "SIGTERM"

/-- A demonstration under way. -/
structure Demo where
  trial : ReplicaTrial
  /-- When the caches fill. -/
  cacheDelay : Nat
  /-- From one new key to the next. -/
  workInterval : Nat
  /-- How many keys have been added. -/
  produced : Nat := 0
  filled : Bool := false
  stopping : Bool := false
  /-- The runs whose return has been noticed. -/
  joined : List Nat := []
  failed : Bool := false
  ended : Bool := false

namespace Demo

/-- How long a reconcile takes. -/
def reconcileTime : Nat := 50

/-- A replica of a demonstration. -/
def replica (a : Arguments) (c : Config) (index : Nat) : Replica :=
  let identity :=
    if 1 < a.replicas.toNat then c.identity ++ "-" ++ toString index else c.identity
  { id := identity
    coordinator := ⟨{ c with identity }, true⟩
    queue := 0
    caches := a.cacheNames.map fun name => { name }
    observer := some {}
    reporter := some identity
    log := { standard := { duration := reconcileTime } } }

/-- What the program says at first. -/
def openingNotices (a : Arguments) (c : Config) (replicas : List Replica) : List Notice :=
  .info .program ("starting " ++ programName ++ " v" ++ Coordinator.version) [
    ("replicas", .number a.replicas.toNat), ("lease_namespace", .plain c.leaseNamespace),
    ("lease_name", .plain c.leaseName)]
  :: replicas.zipIdx.map fun (rep, i) =>
    .info .program "starting replica" [("index", .number i), ("identity", .plain rep.id)]

/-- Tells all replicas to stop. -/
def stop (d : Demo) : Demo :=
  if d.stopping then d
  else
    let trial := (List.range d.trial.replicas.length).foldl (fun t i => t.cancel i) d.trial
    { d with stopping := true, trial := ReplicaTrial.world.settle trial }

/-- Notices that a run has returned. -/
def join (d : Demo) (r : Nat) : Demo :=
  match d.trial.runs[r]? with
  | none => d
  | some a =>
    match a.returned with
    | none => d
    | some returned =>
      let d := { d with joined := r :: d.joined }
      match returned.result with
      | .ok () => d
      | .error e =>
        let name := (d.trial.replicas[a.replica]?.map (·.id)).getD ""
        { d with
          failed := true
          trial := d.trial.note (.error .program "replica stopped"
            [("replica", .plain name), ("error", .plain e.message)]) }

/-- The runs that have returned unnoticed. -/
def unjoined (d : Demo) : List Nat :=
  (d.trial.runs.zipIdx.filter fun (a, r) =>
    a.returned.isSome && !d.joined.contains r).map Prod.snd

/-- Looks after the replicas at a standstill. The first that returns makes
the others stop. -/
def lookAfter (d : Demo) : Demo :=
  let d := match d.unjoined with
    | [] => d
    | first :: _ => (d.join first).stop
  let d := d.unjoined.foldl join d
  if d.joined.length = d.trial.runs.length && !d.ended then
    { d with
      ended := true
      trial := if d.failed then d.trial else d.trial.note (.info .program "shutdown complete" []) }
  else d

/-- Adds the next key. -/
def produce (d : Demo) : Demo :=
  let number := d.produced + 1
  let queue : Work.Queue := d.trial.queues.headD {}
  let key := "object-" ++ toString (number % 8)
  { d with produced := number, trial := d.trial.changeQueue 0 (queue.add key).1 }

/-- When the next key is due. No time between keys means that there are
none. -/
def nextKey (d : Demo) : Option Nat :=
  if d.stopping || d.workInterval = 0 then none else some (d.workInterval * d.produced)

/-- When the caches fill. -/
def nextFill (d : Demo) : Option Nat :=
  if d.stopping || d.filled then none else some d.cacheDelay

/-- All caches of all replicas fill. -/
def fill (d : Demo) : Demo :=
  let places := d.trial.replicas.zipIdx.flatMap fun (rep, i) =>
    (List.range rep.caches.length).map fun c => (i, c)
  { d with
    filled := true
    trial := places.foldl (fun t (i, c) => t.feedAt i c (·.markSynced)) d.trial }

/-- **The next moment at which something happens.** -/
def nextMoment (d : Demo) : Option Nat :=
  if d.ended then none
  else ([d.nextKey, d.nextFill, d.trial.scheduler.nextDue].filterMap id).min?

/-- Whether something that is due at a moment, if at all, has come by now. -/
def isDue (moment : Nat) (due : Option Nat) : Bool := due.any fun t => t ≤ moment

/-- Lets time pass up to a moment. -/
def advance (d : Demo) (moment : Nat) : Demo :=
  let d := { d with trial := ReplicaTrial.world.runUntil moment d.trial }
  let d := if isDue moment d.nextKey then d.produce else d
  let d := if isDue moment d.nextFill then d.fill else d
  { d with trial := ReplicaTrial.world.settle d.trial }.lookAfter

/-- **A demonstration begins.** -/
def start (a : Arguments) (c : Config) (clock : UInt64) : Demo :=
  let replicas := (List.range (max 1 a.replicas.toNat)).map (replica a c)
  let trial : ReplicaTrial := {
    key := Lease.key c.leaseNamespace c.leaseName
    line := { clockBase := clock }
    queues := [{}]
    replicas }
  let trial := (openingNotices a c replicas).foldl ReplicaTrial.note trial
  let trial := (List.range replicas.length).foldl (fun t i => t.start i) trial
  { trial
    cacheDelay := a.cacheSyncDelay.toNat
    workInterval := a.workInterval.toNat }

/-- A signal arrives. -/
def signal (d : Demo) (s : Signal) : Demo :=
  if d.stopping then d
  else
    let said := .info .program ("received " ++ s.name ++ ", initiating graceful shutdown") []
    { d with trial := d.trial.note said }.stop.lookAfter

/-- The exit code, and the report of what failed. -/
def outcome (d : Demo) : UInt32 × List String :=
  if d.failed then (1, (Failure.lines ⟨"one or more replicas failed", []⟩)) else (0, [])

/-- The log as lines, without times. -/
def lines (f : LogFilter) (d : Demo) : List String :=
  (d.trial.log.toList.filter fun e => f.shows e.2).flatMap fun e => Text.lines e.2.line

end Demo

/-! ## Without waiting -/

/-- What a program has written, and its exit code. -/
structure Transcript where
  output : List String
  errors : List String
  code : UInt32

/-- A signal that is sent when a line shows a text. -/
structure Cue where
  text : String
  signal : Signal

/-- Whether the text stands in the line. -/
def shows (line text : String) : Bool := 1 < (line.splitOn text).length || text.isEmpty

/-- Lets a demonstration go on without waiting until it is over. -/
def rehearse (f : LogFilter) : Nat → Option Cue → Demo → Demo
  | 0, _, d => d
  | fuel + 1, cue, d =>
    if d.ended then d
    else match cue with
      | some c =>
        if (d.lines f).any (shows · c.text) then rehearse f fuel none (d.signal c.signal)
        else match d.nextMoment with
          | some moment => rehearse f fuel cue (d.advance moment)
          | none => d
      | none =>
        match d.nextMoment with
        | some moment => rehearse f fuel cue (d.advance moment)
        | none => d

/-- **What the program writes** if time passes at once. -/
def transcript (e : Environment) (f : LogFilter) (cue : Option Cue) (arguments : List String) :
    Transcript :=
  match launch e arguments with
  | .done output errors code => ⟨output, errors.flatMap Text.lines, code⟩
  | .run a c =>
    let d := rehearse f Simulation.World.patience cue (Demo.start a c 0)
    let (code, errors) := d.outcome
    ⟨d.lines f, errors, code⟩

end Tenure.CommandLine
