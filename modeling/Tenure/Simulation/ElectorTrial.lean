import Tenure.Simulation.Scene
import Tenure.Simulation.Scheduler

/-!
# One elector in virtual time

An elector with a consumer of its events that confirms by a script, while
things happen around it by a timeline.
-/

namespace Tenure.Simulation

open Election (Action Candidate Elector Event State)

/-- How the consumer confirms that work has stopped. -/
inductive Confirmation where
  | after (ms : Nat)
  /-- It lets go of the means to confirm, which is as good. -/
  | letGo
  | never

/-- How long the consumer takes events. -/
inductive Attention where
  | always
  | never
  /-- For one event. -/
  | once
  deriving DecidableEq

/-- An event on its arrival. -/
structure SeenEvent where
  time : Nat
  event : Event
  state : State
  /-- Whether the leadership of the event's term is over. -/
  revoked : Bool

/-- Who takes turns. -/
inductive Party where
  | elector
  | consumer
  deriving DecidableEq

/-- A trial under way. -/
structure ElectorTrial where
  candidate : Candidate
  attention : Attention := .always
  confirmations : List Confirmation := []
  line : Line := {}
  scheduler : Scheduler Party := {}
  elector : Elector := {}
  caller : Caller := {}
  cancelled : Bool := false
  /-- Whether the leadership announced last has been revoked. -/
  revoked : Bool := false
  confirmed : Bool := false
  /-- When the consumer will confirm. -/
  confirmAt : Option Nat := none
  present : Bool := true
  inbox : List Event := []
  seen : Array SeenEvent := #[]
  log : Array (Nat × Notice) := #[]
  /-- When the elector ended, and whether it was brought down. -/
  ended : Option (Nat × Bool) := none

namespace ElectorTrial

def now (t : ElectorTrial) : Nat := t.scheduler.now

def wake (t : ElectorTrial) (p : Party) : ElectorTrial :=
  { t with scheduler := t.scheduler.wake p }

def surroundings (t : ElectorTrial) : Election.Surroundings where
  time := t.now
  clock := t.line.clock t.now
  cancelled := t.cancelled
  deaf := !t.present
  chance := 0.0

/-- Does what the elector wants done. -/
def perform (t : ElectorTrial) : Action → ElectorTrial
  | .note n => { t with log := t.log.push (t.now, n) }
  | .publish s => { t with caller := { t.caller with published := s } }
  | .announce e =>
    if !t.present then t
    else
      let t := match e with
        | .becameLeader _ => { t with revoked := false, confirmed := false }
        | _ => t
      { t with inbox := t.inbox ++ [e] }.wake .consumer
  | .revoke _ => { t with revoked := true }
  | .read =>
    let (caller, line) := t.caller.read t.line t.now
    { t with caller, line }
  | .swap expected record =>
    let (caller, line) := t.caller.swap t.line t.now t.candidate.lock expected record
    { t with caller, line }
  | .abandon => { t with caller := t.caller.abandon }

/-- Gives the elector an input. -/
def give (t : ElectorTrial) (i : Election.Input) : ElectorTrial :=
  match t.candidate.step t.surroundings t.elector i with
  | none => t
  | some (elector, actions) => actions.foldl perform { t with elector }

/-- Lets the elector go on as far as it can. -/
def pollElector : Nat → ElectorTrial → ElectorTrial
  | 0, t => t
  | fuel + 1, t =>
    let (input, caller, line) := t.caller.arrive t.line t.now t.candidate.lock.key
    let t := { t with caller, line }
    let input := match input with
      | some i => some i
      | none => nextInput t.elector.phase t.now t.cancelled t.confirmed
    match input with
    | some i => pollElector fuel (t.give i)
    | none =>
      match t.elector.phase with
      | .finished => { t with ended := some (t.ended.getD (t.now, false)) }
      | .crashed => { t with ended := some (t.ended.getD (t.now, true)) }
      | phase =>
        let due := earlier (t.caller.flight.bind Flight.due) phase.due
        { t with scheduler := t.scheduler.setTimer .elector due }

/-- Lets the consumer take what has arrived. -/
def pollConsumer : Nat → ElectorTrial → ElectorTrial
  | 0, t => t
  | fuel + 1, t =>
    match t.confirmAt with
    | some moment =>
      if moment ≤ t.now then
        pollConsumer fuel ({ t with confirmAt := none, confirmed := true }.wake .elector)
      else { t with scheduler := t.scheduler.setTimer .consumer (some moment) }
    | none =>
      match t.inbox with
      | [] => { t with scheduler := t.scheduler.setTimer .consumer none }
      | e :: rest =>
        let seen : SeenEvent :=
          ⟨t.now, e, t.caller.published, t.cancelled || t.revoked⟩
        let t := { t with
          inbox := rest
          seen := t.seen.push seen
          present := t.attention ≠ .once }
        match e with
        | .becameLeader _ => pollConsumer fuel t
        | .lostLeadership _ _ =>
          let confirmation := t.confirmations.headD (.after 0)
          let t := { t with confirmations := t.confirmations.tail }
          match confirmation with
          | .never => pollConsumer fuel t
          | .letGo => pollConsumer fuel ({ t with confirmed := true }.wake .elector)
          | .after ms => pollConsumer fuel { t with confirmAt := some (pauseEnd t.now ms) }

/-- The world of a trial. -/
def world : World ElectorTrial Party where
  scheduler := (·.scheduler)
  schedule t scheduler := { t with scheduler }
  poll
    | .elector, t => pollElector 10000 t
    | .consumer, t => pollConsumer 10000 t

/-- A trial whose elector has been started. -/
def start (t : ElectorTrial) : ElectorTrial :=
  let t := { t with present := t.attention ≠ Attention.never }
  -- the elector's first turn is its start
  world.settle (t.give .start |>.wake .elector)

/-- What the timeline of a trial asks for. -/
inductive Order where
  | happen (h : Happening)
  | cancel
  /-- Looks at the published state. -/
  | look

/-- What it answers. -/
inductive Reply where
  | response (r : Response)
  | state (s : State)

/-- Lets time pass up to a moment and then carries out an order. -/
def carryOut (t : ElectorTrial) (moment : Nat) (o : Order) : Reply × ElectorTrial :=
  let t := world.runTo moment t
  match o with
  | .happen h =>
    let (r, said, line) := t.line.happen t.now t.candidate.lock.key h
    let log := said.foldl (fun log n => log.push (t.now, n)) t.log
    (.response r, world.settle { t with line, log })
  | .cancel => (.response .nothing, world.settle ({ t with cancelled := true }.wake .elector))
  | .look => (.state t.caller.published, world.settle t)

/-- Lets something happen before the start, of which the log knows
nothing. -/
def prepare (t : ElectorTrial) (h : Happening) : ElectorTrial :=
  { t with line := (t.line.happen 0 t.candidate.lock.key h).2.2 }

/-- The lease's entry. -/
def stored (t : ElectorTrial) : Option (String × UInt64) := t.line.stored t.candidate.lock.key

end ElectorTrial

end Tenure.Simulation
