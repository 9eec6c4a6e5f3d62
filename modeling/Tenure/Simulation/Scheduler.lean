/-!
# Virtual time

Tasks run one after the other on one thread. A task that can go on stands
in a line, and each stands there at most once; it then runs up to where it
has to wait. Time is a number that stands still while anybody can go on,
and otherwise jumps to the next moment for which a task has set its timer.
Timers of one moment fire in the order in which they were set.
-/

namespace Tenure.Simulation

/-- Who can go on, and who waits for which moment. -/
structure Scheduler (τ : Type) where
  now : Nat := 0
  /-- The tasks that can go on, in order. -/
  ready : List τ := []
  /-- The timers in the order in which they were set. -/
  timers : List (Nat × τ) := []

namespace Scheduler

variable {τ : Type} [DecidableEq τ]

/-- Lets a task go on. -/
def wake (s : Scheduler τ) (t : τ) : Scheduler τ :=
  if s.ready.contains t then s else { s with ready := s.ready ++ [t] }

/-- Lets tasks go on in this order. -/
def wakeAll (s : Scheduler τ) (ts : List τ) : Scheduler τ := ts.foldl wake s

/-- Sets the timer of a task, or takes it away. A timer that is set to the
same moment again keeps its place. -/
def setTimer (s : Scheduler τ) (t : τ) (due : Option Nat) : Scheduler τ :=
  match due with
  | none => { s with timers := s.timers.filter fun e => e.2 ≠ t }
  | some d =>
    if s.timers.contains (d, t) then s
    else { s with timers := (s.timers.filter fun e => e.2 ≠ t) ++ [(d, t)] }

/-- The next moment of a timer. -/
def nextDue (s : Scheduler τ) : Option Nat := (s.timers.map (·.1)).min?

/-- Lets time jump to a moment and its timers fire. -/
def jump (s : Scheduler τ) (moment : Nat) : Scheduler τ :=
  let (due, later) := s.timers.partition fun e => e.1 ≤ moment
  let s := { s with now := max s.now moment, timers := later }
  s.wakeAll (due.map Prod.snd)

end Scheduler

/-- A world with a scheduler in it, and what a task does when its turn
comes. -/
structure World (ω τ : Type) where
  scheduler : ω → Scheduler τ
  schedule : ω → Scheduler τ → ω
  poll : τ → ω → ω

namespace World

variable {ω τ : Type} [DecidableEq τ]

/-- How many turns a simulation is given. -/
def patience : Nat := 10000000

/-- Lets a world go on as long as its standstills allow it: at each of
them `next` says to which timer time jumps, if any. -/
def run (m : World ω τ) (next : ω → Option Nat) : Nat → ω → ω
  | 0, w => w
  | fuel + 1, w =>
    let s := m.scheduler w
    match s.ready with
    | t :: rest => run m next fuel (m.poll t (m.schedule w { s with ready := rest }))
    | [] =>
      match next w with
      | some due => run m next fuel (m.schedule w (s.jump due))
      | none => w

/-- Lets a world go on up to a moment, that moment included. -/
def runUntil (m : World ω τ) (limit : Nat) (w : ω) : ω :=
  let w := m.run (fun w => (m.scheduler w).nextDue.filter (· ≤ limit)) patience w
  let s := m.scheduler w
  m.schedule w { s with now := max s.now limit }

/-- Lets a world go on up to a moment, at which whoever waits for it has been
woken but nobody has gone on yet. -/
def runTo (m : World ω τ) (moment : Nat) (w : ω) : ω :=
  let w := m.run (fun w => (m.scheduler w).nextDue.filter (· < moment)) patience w
  m.schedule w ((m.scheduler w).jump moment)

/-- Lets a world go on while a condition holds at its standstills. -/
def runWhile (m : World ω τ) (going : ω → Bool) (w : ω) : ω :=
  m.run (fun w => if going w then (m.scheduler w).nextDue else none) patience w

/-- Lets everybody who can go on do so, without letting time pass. -/
def settle (m : World ω τ) (w : ω) : ω := m.runUntil (m.scheduler w).now w

end World

end Tenure.Simulation
