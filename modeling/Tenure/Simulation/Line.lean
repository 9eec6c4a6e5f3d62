import Tenure.Election.Elector
import Tenure.Store.Channel

/-!
# Calls in virtual time

An elector's calls on their way through the channel, and the record that
is kept of them. A call is carried out when its delay has passed; a swap's
answer may take longer still. A call that is given up is forgotten where
it is.
-/

namespace Tenure.Simulation

open Store (Armed Channel Transit)

/-- The channel with the clock that all share: a reading is the base plus
the timer, unless the clock stands still. -/
structure Line where
  channel : Channel := {}
  clockBase : UInt64 := 1000000
  clockStands : Bool := false

namespace Line

/-- The clock. -/
def clock (l : Line) (now : Nat) : UInt64 :=
  if l.clockStands then l.clockBase else l.clockBase + UInt64.ofNat now

/-- Moves the clock. -/
def jump (l : Line) (ms : UInt64) : Line := { l with clockBase := l.clockBase + ms }

end Line

/-- The record of a call. -/
structure CallEntry where
  start : Nat
  /-- What the entry was to be swapped for and at which version; a read has
  neither. -/
  swap : Option (Option UInt64 × String)
  /-- The state of the elector at the start. -/
  state : Election.State
  /-- When it was answered, and the version in the answer. -/
  answer : Option (Nat × Except Store.Error (Option UInt64)) := none

/-- Where a call is. -/
inductive Stage where
  /-- On its way to the store, which it reaches at a moment, or never. -/
  | reading (transit : Transit Store.ReadAnswer) (reach : Option Nat)
  | writing (transit : Transit Store.WriteAnswer) (command : Store.Command) (reach : Option Nat)
  /-- On its way back. -/
  | returning (answer : Store.WriteAnswer) (arrive : Nat)

/-- A call under way, with the place of its record. -/
structure Flight where
  entry : Nat
  stage : Stage

/-- When something next happens to the call. -/
def Flight.due (f : Flight) : Option Nat :=
  match f.stage with
  | .reading _ reach => reach
  | .writing _ _ reach => reach
  | .returning _ arrive => some arrive

/-- An elector's calls: the one under way, and the records of all in order
of their start. -/
structure Caller where
  flight : Option Flight := none
  calls : Array CallEntry := #[]
  /-- The state that the elector has published. -/
  published : Election.State := .standby

namespace Caller

/-- Begins a read. -/
def read (c : Caller) (l : Line) (now : Nat) : Caller × Line :=
  let (transit, channel) := l.channel.beginRead
  let entry : CallEntry := { start := now, swap := none, state := c.published }
  ({ c with
    flight := some ⟨c.calls.size, .reading transit (transit.delay.map (pauseEnd now))⟩
    calls := c.calls.push entry }, { l with channel })

/-- Begins a swap. -/
def swap (c : Caller) (l : Line) (now : Nat) (lock : Lease.Lock) (expected : Option UInt64)
    (record : Lease.Record) : Caller × Line :=
  let (transit, channel) := l.channel.beginWrite
  let entry : CallEntry :=
    { start := now, swap := some (expected, record.text), state := c.published }
  ({ c with
    flight := some ⟨c.calls.size,
      .writing transit (lock.swapCommand expected record) (transit.delay.map (pauseEnd now))⟩
    calls := c.calls.push entry }, { l with channel })

/-- Forgets the call under way. -/
def abandon (c : Caller) : Caller := { c with flight := none }

/-- The version in a read's answer. -/
def readVersion (a : Store.ReadAnswer) : Except Store.Error (Option UInt64) :=
  a.map fun r => r.found.map (·.version)

/-- Notes the answer to the call under way, which is then over. -/
def close (c : Caller) (now entry : Nat) (a : Except Store.Error (Option UInt64)) : Caller :=
  { c with
    flight := none
    calls := c.calls.modify entry fun e => { e with answer := some (now, a) } }

/-- What the call under way has for the elector by now, if anything. A
swap that is carried out may still have its way back before it. -/
def arrive (c : Caller) (l : Line) (now : Nat) (key : String) :
    Option Election.Input × Caller × Line :=
  match c.flight with
  | none => (none, c, l)
  | some ⟨entry, .reading transit reach⟩ =>
    match reach with
    | none => (none, c, l)
    | some t =>
      if now < t then (none, c, l)
      else match l.channel.finishRead transit key with
        | some a => (some (.readAnswered a), c.close now entry (readVersion a), l)
        | none => (some .crash, c.abandon, l)
  | some ⟨entry, .writing transit command reach⟩ =>
    match reach with
    | none => (none, c, l)
    | some t =>
      if now < t then (none, c, l)
      else match l.channel.finishWrite transit command with
        | (none, channel) => (some .crash, c.abandon, { l with channel })
        | (some a, channel) =>
          let l := ({ l with channel } : Line).jump transit.clockJump
          if transit.ackDelay = 0 then
            (some (.swapAnswered a), c.close now entry (a.map (·.version)), l)
          else
            (none,
              { c with flight := some ⟨entry, .returning a (pauseEnd now transit.ackDelay)⟩ }, l)
  | some ⟨entry, .returning a arrive⟩ =>
    if now < arrive then (none, c, l)
    else (some (.swapAnswered a), c.close now entry (a.map (·.version)), l)

end Caller

/-- The earlier of two moments. -/
def earlier : Option Nat → Option Nat → Option Nat
  | some a, some b => some (min a b)
  | some a, none => some a
  | none, b => b

/-- **What an elector is woken by now**, if anything: an answer first, then
a cancellation, then a confirmation, then its own time. -/
def nextInput (phase : Election.Phase) (now : Nat) (cancelled confirmed : Bool) :
    Option Election.Input :=
  if phase.cancellable && cancelled then some .cancelled
  else if phase.hearsStop && confirmed then some .stopped
  else match phase.due with
    | some due => if due ≤ now then some .timeUp else none
    | none => none

end Tenure.Simulation
