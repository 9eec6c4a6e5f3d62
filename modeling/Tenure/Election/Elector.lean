import Tenure.Election.State
import Tenure.Lease.Lock
import Tenure.Pause

/-!
# The elector

One candidate's way through an election, from its start until it is told
to stop. The elector never waits: it has a `Phase` that says what it is
waiting for, and `Candidate.step` says what happens when something
arrives. What arrives, and when, is decided outside – the store answers
late or never, the clock may jump, cancellation comes at any moment – so a
statement about all electors is a statement about all sequences of inputs.

A step sees its `Surroundings` and gives a list of actions in order. The
phase holds every moment at which the elector must be woken (`Phase.due`);
moments are counted on the timer, which only ever moves forward, while the
deadlines of leases are readings of the clock.

A leadership period goes one way only:

1. the state is published and `becameLeader` announced,
2. the lease is renewed until that fails or the elector is told to stop,
3. the state `released` is published, the leadership revoked, and
   `lostLeadership` announced,
4. the consumer confirms that the work has stopped; after a shutdown the
   lease is ours still and renewals go on until then,
5. the lease is given back.

A call to the store that takes too long is given up. It takes no further
step, but what it has written stays written.
-/

namespace Tenure.Election

open Lease (Decision Lock Operation Record)

/-- One candidate: who it is, the lease it wants, and its timings. -/
structure Candidate where
  identity : String
  lock : Lock
  timing : Timing

/-- How far a call has come: waiting for the answer to its read, or to its
swap. -/
inductive Progress where
  /-- The clock was read at `now`. -/
  | reading (now : UInt64)
  | swapping (record : Record)
  deriving DecidableEq, Repr

/-- What a leader keeps in mind: its term, until when it has the lease, and
when the next renewal is due. -/
structure Period where
  term : Term
  deadline : UInt64
  tick : Nat
  deriving DecidableEq, Repr

/-- What the elector is waiting for. The moments are those at which it
gives up or goes on. -/
inductive Phase where
  /-- To be started. -/
  | created
  /-- The answer to an attempt. -/
  | acquiring (call : Progress) (giveUp : Nat)
  /-- The next attempt. -/
  | standingBy (wake : Nat)
  /-- The next renewal. -/
  | leading (period : Period)
  /-- The answer to a renewal, for at most `budget`. -/
  | renewing (period : Period) (call : Progress) (budget : UInt64) (giveUp : Nat)
  /-- The confirmation, or the next renewal while work is drained. -/
  | draining (period : Period)
  /-- The answer to a renewal while work is drained. `stopped` says
  whether the confirmation has come meanwhile. -/
  | drainRenewing (period : Period) (call : Progress) (budget : UInt64) (giveUp : Nat)
      (stopped : Bool)
  /-- The confirmation, and nothing else. -/
  | awaitingStop (term : Term)
  /-- The answer to the release. -/
  | releasing (term : Term) (call : Progress) (giveUp : Nat)
  | finished
  /-- A call to the store brought the elector down, or it was asked to
  renew without any interval. -/
  | crashed
  deriving DecidableEq, Repr

/-- When the elector goes on by itself. -/
def Phase.due : Phase → Option Nat
  | acquiring _ giveUp => some giveUp
  | standingBy wake => some wake
  | leading period => some period.tick
  | renewing _ _ _ giveUp => some giveUp
  | draining period => some period.tick
  | drainRenewing _ _ _ giveUp _ => some giveUp
  | releasing _ _ giveUp => some giveUp
  | _ => none

/-- The call that is under way. -/
def Phase.call? : Phase → Option Progress
  | acquiring call _ => some call
  | renewing _ call _ _ => some call
  | drainRenewing _ call _ _ _ => some call
  | releasing _ call _ => some call
  | _ => none

/-- Whether the elector looks at its cancellation while it waits here. -/
def Phase.cancellable : Phase → Bool
  | acquiring _ _ => true
  | standingBy _ => true
  | leading _ => true
  | renewing _ _ _ _ => true
  | _ => false

/-- Whether the elector takes the confirmation while it waits here. -/
def Phase.hearsStop : Phase → Bool
  | draining _ => true
  | awaitingStop _ => true
  | _ => false

/-- An elector: what it waits for, and how many attempts have failed since
the last one that was answered in time. -/
structure Elector where
  phase : Phase := .created
  failures : UInt32 := 0
  deriving DecidableEq, Repr

/-- What a step finds around it. -/
structure Surroundings where
  /-- The timer. -/
  time : Nat
  /-- The clock that deadlines are judged by. -/
  clock : UInt64
  /-- Whether the elector was told to stop. -/
  cancelled : Bool
  /-- Whether nobody takes its events any more. -/
  deaf : Bool
  /-- Chance, from zero to one, for the spread of delays. -/
  chance : Float

/-- What an elector does, in order. -/
inductive Action where
  | note (n : Notice)
  | publish (s : State)
  /-- Hands an event to the consumer, if there is one. -/
  | announce (e : Event)
  /-- Cancels all that goes on under the leadership of a term. -/
  | revoke (term : Term)
  /-- Begins to read the lease. -/
  | read
  /-- Begins to swap the lease's entry. -/
  | swap (expected : Option UInt64) (record : Record)
  /-- Gives up the call under way. -/
  | abandon
  deriving DecidableEq, Repr

/-- What arrives at an elector. -/
inductive Input where
  | start
  | readAnswered (answer : Store.ReadAnswer)
  | swapAnswered (answer : Store.WriteAnswer)
  /-- The moment of `Phase.due` has come. -/
  | timeUp
  /-- It is told to stop. -/
  | cancelled
  /-- The consumer confirms that the work has stopped, or has let go of
  the means to confirm it. -/
  | stopped
  /-- A call brings the elector down. -/
  | crash

namespace Candidate

/-- What is said of every notice of this candidate. -/
def named (c : Candidate) (data : List (String × Datum)) : List (String × Datum) :=
  ("identity", .plain c.identity) :: data

/-- The deadline as a notice shows it. -/
def showTime (t : UInt64) : Datum := .number t.toNat

/-- Whether a lease with this deadline can still be acted on. -/
def isAhead (c : Candidate) (s : Surroundings) (deadline : UInt64) : Bool :=
  (Lease.renewBudget deadline s.clock c.timing.renewInterval).isSome

/-- The delay after an attempt that was answered. -/
def retryDelay (c : Candidate) (s : Surroundings) : UInt64 :=
  Lease.jitteredDelay c.timing.retryPeriod c.timing.jitterFactor s.chance

/-- The delay after an attempt that failed, so many having failed before. -/
def backoffDelay (c : Candidate) (s : Surroundings) (failures : UInt32) : UInt64 :=
  Lease.jitteredDelay (Lease.backoff failures c.timing.retryPeriod c.timing.maxBackoff)
    c.timing.jitterFactor s.chance

/-- The tick after one that was due at `tick`: one interval later, counted
from now if this one came more than five milliseconds late. -/
def nextTick (c : Candidate) (now tick : Nat) : Nat :=
  (if tick + 5 < now then now else tick) + c.timing.renewInterval.toNat

/-! ## Transitions -/

/-- The end of the election for this candidate. -/
def finish (c : Candidate) (failures : UInt32) : Elector × List Action :=
  (⟨.finished, failures⟩, [.note (.info .election "leader election stopped" (c.named []))])

/-- Begins an attempt, unless told to stop. -/
def attempt (c : Candidate) (s : Surroundings) (failures : UInt32) : Elector × List Action :=
  if s.cancelled then c.finish failures
  else
    (⟨.acquiring (.reading s.clock) (pauseEnd s.time c.timing.leaseDuration.toNat), failures⟩,
      [.publish .acquiring, .read])

/-- Waits before the next attempt. -/
def standBy (s : Surroundings) (failures : UInt32) (delay : UInt64) : Elector :=
  ⟨.standingBy (pauseEnd s.time delay.toNat), failures⟩

/-- Gives the lease back; the last thing in a leadership period. -/
def giveBack (c : Candidate) (s : Surroundings) (failures : UInt32) (term : Term) :
    Elector × List Action :=
  (⟨.releasing term (.reading s.clock) (pauseEnd s.time c.timing.renewInterval.toNat), failures⟩,
    [.read])

/-- The leadership period is over. -/
def endPeriod (c : Candidate) (s : Surroundings) (failures : UInt32) : Elector × List Action :=
  (standBy s failures (c.retryDelay s), [.publish .standby])

/-- **The end of leadership**: published, revoked and announced, in this
order. -/
def lose (c : Candidate) (s : Surroundings) (failures : UInt32) (period : Period)
    (reason : LossReason) : Elector × List Action :=
  let told : List Action := [.publish .released, .revoke period.term,
    .note (.info .election "lost leadership" (c.named [("term", .number period.term.value.toNat),
      ("reason", .plain reason.name)])),
    .announce (.lostLeadership period.term reason)]
  if s.deaf then
    let (e, actions) := c.giveBack s failures period.term
    (e, told ++ actions)
  else
    match reason with
    | .shutdown =>
      (⟨.draining { period with tick := s.time + c.timing.renewInterval.toNat }, failures⟩, told)
    | _ => (⟨.awaitingStop period.term, failures⟩, told)

/-- **The beginning of leadership.** Nobody to tell of it ends it at once;
so does an interval that never passes, which no elector survives. -/
def lead (c : Candidate) (s : Surroundings) (term : Term) (deadline : UInt64) :
    Elector × List Action :=
  let told : List Action := [
    .note (.info .election "acquired lease" (c.named [("lease", .plain c.lock.key),
      ("term", .number term.value.toNat), ("deadline_ms", showTime deadline)])),
    .publish (.leading term), .announce (.becameLeader term)]
  if s.deaf then
    let (e, actions) := c.giveBack s 0 term
    (e, told ++ [
      .note (.warn .election "no consumer for leadership events, stepping down" (c.named [])),
      .publish .released, .revoke term,
      .note (.info .election "lost leadership" (c.named [("term", .number term.value.toNat),
        ("reason", .plain LossReason.shutdown.name)]))] ++ actions)
  else if c.timing.renewInterval = 0 then (⟨.crashed, 0⟩, told)
  else (⟨.leading ⟨term, deadline, s.time + c.timing.renewInterval.toNat⟩, 0⟩, told)

/-- An attempt failed. -/
def attemptFailed (c : Candidate) (s : Surroundings) (failures : UInt32) (e : Lease.Error) :
    Elector × List Action :=
  let delay := c.backoffDelay s failures
  let failed := if failures = 0xFFFFFFFF then failures else failures + 1
  (standBy s failed delay,
    [.note (.warn .election "lease acquisition failed" (c.named [("error", .plain e.message),
      ("consecutive_errors", .number failed.toNat), ("retry_in_ms", showTime delay)])),
      .publish .standby])

/-- **An attempt has ended.** A lease whose deadline has come by the time
of the answer is not acted on. -/
def attempted (c : Candidate) (s : Surroundings) (failures : UInt32) :
    Except Lease.Error Lease.AcquireOutcome → Elector × List Action
  | .ok (.acquired term deadline) =>
    if c.isAhead s deadline then c.lead s term deadline
    else
      (standBy s failures (c.retryDelay s),
        [.note (.warn .election "acquired lease already expired, not leading" (c.named
          [("term", .number term.value.toNat), ("deadline_ms", showTime deadline)])),
          .publish .standby])
  | .ok (.heldByOther holder deadline) =>
    (standBy s 0 (c.retryDelay s),
      [.note (.debug .election "lease held by another replica" (c.named
        [("current_leader", .plain holder), ("deadline_ms", showTime deadline)])),
        .publish (State.afterAcquire none)])
  | .error e => c.attemptFailed s failures e

/-- **A renewal of a leader has ended.** Only a renewal whose new deadline
is still ahead keeps leadership. -/
def renewed (c : Candidate) (s : Surroundings) (failures : UInt32) (period : Period) :
    Except Lease.Error Lease.RenewOutcome → Elector × List Action
  | .ok (.renewed next) =>
    let term : String × Datum := ("term", .number period.term.value.toNat)
    if c.isAhead s next then
      (⟨.leading { period with deadline := next }, failures⟩,
        [.note (.debug .election "renewed lease" (c.named [term, ("deadline_ms", showTime next)]))])
    else
      let (e, actions) := c.lose s failures period .renewFailed
      (e, .note (.warn .election "renewal landed after its own deadline" (c.named
        [term, ("deadline_ms", showTime next)])) :: actions)
  | .ok (.lost holder) =>
    let (e, actions) := c.lose s failures period .superseded
    (e, .note (.warn .election "lease taken over by another replica" (c.named
      [("term", .number period.term.value.toNat),
        ("new_leader", .quoted (holder.getD "none"))])) :: actions)
  | .error err =>
    let (e, actions) := c.lose s failures period .renewFailed
    (e, .note (.warn .election "lease renewal failed, giving up leadership" (c.named
      [("term", .number period.term.value.toNat), ("error", .plain err.message)])) :: actions)

/-- **A renewal while work is drained has ended.** If it failed there is
nothing left to do but wait for the confirmation. -/
def drainRenewed (c : Candidate) (s : Surroundings) (failures : UInt32) (period : Period)
    (stopped : Bool) (result : Except Lease.Error Lease.RenewOutcome) :
    Elector × List Action :=
  let term : String × Datum := ("term", .number period.term.value.toNat)
  let failed : Elector × List Action :=
    let note : Action :=
      .note (.warn .election "lease renewal failed while draining" (c.named [term]))
    if stopped then
      let (e, actions) := c.giveBack s failures period.term
      (e, note :: actions)
    else (⟨.awaitingStop period.term, failures⟩, [note])
  match result with
  | .ok (.renewed next) =>
    if c.isAhead s next then
      let note : Action :=
        .note (.debug .election "renewed lease while draining" (c.named [term]))
      if stopped then
        let (e, actions) := c.giveBack s failures period.term
        (e, note :: actions)
      else (⟨.draining { period with deadline := next }, failures⟩, [note])
    else failed
  | _ => failed

/-- The release has ended, or was given up. -/
def releaseEnded (c : Candidate) (s : Surroundings) (failures : UInt32) (term : Term)
    (result : Option (Except Lease.Error Lease.ReleaseOutcome)) : Elector × List Action :=
  let term : String × Datum := ("term", .number term.value.toNat)
  let note : Notice := match result with
    | some (.ok .released) => .info .election "released lease" (c.named [term])
    | some (.ok .alreadyReleased) => .debug .election "lease already released" (c.named [term])
    | some (.error e) =>
      .warn .election "failed to release lease, it will expire"
        (c.named [term, ("error", .plain e.message)])
    | none => .warn .election "lease release timed out, it will expire" (c.named [term])
  let (e, actions) := c.endPeriod s failures
  (e, .note note :: actions)

/-- A tick: begins a renewal for as long as the lease allows, or says that
it allows none. -/
def onTick (c : Candidate) (s : Surroundings) (period : Period) : Option (UInt64 × Nat) × Period :=
  let next := { period with tick := c.nextTick s.time period.tick }
  ((Lease.renewBudget period.deadline s.clock c.timing.renewInterval).map fun budget =>
    (budget, pauseEnd s.time budget.toNat), next)

/-- A lease call gave up after so long. -/
def tooLate (c : Candidate) {α : Type} (limit : UInt64) : Except Lease.Error α :=
  .error (.timeout c.lock.key limit)

/-! ## Steps -/

/-- The notices of a decision as actions. -/
def notes (ns : List Notice) : List Action := ns.map .note

/-- **An answer to the call under way.** `resume` puts the elector into the
phase in which the call has come further, `conclude` into what follows its
end. -/
def answered {α : Type} (op : Operation α) (call : Progress) (input : Input)
    (resume : Progress → Elector) (conclude : Except Lease.Error α → Elector × List Action) :
    Option (Elector × List Action) :=
  match call, input with
  | .reading now, .readAnswered answer =>
    match op.onRead now answer with
    | (.done result, ns) =>
      let (e, actions) := conclude result
      some (e, notes ns ++ actions)
    | (.swap expected record, ns) =>
      some (resume (.swapping record), notes ns ++ [.swap expected record])
  | .swapping record, .swapAnswered answer =>
    let (result, ns) := op.onSwap record answer
    let (e, actions) := conclude result
    some (e, notes ns ++ actions)
  | _, _ => none

/-- **One step of an elector.** `none` if the input is not one that it
waits for. -/
def step (c : Candidate) (s : Surroundings) (e : Elector) (input : Input) :
    Option (Elector × List Action) :=
  let n := e.failures
  match e.phase, input with
  | .created, .start =>
    let (e, actions) := c.attempt s n
    some (e, .note (.info .election "trying to acquire the lease"
      (c.named [("lease", .plain c.lock.key)])) :: actions)
  -- an attempt
  | .acquiring _ _, .cancelled =>
    let (e, actions) := c.finish n
    some (e, .abandon :: actions)
  | .acquiring _ _, .timeUp =>
    let (e, actions) := c.attempted s n (c.tooLate c.timing.leaseDuration)
    some (e, .abandon :: actions)
  | .acquiring _ _, .crash => some (⟨.crashed, n⟩, [])
  | .acquiring call giveUp, _ =>
    answered (c.lock.acquire c.identity) call input (fun p => ⟨.acquiring p giveUp, n⟩)
      (c.attempted s n)
  | .standingBy _, .cancelled => some (c.finish n)
  | .standingBy _, .timeUp => some (c.attempt s n)
  -- leadership
  | .leading period, .cancelled => some (c.lose s n period .shutdown)
  | .leading period, .timeUp =>
    match c.onTick s period with
    | (some (budget, giveUp), next) =>
      some (⟨.renewing next (.reading s.clock) budget giveUp, n⟩, [.read])
    | (none, next) =>
      let (e, actions) := c.lose s n next .renewFailed
      some (e, .note (.warn .election "lease expired before renewal" (c.named
        [("term", .number period.term.value.toNat),
          ("deadline_ms", showTime period.deadline)])) :: actions)
  | .renewing period _ _ _, .cancelled =>
    let (e, actions) := c.lose s n period .shutdown
    some (e, .abandon :: actions)
  | .renewing period _ budget _, .timeUp =>
    let (e, actions) := c.renewed s n period (c.tooLate budget)
    some (e, .abandon :: actions)
  | .renewing _ _ _ _, .crash => some (⟨.crashed, n⟩, [])
  | .renewing period call budget giveUp, _ =>
    answered (c.lock.renew c.identity period.term) call input
      (fun p => ⟨.renewing period p budget giveUp, n⟩) (c.renewed s n period)
  -- draining
  | .draining period, .stopped => some (c.giveBack s n period.term)
  | .draining period, .timeUp =>
    match c.onTick s period with
    | (some (budget, giveUp), next) =>
      some (⟨.drainRenewing next (.reading s.clock) budget giveUp false, n⟩, [.read])
    | (none, next) => some (c.drainRenewed s n next false (.ok (.lost none)))
  | .drainRenewing period call budget giveUp _, .stopped =>
    some (⟨.drainRenewing period call budget giveUp true, n⟩, [])
  | .drainRenewing period _ budget _ stopped, .timeUp =>
    let (e, actions) := c.drainRenewed s n period stopped (c.tooLate budget)
    some (e, .abandon :: actions)
  | .drainRenewing _ _ _ _ _, .crash => some (⟨.crashed, n⟩, [])
  | .drainRenewing period call budget giveUp stopped, _ =>
    answered (c.lock.renew c.identity period.term) call input
      (fun p => ⟨.drainRenewing period p budget giveUp stopped, n⟩)
      (c.drainRenewed s n period stopped)
  | .awaitingStop term, .stopped => some (c.giveBack s n term)
  -- release
  | .releasing term _ _, .timeUp =>
    let (e, actions) := c.releaseEnded s n term none
    some (e, .abandon :: actions)
  | .releasing _ _ _, .crash => some (⟨.crashed, n⟩, [])
  | .releasing term call giveUp, _ =>
    answered (c.lock.release c.identity term) call input
      (fun p => ⟨.releasing term p giveUp, n⟩) (fun r => c.releaseEnded s n term (some r))
  | _, _ => none

end Candidate

end Tenure.Election
