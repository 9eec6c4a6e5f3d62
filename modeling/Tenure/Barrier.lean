import Tenure.Notice

/-!
# The cache barrier

A new leader waits until all its caches hold their first full state. Each
cache has a feed that fills it and marks it synced once; the mark is never
taken back. A feed may also end. The end of a feed that has not marked its
cache is not the same as the mark: the barrier says so and goes on waiting,
since the cache will never be complete.

`Barrier.look` is one look at the caches: whether the wait is over, and
how. `Barrier.wait` follows a wait through what the feeds do meanwhile. Each
wait is under a token, and ends when that is cancelled; other tokens are
none of its business.
-/

namespace Tenure

/-- A cache as the barrier sees it. -/
structure CacheSource where
  name : String
  /-- The feed has marked it. -/
  synced : Bool := false
  /-- The feed has ended. -/
  ended : Bool := false
  deriving DecidableEq, Repr

namespace CacheSource

/-- The feed marks the cache. The first mark is reported. A feed that has
ended marks nothing. -/
def markSynced (c : CacheSource) : CacheSource × List Notice :=
  if c.ended || c.synced then (c, [])
  else
    ({ c with synced := true },
      [.debug .caches "cache reported synced" [("source", .plain c.name)]])

/-- The feed ends. -/
def endFeed (c : CacheSource) : CacheSource := { c with ended := true }

/-- Whether nothing will ever mark the cache. -/
def isStuck (c : CacheSource) : Bool := c.ended && !c.synced

end CacheSource

namespace Barrier

/-- How a wait ended. -/
inductive Outcome where
  | allSynced
  /-- Time was up; the caches not marked then. -/
  | partialTimeout (unsynced : List String)
  | cancelled
  deriving DecidableEq, Repr

/-- The caches that are not marked. -/
def unsynced (sources : List CacheSource) : List String :=
  (sources.filter (!·.synced)).map (·.name)

/-- **One look at the caches.** The marks are looked at before the
time. -/
def look (sources : List CacheSource) (cancelled timeUp : Bool) : Option Outcome :=
  if cancelled then some .cancelled
  else if sources.all (·.synced) then some .allSynced
  else if timeUp then some (.partialTimeout (unsynced sources))
  else none

/-- The caches with their marks, as notices list them. -/
def status (sources : List CacheSource) : List String :=
  sources.map fun c => c.name ++ "=" ++ (if c.synced then "true" else "false")

/-- What is said at the end of a wait. -/
def outcomeNotices (sources : List CacheSource) (timeout : UInt64) : Outcome → List Notice
  | .allSynced => [.info .caches "local caches are synced" [("sources", .list (status sources))]]
  | .partialTimeout names =>
    [.warn .caches "cache sync timed out" [("sources", .list (status sources)),
      ("unsynced", .list names), ("timeout_ms", .number timeout.toNat)]]
  | .cancelled => []

/-- The caches found stuck on this look for the first time: their positions
and what is said of them. `known` are the positions found before. -/
def newlyStuck (sources : List CacheSource) (known : List Nat) : List (Nat × Notice) :=
  (sources.zipIdx.filter fun (c, i) => c.isStuck && !known.contains i).map fun (c, i) =>
    (i, .warn .caches "cache feed stopped before syncing" [("source", .plain c.name)])

/-- What happens around a wait. -/
inductive Event where
  | mark (source : Nat)
  /-- A feed ends. -/
  | finish (source : Nat)
  /-- Whoever waits under this token is told to stop. -/
  | cancel (token : Nat)
  deriving DecidableEq, Repr

/-- The token that an event cancels. -/
def Event.cancels? : Event → Option Nat
  | .cancel token => some token
  | _ => none

/-- What an event does to the caches. -/
def applyEvent (sources : List CacheSource) : Event → List CacheSource × List Notice
  | .mark i =>
    match sources[i]? with
    | some c =>
      let (c, notices) := c.markSynced
      (sources.set i c, notices)
    | none => (sources, [])
  | .finish i =>
    match sources[i]? with
    | some c => (sources.set i c.endFeed, [])
    | none => (sources, [])
  | .cancel _ => (sources, [])

/-- What the events of one moment do to the caches. -/
def applyAll (sources : List CacheSource) : List Event → List CacheSource × List Notice
  | [] => (sources, [])
  | event :: rest =>
    let (sources, said) := applyEvent sources event
    let (sources, more) := applyAll sources rest
    (sources, said ++ more)

/-- What a wait, or the time between waits, leaves behind: the caches, the
tokens that have been cancelled, the moments still to come, and what was
said when. -/
structure Timeline where
  sources : List CacheSource
  cancelled : List Nat
  moments : List (Nat × List Event)
  notices : List (Nat × Notice) := []

/-- Lets everything happen that comes before a moment, while nobody
waits. -/
def advance (before : Nat) (sources : List CacheSource) (cancelled : List Nat) :
    List (Nat × List Event) → Timeline
  | [] => { sources, cancelled, moments := [] }
  | (t, events) :: rest =>
    if t < before then
      let (sources, said) := applyAll sources events
      let timeline := advance before sources (cancelled ++ events.filterMap Event.cancels?) rest
      { timeline with notices := said.map (t, ·) ++ timeline.notices }
    else { sources, cancelled, moments := (t, events) :: rest }

/-- **A wait** under a token from `now` on. It ends at the moment that
completes the caches, at `deadline`, or when its token is cancelled,
whichever is first; what happens at the deadline itself comes too late.
`moments` lists what is still to come in order of time, each moment with all
its events. `known` are the caches already found stuck. -/
def wait (token : Nat) (timeout : UInt64) (deadline now : Nat) (known : List Nat)
    (sources : List CacheSource) (cancelled : List Nat) :
    List (Nat × List Event) → Outcome × Nat × Timeline
  | [] =>
    let c : Timeline := { sources, cancelled, moments := [], notices := said }
    match look sources (cancelled.contains token) (deadline ≤ now) with
    | some outcome => conclude now outcome c
    | none => giveUp c
  | (t, events) :: rest =>
    let c : Timeline := { sources, cancelled, moments := (t, events) :: rest, notices := said }
    match look sources (cancelled.contains token) (deadline ≤ now) with
    | some outcome => conclude now outcome c
    | none =>
      if t < deadline then
        let (after, marked) := applyAll sources events
        let (outcome, ended, timeline) := wait token timeout deadline (max now t)
          (known ++ (newlyStuck sources known).map Prod.fst) after
          (cancelled ++ events.filterMap Event.cancels?) rest
        (outcome, ended,
          { timeline with notices := said ++ marked.map (t, ·) ++ timeline.notices })
      else giveUp c
where
  /-- What is said on a look at the present moment. A wait that is cancelled
  does not look at its caches. -/
  said : List (Nat × Notice) :=
    if cancelled.contains token then [] else (newlyStuck sources known).map fun (_, n) => (now, n)
  /-- The end of the wait. -/
  conclude (moment : Nat) (outcome : Outcome) (c : Timeline) : Outcome × Nat × Timeline :=
    (outcome, moment, { c with
      notices := c.notices ++ (outcomeNotices c.sources timeout outcome).map (moment, ·) })
  /-- Nothing happens before the deadline. -/
  giveUp (c : Timeline) : Outcome × Nat × Timeline :=
    conclude deadline (.partialTimeout (unsynced c.sources)) c

end Barrier

end Tenure
