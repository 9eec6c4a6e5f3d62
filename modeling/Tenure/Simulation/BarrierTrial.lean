import Tenure.Barrier
import Tenure.Pause

/-!
# A barrier in virtual time

Feeds that mark their caches and end at set moments, and waits that follow
each other. Whoever waits goes on first when a moment comes for which it has
set its timer, so at that moment nothing else has happened yet. What the
feeds do at the very beginning is done before the first wait.
-/

namespace Tenure.Simulation

open Barrier (Event Outcome)

/-- The plan of a cache's feed. -/
structure FeedPlan where
  name : String
  markAt : Option Nat
  /-- Whether it marks the cache once more. -/
  twice : Bool
  endAt : Option Nat

/-- What a feed does in the course of time. It ends after its mark. -/
def FeedPlan.events (p : FeedPlan) (source : Nat) : List (Nat × Event) :=
  let marks := match p.markAt with
    | none => []
    | some t => List.replicate (if p.twice then 2 else 1) (t, Event.mark source)
  let finish := match p.endAt with
    | none => []
    | some t => [(max t (p.markAt.getD 0), Event.finish source)]
  marks ++ finish

/-- Events in order of time, those of one moment together. -/
def momentsOf (events : List (Nat × Event)) : List (Nat × List Event) :=
  let sorted := events.mergeSort fun a b => a.1 ≤ b.1
  (sorted.splitBy fun a b => a.1 == b.1).filterMap fun group =>
    group.head?.map fun first => (first.1, group.map Prod.snd)

/-- One wait: for how long, and from when on. -/
structure PlannedWait where
  timeout : UInt64
  notBefore : Nat

/-- A wait under a token of its own, or one that it shares with others. -/
structure TokenWait extends PlannedWait where
  token : Nat

/-- A wait that has ended. -/
structure EndedWait where
  outcome : Outcome
  start : Nat
  finish : Nat
  /-- The caches after it. -/
  sources : List CacheSource

/-- The waits one after the other, and what was said. -/
def waitAll (now : Nat) (c : Barrier.Timeline) :
    List TokenWait → List EndedWait × List (Nat × Notice)
  | [] => ([], [])
  | w :: rest =>
    let start := max now w.notBefore
    let before := Barrier.advance start c.sources c.cancelled c.moments
    let (outcome, finish, timeline) :=
      Barrier.wait w.token w.timeout (pauseEnd start w.timeout.toNat) start [] before.sources
        before.cancelled before.moments
    let (later, said) := waitAll finish timeline rest
    (⟨outcome, start, finish, timeline.sources⟩ :: later,
      before.notices ++ timeline.notices ++ said)

/-- **A trial of a barrier**, with one token for all waits. -/
def barrierTrial (plans : List FeedPlan) (cancelAt : Option Nat) (waits : List PlannedWait) :
    List EndedWait × List (Nat × Notice) :=
  let (first, later) := (plans.zipIdx.flatMap fun (p, i) => p.events i).partition (·.1 = 0)
  let sources : List CacheSource := plans.map fun p => { name := p.name }
  let (sources, said) := Barrier.applyAll sources (first.map Prod.snd)
  let cancel := cancelAt.toList.map fun t => (t, Event.cancel 0)
  let (ended, more) := waitAll 0
    { sources, cancelled := [], moments := momentsOf (later ++ cancel) }
    (waits.map fun w => { w with token := 0 })
  (ended, said.map (0, ·) ++ more)

end Tenure.Simulation
