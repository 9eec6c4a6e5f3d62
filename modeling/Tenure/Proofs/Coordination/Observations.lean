import Tenure.Coordinator
import Tenure.Proofs.Election.Protocol
import Tenure.Proofs.Work.Members

/-!
# What is seen of a coordinator

A coordinator is seen where it meets others: its elector at the store, its
observer in the hooks, its caches in the outcome of each wait, and its pool at
the workers and timers. `Observation.ofStep` lists what a step shows, in
order.

`RunStage` says where a coordinator is on its way, and `Next` which ways lead
on. The elector goes its own way (`Election.Next`), but for the release,
which must wait for the hook. Everything else is one round: the hook for a
new leader, the wait for the caches, the work, the hook for the loss, and
the release. The round can be left in two places only. Between rounds and
after the hook for the loss a run may return; and it may return at work when
the elector was brought down while it led, which leaves the work behind.
-/

namespace Tenure.Coordinator

open Election (Event LossReason)
open Work (Members Pool Queue)

/-- What is seen of a coordinator. -/
inductive Observation where
  | elector (x : Election.Observation)
  /-- A pool under a term. -/
  | pool (term : Term) (x : Work.Observation)
  /-- The observer is called, while so many workers count as live. -/
  | calls (h : Hook) (active : Nat)
  /-- The observer's hook returns. -/
  | returned (h : Hook)
  /-- The wait for the caches under a term ends. -/
  | waited (term : Term) (outcome : Barrier.Outcome)
  /-- The run returns, while so many workers count as live. -/
  | returns (result : Except RunError Unit) (active : Nat)

namespace Run

/-- How many workers count as live. -/
def active (r : Run) : Nat :=
  match r.work with
  | some work => (work.pool.map Pool.active).getD 0
  | none => 0

/-- How the wait for the caches ends on a look before this deadline, if it
does. -/
def look (s : Surroundings) (r : Run) (deadline : Nat) (overFirst : Bool) :
    Option Barrier.Outcome :=
  let ends := (Barrier.look s.caches false (deadline ≤ s.time)).isSome
  Barrier.look s.caches (r.isRevoked s && !(overFirst && ends)) (deadline ≤ s.time)

end Run

namespace Observation

/-- What is seen of the pool under the present term. -/
def ofPool (r : Run) (seen : List Work.Observation) : List Observation :=
  match r.work with
  | some work => seen.map (.pool work.term)
  | none => []

/-- What is seen of what a step is about. -/
def ofInput (s : Surroundings) (r : Run) : Input → List Observation
  | .elector i => (Election.Observation.ofInput r.elector.phase i).map .elector
  | .hookReturned =>
    match r.consumer with
    | .announcing term => [.returned (.becameLeader term)]
    | .reporting term => [.returned (.lostLeadership term)]
    | _ => []
  | .work overFirst =>
    match r.work with
    | some ⟨term, .syncing deadline _, _⟩ =>
      ((r.look s deadline overFirst).map fun outcome => .waited term outcome).toList
    | _ => []
  | .pool i => ofPool r (Work.Observation.ofInput i)
  | _ => []

/-- What is seen of an action in a step from `r` to `r'`. -/
def ofAction (c : Coordinator) (r r' : Run) : Action → List Observation
  | .elector a => (Election.Observation.ofAction false r'.elector.phase a).map .elector
  | .hook h => [.calls h r.active]
  | .startPool => ofPool r (Work.Observation.ofStart c.config.workerCount.toNat)
  | .pool a => ofPool r (Work.Observation.ofAction a)
  | _ => []

/-- What is seen at the end of a step. -/
def ofEnd (r r' : Run) : Input → List Observation
  | .elector _ => (Election.Observation.ofEnd r'.elector.phase).map .elector
  | .receive =>
    match r'.consumer with
    | .finished result => [.returns result r.active]
    | _ => []
  | _ => []

/-- **What is seen of a step** from `r` to `r'`. -/
def ofStep (c : Coordinator) (s : Surroundings) (r r' : Run) (input : Input)
    (actions : List Action) : List Observation :=
  ofInput s r input ++ actions.flatMap (ofAction c r r') ++ ofEnd r r' input

/-- What is seen of the beginning. -/
def ofBegin (c : Coordinator) : List Observation :=
  match c.begin.1.consumer with
  | .finished result => [.returns result 0]
  | _ => []

/-- What is seen of the elector. -/
def elector? : Observation → Option Election.Observation
  | elector x => some x
  | _ => none

section Nothing

variable {c : Coordinator} {r r' : Run}

/-- Nothing is seen of notices. -/
@[simp] theorem flatMap_notes {α : Type} (notice : α → Notice) (xs : List α) :
    (xs.map fun x => Action.note (notice x)).flatMap (ofAction c r r') = [] := by
  induction xs with
  | nil => rfl
  | cons x xs ih => exact ih

/-- What is seen of a turn of the elector is what the elector shows. -/
theorem ofStep_elector {s : Surroundings} (input : Election.Input)
    (actions : List Election.Action) :
    ofStep c s r r' (.elector input) (actions.map .elector)
      = (Election.Observation.ofStep false r.elector input (r'.elector, actions)).map .elector := by
  unfold ofStep Election.Observation.ofStep Election.Observation.ofDone
  rw [List.map_append, List.map_append, List.flatMap_map, List.map_flatMap, List.append_assoc]
  rfl

/-- What is seen of a step of the pool is what the pool shows. -/
theorem ofStep_pool {s : Surroundings} {work : PeriodWork} (hwork : r.work = some work)
    (input : Work.PoolInput) (actions : List Work.PoolAction) :
    ofStep c s r r' (.pool input) (actions.map .pool)
      = (Work.Observation.ofStep input actions).map (.pool work.term) := by
  have hpool : ∀ seen, ofPool r seen = seen.map (.pool work.term) := by
    intro seen
    unfold ofPool
    rw [hwork]
  unfold ofStep Work.Observation.ofStep
  rw [List.map_append, List.flatMap_map, List.map_flatMap]
  simp only [ofInput, ofAction, ofEnd, hpool, List.append_nil]

end Nothing

end Observation

/-- **A run of a coordinator** with all that is seen of it. Which part goes
on is arbitrary, and so is what each step finds around it and in its
queue. -/
inductive Execution (c : Coordinator) : List Observation → Run → Prop
  | begins : c.Execution (Observation.ofBegin c) c.begin.1
  | step {seen : List Observation} {r : Run} {done : Run × Queue × List Action} (s : Surroundings)
      (q : Queue) (input : Input) (h : c.Execution seen r)
      (hstep : Run.step c s r q input = some done) :
      c.Execution (seen ++ Observation.ofStep c s r done.1 input done.2.2) done.1

/-! ## The ways of a coordinator -/

/-- How far a coordinator is with the present term. -/
inductive TermStage where
  /-- No term is at hand. -/
  | apart
  /-- The hook for a new leader is running. -/
  | welcoming (term : Term)
  /-- It has returned, and the caches are waited for. -/
  | waiting (term : Term)
  /-- The caches are not complete, and no longer waited for. -/
  | unready (term : Term)
  /-- The caches are complete, and these are the members of the pool. -/
  | working (term : Term) (m : Members)
  /-- The hook for the loss is running. -/
  | parting (term : Term)
  /-- It has returned. -/
  | parted (term : Term)
  /-- The run has returned. -/
  | closed

/-- Between the hooks of a term. -/
inductive TermStage.IsDuring (term : Term) : TermStage → Prop
  | waiting : IsDuring term (.waiting term)
  | unready : IsDuring term (.unready term)
  | working {m : Members} : IsDuring term (.working term m)

/-- The work of a term has ended. -/
inductive TermStage.IsDone (term : Term) : TermStage → Prop
  | unready : IsDone term (.unready term)
  | working : IsDone term (.working term .none)

/-- How far a coordinator and its elector are. -/
structure RunStage where
  elector : Election.ElectorStage
  rest : TermStage

/-- At the start. -/
def RunStage.start : RunStage := ⟨.idle, .apart⟩

/-- **The ways from one stage to another.** -/
inductive Next : RunStage → Observation → RunStage → Prop
  | elector {a a' : Election.ElectorStage} {b : TermStage} {x : Election.Observation}
    (h : Election.Next false a x a') (hx : ∀ t, x ≠ .calls (.release t)) :
    Next ⟨a, b⟩ (.elector x) ⟨a', b⟩
  | releases {a a' : Election.ElectorStage} {t : Term}
    (h : Election.Next false a (.calls (.release t)) a') :
    Next ⟨a, .parted t⟩ (.elector (.calls (.release t))) ⟨a', .apart⟩
  | welcomes {a : Election.ElectorStage} {t : Term} {n : Nat} :
    Next ⟨a, .apart⟩ (.calls (.becameLeader t) n) ⟨a, .welcoming t⟩
  | welcomed {a : Election.ElectorStage} {t : Term} :
    Next ⟨a, .welcoming t⟩ (.returned (.becameLeader t)) ⟨a, .waiting t⟩
  | syncs {a : Election.ElectorStage} {t : Term} :
    Next ⟨a, .waiting t⟩ (.waited t .allSynced) ⟨a, .working t .none⟩
  | givesUp {a : Election.ElectorStage} {t : Term} {outcome : Barrier.Outcome}
    (h : outcome ≠ .allSynced) : Next ⟨a, .waiting t⟩ (.waited t outcome) ⟨a, .unready t⟩
  | works {a : Election.ElectorStage} {t : Term} {m m' : Members} {x : Work.Observation}
    (h : Members.Next m x m') : Next ⟨a, .working t m⟩ (.pool t x) ⟨a, .working t m'⟩
  | parts {a : Election.ElectorStage} {b : TermStage} {t : Term} (h : b.IsDone t) :
    Next ⟨a, b⟩ (.calls (.lostLeadership t) 0) ⟨a, .parting t⟩
  | parted {a : Election.ElectorStage} {t : Term} :
    Next ⟨a, .parting t⟩ (.returned (.lostLeadership t)) ⟨a, .parted t⟩
  | returns {a : Election.ElectorStage} {result : Except RunError Unit} :
    Next ⟨a, .apart⟩ (.returns result 0) ⟨a, .closed⟩
  | returnsParted {a : Election.ElectorStage} {t : Term} {result : Except RunError Unit} :
    Next ⟨a, .parted t⟩ (.returns result 0) ⟨a, .closed⟩
  | leaves {b : TermStage} {t : Term} {n : Nat} (h : b.IsDuring t) :
    Next ⟨.down (some t), b⟩ (.returns (.error .electorTask) n) ⟨.down (some t), b⟩

/-- A pool at work goes the ways of its members. -/
theorem trail_of_members {a : Election.ElectorStage} {term : Term} {m m' : Members}
    {seen : List Work.Observation} (t : Trail Members.Next m seen m') :
    Trail Next ⟨a, .working term m⟩ (seen.map (.pool term)) ⟨a, .working term m'⟩ := by
  induction t with
  | nil => exact .nil
  | cons hx _ ih => exact .cons (.works hx) ih

/-- The elector of a coordinator goes the ways of an elector. -/
theorem elector_trail {p p' : RunStage} {seen : List Observation} (t : Trail Next p seen p') :
    Trail (Election.Next false) p.elector (seen.filterMap Observation.elector?) p'.elector := by
  induction t with
  | nil => exact .nil
  | cons hx _ ih =>
    cases hx with
    | elector h hx => exact .cons h ih
    | releases h => exact .cons h ih
    | _ => exact ih

end Tenure.Coordinator
