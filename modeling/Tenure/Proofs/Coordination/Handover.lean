import Tenure.Proofs.Coordination.Rounds

/-!
# The hand-over

What a coordinator promises to whoever relies on there being one leader at
work: its workers do not start before the observer knows of the term and the
caches are complete, and the lease is not given back before the last of them
has ended, and the observer knows of that too. It holds wherever a term is
cut short – in a hook, in the wait for the caches, while workers start,
reconcile or come down, while timers run – and whether or not a failure
brings the elector down.

As for the elector (`Election.Protocol`), each part is a statement on the
`latest` of a few kinds of observations, and a `RunStage` remembers it.
-/

namespace Tenure.Coordinator

open Work (Members)

/-! ## What is promised -/

namespace Observation

/-- What the observer sees. -/
def isHook : Observation → Bool
  | calls _ _ => true
  | returned _ => true
  | _ => false

/-- What work waits for. -/
def isGate : Observation → Bool
  | calls _ _ => true
  | returned _ => true
  | waited _ _ => true
  | _ => false

/-- The beginning and the end of a worker. -/
def isWorker (i : Nat) : Observation → Bool
  | pool _ (.starts j) => j = i
  | pool _ (.ends j) => j = i
  | _ => false

/-- The beginning and the end of a timer. -/
def isTimer (id : Nat) : Observation → Bool
  | pool _ (.arms id') => id' = id
  | pool _ (.disarms id') => id' = id
  | _ => false

end Observation

/-- Every worker and every timer that has begun has ended. -/
structure AllEnded (seen : List Observation) : Prop where
  workers (i : Nat) (t : Term) : latest (Observation.isWorker i) seen ≠ some (.pool t (.starts i))
  timers (id : Nat) (t : Term) : latest (Observation.isTimer id) seen ≠ some (.pool t (.arms id))

/-- **The order of a hand-over**, in a run of which this has been seen. -/
structure Handover (seen : List Observation) : Prop where
  /-- The hook for a new leader is called when the one for the last loss has
  returned, if there was one, -/
  welcomed {before after : List Observation} {t : Term} {n : Nat}
    (h : seen = before ++ .calls (.becameLeader t) n :: after) :
    latest Observation.isHook before = none ∨
      ∃ t', latest Observation.isHook before = some (.returned (.lostLeadership t'))
  /-- the hook for a loss when the one for the same term has returned, -/
  lost {before after : List Observation} {t : Term} {n : Nat}
    (h : seen = before ++ .calls (.lostLeadership t) n :: after) :
    latest Observation.isHook before = some (.returned (.becameLeader t))
  /-- and a hook returns that has been called. -/
  returned {before after : List Observation} {hook : Hook}
    (h : seen = before ++ .returned hook :: after) :
    ∃ n, latest Observation.isHook before = some (.calls hook n)
  /-- The wait for the caches follows the hook for the new leader, -/
  waited {before after : List Observation} {t : Term} {outcome : Barrier.Outcome}
    (h : seen = before ++ .waited t outcome :: after) :
    latest Observation.isGate before = some (.returned (.becameLeader t))
  /-- and workers start, and do anything, only when it has ended well. -/
  gated {before after : List Observation} {t : Term} {x : Work.Observation}
    (h : seen = before ++ .pool t x :: after) :
    latest Observation.isGate before = some (.waited t .allSynced)
  /-- The hook for a loss is called when all workers and timers have ended
  and nobody counts as live. -/
  stopped {before after : List Observation} {t : Term} {n : Nat}
    (h : seen = before ++ .calls (.lostLeadership t) n :: after) : AllEnded before ∧ n = 0
  /-- The lease is given back when that hook has returned. -/
  released {before after : List Observation} {t : Term}
    (h : seen = before ++ .elector (.calls (.release t)) :: after) :
    latest Observation.isHook before = some (.returned (.lostLeadership t))

/-! ## What a stage remembers -/

namespace TermStage

/-- What the observer saw last. -/
def HasHook : TermStage → Option Observation → Prop
  | apart, last => last = none ∨ ∃ t, last = some (.returned (.lostLeadership t))
  | welcoming t, last => ∃ n, last = some (.calls (.becameLeader t) n)
  | waiting t, last => last = some (.returned (.becameLeader t))
  | unready t, last => last = some (.returned (.becameLeader t))
  | working t _, last => last = some (.returned (.becameLeader t))
  | parting t, last => ∃ n, last = some (.calls (.lostLeadership t) n)
  | parted t, last => last = some (.returned (.lostLeadership t))
  | closed, _ => True

/-- What work has waited for last. -/
def HasGate : TermStage → Option Observation → Prop
  | waiting t, last => last = some (.returned (.becameLeader t))
  | working t _, last => last = some (.waited t .allSynced)
  | _, _ => True

/-- The members of the pool. -/
def members : TermStage → Members
  | working _ m => m
  | _ => .none

theorem IsDone.members_eq {t : Term} {b : TermStage} (h : b.IsDone t) : b.members = .none := by
  cases h <;> rfl

end TermStage

section Memory

variable {p : RunStage} {seen : List Observation}

theorem hasHook_of_trail (t : Trail Next .start seen p) :
    p.rest.HasHook (latest Observation.isHook seen) := by
  refine t.latest (fun p last => p.rest.HasHook last) (fun p x p' last hx hlast => ?_) (.inl rfl)
  cases hx with
  | welcomes | parts => exact ⟨_, rfl⟩
  | welcomed | parted => rfl
  | releases => exact .inr ⟨_, hlast⟩
  | returns | returnsParted => trivial
  | _ => exact hlast

theorem hasGate_of_trail (t : Trail Next .start seen p) :
    p.rest.HasGate (latest Observation.isGate seen) := by
  refine t.latest (fun p last => p.rest.HasGate last) (fun p x p' last hx hlast => ?_) trivial
  cases hx with
  | elector | works | leaves => exact hlast
  | welcomed | syncs => rfl
  | _ => trivial

/-- A worker that has started and not ended is a member of the pool. -/
theorem mem_workers_of_trail (t : Trail Next .start seen p) {i : Nat} {term : Term}
    (h : latest (Observation.isWorker i) seen = some (.pool term (.starts i))) :
    i ∈ p.rest.members.workers := by
  refine t.latest (fun p last => last = some (.pool term (.starts i)) →
    i ∈ p.rest.members.workers) (fun p x p' last hx hlast => ?_) (fun h => by contradiction) h
  cases hx with
  | works hm =>
    cases hm with
    | @starts j hj =>
      by_cases hij : j = i
      · exact fun _ => Set.mem_insert_iff.2 (.inl hij.symm)
      · rw [Observation.isWorker, if_neg (by simpa using hij)]
        exact fun h => Set.mem_insert_of_mem j (hlast h)
    | @ends j hj =>
      by_cases hij : j = i
      · rw [Observation.isWorker, if_pos (by simpa using hij)]
        exact fun h => by simp at h
      · rw [Observation.isWorker, if_neg (by simpa using hij)]
        exact fun h => ⟨hlast h, fun h' => hij (Set.mem_singleton_iff.1 h').symm⟩
    | _ => exact hlast
  | parts hdone =>
    rw [hdone.members_eq] at hlast
    exact hlast
  | _ => exact hlast

/-- And so is a timer. -/
theorem mem_timers_of_trail (t : Trail Next .start seen p) {id : Nat} {term : Term}
    (h : latest (Observation.isTimer id) seen = some (.pool term (.arms id))) :
    id ∈ p.rest.members.timers := by
  refine t.latest (fun p last => last = some (.pool term (.arms id)) →
    id ∈ p.rest.members.timers) (fun p x p' last hx hlast => ?_) (fun h => by contradiction) h
  cases hx with
  | works hm =>
    cases hm with
    | @arms id' hworkers hid =>
      by_cases heq : id' = id
      · exact fun _ => Set.mem_insert_iff.2 (.inl heq.symm)
      · rw [Observation.isTimer, if_neg (by simpa using heq)]
        exact fun h => Set.mem_insert_of_mem id' (hlast h)
    | @disarms id' hid =>
      by_cases heq : id' = id
      · rw [Observation.isTimer, if_pos (by simpa using heq)]
        exact fun h => by simp at h
      · rw [Observation.isTimer, if_neg (by simpa using heq)]
        exact fun h => ⟨hlast h, fun h' => heq (Set.mem_singleton_iff.1 h').symm⟩
    | _ => exact hlast
  | parts hdone =>
    rw [hdone.members_eq] at hlast
    exact hlast
  | _ => exact hlast

/-- Where the pool has no members, all have ended. -/
theorem allEnded_of_trail (t : Trail Next .start seen p) (h : p.rest.members = .none) :
    AllEnded seen where
  workers i term hlast := by
    have hi := mem_workers_of_trail t hlast
    rw [h] at hi
    exact Set.notMem_empty i hi
  timers id term hlast := by
    have hid := mem_timers_of_trail t hlast
    rw [h] at hid
    exact Set.notMem_empty id hid

end Memory

/-! ## The order is kept -/

theorem handover_of_trail {seen : List Observation} {z : RunStage} (t : Trail Next .start seen z) :
    Handover seen where
  welcomed h := by
    obtain ⟨p, p', hbefore, hx, -⟩ := t.met h
    have hhook := hasHook_of_trail hbefore
    cases hx with
    | welcomes => exact hhook
  lost h := by
    obtain ⟨p, p', hbefore, hx, -⟩ := t.met h
    have hhook := hasHook_of_trail hbefore
    cases hx with
    | parts hdone => cases hdone <;> exact hhook
  returned h := by
    obtain ⟨p, p', hbefore, hx, -⟩ := t.met h
    have hhook := hasHook_of_trail hbefore
    cases hx <;> exact hhook
  waited h := by
    obtain ⟨p, p', hbefore, hx, -⟩ := t.met h
    have hgate := hasGate_of_trail hbefore
    cases hx <;> exact hgate
  gated h := by
    obtain ⟨p, p', hbefore, hx, -⟩ := t.met h
    have hgate := hasGate_of_trail hbefore
    cases hx with
    | works hm => exact hgate
  stopped h := by
    obtain ⟨p, p', hbefore, hx, -⟩ := t.met h
    cases hx with
    | parts hdone => exact ⟨allEnded_of_trail hbefore hdone.members_eq, rfl⟩
  released h := by
    obtain ⟨p, p', hbefore, hx, -⟩ := t.met h
    have hhook := hasHook_of_trail hbefore
    cases hx with
    | elector hx hrelease => exact absurd rfl (hrelease _)
    | releases hx => exact hhook

/-- **Every run of a coordinator hands over in order.** -/
theorem Execution.handover {c : Coordinator} {seen : List Observation} {r : Run}
    (h : c.Execution seen r) : Handover seen := by
  obtain ⟨p, t, -⟩ := h.trail
  exact handover_of_trail t

/-- A replica with the usual settings and one worker. -/
def lone : Coordinator where
  config := { Config.default with identity := "a", workerCount := 1 }
  hasReconciler := true

/-- What is found around a step while nobody tells the run to stop. -/
def quietly (time : Nat) : Surroundings := ⟨time, UInt64.ofNat time, false, 0, [], 0⟩

/-- A term whose first renewal fails while a key is reconciled. -/
def oneRound : List Observation :=
  [.elector (.shows .acquiring), .elector (.calls .acquire), .elector (.shows (.leading ⟨1⟩)),
    .elector (.announces (.becameLeader ⟨1⟩) true), .calls (.becameLeader ⟨1⟩) 0,
    .returned (.becameLeader ⟨1⟩), .waited ⟨1⟩ .allSynced, .pool ⟨1⟩ (.starts 0),
    .pool ⟨1⟩ (.reconciles 0 "key"), .elector (.calls (.renew ⟨1⟩)), .elector (.shows .released),
    .elector (.revokes ⟨1⟩), .elector (.announces (.lostLeadership ⟨1⟩ .renewFailed) true),
    .pool ⟨1⟩ (.arms 0), .pool ⟨1⟩ (.ends 0), .pool ⟨1⟩ (.disarms 0),
    .calls (.lostLeadership ⟨1⟩) 0, .returned (.lostLeadership ⟨1⟩), .elector (.hears ⟨1⟩),
    .elector (.calls (.release ⟨1⟩))]

/-- Its worker has been started, -/
def atWork : Run where
  elector := ⟨.leading ⟨⟨1⟩, 15000, 5002⟩, 0⟩
  work := some ⟨⟨1⟩, .running, some (.start 0 1000 1)⟩

theorem lone_execution_to_work : lone.Execution (oneRound.take 8) atWork := by
  have h₁ : lone.Execution _ _ := .step (quietly 0) {} (.elector .start) .begins rfl
  have h₂ := h₁.step (quietly 1) {} (.elector (.readAnswered (.error (.notFound "lease")))) rfl
  have h₃ := h₂.step (quietly 2) {} (.elector (.swapAnswered (.ok ⟨some 1⟩))) rfl
  have h₄ := h₃.step (quietly 3) {} .receive rfl
  have h₅ := h₄.step (quietly 4) {} .hookReturned rfl
  have h₆ := h₅.step (quietly 5) {} (.work false) rfl
  exact h₆.step (quietly 5) {} (.work false) rfl

/-- and later the lease is given back. -/
def givingBack : Run where
  elector := ⟨.releasing ⟨1⟩ (.reading 5012) 10012, 0⟩
  revoked := true
  confirmed := true

theorem lone_execution : lone.Execution oneRound givingBack := by
  have h₁ := lone_execution_to_work.step (quietly 6) {} (.pool (.begin 0)) rfl
  have h₂ := h₁.step (quietly 7) { items := ["key"], queued := ["key"] } (.pool (.seek 0 false)) rfl
  have h₃ := h₂.step (quietly 5002) {} (.elector .timeUp) rfl
  have h₄ := h₃.step (quietly 5003) {}
    (.elector (.readAnswered (.error (.unavailable "outage")))) rfl
  have h₅ := h₄.step (quietly 5004) {} .receive rfl
  have h₆ := h₅.step (quietly 5005) {} (.pool (.returned 0 (.failed "failure"))) rfl
  have h₇ := h₆.step (quietly 5006) {} (.work false) rfl
  have h₈ := h₇.step (quietly 5007) {} (.pool (.seek 0 false)) rfl
  have h₉ := h₈.step (quietly 5008) {} (.pool (.requeueStopped 0)) rfl
  have h₁₀ := h₉.step (quietly 5009) {} (.work false) rfl
  have h₁₁ := h₁₀.step (quietly 5010) {} .join rfl
  have h₁₂ := h₁₁.step (quietly 5011) {} .hookReturned rfl
  exact h₁₂.step (quietly 5012) {} (.elector .stopped) rfl

/-- It hands over in order through such a term. -/
theorem handover_through_term : lone.Execution oneRound givingBack ∧ Handover oneRound :=
  ⟨lone_execution, lone_execution.handover⟩

/-- The inbox has room for four events, and there are never more than two in
it, so the elector never has to wait for room. -/
theorem Execution.inbox_le_two {c : Coordinator} {seen : List Observation} {r : Run}
    (h : c.Execution seen r) : r.inbox.length ≤ 2 := by
  obtain ⟨p, -, hfits⟩ := h.trail
  exact hfits.agree.inbox_le_two

end Tenure.Coordinator
