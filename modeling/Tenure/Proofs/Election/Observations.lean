import Tenure.Proofs.Election.Turn
import Tenure.Proofs.Trail

/-!
# What is seen of an elector

Of what an elector does, its store, its consumer and whoever watches its state
see only some: an `Observation`. A turn of the elector may give several, one
after the other.

What the elector may do next depends on little of its state: the `ElectorStage`
it has come to, which also tells apart the places within a turn. `Next`
lists the ways from one stage to another, and `Execution.trail` says that
whatever happens around an elector, it goes no other. This is all that is
needed about single steps for statements on whole runs. An elector may be
brought down at any time, and its consumer may leave at any time.
-/

namespace Tenure.Election

open Lease (Operation Request)

/-- What is seen of an elector. -/
inductive Observation where
  /-- It publishes its state. -/
  | shows (s : State)
  /-- It begins to ask something of its lock. -/
  | calls (request : Request)
  /-- It attempts to hand an event to the consumer, who may be gone. -/
  | announces (e : Event) (delivered : Bool)
  /-- It cancels all that goes on under a term. -/
  | revokes (term : Term)
  /-- It learns that the work of a term has stopped, or that nobody is left
  to say so. -/
  | hears (term : Term)
  /-- Its run returns. -/
  | returns
  /-- It is brought down. -/
  | falls
  deriving DecidableEq

namespace Observation

/-- What is seen of an action that puts the elector into this phase. A call
to the lock begins with a read. -/
def ofAction (deaf : Bool) (φ' : Phase) : Action → List Observation
  | .publish s => [.shows s]
  | .announce e => [.announces e (!deaf)]
  | .revoke term => [.revokes term]
  | .read => (φ'.asked?.map fun asked => .calls asked.1).toList
  | _ => []

/-- What is seen when the elector ends. -/
def ofEnd : Phase → List Observation
  | .finished => [.returns]
  | .crashed => [.falls]
  | _ => []

/-- What is seen when the confirmation arrives for the first time. -/
def ofInput : Phase → Input → List Observation
  | .draining period, .stopped => [.hears period.term]
  | .drainRenewing period _ _ _ false, .stopped => [.hears period.term]
  | .awaitingStop term, .stopped => [.hears term]
  | _, _ => []

/-- What is seen of what an elector does. -/
def ofDone (deaf : Bool) (done : Elector × List Action) : List Observation :=
  done.2.flatMap (ofAction deaf done.1.phase) ++ ofEnd done.1.phase

/-- **What is seen of a step.** -/
def ofStep (deaf : Bool) (e : Elector) (input : Input) (done : Elector × List Action) :
    List Observation :=
  ofInput e.phase input ++ ofDone deaf done

/-- Nothing is seen of what arrives but the confirmation. -/
theorem ofInput_eq (φ : Phase) (input : Input) :
    ofInput φ input = [] ∨ ∃ t, input = .stopped ∧ ofInput φ input = [.hears t] := by
  unfold ofInput
  split
  · exact .inr ⟨_, rfl, rfl⟩
  · exact .inr ⟨_, rfl, rfl⟩
  · exact .inr ⟨_, rfl, rfl⟩
  · exact .inl rfl

/-- What an elector does is not what it hears, and the consumer takes every
event if it is there. -/
theorem not_hears_of_mem_ofDone {done : Elector × List Action} {x : Observation}
    (h : x ∈ ofDone false done) : (∀ e, x ≠ .announces e false) ∧ ∀ t, x ≠ .hears t := by
  unfold ofDone at h
  rcases List.mem_append.1 h with h | h
  · obtain ⟨action, -, hx⟩ := List.mem_flatMap.1 h
    cases action with
    | read =>
      obtain ⟨asked, -, rfl⟩ := by simpa [ofAction] using hx
      exact ⟨by simp, by simp⟩
    | _ => simp_all [ofAction]
  · cases hφ : done.1.phase <;> simp_all [ofEnd]

end Observation

/-- Where an elector is on its way through an election. -/
inductive ElectorStage where
  /-- Between attempts. -/
  | idle
  /-- About to attempt to acquire the lease. -/
  | opening
  | trying
  /-- The term is published and not yet announced. -/
  | taken (term : Term)
  | leading (term : Term)
  /-- The consumer was gone when the term was to be announced. -/
  | unheard (term : Term)
  /-- The same, and the end of the term is published. -/
  | dropping (term : Term)
  /-- The end of an announced term is published. -/
  | stepping (term : Term)
  /-- And the term revoked. -/
  | ceded (term : Term)
  /-- And the end announced: waits for the confirmation. -/
  | told (term : Term)
  /-- The confirmation has come. -/
  | heard (term : Term)
  /-- Nobody will confirm. -/
  | deserted (term : Term)
  | releasing (term : Term)
  | ended
  /-- Brought down, while it led or not. -/
  | down (term : Option Term)

/-- **The ways from one stage to another.** An elector that is told to
stop begins no attempt. -/
inductive Next (cancelled : Bool) : ElectorStage → Observation → ElectorStage → Prop
  | opens (h : cancelled = false) : Next cancelled .idle (.shows .acquiring) .opening
  | tries : Next cancelled .opening (.calls .acquire) .trying
  | misses : Next cancelled .trying (.shows .standby) .idle
  | takes {t : Term} : Next cancelled .trying (.shows (.leading t)) (.taken t)
  | begins {t : Term} : Next cancelled (.taken t) (.announces (.becameLeader t) true) (.leading t)
  | speaksAlone {t : Term} :
    Next cancelled (.taken t) (.announces (.becameLeader t) false) (.unheard t)
  | renews {t : Term} : Next cancelled (.leading t) (.calls (.renew t)) (.leading t)
  | steps {t : Term} : Next cancelled (.leading t) (.shows .released) (.stepping t)
  | drops {t : Term} : Next cancelled (.unheard t) (.shows .released) (.dropping t)
  | cedes {t : Term} : Next cancelled (.stepping t) (.revokes t) (.ceded t)
  | deserts {t : Term} : Next cancelled (.dropping t) (.revokes t) (.deserted t)
  | tells {t : Term} {reason : LossReason} :
    Next cancelled (.ceded t) (.announces (.lostLeadership t reason) true) (.told t)
  | tellsNobody {t : Term} {reason : LossReason} :
    Next cancelled (.ceded t) (.announces (.lostLeadership t reason) false) (.deserted t)
  | drains {t : Term} : Next cancelled (.told t) (.calls (.renew t)) (.told t)
  | hears {t : Term} : Next cancelled (.told t) (.hears t) (.heard t)
  | givesBack {t : Term} : Next cancelled (.heard t) (.calls (.release t)) (.releasing t)
  | givesBackAlone {t : Term} :
    Next cancelled (.deserted t) (.calls (.release t)) (.releasing t)
  | rests {t : Term} : Next cancelled (.releasing t) (.shows .standby) .idle
  | ends : Next cancelled .idle .returns .ended
  | endsTrying : Next cancelled .trying .returns .ended
  | fallsTrying : Next cancelled .trying .falls (.down none)
  | fallsLeading {t : Term} : Next cancelled (.leading t) .falls (.down (some t))
  | fallsTold {t : Term} : Next cancelled (.told t) .falls (.down none)
  | fallsHeard {t : Term} : Next cancelled (.heard t) .falls (.down none)
  | fallsReleasing {t : Term} : Next cancelled (.releasing t) .falls (.down none)

/-- What an elector may do when told to stop, it may do anyway. -/
theorem Next.anyway {cancelled : Bool} {a b : ElectorStage} {x : Observation}
    (h : Next cancelled a x b) :
    Next false a x b := by
  cases h <;> constructor
  rfl

/-- **The stage of a phase.** -/
def Phase.IsAt : Phase → ElectorStage → Prop
  | .created, a => a = .idle
  | .acquiring _ _, a => a = .trying
  | .standingBy _, a => a = .idle
  | .leading period, a => a = .leading period.term
  | .renewing period _ _ _, a => a = .leading period.term
  | .draining period, a => a = .told period.term
  | .drainRenewing period _ _ _ stopped, a =>
    a = if stopped then .heard period.term else .told period.term
  | .awaitingStop term, a => a = .told term
  | .releasing term _ _, a => a = .releasing term
  | .finished, a => a = .ended
  | .crashed, a => ∃ term, a = .down term

/-- The way on from a stage is one of those listed, and leads to the
stage of the new phase. -/
def Goes (s : Surroundings) (a : ElectorStage) (done : Elector × List Action) : Prop :=
  ∃ b, Trail (Next s.cancelled) a (Observation.ofDone s.deaf done) b ∧ done.1.phase.IsAt b

namespace Goes

variable {c : Candidate} {s : Surroundings} {a : ElectorStage} {e : Elector} {actions : List Action}

/-- Nothing is seen of a notice. -/
theorem note (n : Notice) (h : Goes s a (e, actions)) : Goes s a (e, .note n :: actions) := h

/-- Nor of a call that is given up. -/
theorem abandon (h : Goes s a (e, actions)) : Goes s a (e, .abandon :: actions) := h

/-- Nor of one that has come to its swap. -/
theorem swap (expected : Option UInt64) (record : Lease.Record) (h : Goes s a (e, actions)) :
    Goes s a (e, .swap expected record :: actions) := h

theorem notes (ns : List Notice) (h : Goes s a (e, actions)) :
    Goes s a (e, Candidate.notes ns ++ actions) := by
  induction ns with
  | nil => exact h
  | cons n ns ih => exact ih.note n

/-- The same from a stage that has come to a later one by other
observations. -/
theorem after {b : ElectorStage} {more : List Action}
    (t : Trail (Next s.cancelled) a (more.flatMap (Observation.ofAction s.deaf e.phase)) b)
    (h : Goes s b (e, actions)) : Goes s a (e, more ++ actions) := by
  obtain ⟨d, u, hd⟩ := h
  refine ⟨d, ?_, hd⟩
  unfold Observation.ofDone at u ⊢
  rw [List.flatMap_append, List.append_assoc]
  exact t.append u

variable (c s)

theorem finish (n : UInt32) (h : Next s.cancelled a .returns .ended) : Goes s a (c.finish n) :=
  ⟨.ended, .single h, rfl⟩

theorem attempt (n : UInt32) : Goes s .idle (c.attempt s n) := by
  unfold Candidate.attempt
  cases hcancelled : s.cancelled with
  | true =>
    rw [if_pos rfl]
    exact finish c s n .ends
  | false =>
    rw [if_neg Bool.false_ne_true]
    exact ⟨.trying, .cons (.opens hcancelled) (.single .tries), rfl⟩

theorem standBy (n : UInt32) (delay : UInt64) (h : Next s.cancelled a (.shows .standby) .idle) :
    Goes s a (Candidate.standBy s n delay, [.publish .standby]) :=
  ⟨.idle, .single h, rfl⟩

theorem giveBack (n : UInt32) {t : Term}
    (h : Next s.cancelled a (.calls (.release t)) (.releasing t)) :
    Goes s a (c.giveBack s n t) :=
  ⟨.releasing t, .single h, rfl⟩

/-- The end of leadership. -/
theorem lose (n : UInt32) (period : Period) (reason : LossReason) :
    Goes s (.leading period.term) (c.lose s n period reason) := by
  unfold Candidate.lose
  cases hdeaf : s.deaf with
  | true =>
    rw [if_pos rfl]
    refine after ?_ (giveBack c s n .givesBackAlone)
    rw [hdeaf]
    exact .cons .steps (.cons .cedes (.single .tellsNobody))
  | false =>
    rw [if_neg Bool.false_ne_true]
    have told : Trail (Next s.cancelled) (.leading period.term)
        [.shows .released, .revokes period.term,
          .announces (.lostLeadership period.term reason) (!s.deaf)] (.told period.term) := by
      rw [hdeaf]
      exact .cons .steps (.cons .cedes (.single .tells))
    cases reason with
    | superseded => exact ⟨_, told, rfl⟩
    | renewFailed => exact ⟨_, told, rfl⟩
    | shutdown => exact ⟨_, told, rfl⟩

/-- The beginning of leadership, which may be its end. -/
theorem lead (t : Term) (deadline : UInt64) : Goes s .trying (c.lead s t deadline) := by
  unfold Candidate.lead
  cases hdeaf : s.deaf with
  | true =>
    rw [if_pos rfl]
    refine after ?_ (giveBack c s 0 .givesBackAlone)
    rw [hdeaf]
    exact .cons .takes (.cons .speaksAlone (.cons .drops (.single .deserts)))
  | false =>
    rw [if_neg Bool.false_ne_true]
    split
    · refine ⟨.down (some t), ?_, some t, rfl⟩
      rw [hdeaf]
      exact .cons .takes (.cons .begins (.single .fallsLeading))
    · refine ⟨.leading t, ?_, rfl⟩
      rw [hdeaf]
      exact .cons .takes (.single .begins)

/-- An attempt has ended. -/
theorem attempted (n : UInt32) (result : Except Lease.Error Lease.AcquireOutcome) :
    Goes s .trying (c.attempted s n result) := by
  cases result with
  | error e => exact (standBy s _ _ .misses).note _
  | ok outcome =>
    cases outcome with
    | heldByOther holder deadline => exact (standBy s _ _ .misses).note _
    | acquired t deadline =>
      unfold Candidate.attempted
      by_cases hahead : c.isAhead s deadline = true
      · simp only [if_pos hahead]
        exact lead c s t deadline
      · simp only [if_neg hahead]
        exact (standBy s _ _ .misses).note _

/-- A renewal of a leader has ended. -/
theorem renewed (n : UInt32) (period : Period)
    (result : Except Lease.Error Lease.RenewOutcome) :
    Goes s (.leading period.term) (c.renewed s n period result) := by
  cases result with
  | error e => exact (lose c s n period .renewFailed).note _
  | ok outcome =>
    cases outcome with
    | lost holder => exact (lose c s n period .superseded).note _
    | renewed next =>
      unfold Candidate.renewed
      by_cases hahead : c.isAhead s next = true
      · simp only [if_pos hahead]
        exact ⟨_, .nil, rfl⟩
      · simp only [if_neg hahead]
        exact (lose c s n period .renewFailed).note _

/-- A renewal while work is drained has ended. -/
theorem drainRenewed (n : UInt32) (period : Period) (stopped : Bool)
    (result : Except Lease.Error Lease.RenewOutcome) :
    Goes s (if stopped then .heard period.term else .told period.term)
      (c.drainRenewed s n period stopped result) := by
  have ended : ∀ (φ : Phase) (note : Notice), φ.IsAt (.told period.term) →
      Goes s (if stopped then .heard period.term else .told period.term)
        (if stopped then ((c.giveBack s n period.term).1,
            Action.note note :: (c.giveBack s n period.term).2)
          else (⟨φ, n⟩, [Action.note note])) := by
    intro φ note hφ
    cases stopped with
    | true => exact (giveBack c s n .givesBack).note note
    | false =>
      refine ⟨.told period.term, ?_, hφ⟩
      cases φ with
      | finished => contradiction
      | crashed =>
        obtain ⟨_, h⟩ := hφ
        contradiction
      | _ => exact .nil
  unfold Candidate.drainRenewed
  cases result with
  | error e => exact ended (.awaitingStop period.term) _ rfl
  | ok outcome =>
    cases outcome with
    | lost holder => exact ended (.awaitingStop period.term) _ rfl
    | renewed next =>
      by_cases hahead : c.isAhead s next = true
      · simp only [if_pos hahead]
        exact ended (.draining { period with deadline := next }) _ rfl
      · simp only [if_neg hahead]
        exact ended (.awaitingStop period.term) _ rfl

theorem releaseEnded (n : UInt32) (t : Term)
    (result : Option (Except Lease.Error Lease.ReleaseOutcome)) :
    Goes s (.releasing t) (c.releaseEnded s n t result) :=
  (standBy s _ _ .rests).note _

variable {c s}

/-- The elector is brought down. -/
theorem fall (n : UInt32) {term : Option Term} (h : Next s.cancelled a .falls (.down term)) :
    Goes s a (⟨.crashed, n⟩, []) :=
  ⟨.down term, .single h, term, rfl⟩

/-- An answer lets a call go on, of which nothing is seen, or ends it. -/
theorem answered {α : Type} {op : Operation α} {call : Progress} {input : Input}
    {resume : Progress → Elector} {conclude : Except Lease.Error α → Elector × List Action}
    {done : Elector × List Action}
    (h : Candidate.answered op call input resume conclude = some done)
    (hresume : ∀ p, Goes s a (resume p, []))
    (hconclude : ∀ result, Goes s a (conclude result)) : Goes s a done := by
  unfold Candidate.answered at h
  split at h
  · split at h <;> obtain rfl := Option.some.inj h
    · exact (hconclude _).notes _
    · exact ((hresume _).swap _ _).notes _
  · obtain rfl := Option.some.inj h
    exact (hconclude _).notes _
  · contradiction

end Goes

/-- A step goes such a way on from a stage. -/
def GoesOn (s : Surroundings) (a : ElectorStage) (e : Elector) (input : Input)
    (done : Elector × List Action) : Prop :=
  ∃ b, Trail (Next s.cancelled) a (Observation.ofStep s.deaf e input done) b ∧ done.1.phase.IsAt b

namespace Goes

variable {s : Surroundings} {a : ElectorStage} {e : Elector} {input : Input}
  {done : Elector × List Action}

/-- Nothing is seen of what arrives. -/
theorem unseen (h : Goes s a done) (hinput : Observation.ofInput e.phase input = []) :
    GoesOn s a e input done := by
  unfold GoesOn Observation.ofStep
  rw [hinput]
  exact h

/-- The confirmation arrives. -/
theorem hearing {t : Term} (h : Goes s (.heard t) done)
    (hinput : Observation.ofInput e.phase input = [.hears t]) :
      GoesOn s (.told t) e input done := by
  obtain ⟨b, u, hb⟩ := h
  unfold GoesOn Observation.ofStep
  rw [hinput]
  exact ⟨b, .cons .hears u, hb⟩

end Goes

namespace GoesOn

variable {c : Candidate} {s : Surroundings} {n : UInt32} {input : Input}
  {done : Elector × List Action}

theorem of_acquiring {call : Progress} {giveUp : Nat}
    (h : c.step s ⟨.acquiring call giveUp, n⟩ input = some done) :
    GoesOn s .trying ⟨.acquiring call giveUp, n⟩ input done := by
  refine Goes.unseen ?_ rfl
  cases input with
  | cancelled =>
    obtain rfl := Option.some.inj h
    exact (Goes.finish c s n .endsTrying).abandon
  | timeUp =>
    obtain rfl := Option.some.inj h
    exact (Goes.attempted c s n (c.tooLate c.timing.leaseDuration)).abandon
  | crash =>
    obtain rfl := Option.some.inj h
    exact Goes.fall n .fallsTrying
  | _ =>
    simp only [Candidate.step] at h
    exact Goes.answered h (fun p => ⟨_, .nil, rfl⟩) (Goes.attempted c s n)

theorem of_leading {period : Period} (h : c.step s ⟨.leading period, n⟩ input = some done) :
    GoesOn s (.leading period.term) ⟨.leading period, n⟩ input done := by
  refine Goes.unseen ?_ rfl
  cases input with
  | cancelled =>
    obtain rfl := Option.some.inj h
    exact Goes.lose c s n period .shutdown
  | timeUp =>
    simp only [Candidate.step, Candidate.onTick] at h
    cases hbudget : Lease.renewBudget period.deadline s.clock c.timing.renewInterval with
    | none =>
      rw [hbudget] at h
      obtain rfl := Option.some.inj h
      exact (Goes.lose c s n { period with tick := _ } .renewFailed).note _
    | some budget =>
      rw [hbudget] at h
      obtain rfl := Option.some.inj h
      exact ⟨_, .single .renews, rfl⟩
  | _ => contradiction

theorem of_renewing {period : Period} {call : Progress} {budget : UInt64} {giveUp : Nat}
    (h : c.step s ⟨.renewing period call budget giveUp, n⟩ input = some done) :
    GoesOn s (.leading period.term) ⟨.renewing period call budget giveUp, n⟩ input done := by
  refine Goes.unseen ?_ rfl
  cases input with
  | cancelled =>
    obtain rfl := Option.some.inj h
    exact (Goes.lose c s n period .shutdown).abandon
  | timeUp =>
    obtain rfl := Option.some.inj h
    exact (Goes.renewed c s n period (c.tooLate budget)).abandon
  | crash =>
    obtain rfl := Option.some.inj h
    exact Goes.fall n .fallsLeading
  | _ =>
    simp only [Candidate.step] at h
    exact Goes.answered h (fun p => ⟨_, .nil, rfl⟩) (Goes.renewed c s n period)

theorem of_draining {period : Period} (h : c.step s ⟨.draining period, n⟩ input = some done) :
    GoesOn s (.told period.term) ⟨.draining period, n⟩ input done := by
  cases input with
  | stopped =>
    obtain rfl := Option.some.inj h
    exact (Goes.giveBack c s n .givesBack).hearing rfl
  | timeUp =>
    refine Goes.unseen ?_ rfl
    simp only [Candidate.step, Candidate.onTick] at h
    cases hbudget : Lease.renewBudget period.deadline s.clock c.timing.renewInterval with
    | none =>
      rw [hbudget] at h
      obtain rfl := Option.some.inj h
      exact Goes.drainRenewed c s n { period with tick := _ } false (.ok (.lost none))
    | some budget =>
      rw [hbudget] at h
      obtain rfl := Option.some.inj h
      exact ⟨_, .single .drains, rfl⟩
  | _ => contradiction

/-- The confirmation may have come earlier, or come during the renewal. -/
theorem of_drainRenewing {period : Period} {call : Progress} {budget : UInt64} {giveUp : Nat}
    {stopped : Bool}
    (h : c.step s ⟨.drainRenewing period call budget giveUp stopped, n⟩ input = some done) :
    GoesOn s (if stopped then .heard period.term else .told period.term)
      ⟨.drainRenewing period call budget giveUp stopped, n⟩ input done := by
  cases input with
  | stopped =>
    obtain rfl := Option.some.inj h
    have heard : Goes s (.heard period.term)
        (⟨.drainRenewing period call budget giveUp true, n⟩, []) := ⟨_, .nil, rfl⟩
    cases stopped with
    | true => exact heard.unseen rfl
    | false => exact heard.hearing rfl
  | timeUp =>
    obtain rfl := Option.some.inj h
    refine Goes.unseen ?_ (by cases stopped <;> rfl)
    exact (Goes.drainRenewed c s n period stopped (c.tooLate budget)).abandon
  | crash =>
    obtain rfl := Option.some.inj h
    cases stopped with
    | true => exact (Goes.fall n .fallsHeard).unseen rfl
    | false => exact (Goes.fall n .fallsTold).unseen rfl
  | _ =>
    simp only [Candidate.step] at h
    refine Goes.unseen ?_ (by cases stopped <;> rfl)
    exact Goes.answered h (fun p => ⟨_, .nil, rfl⟩) (Goes.drainRenewed c s n period stopped)

theorem of_releasing {t : Term} {call : Progress} {giveUp : Nat}
    (h : c.step s ⟨.releasing t call giveUp, n⟩ input = some done) :
    GoesOn s (.releasing t) ⟨.releasing t call giveUp, n⟩ input done := by
  refine Goes.unseen ?_ rfl
  cases input with
  | timeUp =>
    obtain rfl := Option.some.inj h
    exact (Goes.releaseEnded c s n t none).abandon
  | crash =>
    obtain rfl := Option.some.inj h
    exact Goes.fall n .fallsReleasing
  | _ =>
    simp only [Candidate.step] at h
    exact Goes.answered h (fun p => ⟨_, .nil, rfl⟩)
      fun result => Goes.releaseEnded c s n t (some result)

end GoesOn

/-- **Every step goes one of the ways that are listed**, from the stage
of its phase. -/
theorem Candidate.step_goesOn {c : Candidate} {s : Surroundings} {e : Elector} {input : Input}
    {done : Elector × List Action} (h : c.step s e input = some done) {a : ElectorStage}
    (ha : e.phase.IsAt a) : GoesOn s a e input done := by
  obtain ⟨φ, n⟩ := e
  cases φ with
  | created =>
    obtain rfl := ha
    cases input with
    | start =>
      obtain rfl := Option.some.inj h
      exact ((Goes.attempt c s n).note _).unseen rfl
    | _ => contradiction
  | acquiring call giveUp =>
    obtain rfl := ha
    exact GoesOn.of_acquiring h
  | standingBy wake =>
    obtain rfl := ha
    cases input with
    | cancelled =>
      obtain rfl := Option.some.inj h
      exact (Goes.finish c s n .ends).unseen rfl
    | timeUp =>
      obtain rfl := Option.some.inj h
      exact (Goes.attempt c s n).unseen rfl
    | _ => contradiction
  | leading period =>
    obtain rfl := ha
    exact GoesOn.of_leading h
  | renewing period call budget giveUp =>
    obtain rfl := ha
    exact GoesOn.of_renewing h
  | draining period =>
    obtain rfl := ha
    exact GoesOn.of_draining h
  | drainRenewing period call budget giveUp stopped =>
    obtain rfl := ha
    exact GoesOn.of_drainRenewing h
  | awaitingStop t =>
    obtain rfl := ha
    cases input with
    | stopped =>
      obtain rfl := Option.some.inj h
      exact (Goes.giveBack c s n .givesBack).hearing rfl
    | _ => contradiction
  | releasing t call giveUp =>
    obtain rfl := ha
    exact GoesOn.of_releasing h
  | finished => cases input <;> contradiction
  | crashed => cases input <;> contradiction

/-! ## Runs -/

/-- **A run of an elector** with all that is seen of it. What arrives is
arbitrary, and so is what each step finds around it: the timer, the clock
and whether the consumer is still there, each for itself. So an event may
also have to wait until the consumer takes it or leaves; the step then finds
the timer and the consumer as they are at the end of the wait. -/
inductive Candidate.Execution (c : Candidate) : List Observation → Elector → Prop
  | created {n : UInt32} : c.Execution [] ⟨.created, n⟩
  | step {seen : List Observation} {e : Elector} {done : Elector × List Action} (s : Surroundings)
      (input : Input) (h : c.Execution seen e) (hstep : c.step s e input = some done) :
      c.Execution (seen ++ Observation.ofStep s.deaf e input done) done.1

/-- **A run is a trail** through the stages. -/
theorem Candidate.Execution.trail {c : Candidate} {seen : List Observation} {e : Elector}
    (h : c.Execution seen e) : ∃ a, Trail (Next false) .idle seen a ∧ e.phase.IsAt a := by
  induction h with
  | created => exact ⟨.idle, .nil, rfl⟩
  | step s input _ hstep ih =>
    obtain ⟨a, t, ha⟩ := ih
    obtain ⟨b, u, hb⟩ := Candidate.step_goesOn hstep ha
    exact ⟨b, t.append (u.mono fun _ _ _ => Next.anyway), hb⟩

end Tenure.Election
