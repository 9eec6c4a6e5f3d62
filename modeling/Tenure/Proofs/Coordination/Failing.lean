import Tenure.Proofs.Coordination.Handover
import Tenure.Proofs.Election.Ending

/-!
# How a run fails

A run that nothing brings down fails in one way: the caches of a new leader
are not complete in time. From there to the caller the error goes a long
way. The work of the period holds it and tells the run to stop; the elector
ends the term and announces it; the consumer joins the work, keeps the
error, calls the hook and confirms; the lease is given back, the elector
ends, and the run returns what was kept. `Run.Fails` says that a run is on
this way. Every step keeps it there and begins nothing (`Run.Fails.moves`),
whatever happens to the lease meanwhile and whoever else tells the run to
stop.

`Moves` lists what a step can do as far as this is concerned.
-/

namespace Tenure.Coordinator

open Election (Event LossReason ElectorStage)
open Work (Queue)

/-! ## Single steps -/

/-- **What a step can do** to a run, and what is seen of it. -/
inductive Moves (c : Coordinator) (s : Surroundings) (r : Run) :
    Input → Run → List Observation → Prop
  /-- The elector takes a turn. -/
  | turns {i : Election.Input} {done : Election.Elector × List Election.Action}
    (hturn : c.candidate.step (r.electorSurroundings s) r.elector i = some done)
    (hadmits : r.admits s i = true) :
    Moves c s r (.elector i)
      ((Election.Observation.ofDone false done).foldl Run.heedObservation
        { r with elector := done.1 })
      ((Election.Observation.ofStep false r.elector i done).map .elector)
  /-- The consumer takes the announcement of a term, -/
  | welcomes {t : Term} {rest : List Event} (hconsumer : r.consumer = .listening)
    (hinbox : r.inbox = .becameLeader t :: rest) :
    Moves c s r .receive { r with inbox := rest, consumer := .announcing t }
      [.calls (.becameLeader t) r.active]
  /-- or that of its end, when there is work to wait for, -/
  | awaits {t : Term} {reason : LossReason} {rest : List Event} {work : PeriodWork}
    (hconsumer : r.consumer = .listening) (hinbox : r.inbox = .lostLeadership t reason :: rest)
    (hwork : r.work = some work) :
    Moves c s r .receive { r with inbox := rest, consumer := .joining t reason } []
  /-- or when there is none. -/
  | parts {t : Term} {reason : LossReason} {rest : List Event}
    (hconsumer : r.consumer = .listening) (hinbox : r.inbox = .lostLeadership t reason :: rest)
    (hwork : r.work = none) :
    Moves c s r .receive { r with inbox := rest, consumer := .reporting t }
      [.calls (.lostLeadership t) r.active]
  /-- The elector has ended, and the run returns. -/
  | returns {result : Except RunError Unit} (hconsumer : r.consumer = .listening)
    (hinbox : r.inbox = []) (hended : r.electorEnded = true)
    (hfatal : ∀ e, r.fatal = some e → result = .error e)
    (hok : r.fatal = none → r.elector.phase = .finished → result = .ok ()) :
    Moves c s r .receive { r with consumer := .finished result } [.returns result r.active]
  /-- A hook returns. -/
  | welcomed {t : Term} (hconsumer : r.consumer = .announcing t) :
    Moves c s r .hookReturned { r with consumer := .listening, work := some { term := t } }
      [.returned (.becameLeader t)]
  | parted {t : Term} (hconsumer : r.consumer = .reporting t) :
    Moves c s r .hookReturned { r with consumer := .listening, confirmed := true }
      [.returned (.lostLeadership t)]
  /-- The work has ended, and what it failed of is kept. -/
  | joins {t : Term} {reason : LossReason} {work : PeriodWork} {failure : Option RunError}
    (hconsumer : r.consumer = .joining t reason) (hwork : r.work = some work)
    (hstage : work.stage = .ended failure) :
    Moves c s r .join
      { r with work := none, fatal := r.fatal <|> failure, consumer := .reporting t }
      [.calls (.lostLeadership t) r.active]
  /-- The wait for the caches has timed out. -/
  | timesOut {work : PeriodWork} {overFirst : Bool} (hwork : r.work = some work)
    (hgoes : ∀ failure, work.stage ≠ .ended failure) :
    Moves c s r (.work overFirst)
      { r with
        halted := true
        work := some { work with stage := .ended (some (.cacheSyncTimeout
          (Barrier.unsynced s.caches) c.config.cacheSyncTimeout)) } }
      [.waited work.term (.partialTimeout (Barrier.unsynced s.caches))]
  /-- The work or its pool goes on otherwise. -/
  | works {i : Input} {work work' : PeriodWork} {seen : List Observation}
    (hi : ∀ i', i ≠ .elector i') (hwork : r.work = some work)
    (hgoes : work.pool = none → ∀ failure, work.stage ≠ .ended failure)
    (hfailed : ∀ e, work'.stage = .ended (some e) → work.stage = .ended (some e))
    (hseen : ∀ x ∈ seen, (∃ t y, x = .pool t y) ∨
      ∃ t outcome, x = .waited t outcome ∧ ∀ names, outcome ≠ .partialTimeout names) :
    Moves c s r i { r with work := some work' } seen

section Moves

variable {c : Coordinator} {s : Surroundings} {r r' : Run} {actions : List Action}

theorem Moves.of_conclude (hconsumer : r.consumer = .listening) (hinbox : r.inbox = [])
    (hended : r.electorEnded = true) :
    Moves c s r .receive (r.conclude c).1
      (Observation.ofStep c s r (r.conclude c).1 .receive (r.conclude c).2) := by
  obtain ⟨⟨φ, n⟩, inbox, consumer, revoked, confirmed, work, fatal, halted⟩ := r
  cases fatal with
  | some e =>
    exact .returns hconsumer hinbox hended (fun e' he => by rw [Option.some.inj he])
      fun h => by contradiction
  | none =>
    cases φ with
    | finished =>
      exact .returns hconsumer hinbox hended (fun e he => by contradiction) fun _ _ => rfl
    | crashed =>
      exact .returns hconsumer hinbox hended (fun e he => by contradiction)
        fun _ h => by contradiction
    | _ => contradiction

theorem Moves.of_receive (h : r.receive c = some (r', actions)) :
    Moves c s r .receive r' (Observation.ofStep c s r r' .receive actions) := by
  obtain ⟨elector, inbox, consumer, revoked, confirmed, work, fatal, halted⟩ := r
  cases consumer with
  | listening =>
    cases inbox with
    | nil =>
      unfold Run.receive at h
      obtain ⟨hended, hdone⟩ := Option.ite_none_right_eq_some.1 h
      obtain ⟨rfl, rfl⟩ := Prod.mk.inj (Option.some.inj hdone)
      exact .of_conclude rfl rfl hended
    | cons event rest =>
      cases event with
      | becameLeader t =>
        obtain ⟨rfl, rfl⟩ := Prod.mk.inj (Option.some.inj h)
        exact .welcomes rfl rfl
      | lostLeadership t reason =>
        cases work with
        | none =>
          obtain ⟨rfl, rfl⟩ := Prod.mk.inj (Option.some.inj h)
          exact .parts rfl rfl rfl
        | some work =>
          obtain ⟨rfl, rfl⟩ := Prod.mk.inj (Option.some.inj h)
          exact .awaits rfl rfl rfl
  | _ => contradiction

theorem Moves.of_hookReturned (h : r.hookReturned = some (r', actions)) :
    Moves c s r .hookReturned r' (Observation.ofStep c s r r' .hookReturned actions) := by
  obtain ⟨elector, inbox, consumer, revoked, confirmed, work, fatal, halted⟩ := r
  cases consumer with
  | announcing t =>
    obtain ⟨rfl, rfl⟩ := Prod.mk.inj (Option.some.inj h)
    exact .welcomed rfl
  | reporting t =>
    obtain ⟨rfl, rfl⟩ := Prod.mk.inj (Option.some.inj h)
    exact .parted rfl
  | _ => contradiction

theorem Moves.of_join (h : r.join = some (r', actions)) :
    Moves c s r .join r' (Observation.ofStep c s r r' .join actions) := by
  obtain ⟨elector, inbox, consumer, revoked, confirmed, work, fatal, halted⟩ := r
  cases consumer with
  | joining t reason =>
    cases work with
    | none => contradiction
    | some work =>
      obtain ⟨term, stage, pool⟩ := work
      cases stage with
      | ended failure =>
        obtain ⟨rfl, rfl⟩ := Prod.mk.inj (Option.some.inj h)
        exact .joins rfl rfl rfl
      | _ => contradiction
  | _ => contradiction

/-- A wait that times out names the caches that are not marked. -/
theorem eq_unsynced_of_look {sources : List CacheSource} {cancelled timeUp : Bool}
    {names : List String}
    (h : Barrier.look sources cancelled timeUp = some (.partialTimeout names)) :
    names = Barrier.unsynced sources := by
  unfold Barrier.look at h
  split at h
  · cases h
  split at h
  · cases h
  split at h
  · exact (Barrier.Outcome.partialTimeout.inj (Option.some.inj h)).symm
  · contradiction

/-- The workers that are started are all that is seen of the start. -/
theorem startWorkers_spec (r' : Run) {work : PeriodWork} (hwork : r.work = some work) :
    (∀ failure, (Run.startWorkers c s work).1.stage ≠ .ended failure) ∧
      ∀ x ∈ (Run.startWorkers c s work).2.flatMap (Observation.ofAction c r r'),
        ∃ t y, x = .pool t y := by
  unfold Run.startWorkers
  cases c.hasReconciler with
  | true =>
    refine ⟨by simp, fun x hx => ?_⟩
    obtain ⟨y, -, rfl⟩ : ∃ y ∈ Work.Observation.ofStart c.config.workerCount.toNat,
        .pool work.term y = x := by
      simpa [Observation.ofAction, Observation.ofPool, hwork] using hx
    exact ⟨_, y, rfl⟩
  | false => exact ⟨by simp, fun x hx => by simp [Observation.ofAction] at hx⟩

theorem Moves.of_lookAtCaches {t : Term} {deadline : Nat} {known : List Nat}
    {pool : Option Work.Pool} {overFirst : Bool}
    (hwork : r.work = some ⟨t, .syncing deadline known, pool⟩)
    (h : r.lookAtCaches c s ⟨t, .syncing deadline known, pool⟩ deadline known overFirst
      = some (r', actions)) :
    Moves c s r (.work overFirst) r' (Observation.ofStep c s r r' (.work overFirst) actions) := by
  have hinput : Observation.ofInput s r (.work overFirst)
      = ((r.look s deadline overFirst).map fun outcome => .waited t outcome).toList := by
    unfold Observation.ofInput
    rw [hwork]
  unfold Observation.ofStep
  rw [hinput]
  generalize hstuck : (if r.isRevoked s && !overFirst then []
    else Barrier.newlyStuck s.caches known) = stuck
  cases hlook : r.look s deadline overFirst with
  | none =>
    simp only [Run.look] at hlook
    simp only [Run.lookAtCaches, hlook, hstuck] at h
    split at h
    · contradiction
    · obtain ⟨rfl, rfl⟩ := Prod.mk.inj (Option.some.inj h)
      rw [Observation.flatMap_notes]
      exact .works (by simp) hwork (by simp) (by simp) (by simp [Observation.ofEnd])
  | some outcome =>
    simp only [Run.look] at hlook
    simp only [Run.lookAtCaches, hlook, hstuck] at h
    cases outcome with
    | cancelled =>
      obtain ⟨rfl, rfl⟩ := Prod.mk.inj (Option.some.inj h)
      rw [List.flatMap_append, Observation.flatMap_notes, Observation.flatMap_notes]
      exact .works (by simp) hwork (by simp) (by simp) (by simp [Observation.ofEnd])
    | partialTimeout names =>
      obtain rfl := eq_unsynced_of_look hlook
      obtain ⟨rfl, rfl⟩ := Prod.mk.inj (Option.some.inj h)
      rw [List.flatMap_append, List.flatMap_append, Observation.flatMap_notes,
        Observation.flatMap_notes]
      exact .timesOut hwork (by simp)
    | allSynced =>
      obtain ⟨rfl, rfl⟩ := Prod.mk.inj (Option.some.inj h)
      rw [List.flatMap_append, List.flatMap_append, Observation.flatMap_notes,
        Observation.flatMap_notes]
      obtain ⟨hstage, hpools⟩ := startWorkers_spec { r with
        work := some (Run.startWorkers c s ⟨t, .syncing deadline known, pool⟩).1 } hwork
      refine .works (by simp) hwork (by simp) (fun e he => absurd he (hstage _)) fun x hx => ?_
      rcases List.mem_append.1 hx with hx | hx
      · rcases List.mem_append.1 hx with hx | hx
        · exact .inr ⟨t, .allSynced, List.mem_singleton.1 hx, by simp⟩
        · exact .inl (hpools x hx)
      · exact absurd hx List.not_mem_nil

theorem Moves.of_stepWork {overFirst : Bool} (h : r.stepWork c s overFirst = some (r', actions)) :
    Moves c s r (.work overFirst) r' (Observation.ofStep c s r r' (.work overFirst) actions) := by
  cases hwork : r.work with
  | none =>
    simp only [Run.stepWork, hwork] at h
    contradiction
  | some work =>
    obtain ⟨t, stage, pool⟩ := work
    have works : ∀ {work' : PeriodWork}, r' = { r with work := some work' } →
        actions.flatMap (Observation.ofAction c r r') = [] →
        (∀ deadline known, stage ≠ .syncing deadline known) →
        (∀ failure, stage ≠ .ended failure) → (∀ e, work'.stage ≠ .ended (some e)) →
        Moves c s r (.work overFirst) r'
          (Observation.ofStep c s r r' (.work overFirst) actions) := by
      intro work' hr' hactions hsyncing hstage hstage'
      have hinput : Observation.ofInput s r (.work overFirst) = [] := by
        unfold Observation.ofInput
        rw [hwork]
        cases stage with
        | syncing deadline known => exact absurd rfl (hsyncing deadline known)
        | _ => rfl
      unfold Observation.ofStep
      rw [hinput, hactions, hr']
      exact .works (by simp) hwork (fun _ => hstage) (fun e he => absurd he (hstage' e))
        (by simp [Observation.ofEnd])
    simp only [Run.stepWork, hwork] at h
    cases stage with
    | created =>
      obtain ⟨rfl, rfl⟩ := Prod.mk.inj (Option.some.inj h)
      exact works rfl rfl (by simp) (by simp) (by simp)
    | syncing deadline known => exact .of_lookAtCaches hwork h
    | idle =>
      obtain ⟨-, hdone⟩ := Option.ite_none_right_eq_some.1 h
      obtain ⟨rfl, rfl⟩ := Prod.mk.inj (Option.some.inj hdone)
      exact works rfl rfl (by simp) (by simp) (by simp)
    | running =>
      cases pool with
      | none => contradiction
      | some pool =>
        obtain ⟨-, hdone⟩ := Option.ite_none_right_eq_some.1 h
        obtain ⟨rfl, rfl⟩ := Prod.mk.inj (Option.some.inj hdone)
        exact works rfl rfl (by simp) (by simp) (by simp)
    | stopping =>
      cases pool with
      | none => contradiction
      | some pool =>
        obtain ⟨-, hdone⟩ := Option.ite_none_right_eq_some.1 h
        obtain ⟨rfl, rfl⟩ := Prod.mk.inj (Option.some.inj hdone)
        exact works rfl rfl (by simp) (by simp) (by simp)
    | ended failure => contradiction

theorem Moves.of_stepPool {q q' : Queue} {input : Work.PoolInput}
    (h : r.stepPool s q input = some (r', q', actions)) :
    Moves c s r (.pool input) r' (Observation.ofStep c s r r' (.pool input) actions) := by
  cases hwork : r.work with
  | none =>
    simp only [Run.stepPool, hwork] at h
    contradiction
  | some work =>
    obtain ⟨t, stage, pool⟩ := work
    cases pool with
    | none =>
      simp only [Run.stepPool, hwork] at h
      contradiction
    | some p =>
      cases hstep : Work.Pool.step q s.time (r.isRevoked s) p input with
      | none =>
        simp only [Run.stepPool, hwork, hstep] at h
        contradiction
      | some done =>
        obtain ⟨q'', p', acts⟩ := done
        simp only [Run.stepPool, hwork, hstep, Option.some.injEq, Prod.mk.injEq] at h
        obtain ⟨rfl, rfl, rfl⟩ := h
        rw [Observation.ofStep_pool hwork]
        refine .works (by simp) hwork (by simp) (fun e he => he) fun x hx => ?_
        obtain ⟨y, -, rfl⟩ := List.mem_map.1 hx
        exact .inl ⟨t, y, rfl⟩

/-- **Every step does one of these.** -/
theorem Moves.of_step {q : Queue} {input : Input} {done : Run × Queue × List Action}
    (h : Run.step c s r q input = some done) :
    Moves c s r input done.1 (Observation.ofStep c s r done.1 input done.2.2) := by
  cases input with
  | elector i =>
    obtain ⟨d, hd, rfl⟩ := Option.map_eq_some_iff.1 h
    obtain ⟨turn, hturn, hadmits, hactions, hr'⟩ := Run.stepElector_eq hd
    have helector : d.1.elector = turn.1 := by
      rw [hr']
      exact (Run.foldl_heedObservation_rest _).1
    rw [hactions, Observation.ofStep_elector, helector, hr']
    exact .turns hturn hadmits
  | receive =>
    obtain ⟨d, hd, rfl⟩ := Option.map_eq_some_iff.1 h
    exact .of_receive hd
  | hookReturned =>
    obtain ⟨d, hd, rfl⟩ := Option.map_eq_some_iff.1 h
    exact .of_hookReturned hd
  | join =>
    obtain ⟨d, hd, rfl⟩ := Option.map_eq_some_iff.1 h
    exact .of_join hd
  | work overFirst =>
    obtain ⟨d, hd, rfl⟩ := Option.map_eq_some_iff.1 h
    exact .of_stepWork hd
  | pool input => exact .of_stepPool h

end Moves

/-! ## Failing -/

/-- Whether this belongs to an attempt, to the beginning of a period or to
its work. -/
def Observation.begins : Observation → Bool
  | elector x => x.begins
  | calls (.becameLeader _) _ => true
  | waited _ _ => true
  | pool _ _ => true
  | _ => false

/-- **A run has failed** with an error that it has still to return. Either
the work of the period holds the error, or the consumer has taken it from
there; and no other period begins. -/
structure Run.Fails (r : Run) (e : RunError) : Prop where
  halted : r.halted = true
  settled : r.elector.phase.isSettled = true
  inbox : ∀ t, .becameLeader t ∉ r.inbox
  consumer : ∀ t, r.consumer ≠ .announcing t
  owed : r.fatal = some e ∧ r.work = none ∨
    r.fatal = none ∧ ∃ work, r.work = some work ∧ work.stage = .ended (some e)
  returned : ∀ result, r.consumer = .finished result → result = .error e

section Fails

variable {c : Coordinator} {s : Surroundings} {r r' : Run} {p : RunStage} {input : Input}
  {seen : List Observation} {e : RunError}

/-- While there is work, its period has been announced and taken note of,
and no other. -/
theorem StagesAgree.of_work {a : ElectorStage} {inbox : List Event} {consumer : Consumer}
    {work : PeriodWork} {confirmed : Bool} {b : TermStage}
    (h : StagesAgree a inbox consumer (some work) confirmed b) :
    a.isSettled = true ∧ (∀ t, .becameLeader t ∉ inbox) ∧ (∀ t, consumer ≠ .announcing t) ∧
      ∀ result, consumer = .finished result → ∃ t, a = .down (some t) := by
  cases h with
  | early ha h =>
    cases h with
    | working ht hb => exact ⟨by cases ha <;> rfl, by simp, by simp, by simp⟩
  | late ha h =>
    cases h with
    | early h =>
      cases h with
      | working ht hb => exact ⟨by cases ha <;> rfl, by simp, by simp, by simp⟩
    | joining ht hb => exact ⟨by cases ha <;> rfl, by simp, by simp, by simp⟩
  | left ht hb => exact ⟨rfl, by simp, by simp, fun _ _ => ⟨_, rfl⟩⟩

/-- Work fails before there is a pool. -/
theorem PeriodWork.IsAt.pool_eq_none {work : PeriodWork} {b : TermStage} (h : work.IsAt b)
    (hfailed : work.stage = .ended (some e)) : work.pool = none := by
  cases h with
  | unready => rfl
  | _ => cases hfailed

/-- A run that is upright leaves no work behind when its elector has ended
and all is told. -/
theorem Run.Fits.work_eq_none (h : r.Fits p) (hconsumer : r.consumer = .listening)
    (hinbox : r.inbox = []) (hended : r.electorEnded = true)
    (hup : r.elector.phase ≠ .crashed) : r.work = none := by
  obtain ⟨elector, inbox, consumer, revoked, confirmed, work, fatal, halted⟩ := r
  obtain ⟨a, b⟩ := p
  obtain ⟨hphase, hagree, -, -, -⟩ := h
  obtain rfl : consumer = .listening := hconsumer
  obtain rfl : inbox = [] := hinbox
  cases hagree with
  | early ha h =>
    obtain rfl := ha.eq_down (Run.isLast_of_ended hphase hended)
    exact absurd (Election.Phase.eq_crashed hphase) hup
  | late ha h =>
    generalize hinbox : ([] : List Event) = inbox at h
    cases h with
    | early h => simp at hinbox
  | _ => rfl

/-- A run that has returned takes no further step. -/
theorem Run.Fits.not_moves (h : r.Fits p) (hover : r.isOver = true)
    (hup : r.elector.phase ≠ .crashed) : ¬ Moves c s r input r' seen := by
  have hconsumer : ∃ result, r.consumer = .finished result := by
    unfold Run.isOver at hover
    split at hover
    · exact ⟨_, ‹_›⟩
    · contradiction
  obtain ⟨result, hconsumer⟩ := hconsumer
  have hnone : ∀ work, r.work ≠ some work := by
    intro work hwork
    have hagree := h.agree
    rw [hwork] at hagree
    obtain ⟨t, ha⟩ := hagree.of_work.2.2.2 result hconsumer
    have hphase := h.phase
    rw [ha] at hphase
    exact hup (Election.Phase.eq_crashed hphase)
  intro hm
  cases hm with
  | turns hturn hadmits =>
    rw [h.isOver_eq_false hturn hadmits] at hover
    contradiction
  | timesOut hwork => exact hnone _ hwork
  | works hi hwork => exact hnone _ hwork
  | _ => simp_all

/-- Nothing begins in the inbox that the elector does not begin. -/
theorem Run.notMem_inbox {t : Term} {xs : List Election.Observation}
    (hxs : ∀ x ∈ xs, x.begins = false) (h : .becameLeader t ∉ r.inbox) :
    .becameLeader t ∉ (xs.foldl Run.heedObservation r).inbox := by
  induction xs generalizing r with
  | nil => exact h
  | cons x xs ih =>
    obtain ⟨hx, hxs⟩ := List.forall_mem_cons.1 hxs
    refine ih hxs ?_
    unfold Run.heedObservation
    split
    · contradiction
    · rename_i event _
      cases event with
      | becameLeader t => contradiction
      | lostLeadership t reason => simpa using h
    · exact h
    · exact h

/-- **A run that has failed keeps its error** until it returns it, and
begins nothing. -/
theorem Run.Fails.moves (h : r.Fails e) (hfits : r.Fits p) (hup : r.elector.phase ≠ .crashed)
    (hm : Moves c s r input r' seen) : r'.Fails e ∧ ∀ x ∈ seen, x.begins = false := by
  obtain ⟨hhalted, hsettled, hinbox, hconsumer, howed, hreturned⟩ := h
  cases hm with
  | @turns i done hturn hadmits =>
    have hcancelled : (r.electorSurroundings s).cancelled = true := by
      show (s.stopped || r.halted) = true
      rw [hhalted, Bool.or_true]
    obtain ⟨hbegins, hsettled'⟩ := c.candidate.step_settled hturn hcancelled hsettled
    obtain ⟨helector, hwork, hconsumer', hfatal, hhalted'⟩ := @Run.foldl_heedObservation_rest
      { r with elector := done.1 } (Election.Observation.ofDone false done)
    refine ⟨⟨hhalted'.trans hhalted, ?_, fun t => ?_, ?_, ?_, ?_⟩, fun x hx => ?_⟩
    · rw [helector]
      exact hsettled'
    · exact Run.notMem_inbox (fun x hx => hbegins x (List.mem_append_right _ hx)) (hinbox t)
    · rw [hconsumer']
      exact hconsumer
    · rw [hfatal, hwork]
      exact howed
    · rw [hconsumer']
      exact hreturned
    · obtain ⟨y, hy, rfl⟩ := List.mem_map.1 hx
      exact hbegins y hy
  | welcomes hlistening hmem =>
    rw [hmem] at hinbox
    exact absurd List.mem_cons_self (hinbox _)
  | awaits hlistening hmem hwork =>
    rw [hmem] at hinbox
    exact ⟨⟨hhalted, hsettled, fun t ht => hinbox t (List.mem_cons_of_mem _ ht), by simp, howed,
      by simp⟩, by simp⟩
  | parts hlistening hmem hwork =>
    rw [hmem] at hinbox
    exact ⟨⟨hhalted, hsettled, fun t ht => hinbox t (List.mem_cons_of_mem _ ht), by simp, howed,
      by simp⟩, by simp [Observation.begins]⟩
  | returns hlistening hmem hended hfatal hok =>
    refine ⟨⟨hhalted, hsettled, hinbox, by simp, howed, fun result hresult => ?_⟩,
      by simp [Observation.begins]⟩
    obtain rfl := Consumer.finished.inj hresult
    rcases howed with ⟨hkept, -⟩ | ⟨-, work, hwork, -⟩
    · exact hfatal e hkept
    · rw [hfits.work_eq_none hlistening hmem hended hup] at hwork
      contradiction
  | welcomed hannouncing => exact absurd hannouncing (hconsumer _)
  | parted hreporting =>
    exact ⟨⟨hhalted, hsettled, hinbox, by simp, howed, by simp⟩, by simp [Observation.begins]⟩
  | joins hjoining hwork hstage =>
    refine ⟨⟨hhalted, hsettled, hinbox, by simp, .inl ⟨?_, rfl⟩, by simp⟩,
      by simp [Observation.begins]⟩
    rcases howed with ⟨-, hnone⟩ | ⟨hfatal, work, hwork', hstage'⟩
    · rw [hnone] at hwork
      contradiction
    · obtain rfl := Option.some.inj (hwork.symm.trans hwork')
      obtain rfl := WorkStage.ended.inj (hstage.symm.trans hstage')
      rw [hfatal]
      rfl
  | timesOut hwork hgoes =>
    rcases howed with ⟨-, hnone⟩ | ⟨-, work, hwork', hstage⟩
    · rw [hnone] at hwork
      contradiction
    · obtain rfl := Option.some.inj (hwork.symm.trans hwork')
      exact absurd hstage (hgoes _)
  | works hi hwork hgoes hfailed hseen =>
    rcases howed with ⟨-, hnone⟩ | ⟨-, work, hwork', hstage⟩
    · rw [hnone] at hwork
      contradiction
    · obtain rfl := Option.some.inj (hwork'.symm.trans hwork)
      have hagree := hfits.agree
      rw [hwork] at hagree
      exact absurd hstage (hgoes (hagree.getsOn.1.pool_eq_none hstage) _)

/-- **The wait for the caches times out**, and the run has failed. -/
theorem Run.Fails.of_timesOut {work work' : PeriodWork} (hfits : r.Fits p)
    (hup : r.elector.phase ≠ .crashed) (hhalted : r.halted = false) (hwork : r.work = some work)
    (hstage : work'.stage = .ended (some e)) :
    Run.Fails { r with halted := true, work := some work' } e := by
  have hagree := hfits.agree
  rw [hwork] at hagree
  obtain ⟨hsettled, hinbox, hconsumer, hfinished⟩ := hagree.of_work
  refine ⟨rfl, ?_, hinbox, hconsumer, .inr ⟨?_, work', rfl, hstage⟩, fun result hresult => ?_⟩
  · exact hfits.phase.isSettled.symm.trans hsettled
  · cases hfatal : r.fatal with
    | none => rfl
    | some e' =>
      have := (hfits.fatal (Option.isSome_iff_exists.2 ⟨e', hfatal⟩)).1
      rw [hhalted] at this
      contradiction
  · obtain ⟨t, ha⟩ := hfinished result hresult
    have hphase := hfits.phase
    rw [ha] at hphase
    exact absurd (Election.Phase.eq_crashed hphase) hup

/-- What a step without a call that brings the elector down keeps upright. -/
theorem Moves.upright (hm : Moves c s r input r' seen) (hcalm : input ≠ .elector .crash)
    (hinterval : c.config.renewInterval ≠ 0) (hup : r.elector.phase ≠ .crashed) :
    r'.elector.phase ≠ .crashed := by
  cases hm with
  | turns hturn hadmits =>
    rw [(Run.foldl_heedObservation_rest _).1]
    intro hcrashed
    rcases (c.candidate.step_ends hturn).felled hcrashed with rfl | hzero
    · exact hcalm rfl
    · exact hinterval hzero
  | _ => exact hup

end Fails

end Tenure.Coordinator
