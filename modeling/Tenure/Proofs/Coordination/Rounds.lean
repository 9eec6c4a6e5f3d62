import Tenure.Proofs.Coordination.Handing

/-!
# The rounds of a coordinator

Every step of a run, whichever part takes it, keeps the run at its stage
 (`Run.Fits`) and goes on by the ways of a coordinator
(`Run.Fits.step`). So all that is seen of a run is a trail from the start
(`Execution.trail`), and what holds of trails holds of runs.
-/

namespace Tenure.Coordinator

open Election (Event LossReason ElectorStage)
open Work (Members Pool Queue)

/-- An elector that has ended is where nothing more is seen. -/
theorem Run.isLast_of_ended {r : Run} {a : ElectorStage} (h : r.elector.phase.IsAt a)
    (hended : r.electorEnded = true) : a.isLast = true := by
  unfold Run.electorEnded at hended
  split at hended
  · rename_i hφ
    rw [hφ] at h
    obtain rfl := h
    rfl
  · rename_i hφ
    rw [hφ] at h
    obtain ⟨term, rfl⟩ := h
    rfl
  · contradiction

section Work

variable {r r' : Run} {p : RunStage} {work work' : PeriodWork} {b' : TermStage}

/-- Wherever there is work, it is where the rest of the coordinator is, and
may get on from there. -/
theorem StagesAgree.getsOn {a : ElectorStage} {inbox : List Event} {consumer : Consumer}
    {confirmed : Bool} {b : TermStage} (h : StagesAgree a inbox consumer (some work) confirmed b) :
    work.IsAt b ∧ ∀ work' b', work'.term = work.term → work'.IsAt b' →
      StagesAgree a inbox consumer (some work') confirmed b' := by
  cases h with
  | early ha h =>
    cases h with
    | working ht hb =>
      exact ⟨hb, fun work' b' ht' hb' => .early ha (.working (ht'.trans ht) hb')⟩
  | late ha h =>
    cases h with
    | early h =>
      cases h with
      | working ht hb =>
        exact ⟨hb, fun work' b' ht' hb' => .late ha (.early (.working (ht'.trans ht) hb'))⟩
    | joining ht hb =>
      exact ⟨hb, fun work' b' ht' hb' => .late ha (.joining (ht'.trans ht) hb')⟩
  | left ht hb => exact ⟨hb, fun work' b' ht' hb' => .left (ht'.trans ht) hb'⟩

/-- A run whose work has got on is where the work is. -/
theorem Run.Fits.getsOn (h : r.Fits p) (hwork : r.work = some work) (hon : GetsOn r r' work work')
    (hb' : work'.IsAt b') : r'.Fits ⟨p.elector, b'⟩ := by
  obtain ⟨hrest, hterm, hhalted, hfailed⟩ := hon
  have hagree := h.agree
  rw [hwork] at hagree
  have hhand' := hagree.getsOn.2 work' b' hterm hb'
  rw [hrest]
  refine ⟨h.phase, hhand', h.ended, fun hfatal => ?_, fun work e hwork' hended => ?_⟩
  · exact (h.fatal hfatal).imp_left hhalted
  · obtain rfl := Option.some.inj hwork'
    rcases hfailed e hended with hended | hhalted'
    · exact hhalted (h.failed _ e hwork hended)
    · exact hhalted'

end Work

section Step

variable {c : Coordinator} {s : Surroundings} {r r' : Run} {p : RunStage} {actions : List Action}

theorem Run.Fits.stepWork (h : r.Fits p) {overFirst : Bool}
    (hstep : r.stepWork c s overFirst = some (r', actions)) :
    ∃ p', Trail Next p (Observation.ofStep c s r r' (.work overFirst) actions) p' ∧ r'.Fits p' := by
  cases hwork : r.work with
  | none =>
    unfold Run.stepWork at hstep
    rw [hwork] at hstep
    contradiction
  | some work =>
    have hagree := h.agree
    rw [hwork] at hagree
    obtain ⟨work', b', hon, hb', t⟩ := stepWork_trail hwork hagree.getsOn.1 hstep
    exact ⟨⟨p.elector, b'⟩, t, h.getsOn hwork hon hb'⟩

theorem Run.Fits.stepPool (h : r.Fits p) {q q' : Queue} {input : Work.PoolInput}
    (hstep : r.stepPool s q input = some (r', q', actions)) :
    ∃ p', Trail Next p (Observation.ofStep c s r r' (.pool input) actions) p' ∧ r'.Fits p' := by
  cases hwork : r.work with
  | none =>
    unfold Run.stepPool at hstep
    rw [hwork] at hstep
    contradiction
  | some work =>
    have hagree := h.agree
    rw [hwork] at hagree
    obtain ⟨work', b', hon, hb', t⟩ := stepPool_trail hwork hagree.getsOn.1 hstep
    exact ⟨⟨p.elector, b'⟩, t, h.getsOn hwork hon hb'⟩

/-- **A hook returns.** -/
theorem Run.Fits.hookReturned (h : r.Fits p) (hstep : r.hookReturned = some (r', actions)) :
    ∃ p', Trail Next p (Observation.ofStep c s r r' .hookReturned actions) p' ∧ r'.Fits p' := by
  obtain ⟨elector, inbox, consumer, revoked, confirmed, work, fatal, halted⟩ := r
  obtain ⟨a, b⟩ := p
  obtain ⟨hphase, hagree, hended, hfatal, hfailed⟩ := h
  cases hagree with
  | early ha h =>
    cases h with
    | welcoming =>
      obtain ⟨rfl, rfl⟩ := Prod.mk.inj (Option.some.inj hstep)
      refine ⟨_, .single .welcomed, hphase, .early ha (.working rfl .created), hended, hfatal, ?_⟩
      intro work e hwork hstage
      obtain rfl := Option.some.inj hwork
      contradiction
    | _ => contradiction
  | late ha h =>
    cases h with
    | early h =>
      cases h with
      | welcoming =>
        obtain ⟨rfl, rfl⟩ := Prod.mk.inj (Option.some.inj hstep)
        refine ⟨_, .single .welcomed, hphase, .late ha (.early (.working rfl .created)), hended,
          hfatal, ?_⟩
        intro work e hwork hstage
        obtain rfl := Option.some.inj hwork
        contradiction
      | _ => contradiction
    | reporting =>
      obtain ⟨rfl, rfl⟩ := Prod.mk.inj (Option.some.inj hstep)
      exact ⟨_, .single .parted, hphase, .parted ha, hended, hfatal, hfailed⟩
    | joining ht hb => contradiction
  | _ => contradiction

/-- **The work has ended**, and the hook for the loss is called. Nobody
counts as live then. -/
theorem Run.Fits.join (h : r.Fits p) (hstep : r.join = some (r', actions)) :
    ∃ p', Trail Next p (Observation.ofStep c s r r' .join actions) p' ∧ r'.Fits p' := by
  obtain ⟨elector, inbox, consumer, revoked, confirmed, work, fatal, halted⟩ := r
  obtain ⟨a, b⟩ := p
  obtain ⟨hphase, hagree, hended, hfatal, hfailed⟩ := h
  cases hagree with
  | @late _ t _ _ _ _ ha h =>
    cases h with
    | @joining work b reason ht hb =>
      simp only [Run.join] at hstep
      split at hstep
      · rename_i failure hstage
        obtain ⟨rfl, rfl⟩ := Prod.mk.inj (Option.some.inj hstep)
        obtain ⟨hdone, hactive⟩ := hb.isDone hstage
        rw [ht] at hdone
        have hcalls : Next ⟨a, b⟩ (.calls (.lostLeadership t) ((work.pool.map Pool.active).getD 0))
            ⟨a, .parting t⟩ := by
          rw [hactive]
          exact .parts hdone
        refine ⟨_, .single hcalls, hphase, .late ha .reporting, hended, ?_, ?_⟩
        · intro hsome
          refine ⟨?_, ha.isQuiet⟩
          cases fatal with
          | some e => exact (hfatal rfl).1
          | none =>
            cases failure with
            | some e => exact hfailed work e rfl hstage
            | none => contradiction
        · intro work' e hwork'
          contradiction
      · contradiction
    | early h =>
      cases h <;> contradiction
    | reporting => contradiction
  | early ha h => cases h <;> contradiction
  | _ => contradiction

/-- How a run returns. -/
theorem Run.conclude_spec (c : Coordinator) (r : Run) :
    ∃ result, (r.conclude c).1 = { r with consumer := .finished result } ∧
      (r.conclude c).2.flatMap (Observation.ofAction c r (r.conclude c).1) = [] ∧
      (r.fatal = none → r.elector.phase = .crashed → result = .error .electorTask) := by
  unfold Run.conclude
  cases r.fatal with
  | some e => exact ⟨_, rfl, rfl, fun h => by contradiction⟩
  | none =>
    cases r.elector.phase with
    | crashed => exact ⟨_, rfl, rfl, fun _ _ => rfl⟩
    | _ => exact ⟨_, rfl, rfl, fun _ h => by contradiction⟩

/-- **The elector has ended**, and the run returns. It leaves work behind
only if the elector came down while it led. -/
theorem Run.Fits.conclude (h : r.Fits p) (hconsumer : r.consumer = .listening)
    (hinbox : r.inbox = []) (hended : r.electorEnded = true) :
    ∃ p', Trail Next p (Observation.ofStep c s r (r.conclude c).1 .receive (r.conclude c).2) p' ∧
      (r.conclude c).1.Fits p' := by
  obtain ⟨result, hr', hactions, hresult⟩ := Run.conclude_spec c r
  obtain ⟨elector, inbox, consumer, revoked, confirmed, work, fatal, halted⟩ := r
  obtain ⟨a, b⟩ := p
  obtain ⟨hphase, hagree, -, hfatal, hfailed⟩ := h
  obtain rfl : consumer = .listening := hconsumer
  unfold Observation.ofStep
  rw [hactions, hr']
  cases hagree with
  | apart ha =>
    exact ⟨_, .single .returns, hphase, .closed, fun _ => .inr hended, hfatal, hfailed⟩
  | parted ha =>
    exact ⟨_, .single .returnsParted, hphase, .closed, fun _ => .inr hended, hfatal, hfailed⟩
  | heard => exact absurd (Run.isLast_of_ended hphase hended) Bool.false_ne_true
  | early ha h =>
    cases h with
    | told => contradiction
    | working ht hb =>
      obtain rfl := ha.eq_down (Run.isLast_of_ended hphase hended)
      have hnone : fatal = none := by
        cases fatal with
        | none => rfl
        | some e => exact absurd (hfatal rfl).2 Bool.false_ne_true
      obtain rfl := hresult hnone (Election.Phase.eq_crashed hphase)
      have hduring := hb.isDuring
      rw [ht] at hduring
      exact ⟨_, .single (.leaves hduring), hphase, .left ht hb, fun _ => .inr hended, hfatal,
        hfailed⟩
  | late ha h =>
    cases h with
    | early h => simp at hinbox

/-- **The consumer takes an event**, or returns. -/
theorem Run.Fits.receive (h : r.Fits p) (hstep : r.receive c = some (r', actions)) :
    ∃ p', Trail Next p (Observation.ofStep c s r r' .receive actions) p' ∧ r'.Fits p' := by
  have hconclude : r.consumer = .listening → r.inbox = [] →
      ∃ p', Trail Next p (Observation.ofStep c s r r' .receive actions) p' ∧ r'.Fits p' := by
    intro hconsumer hinbox
    unfold Run.receive at hstep
    rw [hconsumer, hinbox] at hstep
    cases hended : r.electorEnded with
    | false =>
      rw [hended] at hstep
      contradiction
    | true =>
      rw [hended] at hstep
      obtain ⟨rfl, rfl⟩ := Prod.mk.inj (Option.some.inj hstep)
      exact h.conclude hconsumer hinbox hended
  obtain ⟨elector, inbox, consumer, revoked, confirmed, work, fatal, halted⟩ := r
  obtain ⟨a, b⟩ := p
  obtain ⟨hphase, hagree, hended, hfatal, hfailed⟩ := h
  cases hagree with
  | apart ha => exact hconclude rfl rfl
  | parted ha => exact hconclude rfl rfl
  | heard => exact hconclude rfl rfl
  | early ha h =>
    cases h with
    | told =>
      obtain ⟨rfl, rfl⟩ := Prod.mk.inj (Option.some.inj hstep)
      exact ⟨_, .single .welcomes, hphase, .early ha .welcoming, hended, hfatal, hfailed⟩
    | welcoming => contradiction
    | working ht hb => exact hconclude rfl rfl
  | late ha h =>
    cases h with
    | early h =>
      cases h with
      | told =>
        obtain ⟨rfl, rfl⟩ := Prod.mk.inj (Option.some.inj hstep)
        exact ⟨_, .single .welcomes, hphase, .late ha (.early .welcoming), hended, hfatal, hfailed⟩
      | welcoming => contradiction
      | working ht hb =>
        obtain ⟨rfl, rfl⟩ := Prod.mk.inj (Option.some.inj hstep)
        exact ⟨_, .nil, hphase, .late ha (.joining ht hb), hended, hfatal, hfailed⟩
    | _ => contradiction
  | _ => contradiction

/-- **Every step of a run goes on by the ways of a coordinator.** -/
theorem Run.Fits.step (h : r.Fits p) {q : Queue} {input : Input} {done : Run × Queue × List Action}
    (hstep : Run.step c s r q input = some done) :
    ∃ p', Trail Next p (Observation.ofStep c s r done.1 input done.2.2) p' ∧ done.1.Fits p' := by
  cases input with
  | elector input =>
    obtain ⟨d, hd, rfl⟩ := Option.map_eq_some_iff.1 hstep
    exact h.stepElector hd
  | receive =>
    obtain ⟨d, hd, rfl⟩ := Option.map_eq_some_iff.1 hstep
    exact h.receive hd
  | hookReturned =>
    obtain ⟨d, hd, rfl⟩ := Option.map_eq_some_iff.1 hstep
    exact h.hookReturned hd
  | join =>
    obtain ⟨d, hd, rfl⟩ := Option.map_eq_some_iff.1 hstep
    exact h.join hd
  | work overFirst =>
    obtain ⟨d, hd, rfl⟩ := Option.map_eq_some_iff.1 hstep
    exact h.stepWork hd
  | pool input => exact h.stepPool hstep

end Step

/-- A refused configuration is returned at once; otherwise nothing has been
done yet. -/
theorem begin_fits (c : Coordinator) :
    ∃ p, Trail Next .start (Observation.ofBegin c) p ∧ c.begin.1.Fits p := by
  unfold Observation.ofBegin Coordinator.begin
  cases c.config.validate with
  | error e =>
    refine ⟨_, .single .returns, rfl, .closed, fun _ => .inl rfl, ?_, ?_⟩
    · intro h
      contradiction
    · intro work e hwork
      contradiction
  | ok _ =>
    refine ⟨_, .nil, rfl, .apart .idle, ?_, ?_, ?_⟩
    · intro h
      contradiction
    · intro h
      contradiction
    · intro work e hwork
      contradiction

/-- **All that is seen of a run is a trail** from the start. -/
theorem Execution.trail {c : Coordinator} {seen : List Observation} {r : Run}
    (h : c.Execution seen r) :
    ∃ p, Trail Next .start seen p ∧ r.Fits p := by
  induction h with
  | begins => exact begin_fits c
  | step s q input _ hstep ih =>
    obtain ⟨p, t, hr⟩ := ih
    obtain ⟨p', u, hr'⟩ := hr.step hstep
    exact ⟨p', t.append u, hr'⟩

end Tenure.Coordinator
