import Tenure.Proofs.Election.Entitlement
import Tenure.Proofs.Trail

/-!
# A leader stays inside its lease

While it leads, an elector waits for its ticks and renews at each of them,
and nothing else. That it never outlives its lease does not follow from the
time that its renewals are given: a renewal ends with the lease at the
latest, but between two of them nobody looks at the clock for a whole
interval. It follows from where the interval begins. The next tick comes one
interval after the tick before, and that is the moment at which the clock
was read for the deadline of the renewal, so a lease that lasts longer than
an interval outlasts the wait – however much of the interval the renewal
took. Only the first wait has no such tick before it, and here the lease
must be known to last.

There is no store in this. To a call under way any answer may come at any
moment, or none; what has to be asked of the answers is that they do not
shorten the lease (`LeaderSetup.OutlastsInterval`).
-/

namespace Tenure.Election

open Lease (Decision Lock Record)

/-- A candidate that leads under a term, and what the clock reads when its
timer is at zero. -/
structure LeaderSetup where
  candidate : Candidate
  term : Term
  origin : Nat

namespace LeaderSetup

/-- How often it renews. -/
def interval (R : LeaderSetup) : Nat := R.candidate.timing.renewInterval.toNat

/-- **The lease lasts longer than an interval**, if it is this candidate's
and of this term that a read has found. -/
def OutlastsInterval (R : LeaderSetup) (answer : Store.ReadAnswer) : Prop :=
  ∀ record version, R.candidate.lock.current answer = .ok (some (record, version)) →
    record.isHeldBy R.candidate.identity R.term = true →
    R.candidate.timing.renewInterval < record.duration

/-- A deadline is no earlier than this reading of the clock, or at the end of
all clocks. -/
def Reaches (R : LeaderSetup) (moment : Nat) (deadline : UInt64) : Prop :=
  min (R.origin + moment) Saturating.top ≤ deadline.toNat

/-- **A renewal covers the time to the next tick**: the clock was read for it
no more than an interval before, and what it writes lasts until then. -/
def Covers (R : LeaderSetup) (tick : Nat) : Progress → Prop
  | .reading now => R.origin + tick ≤ now.toNat + R.interval
  | .swapping record => R.Reaches tick record.deadline

/-- What was read of the lease lets a renewal cover the time that its reading
of the clock does. -/
theorem Covers.of_onRead {R : LeaderSetup} {tick : Nat} {now : UInt64} {answer : Store.ReadAnswer}
    {expected : Option UInt64} {record : Record} (h : R.Covers tick (.reading now))
    (houtlasts : R.OutlastsInterval answer)
    (hswap : ((R.candidate.lock.renew R.candidate.identity R.term).onRead now answer).1
      = .swap expected record) : R.Covers tick (.swapping record) := by
  obtain ⟨found, hcurrent, -, hnow, hreplaces⟩ := Lease.replaces_of_renew hswap
  cases found with
  | none => cases hreplaces
  | some found =>
    obtain ⟨old, version⟩ := found
    cases hreplaces with
    | renewed moment hheld halive =>
      obtain rfl : moment = now := hnow
      have hlasts := UInt64.lt_iff_toNat_lt.1 (houtlasts old version hcurrent hheld)
      unfold Covers interval at h
      show min (R.origin + tick) Saturating.top ≤ (Saturating.add moment old.duration).toNat
      rw [Saturating.toNat_add]
      omega

end LeaderSetup

/-- An elector at a moment of the timer. -/
structure TimedElector where
  time : Nat
  elector : Elector

namespace TimedElector

/-- The clock. -/
def clock (R : LeaderSetup) (w : TimedElector) : UInt64 := UInt64.ofNat (R.origin + w.time)

theorem toNat_clock {R : LeaderSetup} {w : TimedElector} (h : R.origin + w.time ≤ Saturating.top) :
    (w.clock R).toNat = R.origin + w.time := Saturating.toNat_ofNat_of_le h

/-- What may arrive: its own time not before it has come, and a read only of
a lease that lasts. -/
def Arrives (R : LeaderSetup) (w : TimedElector) : Input → Prop
  | .timeUp => ∃ due, w.elector.phase.due = some due ∧ due ≤ w.time
  | .readAnswered answer => R.OutlastsInterval answer
  | _ => True

/-- The deadline of the renewal that is confirmed by what arrives. -/
def confirmed? (R : LeaderSetup) : Input → Phase → Option UInt64
  | .swapAnswered answer, .renewing _ (.swapping record) _ _ =>
    match ((R.candidate.lock.renew R.candidate.identity R.term).onSwap record answer).1 with
    | .ok (.renewed next) => some next
    | _ => none
  | _, _ => none

/-- **One step of a leader**, up to the one that ends its leadership, and
the deadline that is confirmed by it. Time passes, and the clock with it, but
not beyond a moment at which the leader goes on by itself. -/
inductive Step (R : LeaderSetup) : TimedElector → Option UInt64 → TimedElector → Prop
  | pass {w : TimedElector} {time : Nat} (hleads : w.elector.phase.leads = true)
      (hlater : w.time ≤ time)
      (hdue : ∀ due, w.elector.phase.due = some due → time ≤ due)
      (hclock : R.origin + time ≤ Saturating.top) : Step R w none { w with time }
  | turn {w : TimedElector} {s : Surroundings} {input : Input} {done : Elector × List Action}
      (hleads : w.elector.phase.leads = true) (htime : s.time = w.time)
      (hclock : s.clock = w.clock R) (harrives : w.Arrives R input)
      (hstep : R.candidate.step s w.elector input = some done) :
      Step R w (confirmed? R input w.elector.phase) { w with elector := done.1 }

/-- The deadline that was confirmed last. -/
def lastConfirmed (deadline : UInt64) (seen : List (Option UInt64)) : UInt64 :=
  seen.foldl (fun last next => next.getD last) deadline

/-- **The renewals begin** with an interval left to the deadline, or more. -/
structure Begins (R : LeaderSetup) (w : TimedElector) (deadline : UInt64) : Prop where
  phase : w.elector.phase = .leading ⟨R.term, deadline, w.time + R.interval⟩
  clock : R.origin + w.time ≤ Saturating.top
  ahead : R.origin + w.time + R.interval ≤ deadline.toNat

/-- They begin with leadership. -/
theorem begins_of_lead {R : LeaderSetup} {s : Surroundings} {deadline : UInt64}
    (hdeaf : s.deaf = false) (hinterval : R.candidate.timing.renewInterval ≠ 0)
    (hclock : R.origin + s.time ≤ Saturating.top)
    (hahead : R.origin + s.time + R.interval ≤ deadline.toNat) :
    Begins R ⟨s.time, (R.candidate.lead s R.term deadline).1⟩ deadline where
  phase := by
    unfold Candidate.lead
    simp only [hdeaf, Bool.false_eq_true, if_false, if_neg hinterval]
    rfl
  clock := hclock
  ahead := hahead

/-! ## Where a leader stands -/

/-- **A leader is inside its lease**, which is confirmed up to a deadline:
it waits for a tick that comes before the deadline, or for a renewal that
ends before it, or it does not lead any more and has not outlived it. -/
inductive Inside (R : LeaderSetup) (deadline : UInt64) (time : Nat) : Phase → Prop
  | waits {period : Period} (hterm : period.term = R.term) (hdeadline : period.deadline = deadline)
      (htick : time ≤ period.tick) (hlasts : R.Reaches period.tick deadline) :
      Inside R deadline time (.leading period)
  | renews {period : Period} {call : Progress} {budget : UInt64} {giveUp : Nat}
      (hterm : period.term = R.term) (hdeadline : period.deadline = deadline)
      (hearly : time ≤ giveUp) (hshort : giveUp ≤ period.tick)
      (hahead : R.origin + giveUp ≤ deadline.toNat) (hcovers : R.Covers period.tick call) :
      Inside R deadline time (.renewing period call budget giveUp)
  | ended {φ : Phase} (hφ : φ.leads = false) (hclock : R.origin + time ≤ deadline.toNat) :
      Inside R deadline time φ

variable {R : LeaderSetup} {w w' : TimedElector} {s : Surroundings} {deadline next : UInt64}
  {time : Nat}
  {φ : Phase} {n : UInt32} {input : Input} {done : Elector × List Action}

/-- Wherever it stands, it has not outlived the lease. -/
theorem Inside.clock_le (h : Inside R deadline time φ) (hclock : R.origin + time ≤ Saturating.top) :
    R.origin + time ≤ deadline.toNat := by
  cases h with
  | waits hterm hdeadline htick hlasts =>
    unfold LeaderSetup.Reaches at hlasts
    omega
  | renews hterm hdeadline hearly hshort hahead hcovers => omega
  | ended hφ hclock => exact hclock

/-- Time may pass up to the moment at which it goes on by itself. -/
theorem Inside.pass {time' : Nat} (h : Inside R deadline time φ) (hleads : φ.leads = true)
    (hdue : ∀ due, φ.due = some due → time' ≤ due) : Inside R deadline time' φ := by
  cases h with
  | waits hterm hdeadline htick hlasts => exact .waits hterm hdeadline (hdue _ rfl) hlasts
  | renews hterm hdeadline hearly hshort hahead hcovers =>
    exact .renews hterm hdeadline (hdue _ rfl) hshort hahead hcovers
  | ended hφ hclock =>
    rw [hφ] at hleads
    contradiction

/-! ## Turns -/

/-- Whoever loses the lease leads no more. -/
theorem leads_lose (c : Candidate) (s : Surroundings) (n : UInt32) (period : Period)
    (reason : LossReason) : (c.lose s n period reason).1.phase.leads = false := by
  unfold Candidate.lose
  cases s.deaf with
  | true => rfl
  | false => cases reason <;> rfl

/-- So does whoever is not confirmed to have renewed it. -/
theorem leads_renewed_of_ne (c : Candidate) (s : Surroundings) (n : UInt32) (period : Period)
    {result : Except Lease.Error Lease.RenewOutcome} (h : ∀ next, result ≠ .ok (.renewed next)) :
    (c.renewed s n period result).1.phase.leads = false := by
  cases result with
  | error e => exact leads_lose c s n period .renewFailed
  | ok outcome =>
    cases outcome with
    | lost holder => exact leads_lose c s n period .superseded
    | renewed next => exact absurd rfl (h next)

/-- **A renewal that is confirmed** lets the elector wait for its next tick,
or comes at the very deadline. -/
theorem inside_renewed {period : Period} (hterm : period.term = R.term)
    (htick : time ≤ period.tick) (hclock : R.origin + time ≤ Saturating.top)
    (hreaches : R.Reaches period.tick next) :
    Inside R next time (R.candidate.renewed s n period (.ok (.renewed next))).1.phase := by
  unfold Candidate.renewed
  by_cases hahead : R.candidate.isAhead s next = true
  · simp only [if_pos hahead]
    exact .waits hterm rfl htick hreaches
  · simp only [if_neg hahead]
    unfold LeaderSetup.Reaches at hreaches
    exact .ended (leads_lose _ _ _ _ _) (by omega)

/-- **A tick** comes at the moment for which it was set, and begins a renewal
that ends with the lease and with the interval. -/
theorem Inside.of_leading {period : Period} (h : Inside R deadline time (.leading period))
    (htime : s.time = time) (hclock : s.clock.toNat = R.origin + time)
    (hdue : input = .timeUp → period.tick ≤ time)
    (hstep : R.candidate.step s ⟨.leading period, n⟩ input = some done) :
    Inside R deadline time done.1.phase := by
  have hle : R.origin + time ≤ deadline.toNat :=
    h.clock_le (hclock ▸ Nat.le_of_lt_succ s.clock.toNat_lt)
  cases h with
  | ended hφ hclock => contradiction
  | waits hterm hdeadline htick hlasts =>
    obtain rfl := hdeadline
    cases input with
    | cancelled =>
      obtain rfl := Option.some.inj hstep
      exact .ended (leads_lose _ _ _ _ _) hle
    | timeUp =>
      simp only [Candidate.step, Candidate.onTick] at hstep
      cases hbudget : Lease.renewBudget period.deadline s.clock
        R.candidate.timing.renewInterval with
      | none =>
        rw [hbudget] at hstep
        obtain rfl := Option.some.inj hstep
        exact .ended (leads_lose _ _ _ { period with tick := _ } _) hle
      | some budget =>
        rw [hbudget] at hstep
        obtain rfl := Option.some.inj hstep
        obtain ⟨-, hremaining, hinterval⟩ := Lease.of_renewBudget hbudget
        have hinterval : budget.toNat ≤ R.interval := UInt64.le_iff_toNat_le.1 hinterval
        have hend := pauseEnd_le s.time budget.toNat
        have hnext : R.candidate.nextTick s.time period.tick = s.time + R.interval := by
          have hpunctual := hdue rfl
          unfold Candidate.nextTick
          rw [if_neg (by omega), show period.tick = s.time by omega]
          rfl
        refine .renews hterm rfl (htime ▸ le_pauseEnd _ _) ?_ ?_ ?_
        · show pauseEnd s.time budget.toNat ≤ R.candidate.nextTick s.time period.tick
          omega
        · omega
        · show R.origin + R.candidate.nextTick s.time period.tick ≤ s.clock.toNat + R.interval
          omega
    | _ => contradiction

/-- A renewal is confirmed for the record that it writes. -/
theorem deadline_of_renewed {l : Lock} {identity : String} {term : Term} {record : Record}
    {answer : Store.WriteAnswer}
    (h : ((l.renew identity term).onSwap record answer).1 = .ok (.renewed next)) :
    next = record.deadline := by
  have hserve : ((l.serve identity (.renew term)).onSwap record answer).1
      = .ok (.renewed (.renewed next)) := congrArg (Except.map Lease.Outcome.renewed) h
  exact (Lease.grant?_of_onSwap hserve rfl).2.1

/-- **What arrives during a renewal** takes it further or ends it. -/
theorem Inside.of_renewing {period : Period} {call : Progress} {budget : UInt64} {giveUp : Nat}
    (h : Inside R deadline time (.renewing period call budget giveUp))
    (hclock : R.origin + time ≤ Saturating.top)
    (houtlasts : ∀ answer, input = .readAnswered answer → R.OutlastsInterval answer)
    (hstep : R.candidate.step s ⟨.renewing period call budget giveUp, n⟩ input = some done) :
    Inside R ((confirmed? R input (.renewing period call budget giveUp)).getD deadline) time
      done.1.phase := by
  have hle := h.clock_le hclock
  cases h with
  | ended hφ hclock => contradiction
  | renews hterm hdeadline hearly hshort hahead hcovers =>
    cases input with
    | cancelled =>
      obtain rfl := Option.some.inj hstep
      exact .ended (leads_lose R.candidate s n period .shutdown) hle
    | timeUp =>
      obtain rfl := Option.some.inj hstep
      exact .ended (leads_lose R.candidate s n period .renewFailed) hle
    | crash =>
      obtain rfl := Option.some.inj hstep
      exact .ended rfl hle
    | readAnswered answer =>
      simp only [Candidate.step, hterm] at hstep
      cases Candidate.of_answered hstep with
      | @ends now answer result ns hdone =>
        refine .ended (leads_renewed_of_ne _ _ _ _ fun next hnext => ?_) hle
        subst hnext
        have hserve : ((R.candidate.lock.serve R.candidate.identity (.renew R.term)).onRead now
            answer).1 = .done (.ok (.renewed (.renewed next))) :=
          Lease.Operation.onRead_map_eq_done hdone
        cases Lease.grant?_eq_none_of_onRead hserve
      | goesOn ns hswap =>
        exact .renews hterm hdeadline hearly hshort hahead
          (hcovers.of_onRead (houtlasts answer rfl) hswap)
    | swapAnswered answer =>
      simp only [Candidate.step, hterm] at hstep
      cases Candidate.of_answered hstep with
      | @swapped record answer ns =>
        simp only [confirmed?]
        cases hresult : ((R.candidate.lock.renew R.candidate.identity R.term).onSwap record
          answer).1 with
        | error e => exact .ended (leads_renewed_of_ne _ _ _ _ (by simp)) hle
        | ok outcome =>
          cases outcome with
          | lost holder => exact .ended (leads_renewed_of_ne _ _ _ _ (by simp)) hle
          | renewed next =>
            obtain rfl := deadline_of_renewed hresult
            exact inside_renewed hterm (Nat.le_trans hearly hshort) hclock hcovers
    | start => cases call <;> contradiction
    | stopped => cases call <;> contradiction

/-- **No step takes a leader out of its lease.** -/
theorem Step.inside {l : Option UInt64} (h : Step R w l w')
    (hw : R.origin + w.time ≤ Saturating.top ∧ Inside R deadline w.time w.elector.phase) :
    R.origin + w'.time ≤ Saturating.top ∧
      Inside R (l.getD deadline) w'.time w'.elector.phase := by
  obtain ⟨hclock, hinside⟩ := hw
  cases h with
  | pass hleads hlater hdue hlimit => exact ⟨hlimit, hinside.pass hleads hdue⟩
  | @turn s input done hleads htime hreads harrives hstep =>
    refine ⟨hclock, ?_⟩
    have hreads : s.clock.toNat = R.origin + w.time := by rw [hreads, toNat_clock hclock]
    obtain ⟨time, φ, n⟩ := w
    cases φ with
    | leading period =>
      rw [show confirmed? R input (.leading period) = none by cases input <;> rfl]
      refine hinside.of_leading htime hreads ?_ hstep
      rintro rfl
      obtain ⟨due, hdue, hle⟩ := harrives
      exact Option.some.inj hdue ▸ hle
    | renewing period call budget giveUp =>
      refine hinside.of_renewing hclock ?_ hstep
      rintro answer rfl
      exact harrives
    | _ => contradiction

/-- It begins inside. -/
theorem Begins.inside (h : Begins R w deadline) : Inside R deadline w.time w.elector.phase := by
  rw [h.phase]
  refine .waits rfl rfl (Nat.le_add_right _ _) ?_
  unfold LeaderSetup.Reaches
  have hahead := h.ahead
  show min (R.origin + (w.time + R.interval)) Saturating.top ≤ deadline.toNat
  omega

/-- What was confirmed before one more step, and by it. -/
theorem lastConfirmed_append_single (seen : List (Option UInt64)) (l : Option UInt64) :
    lastConfirmed deadline (seen ++ [l]) = l.getD (lastConfirmed deadline seen) := by
  unfold lastConfirmed
  rw [List.foldl_append]
  rfl

theorem inside_of_trail {seen : List (Option UInt64)} (hw : Begins R w deadline)
    (t : Trail (Step R) w seen w') :
    R.origin + w'.time ≤ Saturating.top ∧
      Inside R (lastConfirmed deadline seen) w'.time w'.elector.phase := by
  let remembers : TimedElector → List (Option UInt64) → Prop := fun u seen =>
    R.origin + u.time ≤ Saturating.top ∧
      Inside R (lastConfirmed deadline seen) u.time u.elector.phase
  refine t.history remembers (fun u l u' seen hstep hu => ?_) ⟨hw.clock, hw.inside⟩
  show R.origin + u'.time ≤ Saturating.top ∧
    Inside R (lastConfirmed deadline (seen ++ [l])) u'.time u'.elector.phase
  rw [lastConfirmed_append_single]
  exact hstep.inside hu

/-- **A leader never outlives its lease**, on a lease that lasts longer than
a renewal interval and if an interval of it is left when the renewals begin.
Whatever the store does with them and whenever the leader is told to stop: up
to the end of its leadership, this moment included, the clock has not passed
the deadline confirmed last, and a renewal that is under way is given up by
then. -/
theorem leads_within_lease {seen : List (Option UInt64)} (hw : Begins R w deadline)
    (t : Trail (Step R) w seen w') :
    w'.clock R ≤ lastConfirmed deadline seen ∧
      ∀ period call budget giveUp,
        w'.elector.phase = .renewing period call budget giveUp →
        R.origin + giveUp ≤ (lastConfirmed deadline seen).toNat := by
  obtain ⟨hclock, hinside⟩ := inside_of_trail hw t
  constructor
  · rw [UInt64.le_iff_toNat_le, toNat_clock hclock]
    exact hinside.clock_le hclock
  · intro period call budget giveUp hphase
    rw [hphase] at hinside
    cases hinside with
    | renews hterm hdeadline hearly hshort hahead hcovers => exact hahead
    | ended hφ hclock => contradiction

/-- A leader that renews when a fifth of its lease is left. -/
def shortLease : LeaderSetup where
  candidate := ⟨"a", ⟨"lease", 1000⟩, { leaseDuration := 1000, renewInterval := 800 }⟩
  term := ⟨1⟩
  origin := 0

/-- Nothing happens to it but what arrives. -/
def quietSurroundings (time : Nat) : Surroundings := ⟨time, .ofNat time, false, false, 0⟩

/-- Its first renewal is confirmed at the very deadline, and its second hangs
up to the next one. -/
theorem leads_within_lease_shortLease :
    ∃ w, Trail (Step shortLease) ⟨0, (shortLease.candidate.lead (quietSurroundings 0) ⟨1⟩ 1000).1⟩
        [none, none, none, none, none, some 1800, none, none, none] w ∧
      w.time = 1800 ∧ w.elector.phase.leads = true ∧ w.clock shortLease ≤ 1800 := by
  let old : Record := .acquired "a" 1 1000 0
  let answer : Store.ReadAnswer := .ok ⟨some ⟨"lease", old.text, 1⟩⟩
  have hcurrent : shortLease.candidate.lock.current answer = .ok (some (old, 1)) :=
    Lock.current_text _ rfl "lease" 1
  have hread : (shortLease.candidate.lock.renew shortLease.candidate.identity ⟨1⟩).onRead 800 answer
      = (.swap (some 1) (old.renewed 800), []) :=
    Lock.onRead_renew_of_held hcurrent rfl rfl
  let first : Period := ⟨⟨1⟩, 1000, 800⟩
  let second : Period := ⟨⟨1⟩, 1000, 1600⟩
  let renewed : Period := ⟨⟨1⟩, 1800, 1600⟩
  let asking : Elector := ⟨.renewing second (.reading 800) 200 1000, 0⟩
  let writing : Elector := ⟨.renewing second (.swapping (old.renewed 800)) 200 1000, 0⟩
  let hanging : Elector := ⟨.renewing ⟨⟨1⟩, 1800, 2400⟩ (.reading 1600) 200 1800, 0⟩
  have hclock : ∀ time, time ≤ 1800 → shortLease.origin + time ≤ Saturating.top := fun time htime =>
    Nat.le_trans (Nat.le_of_eq (Nat.zero_add time)) (Nat.le_trans htime (by decide))
  have pass : ∀ (e : Elector) (time later due : Nat), e.phase.leads = true → time ≤ later →
      e.phase.due = some due → later ≤ due → later ≤ 1800 →
      Step shortLease ⟨time, e⟩ none ⟨later, e⟩ := by
    intro e time later due hleads hlater hdue hle htop
    refine .pass (w := ⟨time, e⟩) hleads hlater (fun due' hdue' => ?_) (hclock later htop)
    obtain rfl := Option.some.inj (hdue.symm.trans hdue')
    exact hle
  have turn : ∀ {e e' : Elector} (time : Nat) (input : Input), e.phase.leads = true →
      Arrives shortLease ⟨time, e⟩ input →
      (shortLease.candidate.step (quietSurroundings time) e input).map Prod.fst = some e' →
      Step shortLease ⟨time, e⟩ (confirmed? shortLease input e.phase) ⟨time, e'⟩ := by
    intro e e' time input hleads harrives hdone
    obtain ⟨done, hstep, rfl⟩ := Option.map_eq_some_iff.1 hdone
    exact .turn (w := ⟨time, e⟩) (s := quietSurroundings time) hleads rfl
      (congrArg UInt64.ofNat (Nat.zero_add time).symm) harrives hstep
  have tick : ∀ (period : Period) (e' : Elector),
      (shortLease.candidate.step (quietSurroundings period.tick) ⟨.leading period, 0⟩
        .timeUp).map Prod.fst = some e' →
      Step shortLease ⟨period.tick, ⟨.leading period, 0⟩⟩ none ⟨period.tick, e'⟩ := by
    intro period e' hstep
    have hdue : Arrives shortLease ⟨period.tick, ⟨.leading period, 0⟩⟩ .timeUp :=
      ⟨period.tick, rfl, Nat.le_refl _⟩
    exact turn period.tick .timeUp rfl hdue hstep
  have h₁ := pass ⟨.leading first, 0⟩ 0 800 800 rfl (by decide) rfl (by decide) (by decide)
  have h₂ : Step shortLease ⟨800, ⟨.leading first, 0⟩⟩ none ⟨800, asking⟩ :=
    tick first asking (by decide +kernel)
  have h₃ := pass asking 800 900 1000 rfl (by decide) rfl (by decide) (by decide)
  have h₄ : Step shortLease ⟨900, asking⟩ none ⟨900, writing⟩ := by
    have houtlasts : shortLease.OutlastsInterval answer := by
      intro record version hrecord _
      obtain ⟨rfl, -⟩ := Prod.mk.inj (Option.some.inj (Except.ok.inj (hcurrent.symm.trans hrecord)))
      decide
    refine turn 900 (.readAnswered answer) rfl houtlasts ?_
    simp only [asking, Candidate.step, Candidate.answered, second, hread]
    rfl
  have h₅ := pass writing 900 1000 1000 rfl (by decide) rfl (by decide) (by decide)
  have h₆ : Step shortLease ⟨1000, writing⟩ (some 1800) ⟨1000, ⟨.leading renewed, 0⟩⟩ :=
    turn 1000 (.swapAnswered (.ok ⟨some 2⟩)) rfl trivial (by decide +kernel)
  have h₇ := pass ⟨.leading renewed, 0⟩ 1000 1600 1600 rfl (by decide) rfl (by decide) (by decide)
  have h₈ : Step shortLease ⟨1600, ⟨.leading renewed, 0⟩⟩ none ⟨1600, hanging⟩ :=
    tick renewed hanging (by decide +kernel)
  have h₉ := pass hanging 1600 1800 1800 rfl (by decide) rfl (by decide) (by decide)
  have t := Trail.cons h₁ (.cons h₂ (.cons h₃ (.cons h₄ (.cons h₅ (.cons h₆ (.cons h₇ (.cons h₈
    (.single h₉))))))))
  have hbegins :
      Begins shortLease ⟨0, (shortLease.candidate.lead (quietSurroundings 0) ⟨1⟩ 1000).1⟩ 1000 :=
    begins_of_lead (s := quietSurroundings 0) rfl (by decide) (by decide) (by decide)
  exact ⟨_, t, rfl, rfl, (leads_within_lease hbegins t).1⟩

end TimedElector

end Tenure.Election
