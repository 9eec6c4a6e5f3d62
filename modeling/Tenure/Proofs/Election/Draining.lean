import Tenure.Proofs.Election.ReplicaWithOthers

/-!
# The lease while work is drained

A leader that is told to stop keeps its lease until the work of the term has
stopped: it goes on to renew, for nobody else may begin before. The renewals
of a drain are due an interval apart, and each one goes through, since up to
the deadline nobody else writes the entry (`ReplicaWithOthers.GoesThrough`).
So a drain that reaches its first renewal with the lease in force keeps it for
as long as the drain lasts (`ReplicaWithOthers.Drains`).

It may not get that far. The first renewal of a drain is due an interval after
the leader was told to stop, however long ago the last one was, and between
two renewals of a leader there may be another interval. A lease that is no
longer than two intervals may run out in between
(`ReplicaWithOthers.another_acquires`), and only such a lease
(`ReplicaWithOthers.deadline_le_of_taken_while_draining`).
-/

namespace Tenure.Election

open Lease (Call Contention Label Record Request Lock)
open Lease.Contention (orderlyRules)

/-! ## Turns of a drain -/

namespace Candidate

variable {c : Candidate} {s : Surroundings} {period : Period} {n : UInt32} {budget : UInt64}
  {giveUp : Nat} {stopped : Bool} {done : Elector × List Action}

theorem isAhead_of_lt (c : Candidate) {deadline : UInt64} (h : s.clock < deadline) :
    c.isAhead s deadline = true := by
  unfold isAhead
  cases hbudget : Lease.renewBudget deadline s.clock c.timing.renewInterval with
  | none => exact absurd h (UInt64.not_lt.2 (Lease.le_of_renewBudget_eq_none hbudget))
  | some budget => rfl

/-- A leader that is told to stop begins to drain. -/
theorem of_step_cancelled {e : Elector} (hdeaf : s.deaf = false)
    (hφ : e.phase = .leading period ∨
      ∃ call budget giveUp, e.phase = .renewing period call budget giveUp)
    (h : c.step s e .cancelled = some done) :
    done.1.phase
      = .draining { period with tick := s.time + c.timing.renewInterval.toNat } := by
  have hlose : (c.lose s e.failures period .shutdown).1.phase
      = .draining { period with tick := s.time + c.timing.renewInterval.toNat } := by
    unfold lose
    rw [hdeaf]
    rfl
  obtain ⟨φ, n⟩ := e
  obtain rfl | ⟨call, budget, giveUp, rfl⟩ := hφ
  · obtain rfl := Option.some.inj h
    exact hlose
  · obtain rfl := Option.some.inj h
    exact hlose

/-- Before the confirmation there is only the next renewal to do. -/
theorem of_step_draining {input : Input} (h : c.step s ⟨.draining period, n⟩ input = some done)
    (hinput : input ≠ .stopped) :
    input = .timeUp ∧
    ((∃ budget, Lease.renewBudget period.deadline s.clock c.timing.renewInterval = some budget ∧
      done.1.phase = .drainRenewing { period with tick := c.nextTick s.time period.tick }
        (.reading s.clock) budget (pauseEnd s.time budget.toNat) false ∧
      ∀ f, flown done.2 f = .reading) ∨
    (Lease.renewBudget period.deadline s.clock c.timing.renewInterval = none ∧
      done.1.phase = .awaitingStop period.term)) := by
  cases input with
  | timeUp =>
    refine ⟨rfl, ?_⟩
    simp only [step, onTick] at h
    cases hbudget : Lease.renewBudget period.deadline s.clock c.timing.renewInterval with
    | none =>
      rw [hbudget] at h
      obtain rfl := Option.some.inj h
      exact .inr ⟨rfl, rfl⟩
    | some budget =>
      rw [hbudget] at h
      obtain rfl := Option.some.inj h
      exact .inl ⟨budget, rfl, rfl, fun f => rfl⟩
  | stopped => contradiction
  | _ => contradiction

/-- A renewal of a drain goes on to its swap. -/
theorem of_step_read {now : UInt64} {answer : Store.ReadAnswer} {expected : Option UInt64}
    {record : Record}
    (hswap : ((c.lock.renew c.identity period.term).onRead now answer).1 = .swap expected record)
    (h : c.step s ⟨.drainRenewing period (.reading now) budget giveUp stopped, n⟩
      (.readAnswered answer) = some done) :
    done.1.phase = .drainRenewing period (.swapping record) budget giveUp stopped ∧
      ∀ f, flown done.2 f = .swapping expected record := by
  cases hread : (c.lock.renew c.identity period.term).onRead now answer with
  | mk decision ns =>
    rw [hread] at hswap
    subst hswap
    simp only [step, answered, hread] at h
    obtain rfl := Option.some.inj h
    exact ⟨rfl, fun f => by rw [flown_append, flown_notes]; rfl⟩

/-- And comes to its end. -/
theorem of_step_swapped {record : Record} {a : Store.WriteResult}
    (hahead : c.isAhead s record.deadline = true)
    (h : c.step s ⟨.drainRenewing period (.swapping record) budget giveUp false, n⟩
      (.swapAnswered (.ok a)) = some done) :
    done.1.phase = .draining { period with deadline := record.deadline } := by
  have hrenewed : (c.drainRenewed s n period false (.ok (.renewed record.deadline))).1
      = ⟨.draining { period with deadline := record.deadline }, n⟩ := by
    simp [drainRenewed, hahead]
  obtain rfl := Option.some.inj h
  exact congrArg Elector.phase hrenewed

end Candidate

namespace ReplicaWithOthers

variable {ι : Type} {C : ReplicaSetup ι} {w w' : ReplicaWithOthers ι} {l : ReplicaLabel ι}
  {term : Term}
  {deadline : UInt64}

/-- The lease lasts beyond this moment, or to the end of all clocks. -/
def Outlasts (C : ReplicaSetup ι) (tick : Nat) (deadline : UInt64) : Prop :=
  C.origin + tick < deadline.toNat ∨ deadline.toNat = Saturating.top

theorem Outlasts.clock_le {tick : Nat} (h : Outlasts C tick deadline)
    (hclock : C.origin + w.time ≤ Saturating.top) (htime : w.time ≤ tick) :
    w.clock C ≤ deadline := by
  unfold Outlasts at h
  rw [UInt64.le_iff_toNat_le, toNat_clock hclock]
  omega

/-- **A renewal goes through**, wherever its call is: it has met the
replica's own record, and the entry is still the one that it has read. -/
def GoesThrough (C : ReplicaSetup ι) (w : ReplicaWithOthers ι) (term : Term) (call : Progress) :
    Prop :=
  match w.flight with
  | .idle => False
  | .reading => True
  | .read answer => ∃ version record,
    ((C.candidate.lock.renew C.candidate.identity term).onRead (w.clock C) answer).1
      = .swap (some version) record ∧ w.store.version? C.key = some version
  | .swapping expected _ => w.store.version? C.key = expected
  | .swapped answer => ∃ a record, answer = .ok a ∧ call = .swapping record ∧
    w.Granted C term record

/-- **What is kept up while work is drained**, as long as the confirmation
has not come. -/
def Drains (C : ReplicaSetup ι) (w : ReplicaWithOthers ι) : Phase → Prop
  | .draining period => w.time ≤ period.tick ∧ Outlasts C period.tick period.deadline ∧
    w.Holds C period.term period.deadline
  | .drainRenewing period call _ giveUp stopped => stopped = false ∧ w.time < giveUp ∧
    period.tick = w.time + C.candidate.timing.renewInterval.toNat ∧
    w.clock C < period.deadline ∧ w.Holds C period.term period.deadline ∧
    w.GoesThrough C period.term call
  | .awaitingStop term => ∃ deadline : UInt64, deadline.toNat = Saturating.top ∧
    w.Holds C term deadline
  | _ => False

/-- The replica finds its own record and can renew it. -/
theorem Holds.of_read (hs : w.Holds C term deadline) (htime : w.clock C ≤ deadline)
    (hanswer : IsRead (w.store.read C.key)) :
    ∃ version record, ((C.candidate.lock.renew C.candidate.identity term).onRead (w.clock C)
      (w.store.read C.key)).1 = .swap (some version) record ∧
      w.store.version? C.key = some version := by
  obtain ⟨since, ⟨record, hrecord, hheld, -, hdeadline⟩, -⟩ := hs
  obtain ⟨entry, hfind, hdecode⟩ := Option.bind_eq_some_iff.1 hrecord
  have hfind : w.store.find? C.key = some entry := hfind
  have hread : w.store.read C.key = .ok ⟨some ⟨C.key, entry.value, entry.version⟩⟩ := by
    unfold Store.read at hanswer ⊢
    rw [Store.get?, hfind] at hanswer ⊢
    split at hanswer
    · contradiction
    · rw [if_neg (by assumption)]
      rfl
  have hcurrent : C.candidate.lock.current (w.store.read C.key)
      = .ok (some (record, entry.version)) := by
    have hdecode : (C.candidate.lock.decode entry.value).toOption = some record := hdecode
    rw [hread]
    cases hresult : C.candidate.lock.decode entry.value with
    | error e =>
      rw [hresult] at hdecode
      contradiction
    | ok found =>
      rw [hresult] at hdecode
      obtain rfl := Option.some.inj hdecode
      simp only [Lock.current, hresult, Except.map]
  have halive : record.isExpiredAt (w.clock C) = false := by
    obtain ⟨-, hzero, -⟩ := Lease.Record.isHeldBy_iff.1 hheld
    have hnow := UInt64.le_trans htime hdeadline
    simp [Record.isExpiredAt, Lease.isExpired, hzero, hnow]
  refine ⟨entry.version, record.renewed (w.clock C), ?_, ?_⟩
  · have hheld : record.isHeldBy C.candidate.identity term = true := hheld
    rw [Lock.onRead_renew_of_held hcurrent hheld halive]
  · rw [Store.version?, hfind]
    rfl

/-- A renewal goes on through as long as nobody writes the entry. -/
theorem GoesThrough.of_same {call : Progress} (h : w.GoesThrough C term call)
    (hflight : w'.flight = w.flight) (htime : w'.time = w.time) (hkeeps : Keeps C w w')
    (hversion : w'.store.version? C.key = w.store.version? C.key) :
    w'.GoesThrough C term call := by
  have hclock : w'.clock C = w.clock C := clock_eq htime
  unfold GoesThrough at h ⊢
  rw [hflight, hversion, hclock]
  cases hf : w.flight with
  | idle =>
    rw [hf] at h
    contradiction
  | reading => trivial
  | read answer =>
    rw [hf] at h
    exact h
  | swapping expected record =>
    rw [hf] at h
    exact h
  | swapped answer =>
    rw [hf] at h
    obtain ⟨a, record, rfl, rfl, hgranted⟩ := h
    exact ⟨a, record, rfl, rfl, hgranted.of_keeps hkeeps htime (hflight.trans hf)⟩

/-- While work is drained the replica has a term, and only renews it. -/
theorem Drains.holds {φ : Phase} (hd : w.Drains C φ) (hφ : w.elector.phase = φ)
    (hclock : C.origin + w.time ≤ Saturating.top) :
    w.OnlyRenews C ∧ ∃ term deadline, w.Holds C term deadline ∧ w.clock C ≤ deadline := by
  cases φ with
  | draining period =>
    obtain ⟨htick, houtlasts, hholds⟩ := hd
    exact ⟨onlyRenews_of_resting (by rw [hφ]; rfl), _, _, hholds, houtlasts.clock_le hclock htick⟩
  | drainRenewing period call budget giveUp stopped =>
    obtain ⟨-, -, -, hahead, hholds, -⟩ := hd
    exact ⟨onlyRenews_of_renewing (by rw [hφ]; rfl), _, _, hholds, UInt64.le_of_lt hahead⟩
  | awaitingStop term =>
    obtain ⟨deadline, htop, hholds⟩ := hd
    exact ⟨onlyRenews_of_resting (by rw [hφ]; rfl), _, _, hholds,
      Outlasts.clock_le (.inr htop) hclock (Nat.le_refl _)⟩
  | _ => contradiction

/-- Wherever its call goes, the replica keeps what it has while work is
drained, as long as the renewal goes through. -/
theorem Drains.of_flight {φ : Phase} (hd : w.Drains C φ) (hφ : w.elector.phase = φ)
    (hclock : C.origin + w.time ≤ Saturating.top) (helector : w'.elector = w.elector)
    (htime : w'.time = w.time) (hkeeps : Keeps C w w')
    (hgoes : ∀ term call deadline, φ.asked? = some (.renew term, call) →
      w.Holds C term deadline → w.clock C ≤ deadline → w.GoesThrough C term call →
      w'.GoesThrough C term call) : w'.Drains C φ := by
  have hclock' : w'.clock C = w.clock C := clock_eq htime
  have hφ' : w'.elector.phase = φ := by rw [helector, hφ]
  cases φ with
  | draining period =>
    obtain ⟨htick, houtlasts, hholds⟩ := hd
    exact ⟨htime ▸ htick, houtlasts, hkeeps _ _ (onlyRenews_of_resting (by rw [hφ']; rfl))
      (hclock' ▸ houtlasts.clock_le hclock htick) hholds⟩
  | drainRenewing period call budget giveUp stopped =>
    obtain ⟨hstopped, hearly, htick, hahead, hholds, hrenewal⟩ := hd
    have hnow := UInt64.le_of_lt hahead
    exact ⟨hstopped, htime ▸ hearly, htime ▸ htick, hclock' ▸ hahead,
      hkeeps _ _ (onlyRenews_of_renewing (by rw [hφ']; rfl)) (hclock' ▸ hnow) hholds,
      hgoes _ _ _ rfl hholds hnow hrenewal⟩
  | awaitingStop term =>
    obtain ⟨deadline, htop, hholds⟩ := hd
    have hnow : w.clock C ≤ deadline := Outlasts.clock_le (.inr htop) hclock (Nat.le_refl _)
    exact ⟨deadline, htop, hkeeps _ _ (onlyRenews_of_resting (by rw [hφ']; rfl)) (hclock' ▸ hnow)
      hholds⟩
  | _ => contradiction

/-- Time passes between the renewals of a drain. -/
theorem Drains.of_pass {time : Nat} (hd : w.Drains C w.elector.phase) (hk : Kept C w)
    (hidle : w.flight = .idle) (hdue : ∀ due, w.elector.phase.due = some due → time ≤ due)
    (hclock : C.origin + time ≤ Saturating.top) (hkeeps : Keeps C w { w with time }) :
    Drains C { w with time } w.elector.phase := by
  have hasked := hk.asked?_of_idle hidle
  have hown : OnlyRenews C { w with time } := onlyRenews_of_resting hasked
  cases hphase : w.elector.phase with
  | draining period =>
    rw [hphase] at hd hdue
    obtain ⟨-, houtlasts, hholds⟩ := hd
    have htick : time ≤ period.tick := hdue _ rfl
    exact ⟨htick, houtlasts, hkeeps _ _ hown (houtlasts.clock_le hclock htick) hholds⟩
  | awaitingStop term =>
    rw [hphase] at hd
    obtain ⟨deadline, htop, hholds⟩ := hd
    exact ⟨deadline, htop,
      hkeeps _ _ hown (Outlasts.clock_le (.inr htop) hclock (Nat.le_refl _)) hholds⟩
  | drainRenewing period call budget giveUp stopped =>
    rw [hphase] at hasked
    contradiction
  | _ =>
    rw [hphase] at hd
    contradiction

/-- A term that is granted before the end of all clocks outlasts the next
tick. -/
theorem Granted.outlasts {record : Record} (h : w.Granted C term record) (hC : C.Fit)
    (hclock : C.origin + w.time ≤ Saturating.top) (hahead : w.clock C < deadline) :
    w.clock C < record.deadline ∧
      Outlasts C (w.time + C.candidate.timing.renewInterval.toNat) record.deadline := by
  have hlasts := congrArg UInt64.toNat h.1
  have hpos := UInt64.lt_iff_toNat_lt.1 hC.duration_pos
  have hinterval := UInt64.lt_iff_toNat_lt.1 hC.interval.2
  have h0 : (0 : UInt64).toNat = 0 := rfl
  have hbefore := UInt64.lt_iff_toNat_lt.1 hahead
  have hword := deadline.toNat_lt
  rw [Saturating.toNat_add, toNat_clock hclock] at hlasts
  rw [toNat_clock hclock] at hbefore
  unfold Outlasts
  rw [UInt64.lt_iff_toNat_lt, toNat_clock hclock]
  unfold Saturating.top at *
  omega

/-- The next renewal of a drain is due. -/
theorem Drains.of_tick {period : Period} {n : UInt32} {f : Flight} {chance : Float}
    {done : Elector × List Action} (hd : w.Drains C (.draining period)) (hC : C.Fit)
    (hclock : C.origin + w.time ≤ Saturating.top) (hdue : w.time = period.tick)
    (hstep : C.candidate.step (w.surroundings C chance) ⟨.draining period, n⟩ .timeUp = some done)
    (hkeeps : Keeps C w (w.afterTurn f done)) : (w.afterTurn f done).Drains C done.1.phase := by
  obtain ⟨htick, houtlasts, hholds⟩ := hd
  obtain ⟨budget, hbudget, hphase, hflight⟩ | ⟨hbudget, hphase⟩ :=
    (Candidate.of_step_draining hstep (by simp)).2
  · have hahead : w.clock C < period.deadline := (Lease.of_renewBudget hbudget).1
    have hpos := UInt64.lt_iff_toNat_lt.1 (Lease.pos_of_renewBudget hbudget hC.interval.1)
    have hown : (w.afterTurn f done).OnlyRenews C :=
      onlyRenews_of_renewing (by rw [afterTurn, hphase]; rfl)
    rw [hphase]
    refine ⟨rfl, ?_, ?_, hahead, hkeeps _ _ hown (UInt64.le_of_lt hahead) hholds, ?_⟩
    · have h0 : (0 : UInt64).toNat = 0 := rfl
      show w.time < w.time + min budget.toNat longestPause
      unfold longestPause
      omega
    · show C.candidate.nextTick w.time period.tick = w.time + _
      rw [← hdue, Candidate.nextTick_self]
    · unfold GoesThrough
      rw [show (w.afterTurn f done).flight = .reading from hflight f]
      trivial
  · have hlate := UInt64.le_iff_toNat_le.1 (Lease.le_of_renewBudget_eq_none hbudget)
    have hnow := toNat_clock hclock
    have htop : period.deadline.toNat = Saturating.top :=
      houtlasts.resolve_left fun hafter => by
        have hlate : period.deadline.toNat ≤ (w.clock C).toNat := hlate
        omega
    have hown : (w.afterTurn f done).OnlyRenews C :=
      onlyRenews_of_resting (by rw [afterTurn, hphase]; rfl)
    rw [hphase]
    exact ⟨period.deadline, htop, hkeeps _ _ hown (houtlasts.clock_le hclock htick) hholds⟩

/-- An answer of the store arrives while work is drained. -/
theorem Drains.of_answer {period : Period} {call : Progress} {budget : UInt64} {giveUp : Nat}
    {stopped : Bool} {n : UInt32} {input : Input} {f : Flight} {chance : Float}
    {done : Elector × List Action}
    (hd : w.Drains C (.drainRenewing period call budget giveUp stopped)) (hC : C.Fit)
    (hclock : C.origin + w.time ≤ Saturating.top)
    (hφ : w.elector = ⟨.drainRenewing period call budget giveUp stopped, n⟩)
    (hfresh : call.ReadAt (.renew period.term) (w.clock C))
    (hinStep : w.flight.isOf (some (.renew period.term, call))) (harrives : Arrives w input f)
    (hinput : input ≠ .stopped)
    (hstep : C.candidate.step (w.surroundings C chance)
      ⟨.drainRenewing period call budget giveUp stopped, n⟩ input = some done)
    (hkeeps : Keeps C w (w.afterTurn f done)) : (w.afterTurn f done).Drains C done.1.phase := by
  obtain ⟨rfl, hearly, htick, hahead, hholds, hrenewal⟩ := hd
  cases harrives with
  | start => cases call <;> contradiction
  | cancelled h => cases call <;> contradiction
  | stopped => contradiction
  | timeUp h hdue =>
    rw [hφ] at h
    obtain rfl := Option.some.inj h
    exact absurd hearly (Nat.not_lt.2 hdue)
  | @readAnswered answer h =>
    unfold GoesThrough at hrenewal
    rw [h] at hrenewal hinStep
    obtain ⟨version, record, hswap, hversion⟩ := hrenewal
    cases call with
    | swapping record => contradiction
    | reading now =>
      obtain rfl : now = w.clock C := hfresh
      obtain ⟨hphase, hflight⟩ := Candidate.of_step_read hswap hstep
      have hown : (w.afterTurn .idle done).OnlyRenews C :=
        onlyRenews_of_renewing (by rw [afterTurn, hphase]; rfl)
      rw [hphase]
      refine ⟨rfl, hearly, htick, hahead, hkeeps _ _ hown (UInt64.le_of_lt hahead) hholds, ?_⟩
      unfold GoesThrough
      rw [show (w.afterTurn .idle done).flight = .swapping (some version) record from
        hflight .idle]
      exact hversion
  | @swapAnswered answer h =>
    unfold GoesThrough at hrenewal
    rw [h] at hrenewal
    obtain ⟨a, record, rfl, rfl, hgranted⟩ := hrenewal
    obtain ⟨hnext, houtlasts⟩ := hgranted.outlasts hC hclock hahead
    have hphase := Candidate.of_step_swapped (Candidate.isAhead_of_lt _ hnext) hstep
    have hown : (w.afterTurn .idle done).OnlyRenews C :=
      onlyRenews_of_resting (by rw [afterTurn, hphase]; rfl)
    rw [hphase]
    refine ⟨?_, htick ▸ houtlasts, hkeeps _ _ hown hgranted.clock_le hgranted.2⟩
    show w.time ≤ period.tick
    omega

/-- **Turns keep up the drain**, until the confirmation comes. -/
theorem Drains.of_turn {input : Input} {f : Flight} {chance : Float}
    {done : Elector × List Action} (hd : w.Drains C w.elector.phase) (hC : C.Fit) (hk : Kept C w)
    (harrives : Arrives w input f)
    (hstep : C.candidate.step (w.surroundings C chance) w.elector input = some done)
    (hinput : input ≠ .stopped) (hkeeps : Keeps C w (w.afterTurn f done)) :
    (w.afterTurn f done).Drains C done.1.phase := by
  have hfresh := hk.fresh
  have hinStep := hk.inStep
  cases helector : w.elector with
  | mk φ n =>
  rw [helector] at hd hstep hfresh hinStep
  cases φ with
  | draining period =>
    obtain ⟨rfl, -⟩ := Candidate.of_step_draining hstep hinput
    cases harrives with
    | timeUp h hdue =>
      rw [helector] at h
      obtain rfl := Option.some.inj h
      exact hd.of_tick hC hk.clock (Nat.le_antisymm hd.1 hdue) hstep hkeeps
  | drainRenewing period call budget giveUp stopped =>
    exact hd.of_answer hC hk.clock helector (hfresh _ _ rfl) hinStep harrives hinput hstep hkeeps
  | awaitingStop term =>
    cases input with
    | stopped => contradiction
    | _ => contradiction
  | _ => contradiction

/-- What a leader has when it is told to stop. -/
theorem Leads.of_shutdown {φ : Phase} {period : Period} (hl : w.Leads C φ)
    (hφ : φ = .leading period ∨ ∃ call budget giveUp, φ = .renewing period call budget giveUp) :
    w.Holds C period.term period.deadline ∧
      ∃ moment, w.time ≤ moment + C.candidate.timing.renewInterval.toNat ∧
        Reaches C moment period.deadline := by
  obtain rfl | ⟨call, budget, giveUp, rfl⟩ := hφ
  · obtain ⟨htick, hholds, moment, hmoment, hreaches⟩ := hl
    exact ⟨hholds, moment, hmoment ▸ htick, hreaches⟩
  · obtain ⟨-, hholds, ⟨moment, hmoment, hreaches⟩, -⟩ := hl
    exact ⟨hholds, moment, Nat.le_of_eq hmoment, hreaches⟩

/-! ## Steps of a drain -/

variable [DecidableEq ι]

/-- The swap of a renewal that goes through is carried out. -/
theorem GoesThrough.of_swap {call : Progress} {expected : Option UInt64} {record : Record}
    (h : w.GoesThrough C term call) (hC : C.Fit) (hk : Kept C w)
    (hasked : w.elector.phase.asked? = some (.renew term, call)) (hs : w.Holds C term deadline)
    (hflight : w.flight = .swapping expected record)
    (hanswer : IsSwapped ((w.lease C).carryOut C.key expected record).1) :
    (w.afterSwap C expected record).GoesThrough C term call := by
  unfold GoesThrough at h
  rw [hflight] at h
  obtain ⟨request, hasked'⟩ := Flight.of_isOf_swapping (hflight ▸ hk.inStep)
  obtain ⟨rfl, rfl⟩ := Prod.mk.inj (Option.some.inj (hasked.symm.trans hasked'))
  have hdone : ∃ a, ((w.lease C).carryOut C.key expected record).1 = .ok a := by
    obtain hdone | ⟨e, herror, he⟩ :=
      Store.write_swap_of_version record.text h
    · exact hdone
    · have herror : ((w.lease C).carryOut C.key expected record).1 = .error e := herror
      rw [herror] at hanswer
      cases e with
      | swapFailed key version actual => exact absurd rfl (he key version actual)
      | _ => contradiction
  obtain ⟨a, ha⟩ := hdone
  unfold GoesThrough
  exact ⟨a, record, ha, rfl, hk.granted_of_swap hC hflight hasked (.inr ⟨rfl, _, hs⟩) ha⟩

/-- **Every step keeps up the drain**, until the confirmation comes, and
nobody acquires the lease meanwhile. -/
theorem Step.drains (h : Step C w l w') (hC : C.Fit) (hk : Kept C w)
    (hroom : Lease.versionAt C.key w.store + l.writes < UInt64.size)
    (hd : w.Drains C w.elector.phase) (hl : l ≠ .stops) :
    w'.Drains C w'.elector.phase ∧
      ∀ m record, l = .others m → m.stored? ≠ some (.acquire, record) := by
  have hkeeps : Keeps C w w' := fun term deadline hown htime hs =>
    (h.holds hC hk hroom hs hown htime).1
  obtain ⟨hown, term, deadline, hholds, hbefore⟩ := hd.holds rfl hk.clock
  have hmove := h
  cases h with
  | pass hlater hidle hdue hclock =>
    exact ⟨hd.of_pass hk hidle hdue hclock hkeeps, fun _ _ h => by contradiction⟩
  | cancel =>
    exact ⟨hd.of_flight rfl hk.clock rfl rfl hkeeps fun _ _ _ _ _ _ hgoes => hgoes,
      fun _ _ h => by contradiction⟩
  | @others m u h hclock hcalls =>
    refine ⟨hd.of_flight rfl hk.clock rfl rfl hkeeps
      fun term call deadline _ ⟨since, hs⟩ hnow hgoes => hgoes.of_same rfl rfl hkeeps ?_,
      (hmove.holds hC hk hroom hholds hown hbefore).2⟩
    exact congrArg _ (h.find?_of_secured hC.eq_none hk.sound hk.orderly hs hnow hcalls)
  | @turn input f chance done harrives hstep =>
    refine ⟨hd.of_turn hC hk harrives hstep ?_ hkeeps,
      fun m _ h => absurd h (ReplicaLabel.ofTurn_ne_others _ _ _ _)⟩
    rintro rfl
    exact hl (ReplicaLabel.ofTurn_stopped _ _)
  | read h hanswer =>
    exact ⟨hd.of_flight rfl hk.clock rfl rfl hkeeps
      fun _ _ _ _ hs hnow _ => hs.of_read hnow hanswer, fun _ _ h => by contradiction⟩
  | swap h hanswer =>
    exact ⟨hd.of_flight rfl hk.clock rfl rfl hkeeps
      fun _ _ _ hasked hs _ hgoes => hgoes.of_swap hC hk hasked hs h hanswer,
      fun _ _ h => by contradiction⟩

/-- And so throughout. -/
theorem nobody_acquires {ls : List (ReplicaLabel ι)} (t : Trail (Step C) w ls w') (hC : C.Fit)
    (hk : Kept C w)
    (hroom : Lease.versionAt C.key w.store + ReplicaLabel.allWrites ls < UInt64.size)
    (hd : w.Drains C w.elector.phase) (hls : .stops ∉ ls) {m : Label (Option ι)} {record : Record}
    (hm : .others m ∈ ls) : m.stored? ≠ some (.acquire, record) := by
  induction t with
  | nil => contradiction
  | @cons w w₁ w₂ l ls h t ih =>
    rw [ReplicaLabel.allWrites_cons] at hroom
    obtain ⟨hk₁, hversion⟩ := h.keeps hC hk (by omega)
    obtain ⟨hd₁, hnobody⟩ := h.drains hC hk (by omega) hd fun hl => hls (hl ▸ List.mem_cons_self)
    obtain hm | hm := List.mem_cons.1 hm
    · exact hnobody m record hm.symm
    · exact ih hk₁ (by omega) hd₁ (fun hmem => hls (List.mem_cons_of_mem l hmem)) hm

/-! ## A lease that runs out -/

/-- A replica that finds the lease free leads at once. -/
theorem leads_at_once {expected : Option UInt64} (record : Record) {a : Store.WriteResult}
    (helector : w.elector = {}) (hcancelled : w.cancelled = false)
    (hanswer : IsRead (w.store.read C.key))
    (hswap : ((C.candidate.lock.acquire C.candidate.identity).onRead (w.clock C)
      (w.store.read C.key)).1 = .swap expected record)
    (hwritten : ((w.lease C).carryOut C.key expected record).1 = .ok a)
    (hC : C.Fit) (hahead : w.clock C < record.deadline) :
    ∃ w', Trail (Step C) w [.quiet, .quiet, .quiet, .written, .quiet] w' ∧ w'.time = w.time ∧
      w'.store = ((w.lease C).carryOut C.key expected record).2 ∧ w'.flight = .idle ∧
      w'.calls = w.calls ∧
      w'.elector = ⟨.leading ⟨⟨record.term⟩, record.deadline,
        w.time + C.candidate.timing.renewInterval.toNat⟩, 0⟩ := by
  let giveUp := pauseEnd w.time C.candidate.timing.leaseDuration.toNat
  -- It starts, and the lease is read, ...
  obtain ⟨note, hstart⟩ := @Candidate.step_start C.candidate (w.surroundings C 0) hcancelled 0
  let w₁ := w.afterTurn w.flight (⟨.acquiring (.reading (w.clock C)) giveUp, 0⟩,
    [.note note, .publish .acquiring, .read])
  have h₁ : Step C w .quiet w₁ := by
    have h := Step.turn (C := C) (w := w) .start (helector ▸ hstart)
    rwa [helector] at h
  have h₂ : Step C w₁ .quiet (w₁.afterRead C) := .read rfl hanswer
  -- ... and it goes on to its swap, which is carried out ...
  obtain ⟨ns, hread⟩ := @Candidate.step_readAnswered C.candidate
    ((w₁.afterRead C).surroundings C 0) record giveUp _ _ _ hswap 0
  let w₃ := (w₁.afterRead C).afterTurn .idle (⟨.acquiring (.swapping record) giveUp, 0⟩,
    Candidate.notes ns ++ [.swap expected record])
  have h₃ : Step C (w₁.afterRead C) .quiet w₃ := .turn (.readAnswered rfl) hread
  have hflight₃ : w₃.flight = .swapping expected record := by
    simp [w₃, afterTurn, Flight.act]
  have hcarried : (w₃.lease C).carryOut C.key expected record
      = (w.lease C).carryOut C.key expected record := rfl
  have h₄ : Step C w₃ .written (w₃.afterSwap C expected record) :=
    .swap hflight₃ (by rw [hcarried, hwritten]; trivial)
  -- ... and answered.
  obtain ⟨ns', note', hlead⟩ := @Candidate.step_swapAnswered C.candidate
    ((w₃.afterSwap C expected record).surroundings C 0) record giveUp a rfl
    (UInt64.ne_of_lt hC.interval.1).symm (Candidate.isAhead_of_lt _ hahead) 0
  have hflight₄ : (w₃.afterSwap C expected record).flight = .swapped (.ok a) := by
    rw [afterSwap, hcarried, hwritten]
  have h₅ : Step C (w₃.afterSwap C expected record) .quiet _ := .turn (.swapAnswered hflight₄) hlead
  refine ⟨_, .cons h₁ (.cons h₂ (.cons h₃ (.cons h₄ (.cons h₅ .nil)))), rfl, rfl, ?_, rfl, rfl⟩
  simp [afterTurn, Flight.act]

/-- A leader is told to stop between two renewals. -/
theorem drains_at_once {period : Period} {n : UInt32} (time : Nat)
    (helector : w.elector = ⟨.leading period, n⟩) (hflight : w.flight = .idle)
    (hlater : w.time ≤ time) (htick : time ≤ period.tick)
    (hclock : C.origin + time ≤ Saturating.top) :
    ∃ w', Trail (Step C) w [.quiet, .quiet, .loses time period.deadline] w' ∧ w'.time = time ∧
      w'.store = w.store ∧ w'.flight = .idle ∧ w'.calls = w.calls ∧
      w'.elector.phase.due = some (time + C.candidate.timing.renewInterval.toNat) := by
  have hdue : ∀ due, w.elector.phase.due = some due → time ≤ due := by
    intro due h
    rw [helector] at h
    exact Option.some.inj h ▸ htick
  let w₁ : ReplicaWithOthers ι := { w with time }
  let w₂ : ReplicaWithOthers ι := { w₁ with cancelled := true }
  let done := C.candidate.lose (w₂.surroundings C 0) n period .shutdown
  have h₃ : Step C w₂ (.loses time period.deadline) (w₂.afterTurn .idle done) := by
    have h : Step C w₂ _ (w₂.afterTurn w₂.flight done) := .turn (.cancelled rfl)
      (by rw [show w₂.elector = _ from helector]; rfl)
    rwa [show w₂.elector = _ from helector, show w₂.flight = _ from hflight] at h
  exact ⟨_, .cons (.pass hlater hflight hdue hclock) (.cons .cancel (.single h₃)), rfl, rfl, rfl,
    rfl, rfl⟩

/-- A step of the contention by which the others go on. -/
theorem others_go_on {m : Label (Option ι)} {u u' : Contention (Option ι)} (hlease : w.lease C = u)
    (h : Contention.Step C.key (orderlyRules C.name) u m u') (hclock : u'.clock = u.clock)
    (hown : u'.calls none = u.calls none) :
    ∃ w', Step C w (.others m) w' ∧ w'.lease C = u' := by
  subst hlease
  exact ⟨_, .others h hclock hown, lease_afterOthers hclock hown⟩

/-- Somebody else finds the lease free and acquires it. -/
theorem others_acquire {i : ι} (duration : UInt64) {expected : Option UInt64} {record : Record}
    {a : Store.WriteResult} (hidle : w.calls i = none) (hduration : 0 < duration)
    (hswap : ((Lock.acquire ⟨C.key, duration⟩ (C.others i)).onRead (w.clock C)
      (w.store.read C.key)).1 = .swap expected record)
    (hwritten : ((w.lease C).carryOut C.key expected record).1 = .ok a) :
    ∃ w', Trail (Step C) w [.others (.begins (some i) (C.others i) .acquire), .others .quiet,
      .others (.ends (some i) (C.others i) .acquire
        (some (.ok (.acquired (.acquired ⟨record.term⟩ record.deadline)))) (some record))] w' := by
  let begun : Call := ⟨C.others i, duration, .acquire, .reading (w.clock C)⟩
  let decided : Call := { begun with stage := .swapping expected record }
  have hother : (none : Option ι) ≠ some i := (Option.some_ne_none i).symm
  obtain ⟨w₁, h₁, hlease₁⟩ := others_go_on (w := w) rfl
    (.call (i := some i) .acquire hidle ⟨rfl, hduration⟩) rfl
    (Contention.setCall_calls_of_ne _ hother _)
  -- It reads the record, ...
  have hserved : ((begun.operation C.key).onRead (w.clock C) (w.store.read C.key)).1
      = .swap expected record := by
    show (((Lock.acquire ⟨C.key, duration⟩ (C.others i)).map Lease.Outcome.acquired).onRead _ _).1
      = _
    cases hread : (Lock.acquire ⟨C.key, duration⟩ (C.others i)).onRead (w.clock C)
        (w.store.read C.key) with
    | mk decision ns =>
      rw [hread] at hswap
      subst hswap
      simp only [Lease.Operation.map, hread]
  obtain ⟨w₂, h₂, hlease₂⟩ := others_go_on hlease₁
    (.read (c := begun) (Contention.setCall_calls_self _ _ _) rfl (.inl rfl) hserved) rfl
    (Contention.setCall_calls_of_ne _ hother _)
  -- ... and swaps it.
  obtain ⟨w₃, h₃, -⟩ := others_go_on hlease₂
    (.swap (c := decided) (Contention.setCall_calls_self _ _ _) rfl
      (.inl (congrArg some hwritten).symm)) rfl (Contention.setCall_calls_of_ne _ hother _)
  rw [Contention.carryOut_setCall, Contention.carryOut_setCall, hwritten] at h₃
  exact ⟨w₃, .cons h₁ (.cons h₂ (.single h₃))⟩

/-- A replica that renews when a fifth of its lease is left, and somebody
else. -/
def longInterval : ReplicaSetup Unit where
  replica := ⟨{ Config.default with identity := "a", leaseDuration := 1000, renewInterval := 800 },
    false⟩
  origin := 0
  others _ := "b"

theorem longInterval_fit : longInterval.Fit where
  valid := rfl
  alone _ := (by decide : "b" ≠ "a")

/-- Nobody has begun, and nothing is stored. -/
def emptyStart : ReplicaWithOthers Unit where
  time := 0
  store := Store.empty
  elector := {}
  flight := .idle
  cancelled := false
  calls _ := none

theorem emptyStart_begins : Begins longInterval emptyStart where
  elector := rfl
  flight := rfl
  calls _ := rfl
  clock := by decide
  stored record h := by contradiction

/-- The replica acquires the lease and is to be told to stop. -/
def labelsBefore : List (ReplicaLabel Unit) :=
  [.quiet, .quiet, .quiet, .written, .quiet, .quiet, .quiet]

/-- What the other one stores. -/
def takenRecord : Record := .acquired "b" 2 1000 1001

/-- The other one acquires it. -/
def labelsBetween : List (ReplicaLabel Unit) :=
  [.quiet, .others (.begins (some ()) "b" .acquire), .others .quiet,
    .others (.ends (some ()) "b" .acquire (some (.ok (.acquired (.acquired ⟨2⟩ 2001))))
      (some takenRecord))]

theorem longInterval_taken :
    ∃ w, Trail (Step longInterval) emptyStart
      (labelsBefore ++ .loses 700 1000 :: labelsBetween) w := by
  let first : Record := .acquired "a" 1 1000 0
  have hwritten :
      ((emptyStart.lease longInterval).carryOut longInterval.key none first).1 = .ok ⟨some 1⟩ := by
    decide +kernel
  obtain ⟨w₁, t₁, htime₁, hstore₁, hflight₁, hcalls₁, helector₁⟩ :=
    leads_at_once (C := longInterval) (w := emptyStart) first rfl rfl trivial rfl hwritten
      longInterval_fit (by decide)
  -- It is told to stop after 700 milliseconds, and its next renewal is due after 1500.
  obtain ⟨w₂, t₂, htime₂, hstore₂, hflight₂, hcalls₂, hdue₂⟩ :=
    drains_at_once (C := longInterval) 700 helector₁ hflight₁ (by rw [htime₁]; decide)
      (by decide) (by decide)
  let w₃ : ReplicaWithOthers Unit := { w₂ with time := 1001 }
  have h₃ : Step longInterval w₂ .quiet w₃ := by
    refine .pass (by rw [htime₂]; decide) hflight₂ (fun due hdue => ?_) (by decide)
    rw [hdue₂] at hdue
    exact Option.some.inj hdue ▸ by decide
  have hstore₃ :
      w₃.store = ((emptyStart.lease longInterval).carryOut longInterval.key none first).2 :=
    hstore₂.trans hstore₁
  have hclock₃ : w₃.clock longInterval = 1001 := rfl
  have hread : w₃.store.read longInterval.key = .ok ⟨some ⟨longInterval.key, first.text, 1⟩⟩ := by
    rw [hstore₃]
    decide +kernel
  have hswap :
      ((Lock.acquire ⟨longInterval.key, 1000⟩ (longInterval.others ())).onRead
        (w₃.clock longInterval) (w₃.store.read longInterval.key)).1
          = .swap (some 1) takenRecord := by
    have hcurrent : Lock.current ⟨longInterval.key, 1000⟩ (w₃.store.read longInterval.key)
        = .ok (some (first, 1)) := by
      rw [hread, Lock.current_text _ rfl]
    rw [hclock₃]
    refine Lock.onRead_acquire_of_free hcurrent fun old version hold => ?_
    obtain ⟨rfl, -⟩ := Prod.mk.inj (Option.some.inj hold)
    decide
  have hagain :
      ((w₃.lease longInterval).carryOut longInterval.key (some 1) takenRecord).1
        = .ok ⟨some 2⟩ := by
    show (w₃.store.write _).1 = _
    rw [hstore₃]
    decide +kernel
  obtain ⟨w₄, t₄⟩ := others_acquire (C := longInterval) (w := w₃) (i := ()) 1000
    (by rw [show w₃.calls = _ from hcalls₂.trans hcalls₁]; rfl) (by decide) hswap hagain
  exact ⟨w₄, t₁.append (t₂.append (.cons h₃ t₄))⟩

/-- **Another replica can acquire the lease before the work has stopped.** -/
theorem another_acquires :
    ∃ w, longInterval.Fit ∧ Begins longInterval emptyStart ∧
      Trail (Step longInterval) emptyStart (labelsBefore ++ .loses 700 1000 :: labelsBetween) w ∧
      .stops ∉ labelsBetween ∧
      .others (.ends (some ()) "b" .acquire (some (.ok (.acquired (.acquired ⟨2⟩ 2001))))
        (some takenRecord)) ∈ labelsBetween := by
  obtain ⟨w, htaken⟩ := longInterval_taken
  exact ⟨w, longInterval_fit, emptyStart_begins, htaken, by simp [labelsBetween],
    by simp [labelsBetween]⟩

/-! ## Until the confirmation -/

/-- **A leader that is told to stop** has a lease from an interval ago or
less. The drain begins, and keeps the lease if that outlasts the first
tick. -/
theorem Step.loses {moment : Nat} (h : Step C w (.loses moment deadline) w') (hC : C.Fit)
    (hk : Kept C w) (hroom : Lease.versionAt C.key w.store < UInt64.size)
    (hl : w.Leads C w.elector.phase) :
    (∃ last, moment ≤ last + C.candidate.timing.renewInterval.toNat ∧ Reaches C last deadline) ∧
      (Outlasts C (moment + C.candidate.timing.renewInterval.toNat) deadline →
        w'.Drains C w'.elector.phase) := by
  have hkeeps : Keeps C w w' := fun term deadline hown htime hs =>
    (h.holds hC hk hroom hs hown htime).1
  generalize hmark : ReplicaLabel.loses moment deadline = l at h
  cases h with
  | @turn input f chance done harrives hstep =>
    obtain ⟨rfl, rfl, period, rfl, hφ⟩ := ReplicaLabel.ofTurn_eq_loses hmark.symm
    obtain ⟨hholds, last, hlast, hreaches⟩ := hl.of_shutdown hφ
    refine ⟨⟨last, hlast, hreaches⟩, fun houtlasts => ?_⟩
    have hphase := Candidate.of_step_cancelled rfl hφ hstep
    have hown : (w.afterTurn f done).OnlyRenews C :=
      onlyRenews_of_resting (by rw [afterTurn, hphase]; rfl)
    show (w.afterTurn f done).Drains C done.1.phase
    rw [hphase]
    exact ⟨Nat.le_add_right _ _, houtlasts,
      hkeeps _ _ hown (hreaches.clock_le hC hk.clock hlast) hholds⟩
  | _ => contradiction

/-- Whoever is told that it has acquired the lease has stored a record. -/
theorem stored_of_acquired {ls : List (ReplicaLabel ι)} (t : Trail (Step C) w ls w') {j : Option ι}
    {identity : String} {limit : UInt64} {stored? : Option Record}
    (h : .others (.ends j identity .acquire
      (some (.ok (.acquired (.acquired term limit)))) stored?) ∈ ls) :
    ∃ record, stored? = some record := by
  obtain ⟨before, after, hls⟩ := List.append_of_mem h
  obtain ⟨u, u', -, hstep, -⟩ := t.met hls
  generalize hmark : ReplicaLabel.others _ = l at hstep
  cases hstep with
  | others h hclock hown =>
    obtain rfl := ReplicaLabel.others.inj hmark
    obtain ⟨record, hstored, -⟩ := h.granted rfl
    exact ⟨record, hstored⟩
  | turn harrives hstep => exact absurd hmark.symm (ReplicaLabel.ofTurn_ne_others _ _ _ _)
  | _ => contradiction

/-- **The lease is kept until work has stopped**, unless its last renewal is
too old. Let a replica whose settings have no problem want a lease that
others want too, under other identities; the lease is absent at first or
holds a record that lasts. The store answers every call of the replica
without a fault and before any time passes, and the clock moves with the
timer. If after the replica, leading, is told to stop and before it is
confirmed that the work has stopped anybody is told that it has acquired the
lease, then the lease was to run out within one renewal interval, and it is
no longer than two of them. -/
theorem deadline_le_of_taken_while_draining (hC : C.Fit) (hw : Begins C w)
    {earlier later : List (ReplicaLabel ι)} {moment : Nat}
    (hrun : Trail (Step C) w (earlier ++ .loses moment deadline :: later) w')
    (hversions : Lease.versionAt C.key w.store
      + ReplicaLabel.allWrites (earlier ++ .loses moment deadline :: later) < UInt64.size)
    (hstops : .stops ∉ later) {j : Option ι} {identity : String} {limit : UInt64}
    {stored? : Option Record}
    (htaken : .others (.ends j identity .acquire
      (some (.ok (.acquired (.acquired term limit)))) stored?) ∈ later) :
    deadline.toNat ≤ C.origin + moment + C.replica.config.renewInterval.toNat ∧
      C.replica.config.leaseDuration.toNat ≤ 2 * C.replica.config.renewInterval.toNat := by
  rw [ReplicaLabel.allWrites_append, ReplicaLabel.allWrites_cons] at hversions
  obtain ⟨u, u', hearlier, hloses, hlater⟩ := hrun.met rfl
  have hl₀ : w.Leads C w.elector.phase := by
    rw [hw.elector]
    trivial
  obtain ⟨hk, hl, hversion⟩ := leads_of_trail hearlier hC hw.kept hl₀ (by omega)
  have hroom :
      Lease.versionAt C.key u.store + (ReplicaLabel.loses moment deadline : ReplicaLabel ι).writes
        < UInt64.size := by omega
  obtain ⟨hk', hversion'⟩ := hloses.keeps hC hk hroom
  obtain ⟨⟨last, hlast, hreaches⟩, hdrains⟩ := hloses.loses hC hk hroom hl
  -- A drain that begins with enough time would have kept everybody else out.
  have hshort : ¬ Outlasts C (moment + C.candidate.timing.renewInterval.toNat) deadline := by
    intro houtlasts
    obtain ⟨record, rfl⟩ := stored_of_acquired hlater htaken
    exact nobody_acquires hlater hC hk' (by omega) (hdrains houtlasts) hstops htaken rfl
  unfold Outlasts at hshort
  unfold Reaches at hreaches
  have hinterval : C.candidate.timing.renewInterval = C.replica.config.renewInterval := rfl
  have hduration : C.candidate.lock.duration = C.replica.config.leaseDuration := rfl
  have hword := deadline.toNat_lt
  rw [hinterval] at hlast hshort
  rw [hduration] at hreaches
  unfold Saturating.top at hshort hreaches
  omega

/-- This is how a replica with a long renewal interval loses its lease. -/
theorem deadline_le_of_taken_longInterval :
    ∃ w, Trail (Step longInterval) emptyStart (labelsBefore ++ .loses 700 1000 :: labelsBetween) w ∧
      (1000 : UInt64).toNat
        ≤ longInterval.origin + 700 + longInterval.replica.config.renewInterval.toNat ∧
      longInterval.replica.config.leaseDuration.toNat
        ≤ 2 * longInterval.replica.config.renewInterval.toNat := by
  obtain ⟨w, htaken⟩ := longInterval_taken
  exact ⟨w, htaken,
    deadline_le_of_taken_while_draining longInterval_fit emptyStart_begins htaken (by decide)
    (by simp [labelsBetween]) (.tail _ (.tail _ (.tail _ (.head _))))⟩

end ReplicaWithOthers

end Tenure.Election
